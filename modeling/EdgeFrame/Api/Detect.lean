/-
# EdgeFrame.Api.Detect -- the detector's post-processing

`Detect::postProcess` turns the two output blobs of the detection network into boxes:
`generateBBox` decodes, class by class, every anchor whose score is above the
threshold and clips the box to the image, and `nms` keeps of each class the boxes that
no better kept box suppresses. Arithmetic is exact, `exp` a parameter. `std::sort`
leaves the order of equal scores open, so the sorting function is one too, with what
the standard promises of it.
-/
import EdgeFrame.Abort
import EdgeFrame.Lib.Outcome
import Mathlib

namespace EdgeFrame.Api

open EdgeFrame.Lib

variable {K : Type}

/-! ## Data -/

/-- The members of a `Box` that the detector sets. -/
structure Box (K : Type) where
  x0 : K
  y0 : K
  x1 : K
  y1 : K
  score : K
  class_idx : Int
  deriving DecidableEq

/-- One entry of `priors`: the centre and the size of an anchor, in units of the image. -/
structure Prior (K : Type) where
  x_center : K
  y_center : K
  w : K
  h : K
  deriving DecidableEq

/-- What the post-processing reads of a `Detect`. -/
structure Detect (K : Type) where
  score_threshold : K
  iou_threshold : K
  num_of_class : Nat
  num_anchors : Nat
  image_h : Int
  image_w : Int
  center_variance : K
  size_variance : K
  priors : List (Prior K)

/-- What `preProcess` notes of the frame. -/
def Detect.preProcess (D : Detect K) (rows cols : Int) : Detect K :=
  { D with image_h := rows, image_w := cols }

/-- `std::sort` by falling score. -/
structure Sorter (K : Type) [LE K] where
  sort : List (Box K) → List (Box K)
  perm : ∀ l, (sort l).Perm l
  sorted : ∀ l, (sort l).Pairwise fun a b => b.score ≤ a.score

/-- A sorting function: the library's merge sort. -/
def Sorter.merge [LinearOrder K] : Sorter K where
  sort l := l.mergeSort fun a b => decide (b.score ≤ a.score)
  perm l := l.mergeSort_perm _
  sorted l := by
    have htrans : ∀ a b c : Box K, decide (b.score ≤ a.score) = true →
        decide (c.score ≤ b.score) = true → decide (c.score ≤ a.score) = true := by
      intro a b c hab hbc
      simp only [decide_eq_true_eq] at hab hbc ⊢
      exact hbc.trans hab
    have htotal : ∀ a b : Box K,
        (decide (b.score ≤ a.score) || decide (a.score ≤ b.score)) = true := by
      intro a b
      simpa using le_total b.score a.score
    exact (List.pairwise_mergeSort htrans htotal l).imp fun h => by simpa using h

variable [Field K] [LinearOrder K]

/-- The macro `clip`. -/
def clip (x y : K) : K :=
  if x < 0 then 0 else if y < x then y else x

/-! ## Decoding -/

/-- The body of the inner loop of `generateBBox`: the box of anchor `j`. -/
def decodeBox (exp : K → K) (D : Detect K) (output_boxes : Nat → K) (prior : Prior K) (j : Nat)
    (score : K) (i : Nat) : Box K :=
  -- the blob holds offsets and logarithms of scales, relative to the anchor
  let x_center := output_boxes (j * 4) * D.center_variance * prior.w + prior.x_center
  let y_center := output_boxes (j * 4 + 1) * D.center_variance * prior.h + prior.y_center
  let w := exp (output_boxes (j * 4 + 2) * D.size_variance) * prior.w
  let h := exp (output_boxes (j * 4 + 3) * D.size_variance) * prior.h
  { x0 := clip (x_center - w / (2 : Nat)) 1 * D.image_w
    y0 := clip (y_center - h / (2 : Nat)) 1 * D.image_h
    x1 := clip (x_center + w / (2 : Nat)) 1 * D.image_w
    y1 := clip (y_center + h / (2 : Nat)) 1 * D.image_h
    score := clip score 1
    class_idx := i }

/-- The loop over the anchors, for class `i`. -/
def classBoxes (exp : K → K) (D : Detect K) (output_boxes out_score : Nat → K) (i : Nat) :
    List Nat → Except Abort (List (Box K))
  | [] => .ok []
  | j :: js =>
    let score := out_score (j * D.num_of_class + i)
    if D.score_threshold < score then
      match D.priors[j]? with
      | none => .error .outOfRange
      | some prior => do
        let boxes ← classBoxes exp D output_boxes out_score i js
        return decodeBox exp D output_boxes prior j score i :: boxes
    else classBoxes exp D output_boxes out_score i js

/-- `Detect::generateBBox`: one list for each class but the background. -/
def generateBBox (exp : K → K) (D : Detect K) (output_boxes out_score : Nat → K) :
    Except Abort (List (List (Box K))) :=
  (List.range' 1 (D.num_of_class - 1)).mapM fun i =>
    classBoxes exp D output_boxes out_score i (List.range D.num_anchors)

/-! ## Suppression -/

/-- The score of two boxes in `nms`, their pixels counted inclusively; none when they do not meet. -/
def mergeScore (a b : Box K) : Option K :=
  let inner_h := min a.y1 b.y1 - max a.y0 b.y0 + 1
  let inner_w := min a.x1 b.x1 - max a.x0 b.x0 + 1
  if inner_h ≤ 0 ∨ inner_w ≤ 0 then none
  else
    let area0 := (a.y1 - a.y0 + 1) * (a.x1 - a.x0 + 1)
    let area1 := (b.y1 - b.y0 + 1) * (b.x1 - b.x0 + 1)
    some (inner_h * inner_w / (area0 + area1 - inner_h * inner_w))

/-- `score > iou_threshold`. -/
def merges (iou_threshold : K) (a b : Box K) : Bool :=
  match mergeScore a b with
  | none => false
  | some score => iou_threshold < score

/-- The inner loop of `nms` for a box `b` at index `i`: what comes later and overlaps it is merged. -/
def mergeInto (iou_threshold : K) (b : Box K) (i : Nat) (input : List (Box K)) (merged : List Bool) :
    List Bool :=
  (input.zip merged).mapIdx fun j p => p.2 || (i < j && merges iou_threshold b p.1)

/-- The body of the outer loop of `nms`, for class `c`: the flags and the boxes that were output. -/
def nmsPass (iou_threshold : K) (c : Nat) (input : List (Box K)) (s : List Bool × List (Box K))
    (i : Nat) : List Bool × List (Box K) :=
  match input[i]?, s.1[i]? with
  | some b, some false =>
    (mergeInto iou_threshold b i input (s.1.set i true), s.2 ++ [{ b with class_idx := c }])
  | _, _ => s

/-- `nms` on the sorted boxes of class `c`. -/
def nmsClass (iou_threshold : K) (c : Nat) (input : List (Box K)) : List (Box K) :=
  ((List.range input.length).foldl (nmsPass iou_threshold c input)
    (List.replicate input.length false, [])).2

/-- `Detect::nms` with `NMSTYPE::hard_nms`. -/
def nms (S : Sorter K) (D : Detect K) (proposal_boxes : List (List (Box K))) :
    Except Abort (List (Box K)) := do
  let kept ← (List.range' 1 (D.num_of_class - 1)).mapM fun c =>
    match proposal_boxes[c - 1]? with
    | none => .error .outOfRange
    | some boxes => .ok (nmsClass D.iou_threshold c (S.sort boxes))
  return kept.flatten

/-- `Detect::postProcess`. -/
def postProcess (exp : K → K) (S : Sorter K) (D : Detect K) (pOutputData_box pOutputData_score :
    Nat → K) : Except Abort (List (Box K)) := do
  let proposal_boxes ← generateBBox exp D pOutputData_box pOutputData_score
  nms S D proposal_boxes

/-! ## Every box lies in the image -/

/-- The corners of a box lie in the image. -/
structure Box.Inside (D : Detect K) (b : Box K) : Prop where
  x0 : 0 ≤ b.x0 ∧ b.x0 ≤ D.image_w
  y0 : 0 ≤ b.y0 ∧ b.y0 ≤ D.image_h
  x1 : 0 ≤ b.x1 ∧ b.x1 ≤ D.image_w
  y1 : 0 ≤ b.y1 ∧ b.y1 ≤ D.image_h

variable [IsStrictOrderedRing K]

/-- What is clipped lies between 0 and 1. -/
theorem clip_mem (x : K) : 0 ≤ clip x 1 ∧ clip x 1 ≤ 1 := by
  unfold clip
  split
  · exact ⟨le_refl 0, zero_le_one⟩
  · rename_i hneg
    split
    · exact ⟨zero_le_one, le_refl 1⟩
    · rename_i hbig
      exact ⟨not_lt.mp hneg, not_lt.mp hbig⟩

/-- And scaled, between 0 and the size. -/
theorem clip_mul_mem {size : Int} (hsize : 0 ≤ size) (x : K) :
    0 ≤ clip x 1 * size ∧ clip x 1 * size ≤ size := by
  obtain ⟨hlow, hhigh⟩ := clip_mem x
  have hcast : (0 : K) ≤ size := Int.cast_nonneg hsize
  exact ⟨mul_nonneg hlow hcast, mul_le_of_le_one_left hcast hhigh⟩

variable {exp : K → K} {D : Detect K} {output_boxes out_score : Nat → K}

/-- **A decoded box lies in the image**, whatever the network and `exp` answer. -/
theorem decodeBox_inside (hh : 0 ≤ D.image_h) (hw : 0 ≤ D.image_w) (prior : Prior K) (j : Nat)
    (score : K) (i : Nat) : (decodeBox exp D output_boxes prior j score i).Inside D :=
  ⟨clip_mul_mem hw _, clip_mul_mem hh _, clip_mul_mem hw _, clip_mul_mem hh _⟩

/-- The boxes of a class lie in the image. -/
theorem classBoxes_inside (hh : 0 ≤ D.image_h) (hw : 0 ≤ D.image_w) {i : Nat} :
    ∀ {js : List Nat} {boxes : List (Box K)},
      classBoxes exp D output_boxes out_score i js = .ok boxes → ∀ b ∈ boxes, b.Inside D := by
  intro js
  induction js with
  | nil =>
    intro boxes h b hb
    obtain rfl : [] = boxes := Except.ok.inj h
    exact absurd hb (by simp)
  | cons j js ih =>
    intro boxes h b hb
    unfold classBoxes at h
    simp only at h
    split at h
    · split at h
      · exact absurd h (by simp)
      · obtain ⟨rest, hrest, h⟩ := Abort.bind_eq_ok h
        obtain rfl := Except.ok.inj h
        rcases List.mem_cons.mp hb with rfl | hb
        · exact decodeBox_inside hh hw _ j _ i
        · exact ih hrest b hb
    · exact ih h b hb

/-- Every proposal lies in the image. -/
theorem generateBBox_inside (hh : 0 ≤ D.image_h) (hw : 0 ≤ D.image_w)
    {proposal_boxes : List (List (Box K))}
    (h : generateBBox exp D output_boxes out_score = .ok proposal_boxes) :
    ∀ boxes ∈ proposal_boxes, ∀ b ∈ boxes, b.Inside D := by
  intro boxes hboxes b hb
  obtain ⟨i, _, hi⟩ := mem_of_mapM_ok h boxes hboxes
  exact classBoxes_inside hh hw hi b hb

omit [IsStrictOrderedRing K] in
/-- `nms` outputs boxes of its input, under the class it works on. -/
theorem mem_nmsClass {iou_threshold : K} {c : Nat} {input : List (Box K)} {b : Box K}
    (hb : b ∈ nmsClass iou_threshold c input) : ∃ a ∈ input, b = { a with class_idx := c } := by
  revert b
  unfold nmsClass
  apply List.foldlRecOn (motive := fun s : List Bool × List (Box K) =>
    ∀ {b}, b ∈ s.2 → ∃ a ∈ input, b = { a with class_idx := (c : Int) })
  · exact fun hb => absurd hb (by simp)
  · -- a pass outputs at most the box it looks at
    intro s hs i _ b hb
    unfold nmsPass at hb
    split at hb
    · rename_i a ha _
      rcases List.mem_append.mp hb with hb | hb
      · exact hs hb
      · exact ⟨a, List.mem_of_getElem? ha, List.mem_singleton.mp hb⟩
    · exact hs hb

/-- **Every box the detector outputs lies in the image.** -/
theorem postProcess_inside {S : Sorter K} (hh : 0 ≤ D.image_h) (hw : 0 ≤ D.image_w)
    {boxes : List (Box K)} (h : postProcess exp S D output_boxes out_score = .ok boxes) :
    ∀ b ∈ boxes, b.Inside D := by
  intro b hb
  obtain ⟨proposal_boxes, hproposals, h⟩ := Abort.bind_eq_ok h
  obtain ⟨kept, hkept, h⟩ := Abort.bind_eq_ok h
  obtain rfl := Except.ok.inj h
  obtain ⟨out, hout, hb⟩ := List.mem_flatten.mp hb
  obtain ⟨c, _, hc⟩ := mem_of_mapM_ok hkept out hout
  split at hc
  · exact absurd hc (by simp)
  · rename_i input hinput
    obtain rfl := Except.ok.inj hc
    obtain ⟨a, ha, rfl⟩ := mem_nmsClass hb
    have hmem : a ∈ input := (S.perm input).mem_iff.mp ha
    have hinside := generateBBox_inside hh hw hproposals input (List.mem_of_getElem? hinput) a hmem
    exact ⟨hinside.x0, hinside.y0, hinside.x1, hinside.y1⟩

end EdgeFrame.Api
