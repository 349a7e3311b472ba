/-
# EdgeFrame.Api.Decoding -- what `generateBBox` makes of a network output

For every class but the background there is one list, with one box for each anchor
whose score is above the threshold, in the order of the anchors. The offsets that the
network answers may be anything: clipping is monotone, so the corners of a box stay in
order and inside the image.

What is needed of the anchors is that they have no negative size, and of `exp` that it is
positive: then the extents of a decoded box are not negative, and its corners are in order
before they are clipped (`clip_extent`). The list of a class is followed along
the anchors (`classBoxes_decodes`), so that its order is theirs.
-/
import EdgeFrame.Api.Detect
import EdgeFrame.Lib.Vectors
import Mathlib

namespace EdgeFrame.Api

open EdgeFrame.Lib

variable {K : Type} [Field K] [LinearOrder K]

/-! ## The lists -/

/-- The score of anchor `j` for class `i` in the strided blob. -/
def anchorScore (D : Detect K) (out_score : Nat → K) (i j : Nat) : K :=
  out_score (j * D.num_of_class + i)

/-- The anchors that class `i` keeps. -/
def scoredAnchors (D : Detect K) (out_score : Nat → K) (i : Nat) (js : List Nat) : List Nat :=
  js.filter fun j => D.score_threshold < anchorScore D out_score i j

variable {exp : K → K} {D : Detect K} {output_boxes out_score : Nat → K}

variable (exp D output_boxes out_score) in
/-- The box that anchor `j` contributes to class `i`. -/
def Decodes (i j : Nat) (b : Box K) : Prop :=
  ∃ prior, D.priors[j]? = some prior ∧
    b = decodeBox exp D output_boxes prior j (anchorScore D out_score i j) i

/-- The loop over the anchors returns, with one box for each anchor above the threshold. -/
theorem classBoxes_decodes {i : Nat} : ∀ {js : List Nat}, (∀ j ∈ js, j < D.priors.length) →
    ∃ boxes, classBoxes exp D output_boxes out_score i js = .ok boxes ∧
      List.Forall₂ (Decodes exp D output_boxes out_score i) (scoredAnchors D out_score i js)
        boxes := by
  intro js
  induction js with
  | nil =>
    intro _
    exact ⟨[], rfl, List.Forall₂.nil⟩
  | cons j js ih =>
    intro hjs
    obtain ⟨boxes, hboxes, hdecodes⟩ := ih fun x hx => hjs x (List.mem_cons_of_mem _ hx)
    have hj : j < D.priors.length := hjs j List.mem_cons_self
    have hprior : D.priors[j]? = some D.priors[j] := List.getElem?_eq_getElem hj
    unfold classBoxes
    simp only
    change ∃ boxes, (if D.score_threshold < anchorScore D out_score i j then _ else _) = _ ∧ _
    split
    · rename_i hscore
      have hanchors : scoredAnchors D out_score i (j :: js) =
          j :: scoredAnchors D out_score i js := List.filter_cons_of_pos (by simpa using hscore)
      rw [hprior, hboxes, hanchors]
      exact ⟨_, rfl, List.Forall₂.cons ⟨_, hprior, rfl⟩ hdecodes⟩
    · rename_i hscore
      have hanchors : scoredAnchors D out_score i (j :: js) = scoredAnchors D out_score i js :=
        List.filter_cons_of_neg (by simpa using hscore)
      rw [hanchors]
      exact ⟨boxes, hboxes, hdecodes⟩

/-! ## The boxes -/

/-- The corners of the box are in order and in the image, and the score is at most 1. -/
structure Box.WellFormed (D : Detect K) (b : Box K) : Prop where
  x : 0 ≤ b.x0 ∧ b.x0 ≤ b.x1 ∧ b.x1 ≤ D.image_w
  y : 0 ≤ b.y0 ∧ b.y0 ≤ b.y1 ∧ b.y1 ≤ D.image_h
  score : b.score ≤ 1

variable [IsStrictOrderedRing K]

/-- Clipping keeps the order of two numbers. -/
theorem clip_mono {x y : K} (h : x ≤ y) : clip x 1 ≤ clip y 1 := by
  unfold clip
  split
  · -- the smaller value is clipped to 0
    exact (clip_mem y).1
  · rename_i hx
    have hy : ¬ y < 0 := not_lt.mpr ((not_lt.mp hx).trans h)
    rw [if_neg hy]
    split
    · rename_i hbig
      rw [if_pos (hbig.trans_le h)]
    · rename_i hsmall
      split
      · exact not_lt.mp hsmall
      · exact h

/-- A box of non-negative extent around a centre, clipped to the unit square and scaled. -/
theorem clip_extent {size : Int} (hsize : 0 ≤ size) (centre : K) {extent : K} (h : 0 ≤ extent) :
    0 ≤ clip (centre - extent / (2 : Nat)) 1 * size ∧
      clip (centre - extent / (2 : Nat)) 1 * size ≤ clip (centre + extent / (2 : Nat)) 1 * size ∧
      clip (centre + extent / (2 : Nat)) 1 * size ≤ size := by
  refine ⟨(clip_mul_mem hsize _).1, ?_, (clip_mul_mem hsize _).2⟩
  have hhalf : (0 : K) ≤ extent / (2 : Nat) := div_nonneg h (Nat.cast_nonneg 2)
  exact mul_le_mul_of_nonneg_right (clip_mono (by linarith)) (Int.cast_nonneg hsize)

/-- A decoded box is well formed, whatever the network answers. -/
theorem decodeBox_wellFormed (hexp : ∀ x, 0 < exp x) (hh : 0 ≤ D.image_h) (hw : 0 ≤ D.image_w)
    {prior : Prior K} (hprior : 0 ≤ prior.w ∧ 0 ≤ prior.h) (j : Nat) (score : K) (i : Nat) :
    (decodeBox exp D output_boxes prior j score i).WellFormed D := by
  constructor
  · exact clip_extent hw _ (mul_nonneg (hexp _).le hprior.1)
  · exact clip_extent hh _ (mul_nonneg (hexp _).le hprior.2)
  · exact (clip_mem score).2

/-- **Decoded boxes are well formed**: `generateBBox` returns one list for each class but the
background, the list of a class has exactly the boxes of the anchors whose score for it is above the
threshold, in the order of the anchors, and every box lies in the image.

The loop over the classes gives one list each, by `classBoxes_decodes`; each box is one of
`decodeBox_wellFormed`. -/
theorem generateBBox_wellFormed (exp : K → K) (D : Detect K) (output_boxes out_score : Nat → K)
    (hexp : ∀ x, 0 < exp x)
    (hpriors : D.priors.length = D.num_anchors)
    (hprior : ∀ prior ∈ D.priors, 0 ≤ prior.w ∧ 0 ≤ prior.h)
    (hh : 0 ≤ D.image_h) (hw : 0 ≤ D.image_w) :
    ∃ proposal_boxes, generateBBox exp D output_boxes out_score = .ok proposal_boxes ∧
      proposal_boxes.length = D.num_of_class - 1 ∧
      ∀ i, 1 ≤ i → i < D.num_of_class → ∃ boxes, proposal_boxes[i - 1]? = some boxes ∧
        List.Forall₂ (Decodes exp D output_boxes out_score i)
          (scoredAnchors D out_score i (List.range D.num_anchors)) boxes ∧
        ∀ b ∈ boxes, b.WellFormed D := by
  have hclass : ∀ i, ∃ boxes,
      classBoxes exp D output_boxes out_score i (List.range D.num_anchors) = .ok boxes ∧
      List.Forall₂ (Decodes exp D output_boxes out_score i)
        (scoredAnchors D out_score i (List.range D.num_anchors)) boxes := by
    intro i
    refine classBoxes_decodes fun j hj => ?_
    rw [hpriors]
    exact List.mem_range.mp hj
  choose boxes hboxes hdecodes using hclass
  refine ⟨(List.range' 1 (D.num_of_class - 1)).map boxes, mapM_eq_ok fun i _ => hboxes i, ?_, ?_⟩
  · rw [List.length_map, List.length_range']
  · intro i hlow hhigh
    refine ⟨boxes i, ?_, hdecodes i, ?_⟩
    · have hi : i - 1 < D.num_of_class - 1 := by omega
      rw [List.getElem?_map, List.getElem?_range' hi]
      show some (boxes (1 + 1 * (i - 1))) = some (boxes i)
      congr 2
      omega
    · intro b hb
      obtain ⟨j, -, prior, hj, rfl⟩ := exists_of_forall₂ (hdecodes i) b hb
      exact decodeBox_wellFormed hexp hh hw (hprior prior (List.mem_of_getElem? hj)) j _ i

/-- A detector for one class, with three anchors and an image of 20 by 10 pixels. -/
def threeAnchors : Detect ℚ where
  score_threshold := 1 / 2
  iou_threshold := 1 / 2
  num_of_class := 2
  num_anchors := 3
  image_h := 10
  image_w := 20
  center_variance := 1
  size_variance := 1
  priors := [⟨1, 1 / 2, 1 / 4, 1 / 4⟩, ⟨1 / 2, 1 / 2, 1 / 4, 1 / 4⟩, ⟨0, 1 / 4, 1 / 2, 1 / 2⟩]

/-- The scores of the three anchors for the class; that of the second is below the threshold. -/
def threeScores (n : Nat) : ℚ := if n = 1 then 3 else if n = 3 then 1 / 4 else 3 / 4

/-- The first and the third anchor give a box, in this order; both are cut at the edge of the image. -/
theorem generateBBox_wellFormed_threeAnchors : ∃ boxes,
    generateBBox (fun _ => 1) threeAnchors (fun _ => 0) threeScores = .ok [boxes] ∧
      List.Forall₂ (Decodes (fun _ => 1) threeAnchors (fun _ => 0) threeScores 1) [0, 2] boxes ∧
      ∀ b ∈ boxes, b.WellFormed threeAnchors := by
  obtain ⟨proposal_boxes, hok, hlen, hlists⟩ := generateBBox_wellFormed (fun _ => 1) threeAnchors
    (fun _ => 0) threeScores (fun _ => one_pos) rfl (by simp [threeAnchors]) (by decide) (by decide)
  obtain ⟨boxes, hget, hdecodes, hformed⟩ := hlists 1 le_rfl (by decide)
  have hscored : scoredAnchors threeAnchors threeScores 1 (List.range 3) = [0, 2] := by
    decide +kernel
  have hone : proposal_boxes = [boxes] := by
    obtain ⟨only, rfl⟩ := List.length_eq_one_iff.mp hlen
    obtain rfl : only = boxes := Option.some.inj hget
    rfl
  rw [hone] at hok
  exact ⟨boxes, hok, hscored ▸ hdecodes, hformed⟩

end EdgeFrame.Api
