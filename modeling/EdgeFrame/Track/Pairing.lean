/-
# EdgeFrame.Track.Pairing -- `MatchCurDetectFaceAndBody`

The boxes of a frame become people: every face box is tried on every pedestrian box that
is still free, and what is left over of the pedestrians is pushed without a face. One
table marks the boxes that are matched, the faces as well as the bodies; but a face is
looked up in it only before its inner loop starts.

The two overloads differ in where the class ids come from and in the faces that they
skip. `Pushed` records for every object that is pushed the boxes it was made of.

What the loops do is said in two steps. `Tried` is the invariant of the inner loop: what
the face at hand has claimed among the bodies that were looked at. `Faced` is that of
the outer one: the claims of the faces before it, and the boxes they have marked. From
them comes `pairing_eq`, in which no loop is left: each face gets the bodies that it
matches and no earlier face does, and the rest are pushed alone. The law then is about
lists. Bodies are never pushed twice, whatever the faces do (`bodies_perm`); a face is
pushed twice exactly when it claims two bodies (`nodup_faces_iff`).
-/
import EdgeFrame.Lib.Loops
import EdgeFrame.Monitor.Processor
import Mathlib

namespace EdgeFrame.Track

open Api Lib Monitor

variable {K : Type}

/-! ## The model -/

/-- `CategoryId`. -/
def CategoryId.cls_face : Int := 2

/-- `CategoryId::cls_head`. -/
def CategoryId.cls_head : Int := 3

/-- `CategoryId::cls_ped`. -/
def CategoryId.cls_ped : Int := 1

/-- The indexes of the boxes of one object that is pushed. -/
structure Pushed where
  face : Option Nat
  body : Nat
  deriving DecidableEq, Repr

/-- What the loops write. -/
structure Pairing where
  match_table : Nat → Bool
  pushed : List Pushed

section

variable [Field K]

/-- A box as a rectangle with its extents. -/
def rectOf (b : Box K) : Rect K := ⟨b.x0, b.y0, b.x1 - b.x0, b.y1 - b.y0⟩

/-- `(x1 - x0) * (y1 - y0)`. -/
def faceArea (b : Box K) : K := (b.x1 - b.x0) * (b.y1 - b.y0)

/-- The message of the box at an index. -/
def boxMessage (object_boxes : List (Box K)) (update_timestamp update_frame_id : UInt64) (i : Nat) :
    Option (BBoxMessage K) :=
  object_boxes[i]?.map fun b => ConvertBoxToBBoxMessage b update_timestamp update_frame_id

/-- The object that is pushed; `memory k` is where the `k`-th one is constructed. -/
def Pushed.object (memory : Nat → Unassigned K) (object_boxes : List (Box K))
    (update_timestamp update_frame_id : UInt64) (k : Nat) (p : Pushed) : PersonObject K :=
  PersonObject.new (memory k)
    (p.face.bind (boxMessage object_boxes update_timestamp update_frame_id))
    (boxMessage object_boxes update_timestamp update_frame_id p.body) (-1)

end

section

variable [Field K] [LinearOrder K]

/-- The part of the face that lies in the body is more than 0.8 of it; a face without an area does
not match, since the quotient is 0 or not a number. -/
def IsFaceAndBodyMatch (face body : Box K) : Bool :=
  (8 : Nat) / (10 : Nat) < ((rectOf face).inter (rectOf body)).area / (rectOf face).area

/-- The body of the inner loop, for the face at index `i`. -/
def tryBody (cls_ped : Int) (object_boxes : List (Box K)) (i : Nat) (face : Box K) (st : Pairing)
    (j : Nat) : Pairing :=
  match object_boxes[j]? with
  | none => st
  | some body =>
    if body.class_idx = cls_ped ∧ st.match_table j = false then
      if IsFaceAndBodyMatch face body then
        { match_table := Function.update (Function.update st.match_table i true) j true
          pushed := st.pushed ++ [⟨some i, j⟩] }
      else st
    else st

/-- The body of the outer loop; `skips` is the test on the face. -/
def tryFace (cls_face cls_ped : Int) (skips : Box K → Bool) (object_boxes : List (Box K))
    (st : Pairing) (i : Nat) : Pairing :=
  match object_boxes[i]? with
  | none => st
  | some face =>
    if face.class_idx = cls_face ∧ st.match_table i = false then
      if skips face then st
      else (List.range object_boxes.length).foldl (tryBody cls_ped object_boxes i face) st
    else st

/-- The body of the second loop. -/
def pushUnmatched (cls_ped : Int) (object_boxes : List (Box K)) (st : Pairing) (i : Nat) :
    Pairing :=
  match object_boxes[i]? with
  | none => st
  | some body =>
    if st.match_table i = false then
      if body.class_idx = cls_ped then { st with pushed := st.pushed ++ [⟨none, i⟩] } else st
    else st

/-- The two loops: the boxes of the objects that are pushed, in order. -/
def pairing (cls_face cls_ped : Int) (skips : Box K → Bool) (object_boxes : List (Box K)) :
    List Pushed :=
  let st := (List.range object_boxes.length).foldl
    (tryFace cls_face cls_ped skips object_boxes) ⟨fun _ => false, []⟩
  ((List.range object_boxes.length).foldl (pushUnmatched cls_ped object_boxes) st).pushed

/-- The faces that the first overload skips. -/
def skipsFace (face_score_thresh face_area_thresh : K) (face : Box K) : Bool :=
  faceArea face < face_area_thresh || face.score < face_score_thresh

/-- The faces that the second overload skips. -/
def skipsSmallFace (face_area_thresh : K) (face : Box K) : Bool := faceArea face < face_area_thresh

/-- The first overload of `MatchCurDetectFaceAndBody`. -/
def MatchCurDetectFaceAndBody (memory : Nat → Unassigned K) (object_boxes : List (Box K))
    (cur_detect_person_objects : List (PersonObject K)) (face_score_thresh face_area_thresh : K)
    (update_timestamp update_frame_id : UInt64) : List (PersonObject K) :=
  cur_detect_person_objects ++ (pairing CategoryId.cls_face CategoryId.cls_ped
    (skipsFace face_score_thresh face_area_thresh) object_boxes).mapIdx
    (Pushed.object memory object_boxes update_timestamp update_frame_id)

/-- `std::map<std::string, int>`. -/
def ClassMap := String → Option Int

/-- What `operator[]` answers: a key that is not there gets the value 0. -/
def ClassMap.at (cls_id_map : ClassMap) (key : String) : Int := (cls_id_map key).getD 0

/-- The map after `operator[]`. -/
def ClassMap.touch (cls_id_map : ClassMap) (key : String) : ClassMap :=
  Function.update cls_id_map key (some (cls_id_map.at key))

/-- The second overload of `MatchCurDetectFaceAndBody`, with the map afterwards. -/
def MatchCurDetectFaceAndBodyOfMap (memory : Nat → Unassigned K) (cls_id_map : ClassMap)
    (object_boxes : List (Box K)) (cur_detect_person_objects : List (PersonObject K))
    (face_area_thresh : K) (update_timestamp update_frame_id : UInt64) :
    ClassMap × List (PersonObject K) :=
  let cls_face := cls_id_map.at "cls_face"
  let cls_ped := cls_id_map.at "cls_ped"
  (((cls_id_map.touch "cls_face").touch "cls_head").touch "cls_ped",
    cur_detect_person_objects ++ (pairing cls_face cls_ped (skipsSmallFace face_area_thresh)
      object_boxes).mapIdx (Pushed.object memory object_boxes update_timestamp update_frame_id))

/-! ## Who takes whom -/

/-- The box at this index has this class. -/
def HasClass (object_boxes : List (Box K)) (cls : Int) (i : Nat) : Bool :=
  (object_boxes[i]?).any fun b => b.class_idx = cls

/-- A face box that is not skipped. -/
def Eligible (cls_face : Int) (skips : Box K → Bool) (object_boxes : List (Box K)) (i : Nat) :
    Bool :=
  (object_boxes[i]?).any fun b => b.class_idx = cls_face && !skips b

/-- The face at `i` matches the body at `j`. -/
def Fits (object_boxes : List (Box K)) (i j : Nat) : Bool :=
  (object_boxes[i]?).any fun a => (object_boxes[j]?).any fun b => IsFaceAndBodyMatch a b

/-- Some eligible face before index `i` matches the body at `j`. -/
def Taken (cls_face : Int) (skips : Box K → Bool) (object_boxes : List (Box K)) (i j : Nat) :
    Bool :=
  (List.range i).any fun k => Eligible cls_face skips object_boxes k && Fits object_boxes k j

/-- The bodies that the face at `i` gets: those it matches that no earlier face does. -/
def claimed (cls_face cls_ped : Int) (skips : Box K → Bool) (object_boxes : List (Box K))
    (i : Nat) : List Nat :=
  (List.range object_boxes.length).filter fun j => HasClass object_boxes cls_ped j &&
    !Taken cls_face skips object_boxes i j && Fits object_boxes i j

/-- The bodies that no face gets. -/
def unclaimed (cls_face cls_ped : Int) (skips : Box K → Bool) (object_boxes : List (Box K)) :
    List Nat :=
  (List.range object_boxes.length).filter fun j => HasClass object_boxes cls_ped j &&
    !Taken cls_face skips object_boxes object_boxes.length j

/-- The objects that the faces before index `i` make. -/
def claims (cls_face cls_ped : Int) (skips : Box K → Bool) (object_boxes : List (Box K))
    (i : Nat) : List Pushed :=
  (List.range i).flatMap fun k =>
    if Eligible cls_face skips object_boxes k then
      (claimed cls_face cls_ped skips object_boxes k).map fun j => ⟨some k, j⟩
    else []

variable {cls_face cls_ped : Int} {skips : Box K → Bool} {object_boxes : List (Box K)}

omit [Field K] [LinearOrder K] in
/-- The class of a box that is there. -/
theorem hasClass_eq {i : Nat} {b : Box K} (h : object_boxes[i]? = some b) (cls : Int) :
    HasClass object_boxes cls i = decide (b.class_idx = cls) := by
  rw [HasClass, h]
  rfl

/-- The test on two boxes that are there. -/
theorem fits_eq {i j : Nat} {a b : Box K} (ha : object_boxes[i]? = some a)
    (hb : object_boxes[j]? = some b) : Fits object_boxes i j = IsFaceAndBodyMatch a b := by
  rw [Fits, ha, hb]
  rfl

/-- A body is taken by the faces so far, or by the next one. -/
theorem taken_succ (i j : Nat) : Taken cls_face skips object_boxes (i + 1) j =
    (Taken cls_face skips object_boxes i j ||
      (Eligible cls_face skips object_boxes i && Fits object_boxes i j)) := by
  rw [Taken, List.range_succ, List.any_append, List.any_cons, List.any_nil, Bool.or_false]
  rfl

/-- The claims so far, and those of the next face. -/
theorem claims_succ (i : Nat) : claims cls_face cls_ped skips object_boxes (i + 1) =
    claims cls_face cls_ped skips object_boxes i ++
      if Eligible cls_face skips object_boxes i then
        (claimed cls_face cls_ped skips object_boxes i).map fun j => ⟨some i, j⟩
      else [] := by
  rw [claims, List.range_succ, List.flatMap_append, List.flatMap_singleton]
  rfl

/-! ## The loops -/

variable (cls_ped object_boxes) in
/-- What the inner loop of the face at `i` has done before it looks at the body at `p`. -/
structure Tried (i : Nat) (st : Pairing) (p : Nat) (st' : Pairing) : Prop where
  bodies : ∀ j, HasClass object_boxes cls_ped j = true →
    st'.match_table j = (st.match_table j || (decide (j < p) && Fits object_boxes i j))
  others : ∀ j, HasClass object_boxes cls_ped j = false → j ≠ i →
    st'.match_table j = st.match_table j
  pushed : st'.pushed = st.pushed ++ ((List.range p).filter fun j =>
    HasClass object_boxes cls_ped j && !st.match_table j && Fits object_boxes i j).map
      fun j => ⟨some i, j⟩

/-- The bodies before an index and the one at it. -/
theorem decide_lt_succ_and {j p : Nat} (hj : j ≠ p) (b : Bool) :
    (decide (j < p + 1) && b) = (decide (j < p) && b) := by
  have hiff : j < p + 1 ↔ j < p := by omega
  rw [decide_eq_decide.mpr hiff]

section

variable {i p : Nat} {st st' : Pairing}

/-- A body that the face takes is marked with it. -/
theorem Tried.take (h : Tried cls_ped object_boxes i st p st')
    (hped : HasClass object_boxes cls_ped i = false)
    (hclass : HasClass object_boxes cls_ped p = true) (hfree : st.match_table p = false)
    (hfits : Fits object_boxes i p = true) : Tried cls_ped object_boxes i st (p + 1)
      { match_table := Function.update (Function.update st'.match_table i true) p true
        pushed := st'.pushed ++ [⟨some i, p⟩] } := by
  constructor
  · intro j hj
    have hji : j ≠ i := by
      rintro rfl
      rw [hped] at hj
      cases hj
    show Function.update (Function.update st'.match_table i true) p true j = _
    by_cases hjp : j = p
    · subst hjp
      rw [Function.update_self]
      simp [hfits]
    · rw [Function.update_of_ne hjp, Function.update_of_ne hji, h.bodies j hj,
        decide_lt_succ_and hjp]
  · intro j hj hji
    have hjp : j ≠ p := by
      rintro rfl
      rw [hclass] at hj
      cases hj
    show Function.update (Function.update st'.match_table i true) p true j = _
    rw [Function.update_of_ne hjp, Function.update_of_ne hji, h.others j hj hji]
  · show st'.pushed ++ [⟨some i, p⟩] = _
    rw [h.pushed, List.range_succ, List.filter_append,
      List.filter_cons_of_pos (by simp [hclass, hfree, hfits]), List.filter_nil, List.map_append,
      List.append_assoc]
    rfl

/-- Nothing is new at any other box. -/
theorem Tried.skip (h : Tried cls_ped object_boxes i st p st')
    (hleft : (HasClass object_boxes cls_ped p && !st.match_table p && Fits object_boxes i p) = false) :
    Tried cls_ped object_boxes i st (p + 1) st' := by
  constructor
  · intro j hj
    by_cases hjp : j = p
    · subst hjp
      rw [h.bodies j hj]
      cases hfree : st.match_table j with
      | true => rfl
      | false =>
        rw [hj, hfree] at hleft
        simpa using hleft
    · rw [h.bodies j hj, decide_lt_succ_and hjp]
  · exact h.others
  · rw [h.pushed, List.range_succ, List.filter_append,
      List.filter_cons_of_neg (by simp [hleft]), List.filter_nil, List.append_nil]

/-- **The step of the inner loop**: the body is taken, or nothing is new. -/
theorem Tried.step {face : Box K} (hface : object_boxes[i]? = some face)
    (hped : HasClass object_boxes cls_ped i = false) (hp : p < object_boxes.length)
    (h : Tried cls_ped object_boxes i st p st') :
    Tried cls_ped object_boxes i st (p + 1) (tryBody cls_ped object_boxes i face st' p) := by
  have hbody : object_boxes[p]? = some object_boxes[p] := List.getElem?_eq_getElem hp
  have hclass := hasClass_eq hbody cls_ped
  have hfits := fits_eq hface hbody
  unfold tryBody
  rw [hbody]
  simp only
  split
  · rename_i hcond
    have hc : HasClass object_boxes cls_ped p = true := by
      rw [hclass]
      exact decide_eq_true hcond.1
    -- the table has not been written at `p` yet
    have hfree : st.match_table p = false := by
      rw [← hcond.2, h.bodies p hc]
      simp
    split
    · rename_i hmatch
      exact h.take hped hc hfree (hfits.trans hmatch)
    · rename_i hmatch
      refine h.skip ?_
      rw [hfits, Bool.eq_false_iff.mpr hmatch, Bool.and_false]
  · rename_i hcond
    refine h.skip ?_
    by_contra hleft
    simp only [Bool.not_eq_false, Bool.and_eq_true, Bool.not_eq_true'] at hleft
    obtain ⟨⟨hc, hfree⟩, -⟩ := hleft
    refine hcond ⟨by simpa [hclass] using hc, ?_⟩
    rw [h.bodies p hc, hfree]
    simp

end

/-- The inner loop, from the state in which its face was found. -/
theorem tried_range {i : Nat} {face : Box K} (hface : object_boxes[i]? = some face)
    (hped : HasClass object_boxes cls_ped i = false) (st : Pairing) :
    Tried cls_ped object_boxes i st object_boxes.length
      ((List.range object_boxes.length).foldl (tryBody cls_ped object_boxes i face) st) := by
  refine foldl_range_induction ?_ ?_
  · constructor
    · intro j _
      simp
    · intro j _ _
      rfl
    · simp
  · intro p st' hp h
    exact h.step hface hped hp

variable (cls_face cls_ped skips object_boxes) in
/-- What the outer loop has done before it looks at the face at `i`. -/
structure Faced (i : Nat) (st : Pairing) : Prop where
  bodies : ∀ j, HasClass object_boxes cls_ped j = true →
    st.match_table j = Taken cls_face skips object_boxes i j
  later : ∀ j, i ≤ j → HasClass object_boxes cls_ped j = false → st.match_table j = false
  pushed : st.pushed = claims cls_face cls_ped skips object_boxes i

/-- **The step of the outer loop**: a face that is skipped claims nothing, and any other one goes
through the inner loop, as nothing but its own loop would have marked it. -/
theorem Faced.step (hcls : cls_face ≠ cls_ped) {i : Nat} (hi : i < object_boxes.length)
    {st : Pairing} (h : Faced cls_face cls_ped skips object_boxes i st) :
    Faced cls_face cls_ped skips object_boxes (i + 1)
      (tryFace cls_face cls_ped skips object_boxes st i) := by
  have hface : object_boxes[i]? = some object_boxes[i] := List.getElem?_eq_getElem hi
  have heligible : Eligible cls_face skips object_boxes i =
      (decide (object_boxes[i].class_idx = cls_face) && !skips object_boxes[i]) := by
    rw [Eligible, hface]
    rfl
  -- a box that is not an eligible face leaves everything as it is
  have hskip : Eligible cls_face skips object_boxes i = false →
      Faced cls_face cls_ped skips object_boxes (i + 1) st := by
    intro hnot
    constructor
    · intro j hj
      rw [h.bodies j hj, taken_succ, hnot, Bool.false_and, Bool.or_false]
    · intro j hij hj
      exact h.later j (by omega) hj
    · rw [h.pushed, claims_succ, hnot]
      simp
  unfold tryFace
  rw [hface]
  simp only
  by_cases hclass : object_boxes[i].class_idx = cls_face
  · have hped : HasClass object_boxes cls_ped i = false := by
      rw [hasClass_eq hface cls_ped, hclass]
      exact decide_eq_false hcls
    rw [if_pos ⟨hclass, h.later i (le_refl i) hped⟩]
    cases hskips : skips object_boxes[i] with
    | true =>
      rw [if_pos rfl]
      exact hskip (by rw [heligible, hskips]; simp)
    | false =>
      rw [if_neg (by simp)]
      have heli : Eligible cls_face skips object_boxes i = true := by
        rw [heligible, hskips]
        simpa using hclass
      have htried := tried_range hface hped st
      constructor
      · intro j hj
        rw [htried.bodies j hj, h.bodies j hj, taken_succ, heli, Bool.true_and]
        have hlt : j < object_boxes.length := by
          by_contra hge
          rw [HasClass, List.getElem?_eq_none (not_lt.mp hge)] at hj
          cases hj
        rw [decide_eq_true hlt, Bool.true_and]
      · intro j hij hj
        rw [htried.others j hj (by omega)]
        exact h.later j (by omega) hj
      · rw [htried.pushed, h.pushed, claims_succ, if_pos heli]
        congr 2
        refine List.filter_congr fun j hj => ?_
        cases hc : HasClass object_boxes cls_ped j with
        | true => rw [h.bodies j hc]
        | false => rfl
  · rw [if_neg fun hcond => hclass hcond.1]
    exact hskip (by rw [heligible, decide_eq_false hclass, Bool.false_and])

/-- The outer loop. -/
theorem faced_range (hcls : cls_face ≠ cls_ped) :
    Faced cls_face cls_ped skips object_boxes object_boxes.length
      ((List.range object_boxes.length).foldl (tryFace cls_face cls_ped skips object_boxes)
        ⟨fun _ => false, []⟩) := by
  refine foldl_range_induction ?_ ?_
  · constructor
    · intro j _
      rfl
    · intro j _ _
      rfl
    · rfl
  · intro i st hi h
    exact h.step hcls hi

omit [Field K] [LinearOrder K] in
/-- The second loop pushes the pedestrians that are not marked. -/
theorem pushUnmatched_range (st : Pairing) :
    (List.range object_boxes.length).foldl (pushUnmatched cls_ped object_boxes) st =
      { st with pushed := st.pushed ++ ((List.range object_boxes.length).filter fun j =>
          HasClass object_boxes cls_ped j && !st.match_table j).map fun j => ⟨none, j⟩ } := by
  refine foldl_range_induction (I := fun n (st' : Pairing) => st' = { st with
    pushed := st.pushed ++ ((List.range n).filter fun j =>
      HasClass object_boxes cls_ped j && !st.match_table j).map fun j => ⟨none, j⟩ }) (by simp) ?_
  rintro n st' hn rfl
  have hbody : object_boxes[n]? = some object_boxes[n] := List.getElem?_eq_getElem hn
  have hclass := hasClass_eq hbody cls_ped
  rw [List.range_succ, pushUnmatched, hbody]
  simp only
  cases hc : HasClass object_boxes cls_ped n with
  | true =>
    have hped : object_boxes[n].class_idx = cls_ped := by simpa [hclass] using hc
    cases hm : st.match_table n with
    | true => simp [hm]
    | false => simp [hm, hc, hped]
  | false =>
    have hped : ¬ object_boxes[n].class_idx = cls_ped := by simpa [hclass] using hc
    cases hm : st.match_table n with
    | true => simp [hm]
    | false => simp [hm, hc, hped]

/-- **The two loops**: each eligible face gets the bodies it matches that no earlier one does, and
the bodies that no face gets are pushed without one. -/
theorem pairing_eq (hcls : cls_face ≠ cls_ped) : pairing cls_face cls_ped skips object_boxes =
    claims cls_face cls_ped skips object_boxes object_boxes.length ++
      (unclaimed cls_face cls_ped skips object_boxes).map fun j => ⟨none, j⟩ := by
  have hfaced : Faced cls_face cls_ped skips object_boxes object_boxes.length _ := faced_range hcls
  unfold pairing
  simp only [pushUnmatched_range, hfaced.pushed]
  congr 2
  refine List.filter_congr fun j _ => ?_
  cases hc : HasClass object_boxes cls_ped j with
  | true => rw [hfaced.bodies j hc]
  | false => rfl

/-! ## The matching -/

/-- The objects that are pushed are a matching: one for each pedestrian box, and no face box is part
of two of them. -/
structure IsMatching (cls_ped : Int) (object_boxes : List (Box K)) (pushed : List Pushed) :
    Prop where
  bodies : (pushed.map (·.body)).Perm
    ((List.range object_boxes.length).filter (HasClass object_boxes cls_ped))
  faces : (pushed.filterMap (·.face)).Nodup

/-- No eligible face matches two pedestrians that no earlier eligible face matches. -/
def Unshared (cls_face cls_ped : Int) (skips : Box K → Bool) (object_boxes : List (Box K)) :
    Prop :=
  ∀ i, Eligible cls_face skips object_boxes i = true →
    ∀ j ∈ claimed cls_face cls_ped skips object_boxes i,
      ∀ k ∈ claimed cls_face cls_ped skips object_boxes i, j = k

/-- What a face claims: pedestrians in range that no earlier face takes and that it matches. -/
theorem mem_claimed {i j : Nat} : j ∈ claimed cls_face cls_ped skips object_boxes i ↔
    j < object_boxes.length ∧ HasClass object_boxes cls_ped j = true ∧
      Taken cls_face skips object_boxes i j = false ∧ Fits object_boxes i j = true := by
  simp [claimed, and_assoc]

/-- Who takes a body. -/
theorem taken_eq_true_iff {i j : Nat} : Taken cls_face skips object_boxes i j = true ↔
    ∃ k, k < i ∧ Eligible cls_face skips object_boxes k = true ∧ Fits object_boxes k j = true := by
  simp [Taken]

/-- The first eligible face that matches a body claims it. -/
theorem exists_claimed {j : Nat} (hj : j < object_boxes.length)
    (hped : HasClass object_boxes cls_ped j = true)
    (htaken : Taken cls_face skips object_boxes object_boxes.length j = true) :
    ∃ i, i < object_boxes.length ∧ Eligible cls_face skips object_boxes i = true ∧
      j ∈ claimed cls_face cls_ped skips object_boxes i := by
  have hex := taken_eq_true_iff.mp htaken
  obtain ⟨hlt, heli, hfits⟩ := Nat.find_spec hex
  refine ⟨Nat.find hex, hlt, heli, mem_claimed.mpr ⟨hj, hped, ?_, hfits⟩⟩
  rw [← Bool.not_eq_true, taken_eq_true_iff]
  rintro ⟨k, hk, hkeli, hkfits⟩
  exact Nat.find_min hex hk ⟨by omega, hkeli, hkfits⟩

/-- The bodies of the claims, with those that are left over. -/
theorem map_body_pairing (hcls : cls_face ≠ cls_ped) :
    (pairing cls_face cls_ped skips object_boxes).map (·.body) =
      ((List.range object_boxes.length).flatMap fun i =>
        if Eligible cls_face skips object_boxes i then
          claimed cls_face cls_ped skips object_boxes i
        else []) ++ unclaimed cls_face cls_ped skips object_boxes := by
  rw [pairing_eq hcls, List.map_append, claims, List.map_flatMap, List.map_map]
  congr 1
  · refine List.flatMap_congr fun i _ => ?_
    cases Eligible cls_face skips object_boxes i with
    | true => simp [Function.comp_def]
    | false => rfl
  · exact List.map_id'' (fun _ => rfl) _

/-- No body is claimed twice, or claimed and left over. It is claimed by the first face that matches
it. -/
theorem nodup_bodies : (((List.range object_boxes.length).flatMap fun i =>
    if Eligible cls_face skips object_boxes i then claimed cls_face cls_ped skips object_boxes i
    else []) ++ unclaimed cls_face cls_ped skips object_boxes).Nodup := by
  rw [List.nodup_append']
  refine ⟨?_, List.nodup_range.filter _, ?_⟩
  · rw [List.nodup_flatMap]
    refine ⟨?_, ?_⟩
    · intro i _
      split
      · exact List.nodup_range.filter _
      · exact List.nodup_nil
    · -- of two faces only the first one that matches a body claims it
      refine List.pairwise_lt_range.imp ?_
      intro i k hik
      show List.Disjoint _ _
      intro j hj hj'
      dsimp only at hj hj'
      split at hj
      · rename_i heli
        split at hj'
        · have htaken := (mem_claimed.mp hj').2.2.1
          rw [taken_eq_true_iff.mpr ⟨i, hik, heli, (mem_claimed.mp hj).2.2.2⟩] at htaken
          cases htaken
        · cases hj'
      · cases hj
  -- a body that no face has claimed is not taken
  · intro j hj hj'
    obtain ⟨i, hi, hj⟩ := List.mem_flatMap.mp hj
    split at hj
    · rename_i heli
      have htaken : Taken cls_face skips object_boxes object_boxes.length j = true :=
        taken_eq_true_iff.mpr ⟨i, List.mem_range.mp hi, heli, (mem_claimed.mp hj).2.2.2⟩
      have hfree := (List.mem_filter.mp hj').2
      rw [htaken] at hfree
      simp at hfree
    · cases hj

/-- **One object for each pedestrian**, whatever the faces do. -/
theorem bodies_perm (hcls : cls_face ≠ cls_ped) :
    ((pairing cls_face cls_ped skips object_boxes).map (·.body)).Perm
      ((List.range object_boxes.length).filter (HasClass object_boxes cls_ped)) := by
  rw [map_body_pairing hcls,
    List.perm_ext_iff_of_nodup nodup_bodies (List.nodup_range.filter _)]
  intro j
  rw [List.mem_append, List.mem_flatMap, List.mem_filter, List.mem_range]
  constructor
  · rintro (⟨i, -, hj⟩ | hj)
    · split at hj
      · obtain ⟨hlt, hped, -⟩ := mem_claimed.mp hj
        exact ⟨hlt, hped⟩
      · cases hj
    · obtain ⟨hlt, hped⟩ := List.mem_filter.mp hj
      simp only [Bool.and_eq_true] at hped
      exact ⟨List.mem_range.mp hlt, hped.1⟩
  · rintro ⟨hlt, hped⟩
    cases htaken : Taken cls_face skips object_boxes object_boxes.length j with
    | true =>
      obtain ⟨i, hi, heli, hj⟩ := exists_claimed hlt hped htaken
      refine Or.inl ⟨i, List.mem_range.mpr hi, ?_⟩
      rw [if_pos heli]
      exact hj
    | false =>
      refine Or.inr (List.mem_filter.mpr ⟨List.mem_range.mpr hlt, ?_⟩)
      simp [hped, htaken]

/-- The faces of the claims. -/
theorem filterMap_face_pairing (hcls : cls_face ≠ cls_ped) :
    (pairing cls_face cls_ped skips object_boxes).filterMap (·.face) =
      (List.range object_boxes.length).flatMap fun i =>
        if Eligible cls_face skips object_boxes i then
          List.replicate (claimed cls_face cls_ped skips object_boxes i).length i
        else [] := by
  have hnone : ((unclaimed cls_face cls_ped skips object_boxes).map fun j =>
      (⟨none, j⟩ : Pushed)).filterMap (·.face) = [] := by
    rw [List.filterMap_map, List.filterMap_eq_nil_iff]
    intro j _
    rfl
  rw [pairing_eq hcls, List.filterMap_append, hnone, List.append_nil, claims,
    List.filterMap_flatMap]
  refine List.flatMap_congr fun i _ => ?_
  cases Eligible cls_face skips object_boxes i with
  | true =>
    rw [if_pos rfl, if_pos rfl, List.filterMap_map, ← List.map_const']
    exact congrFun List.filterMap_eq_map' _
  | false => rfl

/-- No face is in two objects exactly when none claims two bodies. -/
theorem nodup_faces_iff (hcls : cls_face ≠ cls_ped) :
    ((pairing cls_face cls_ped skips object_boxes).filterMap (·.face)).Nodup ↔
      Unshared cls_face cls_ped skips object_boxes := by
  -- a face is there as often as it claims a body
  have hone : ∀ i, (List.replicate (claimed cls_face cls_ped skips object_boxes i).length i).Nodup ↔
      ∀ j ∈ claimed cls_face cls_ped skips object_boxes i,
        ∀ k ∈ claimed cls_face cls_ped skips object_boxes i, j = k := by
    intro i
    have hnodup : (claimed cls_face cls_ped skips object_boxes i).Nodup := List.nodup_range.filter _
    rw [List.nodup_replicate]
    rw [← List.toFinset_card_of_nodup hnodup, Finset.card_le_one]
    simp only [List.mem_toFinset]
  rw [filterMap_face_pairing hcls, List.nodup_flatMap]
  constructor
  · rintro ⟨heach, -⟩ i heli
    have hi : i < object_boxes.length := by
      by_contra hge
      rw [Eligible, List.getElem?_eq_none (not_lt.mp hge)] at heli
      cases heli
    have hnodup := heach i (List.mem_range.mpr hi)
    rw [if_pos heli] at hnodup
    exact (hone i).mp hnodup
  · intro h
    refine ⟨?_, ?_⟩
    -- what is repeated for one face
    · intro i _
      split
      · rename_i heli
        exact (hone i).mpr (h i heli)
      · exact List.nodup_nil
    -- the copies for two faces are of different indexes
    · refine List.pairwise_lt_range.imp ?_
      intro i k hik
      show List.Disjoint _ _
      intro j hj hj'
      dsimp only at hj hj'
      split at hj
      · split at hj'
        · have hji := List.eq_of_mem_replicate hj
          have hjk := List.eq_of_mem_replicate hj'
          omega
        · cases hj'
      · cases hj

/-- The matching, from the two halves. -/
theorem isMatching_iff (hcls : cls_face ≠ cls_ped) :
    IsMatching cls_ped object_boxes (pairing cls_face cls_ped skips object_boxes) ↔
      Unshared cls_face cls_ped skips object_boxes := by
  rw [← nodup_faces_iff hcls]
  constructor
  · intro h
    exact h.faces
  · intro h
    exact ⟨bodies_perm hcls, h⟩

variable (memory : Nat → Unassigned K) (cls_id_map : ClassMap) (cur : List (PersonObject K))
  (update_timestamp update_frame_id : UInt64)

/-- **Each face once**, in both overloads: the objects that are appended are a matching exactly when
no face is shared.

Both overloads are `pairing` with their own ids and their own test, and `isMatching_iff` knows of no
ids and no test but that the two classes differ. -/
theorem matchCurDetectFaceAndBody_iff (object_boxes : List (Box K))
    (face_score_thresh face_area_thresh : K)
    (hcls : cls_id_map.at "cls_face" ≠ cls_id_map.at "cls_ped") :
    let first := pairing CategoryId.cls_face CategoryId.cls_ped
      (skipsFace face_score_thresh face_area_thresh) object_boxes
    let second := pairing (cls_id_map.at "cls_face") (cls_id_map.at "cls_ped")
      (skipsSmallFace face_area_thresh) object_boxes
    let object := Pushed.object memory object_boxes update_timestamp update_frame_id
    (MatchCurDetectFaceAndBody memory object_boxes cur face_score_thresh face_area_thresh
        update_timestamp update_frame_id = cur ++ first.mapIdx object ∧
      (IsMatching CategoryId.cls_ped object_boxes first ↔ Unshared CategoryId.cls_face
        CategoryId.cls_ped (skipsFace face_score_thresh face_area_thresh) object_boxes)) ∧
    (MatchCurDetectFaceAndBodyOfMap memory cls_id_map object_boxes cur face_area_thresh
        update_timestamp update_frame_id).2 = cur ++ second.mapIdx object ∧
      (IsMatching (cls_id_map.at "cls_ped") object_boxes second ↔
        Unshared (cls_id_map.at "cls_face") (cls_id_map.at "cls_ped")
          (skipsSmallFace face_area_thresh) object_boxes) := by
  intro first second object
  refine ⟨⟨rfl, isMatching_iff ?_⟩, rfl, isMatching_iff hcls⟩
  show (2 : Int) ≠ 1
  omega

end

/-! ## A face in two bodies -/

/-- The ids of the first overload, as a map. -/
def categoryMap : ClassMap := fun key =>
  if key = "cls_face" then some CategoryId.cls_face
  else if key = "cls_head" then some CategoryId.cls_head
  else if key = "cls_ped" then some CategoryId.cls_ped
  else none

/-- Memory that holds zeros. -/
def zeroed : Unassigned ℚ := ⟨0, 0, ⟨0, 0, 0⟩, ⟨0, 0, 0⟩, 0, 0⟩

/-- A face that lies in both of the boxes below. -/
def faceInside : Box ℚ := ⟨4, 2, 6, 4, 9 / 10, 2⟩

/-- A face, and two pedestrians who stand so close that it lies in both of their boxes. -/
def closeTogether : List (Box ℚ) :=
  [faceInside, ⟨0, 0, 10, 20, 9 / 10, 1⟩, ⟨1, 0, 11, 20, 8 / 10, 1⟩]

/-- A face with one pedestrian. -/
theorem matchCurDetectFaceAndBody_iff_alone :
    Unshared CategoryId.cls_face CategoryId.cls_ped (skipsFace 0 0)
      [faceInside, ⟨0, 0, 10, 20, 9 / 10, 1⟩] := by
  have h := matchCurDetectFaceAndBody_iff (fun _ => zeroed) categoryMap [] 0 0
    [faceInside, ⟨0, 0, 10, 20, 9 / 10, 1⟩] 0 0 (by decide)
  refine h.1.2.mp ⟨?_, ?_⟩
  · decide +kernel
  · decide +kernel

/-- Both of the two objects get the one face, in both overloads. -/
theorem face_in_two_bodies :
    ((MatchCurDetectFaceAndBody (fun _ => zeroed) closeTogether [] 0 0 7 7).map
        (·.last_updated_face_bbox) = List.replicate 2 (ConvertBoxToBBoxMessage faceInside 7 7) ∧
      ¬ IsMatching CategoryId.cls_ped closeTogether
        (pairing CategoryId.cls_face CategoryId.cls_ped (skipsFace 0 0) closeTogether)) ∧
    ((MatchCurDetectFaceAndBodyOfMap (fun _ => zeroed) categoryMap closeTogether [] 0 7 7).2.map
        (·.last_updated_face_bbox) = List.replicate 2 (ConvertBoxToBBoxMessage faceInside 7 7) ∧
      ¬ IsMatching (categoryMap.at "cls_ped") closeTogether (pairing (categoryMap.at "cls_face")
        (categoryMap.at "cls_ped") (skipsSmallFace 0) closeTogether)) := by
  refine ⟨⟨by decide +kernel, ?_⟩, by decide +kernel, ?_⟩
  · intro h
    exact absurd h.faces (by decide +kernel)
  · intro h
    exact absurd h.faces (by decide +kernel)

end EdgeFrame.Track
