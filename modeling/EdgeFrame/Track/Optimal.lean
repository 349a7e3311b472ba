/-
# EdgeFrame.Track.Optimal -- `IOUMatch` keeps the good part of a cheapest assignment

The pass assigns the free objects to the eligible detections as cheaply as the solver
does, with `1 - IoU` for a cost, and keeps the pairs that overlap by more than
`iou_thresh`. The positions in the table are translated back to indexes of the two
vectors, which loses no pair and repeats none.

The assignment is named in the statement, since there may be several cheapest ones: the
pairs are the part of the one that the solver has found. It is complete, and within
`DBL_EPSILON` a pair of every complete one (`assignmentoptimal_optimal`). The pass does not
choose its pairs by their overlap, so that a good pair may be lost to a cheaper whole.
-/
import EdgeFrame.Assign.Optimal
import EdgeFrame.Track.Match
import Mathlib

namespace EdgeFrame.Track

open Lib Assign

variable {K : Type} [Field K] [LinearOrder K]

/-- The `tracked_indexes` of `IOUMatch`. -/
def tracked_indexes (ts : List (PersonObject K)) : List Nat :=
  indexesWhere (fun o => !o.is_current_frame_matched_or_new) ts

/-- The `detected_indexes` of `IOUMatch`. -/
def detected_indexes (bbox_type : BBoxType) (ds : List (PersonObject K)) : List Nat :=
  indexesWhere (fun d => !d.is_current_frame_matched_or_new && d.detected bbox_type) ds

/-- The overlap of the object at `i` and the detection at `j`. -/
def overlap (bbox_type : BBoxType) (ts ds : List (PersonObject K)) (i j : Nat) : K :=
  match ts[i]?, ds[j]? with
  | some o, some d => GetIOU (o.lastBBox bbox_type).bbox_rect (d.lastBBox bbox_type).bbox_rect
  | _, _ => 0

/-- The cost table of `IOUMatch`. -/
def iouTable (bbox_type : BBoxType) (ts ds : List (PersonObject K)) :
    Fin (tracked_indexes ts).length → Fin (detected_indexes bbox_type ds).length → K :=
  fun i j => 1 - overlap bbox_type ts ds ((tracked_indexes ts).get i)
    ((detected_indexes bbox_type ds).get j)

/-- The pass, in these terms. -/
theorem IOUMatch_eq (P : Setup K) (ts ds : List (PersonObject K)) (bbox_type : BBoxType) :
    IOUMatch P ts ds bbox_type =
      if (tracked_indexes ts).isEmpty || (detected_indexes bbox_type ds).isEmpty then .ok []
      else pairsBelow (tracked_indexes ts) (detected_indexes bbox_type ds)
        (iouTable bbox_type ts ds) P.iou_thresh := by
  have htable : iouTable bbox_type ts ds = fun i j =>
      match ts[(tracked_indexes ts).get i]?, ds[(detected_indexes bbox_type ds).get j]? with
      | some o, some d =>
        1 - GetIOU (o.lastBBox bbox_type).bbox_rect (d.lastBBox bbox_type).bbox_rect
      | _, _ => 1 := by
    funext i j
    unfold iouTable overlap
    split
    · rfl
    · exact sub_zero 1
  rw [htable]
  rfl

/-- What a pass returns: the assigned pairs below the threshold. -/
theorem mem_pairsBelow {is js : List Nat} {table : Fin is.length → Fin js.length → K} {thresh : K}
    {a : Fin is.length → Option (Fin js.length)} (ha : assignmentoptimal table = .ok a)
    {pairs : List MatchPair} (h : pairsBelow is js table thresh = .ok pairs) {p : MatchPair} :
    p ∈ pairs ↔ ∃ i j, a i = some j ∧ p = ⟨is.get i, js.get j⟩ ∧ table i j < 1 - thresh := by
  have hsolve : Solve table = .ok (computeassignmentcost table a, a) := by
    rw [Solve, ha]
    rfl
  unfold pairsBelow at h
  rw [hsolve] at h
  obtain rfl := Except.ok.inj h
  rw [List.mem_filterMap]
  constructor
  · intro hmem
    obtain ⟨i, -, hp⟩ := hmem
    split at hp
    · exact absurd hp (by simp)
    · rename_i j hj
      split at hp
      · rename_i hlt
        exact ⟨i, j, hj, (Option.some.inj hp).symm, hlt⟩
      · exact absurd hp (by simp)
  · intro hmem
    obtain ⟨i, j, hj, hp, hlt⟩ := hmem
    refine ⟨i, List.mem_finRange i, ?_⟩
    simp only [hj, hlt, if_true, hp]

variable [IsStrictOrderedRing K]

/-- What the pairs are to the assignment they come from.

The last two parts come from the two lists of indexes, which have no repetition. -/
structure KeptFrom (P : Setup K) (ts ds : List (PersonObject K)) (bbox_type : BBoxType)
    (a : Fin (tracked_indexes ts).length → Option (Fin (detected_indexes bbox_type ds).length))
    (match_pairs : List MatchPair) : Prop where
  /-- as many objects as there can be have detections, and different ones -/
  complete : Complete a
  /-- no such assignment is cheaper by more than `DBL_EPSILON` a pair -/
  cheapest : ∀ a', Complete a' → computeassignmentcost (iouTable bbox_type ts ds) a ≤
    computeassignmentcost (iouTable bbox_type ts ds) a' +
      (min (tracked_indexes ts).length (detected_indexes bbox_type ds).length : Nat) * DBL_EPSILON
  /-- the pairs are the assigned ones that overlap enough -/
  pairs : ∀ p, p ∈ match_pairs ↔ ∃ i j, a i = some j ∧
    p = ⟨(tracked_indexes ts).get i, (detected_indexes bbox_type ds).get j⟩ ∧
    P.iou_thresh < overlap bbox_type ts ds p.i_index p.j_index
  range : ∀ p ∈ match_pairs, p.i_index < ts.length ∧ p.j_index < ds.length
  nodup_i : (match_pairs.map (·.i_index)).Nodup
  nodup_j : (match_pairs.map (·.j_index)).Nodup

/-- **`IOUMatch` is a thresholded optimal assignment**: the solver assigns the free objects to the
eligible detections as cheaply as can be, and the pairs are the part of that assignment whose overlap
is above `iou_thresh`.

The solver returns by `assignmentoptimal_spec`, for every table, also one without rows or columns,
for which the pass does not call it. -/
theorem IOUMatch_optimal (P : Setup K) (ts ds : List (PersonObject K)) (bbox_type : BBoxType) :
    ∃ a match_pairs, IOUMatch P ts ds bbox_type = .ok match_pairs ∧
      Solve (iouTable bbox_type ts ds) =
        .ok (computeassignmentcost (iouTable bbox_type ts ds) a, a) ∧
      KeptFrom P ts ds bbox_type a match_pairs := by
  obtain ⟨a, ha, hcomplete⟩ := assignmentoptimal_spec (iouTable bbox_type ts ds)
  have hsolve : Solve (iouTable bbox_type ts ds) =
      .ok (computeassignmentcost (iouTable bbox_type ts ds) a, a) := by
    rw [Solve, ha]
    rfl
  have hcheapest := fun (a' : Fin (tracked_indexes ts).length →
      Option (Fin (detected_indexes bbox_type ds).length)) (h : Complete a') =>
    assignmentoptimal_optimal ha h
  rw [IOUMatch_eq]
  split
  · -- without objects or without detections there is nobody to assign
    rename_i hempty
    refine ⟨a, [], rfl, hsolve, hcomplete, hcheapest, fun p => ?_, ?_, List.nodup_nil,
      List.nodup_nil⟩
    · simp only [Bool.or_eq_true, List.isEmpty_iff] at hempty
      constructor
      · exact fun hp => absurd hp (by simp)
      · intro hmem
        obtain ⟨i, j, -⟩ := hmem
        rcases hempty with hempty | hempty
        · exact absurd i.isLt (by simp [hempty])
        · exact absurd j.isLt (by simp [hempty])
    · exact fun p hp => absurd hp (by simp)
  · obtain ⟨match_pairs, hpairs, hmem, hi, hj⟩ := pairsBelow_spec (K := K) nodup_indexesWhere
      nodup_indexesWhere (iouTable bbox_type ts ds) P.iou_thresh
    refine ⟨a, match_pairs, hpairs, hsolve, hcomplete, hcheapest, fun p => ?_, fun p hp => ?_, hi,
      hj⟩
    -- a cost below `1 - iou_thresh` is an overlap above the threshold
    · rw [mem_pairsBelow ha hpairs]
      refine exists_congr fun i => exists_congr fun j => and_congr_right fun _ =>
        and_congr_right fun hp => ?_
      subst hp
      unfold iouTable
      exact sub_lt_sub_iff_left 1
    · obtain ⟨o, ho, -⟩ := mem_indexesWhere.mp (hmem p hp).1
      obtain ⟨d, hd, -⟩ := mem_indexesWhere.mp (hmem p hp).2
      exact ⟨(List.getElem?_eq_some_iff.mp ho).1, (List.getElem?_eq_some_iff.mp hd).1⟩

/-- Someone whose body was seen `x` pixels from the left. -/
def seenAt (x : ℚ) : PersonObject ℚ :=
  PersonObject.new ⟨0, 0, ⟨0, 0, 0⟩, ⟨0, 0, 0⟩, 0, 0⟩ none (some ⟨1, 1, 1, ⟨x, 100, 20, 40⟩⟩) (-1)

/-- Two people who stand close together: the second one did not move, and the pass does not give
away what belongs to them. -/
theorem IOUMatch_optimal_closeTogether :
    let P : Setup ℚ := ⟨Thresholds.initial, id, round, fun _ _ _ => 0⟩
    let ts := [seenAt 100, seenAt 105]
    let ds := [seenAt 107, seenAt 105]
    ∃ a, KeptFrom P ts ds .body a [⟨0, 0⟩, ⟨1, 1⟩] := by
  intro P ts ds
  obtain ⟨a, match_pairs, hpairs, -, hkept⟩ := IOUMatch_optimal P ts ds .body
  have hrun : IOUMatch P ts ds .body = .ok [⟨0, 0⟩, ⟨1, 1⟩] := by decide +kernel
  rw [hrun] at hpairs
  obtain rfl := Except.ok.inj hpairs
  exact ⟨a, hkept⟩

end EdgeFrame.Track
