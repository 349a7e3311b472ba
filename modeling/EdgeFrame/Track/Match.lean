/-
# EdgeFrame.Track.Match -- `IOUMatch` and `FeatureMatch`

Both passes collect the indexes of the objects and of the detections that are still
free, fill a cost table, let the solver assign, and keep the pairs whose cost is below
a threshold. What the callers rely on is `Linked`: the pairs point at free objects and
free detections with a body, and no index occurs twice. It holds for every cost table.

That the solver returns is taken from `Assign.Progress` for all tables, whatever the costs
are; that it assigns each row and each column once at most makes the indexes of the
pairs distinct (`pairsBelow_spec`). `FeatureMatch` can end in other ways: it crops the
image, and asserts that two features are of one length. It changes detections on its way,
since what it extracts stays with them, but their features only
(`featureTable_withoutFeature`).

How cheap the assignment is, and what the costs are, is `Track.Optimal` and `Track.Costs`.
-/
import EdgeFrame.Assign.Progress
import EdgeFrame.Lib.Vectors
import EdgeFrame.Track.Objects
import Mathlib

namespace EdgeFrame.Track

open Lib Assign

/-- The source's pair of indexes. -/
structure MatchPair where
  i_index : Nat
  j_index : Nat
  deriving DecidableEq, Repr

variable {K : Type}

/-! ## What the callers rely on -/

/-- A free object, a free detection with a body, and no index used twice. -/
structure Linked (ts ds : List (PersonObject K)) (match_pairs : List MatchPair) : Prop where
  objects : ∀ p ∈ match_pairs, ∃ o, ts[p.i_index]? = some o ∧
    o.is_current_frame_matched_or_new = false
  detections : ∀ p ∈ match_pairs, ∃ d, ds[p.j_index]? = some d ∧
    d.is_current_frame_matched_or_new = false ∧ d.is_current_body_detected = true
  nodup_i : (match_pairs.map (·.i_index)).Nodup
  nodup_j : (match_pairs.map (·.j_index)).Nodup

/-- No pairs are linked. -/
theorem linked_nil {ts ds : List (PersonObject K)} : Linked ts ds [] := by
  constructor <;> simp

/-- An object without the feature message that the passes may fill in. -/
def PersonObject.withoutFeature (d : PersonObject K) : PersonObject K :=
  { d with last_updated_body_feature_message := ⟨0, 0, []⟩ }

variable [Field K] [LinearOrder K]

/-! ## Costs -/

/-- The intersection of two boxes over their union. -/
def GetIOU (bb_test bb_gt : Rect K) : K :=
  let in_ := (bb_test.inter bb_gt).area
  let un := bb_test.area + bb_gt.area - in_
  if un < DBL_EPSILON then 0 else in_ / un

/-- `CalcCosSimilarity` of two vectors, with its `assert` on their sizes. -/
def CalcCosSimilarity (P : Setup K) (feature_a feature_b : List K) : Except Abort K :=
  if feature_a.length = feature_b.length then
    let matmul := (feature_a.zip feature_b).foldl (fun s p => s + p.1 * p.2) 0
    let norm_a := feature_a.foldl (fun s a => s + a * a) 0
    let norm_b := feature_b.foldl (fun s b => s + b * b) 0
    .ok (matmul / (P.sqrt norm_a * P.sqrt norm_b))
  else .error .assertion

/-- The region `image(rect)` accepts. -/
def insideImage (image : Mat) (roi : Rect Int) : Bool :=
  0 ≤ roi.x && 0 ≤ roi.width && roi.x + roi.width ≤ image.cols &&
    0 ≤ roi.y && 0 ≤ roi.height && roi.y + roi.height ≤ image.rows

/-- The feature of a detection, extracted when it has none yet. -/
def extractFeature (P : Setup K) (cur : CurrentFrame) (d : PersonObject K) :
    Except Abort (PersonObject K) :=
  let feature := d.last_updated_body_feature_message.tengine_feature
  if feature.isEmpty then
    let image := cur.p_cur_process_frame_mat_
    let roi := d.last_updated_body_bbox.bbox_rect.round P.cvRound
    if insideImage image roi then
      .ok { d with last_updated_body_feature_message := {
        update_timestamp := cur.cur_process_frame_timestamp_
        update_frame_id := cur.cur_process_frame_id_
        tengine_feature := List.ofFn (P.reid image roi) ++ feature } }
    else .error .roi
  else .ok d

/-- `min_cost` of an object and a detection, over the stored features of the object. -/
def featureCost (P : Setup K) (o d : PersonObject K) : Except Abort K :=
  o.feature_messages.foldlM (fun min_cost message => do
    let similarity ← CalcCosSimilarity P message.tengine_feature
      d.last_updated_body_feature_message.tengine_feature
    let cost := 1 - similarity
    return if cost < min_cost then cost else min_cost) 1

/-! ## Pairs below a threshold -/

/-- The end of both passes: solve, and keep the assigned pairs with a cost below `1 - thresh`. -/
def pairsBelow (is js : List Nat) (table : Fin is.length → Fin js.length → K) (thresh : K) :
    Except Abort (List MatchPair) := do
  let (_, assignment) ← Solve table
  return (List.finRange is.length).filterMap fun i =>
    match assignment i with
    | none => none
    | some j => if table i j < 1 - thresh then some ⟨is.get i, js.get j⟩ else none

/-- `IOUMatch` over the body or the face boxes. -/
def IOUMatch (P : Setup K) (tracked_person_objects cur_detected_person_objects :
    List (PersonObject K)) (bbox_type : BBoxType) : Except Abort (List MatchPair) :=
  let tracked_indexes :=
    indexesWhere (fun o => !o.is_current_frame_matched_or_new) tracked_person_objects
  let detected_indexes := indexesWhere
    (fun d => !d.is_current_frame_matched_or_new && d.detected bbox_type)
    cur_detected_person_objects
  if tracked_indexes.isEmpty || detected_indexes.isEmpty then .ok []
  else
    pairsBelow tracked_indexes detected_indexes (fun i j =>
      match tracked_person_objects[tracked_indexes.get i]?,
        cur_detected_person_objects[detected_indexes.get j]? with
      | some o, some d => 1 - GetIOU (o.lastBBox bbox_type).bbox_rect (d.lastBBox bbox_type).bbox_rect
      | _, _ => 1) P.iou_thresh

/-! ## The feature table -/

/-- One row of the table, with the features it extracts on the way.

The row is filled from left to right, so that a detection whose feature is extracted in one row has
it in the next. -/
def featureRow (P : Setup K) (cur : CurrentFrame) (o : PersonObject K) :
    List Nat → List (PersonObject K) → Except Abort (List K × List (PersonObject K))
  | [], ds => .ok ([], ds)
  | j :: js, ds =>
    match ds[j]? with
    | none => .error .outOfRange
    | some d => do
      let d ← extractFeature P cur d
      let cost ← featureCost P o d
      let (row, ds) ← featureRow P cur o js (ds.set j d)
      return (cost :: row, ds)

/-- All rows, in order. -/
def featureTable (P : Setup K) (cur : CurrentFrame) (expired_person_objects : List (PersonObject K))
    (js : List Nat) :
    List Nat → List (PersonObject K) → Except Abort (List (List K) × List (PersonObject K))
  | [], ds => .ok ([], ds)
  | i :: is, ds =>
    match expired_person_objects[i]? with
    | none => .error .outOfRange
    | some o => do
      let (row, ds) ← featureRow P cur o js ds
      let (table, ds) ← featureTable P cur expired_person_objects js is ds
      return (row :: table, ds)

/-- `FeatureMatch`: the pairs, and the detections with the features that were extracted. A cell that
nothing was written to holds the 1.0 it was created with. -/
def FeatureMatch (P : Setup K) (cur : CurrentFrame) (expired_person_objects
    cur_detected_person_objects : List (PersonObject K)) (bbox_type : BBoxType) :
    Except Abort (List MatchPair × List (PersonObject K)) :=
  let expired_indexes := indexesWhere (fun o => !o.is_current_frame_matched_or_new &&
    o.object_status = .confirmed && bbox_type = .body && !o.feature_messages.isEmpty)
    expired_person_objects
  let detected_indexes := indexesWhere (fun d => !d.is_current_frame_matched_or_new &&
    d.detected bbox_type && (bbox_type = .face ||
      bodyAreaAbove cur d P.bbox_area_extract_feature_thresh)) cur_detected_person_objects
  if expired_indexes.isEmpty || detected_indexes.isEmpty then .ok ([], cur_detected_person_objects)
  else do
    let (table, cur_detected_person_objects) ←
      featureTable P cur expired_person_objects detected_indexes expired_indexes
        cur_detected_person_objects
    let match_pairs ← pairsBelow expired_indexes detected_indexes
      (fun i j => (table[i.val]?.bind (·[j.val]?)).getD 1) P.cos_similarity_thresh
    return (match_pairs, cur_detected_person_objects)

/-! ## The two passes -/

/-- **The pairs of a pass**: for any table the solver returns, and what is kept of its assignment
uses each index at most once.

The solver returns a complete assignment (`assignmentoptimal_spec`), and the indexes it is translated
to have no repetition. -/
theorem pairsBelow_spec [IsStrictOrderedRing K] {is js : List Nat} (his : is.Nodup)
    (hjs : js.Nodup) (table : Fin is.length → Fin js.length → K) (thresh : K) :
    ∃ pairs, pairsBelow is js table thresh = .ok pairs ∧
      (∀ p ∈ pairs, p.i_index ∈ is ∧ p.j_index ∈ js) ∧
      (pairs.map (·.i_index)).Nodup ∧ (pairs.map (·.j_index)).Nodup := by
  obtain ⟨assignment, hassign, hmatch, -⟩ := assignmentoptimal_spec table
  have hsolve : Solve table = .ok (computeassignmentcost table assignment, assignment) := by
    rw [Solve, hassign]
    rfl
  -- a kept pair is an entry of the assignment
  have hpair : ∀ {i : Fin is.length} {p : MatchPair}, (match assignment i with
      | none => none
      | some j => if table i j < 1 - thresh then some ⟨is.get i, js.get j⟩ else none) = some p →
      ∃ j, assignment i = some j ∧ p = ⟨is.get i, js.get j⟩ := by
    intro i p hp
    split at hp
    · cases hp
    · rename_i j hj
      split at hp
      · exact ⟨j, hj, (Option.some.inj hp).symm⟩
      · cases hp
  refine ⟨_, by simp only [pairsBelow, hsolve]; rfl, ?_, ?_, ?_⟩
  · intro p hp
    obtain ⟨i, -, hp⟩ := List.mem_filterMap.mp hp
    obtain ⟨j, -, rfl⟩ := hpair hp
    exact ⟨List.get_mem is i, List.get_mem js j⟩
  -- no object twice, since each row is gone through once
  · rw [List.map_filterMap]
    refine (List.nodup_finRange _).filterMap ?_
    intro i i' x hx hx'
    obtain ⟨p, hp, rfl⟩ := Option.map_eq_some_iff.mp hx
    obtain ⟨p', hp', hpp⟩ := Option.map_eq_some_iff.mp hx'
    obtain ⟨j, -, rfl⟩ := hpair hp
    obtain ⟨j', -, rfl⟩ := hpair hp'
    exact his.injective_get hpp.symm
  -- no detection twice, since the assignment has each column once
  · rw [List.map_filterMap]
    refine (List.nodup_finRange _).filterMap ?_
    intro i i' x hx hx'
    obtain ⟨p, hp, rfl⟩ := Option.map_eq_some_iff.mp hx
    obtain ⟨p', hp', hpp⟩ := Option.map_eq_some_iff.mp hx'
    obtain ⟨j, hj, rfl⟩ := hpair hp
    obtain ⟨j', hj', rfl⟩ := hpair hp'
    have hjj : j' = j := hjs.injective_get hpp
    subst hjj
    exact hmatch.right hj hj'

/-- `IOUMatch` returns linked pairs. -/
theorem IOUMatch_spec [IsStrictOrderedRing K] (P : Setup K) (ts ds : List (PersonObject K)) :
    ∃ pairs, IOUMatch P ts ds .body = .ok pairs ∧ Linked ts ds pairs := by
  unfold IOUMatch
  simp only
  split
  · exact ⟨[], rfl, linked_nil⟩
  · obtain ⟨pairs, hok, hmem, hi, hj⟩ := pairsBelow_spec (K := K) nodup_indexesWhere nodup_indexesWhere _ _
    refine ⟨pairs, hok, fun p hp => ?_, fun p hp => ?_, hi, hj⟩
    · obtain ⟨o, ho, hfree⟩ := mem_indexesWhere.mp (hmem p hp).1
      exact ⟨o, ho, by simpa using hfree⟩
    · obtain ⟨d, hd, hfree⟩ := mem_indexesWhere.mp (hmem p hp).2
      exact ⟨d, hd, by simpa [PersonObject.detected] using hfree⟩

omit [LinearOrder K] in
/-- Extracting a feature changes nothing else. -/
theorem extractFeature_withoutFeature {P : Setup K} {cur : CurrentFrame} {d d' : PersonObject K}
    (h : extractFeature P cur d = .ok d') : d'.withoutFeature = d.withoutFeature := by
  unfold extractFeature at h
  simp only at h
  split at h
  · split at h
    · cases h
      rfl
    · cases h
  · cases h
    rfl

/-- What a row that returns has done in its first cell, and what is left of it. -/
theorem featureRow_cons_ok {P : Setup K} {cur : CurrentFrame} {o : PersonObject K} {j : Nat}
    {js : List Nat} {ds ds' : List (PersonObject K)} {row : List K}
    (h : featureRow P cur o (j :: js) ds = .ok (row, ds')) :
    ∃ d d' cost row', ds[j]? = some d ∧ extractFeature P cur d = .ok d' ∧
      featureCost P o d' = .ok cost ∧ featureRow P cur o js (ds.set j d') = .ok (row', ds') ∧
      row = cost :: row' := by
  unfold featureRow at h
  split at h
  · cases h
  · rename_i d hd
    obtain ⟨d', hextract, h⟩ := Abort.bind_eq_ok h
    obtain ⟨cost, hcost, h⟩ := Abort.bind_eq_ok h
    obtain ⟨⟨row', ds₁⟩, hrow, h⟩ := Abort.bind_eq_ok h
    cases h
    exact ⟨d, d', cost, row', hd, hextract, hcost, hrow, rfl⟩

/-- What a table that returns has done in its first row, and what is left of it. -/
theorem featureTable_cons_ok {P : Setup K} {cur : CurrentFrame} {ts : List (PersonObject K)}
    {js is : List Nat} {i : Nat} {ds ds' : List (PersonObject K)} {table : List (List K)}
    (h : featureTable P cur ts js (i :: is) ds = .ok (table, ds')) :
    ∃ o row ds₁ table', ts[i]? = some o ∧ featureRow P cur o js ds = .ok (row, ds₁) ∧
      featureTable P cur ts js is ds₁ = .ok (table', ds') ∧ table = row :: table' := by
  unfold featureTable at h
  split at h
  · cases h
  · rename_i o ho
    obtain ⟨⟨row, ds₁⟩, hrow, h⟩ := Abort.bind_eq_ok h
    obtain ⟨⟨table', ds₂⟩, htable, h⟩ := Abort.bind_eq_ok h
    cases h
    exact ⟨o, row, ds₁, table', ho, hrow, htable, rfl⟩

/-- Nor does a row, by induction on its cells. -/
theorem featureRow_withoutFeature {P : Setup K} {cur : CurrentFrame} {o : PersonObject K}
    {js : List Nat} : ∀ {ds ds' : List (PersonObject K)} {row : List K},
      featureRow P cur o js ds = .ok (row, ds') →
      ds'.map (·.withoutFeature) = ds.map (·.withoutFeature) := by
  induction js with
  | nil =>
    intro ds ds' row h
    cases h
    rfl
  | cons j js ih =>
    intro ds ds' row h
    obtain ⟨d, d', cost, row', hd, hextract, -, hrow, -⟩ := featureRow_cons_ok h
    rw [ih hrow, map_set_of_eq hd (extractFeature_withoutFeature hextract)]

/-- Nor the whole table, by induction on its rows. -/
theorem featureTable_withoutFeature {P : Setup K} {cur : CurrentFrame} {ts : List (PersonObject K)}
    {js is : List Nat} : ∀ {ds ds' : List (PersonObject K)} {table : List (List K)},
      featureTable P cur ts js is ds = .ok (table, ds') →
      ds'.map (·.withoutFeature) = ds.map (·.withoutFeature) := by
  induction is with
  | nil =>
    intro ds ds' table h
    cases h
    rfl
  | cons i is ih =>
    intro ds ds' table h
    obtain ⟨o, row, ds₁, table', -, hrow, htable, -⟩ := featureTable_cons_ok h
    rw [ih htable, featureRow_withoutFeature hrow]

/-- **`FeatureMatch`**, when it returns, has linked objects to detections, and has changed nothing
about the detections but their features. -/
theorem FeatureMatch_spec [IsStrictOrderedRing K] {P : Setup K} {cur : CurrentFrame}
    {ts ds ds' : List (PersonObject K)} {pairs : List MatchPair}
    (h : FeatureMatch P cur ts ds .body = .ok (pairs, ds')) :
    Linked ts ds' pairs ∧ ds'.map (·.withoutFeature) = ds.map (·.withoutFeature) := by
  unfold FeatureMatch at h
  simp only at h
  split at h
  · cases h
    exact ⟨linked_nil, rfl⟩
  · obtain ⟨⟨table, ds₁⟩, htable, h⟩ := Abort.bind_eq_ok h
    obtain ⟨pairs', hpairs, h⟩ := Abort.bind_eq_ok h
    cases h
    have hsame := featureTable_withoutFeature htable
    obtain ⟨pairs', hok, hmem, hi, hj⟩ := pairsBelow_spec (K := K) nodup_indexesWhere nodup_indexesWhere _ _
    rw [hok] at hpairs
    cases hpairs
    refine ⟨⟨fun p hp => ?_, fun p hp => ?_, hi, hj⟩, hsame⟩
    · obtain ⟨o, ho, hfree⟩ := mem_indexesWhere.mp (hmem p hp).1
      simp only [Bool.and_eq_true, Bool.not_eq_true'] at hfree
      exact ⟨o, ho, hfree.1.1.1⟩
    · -- the detection at this index is the one that was eligible, but for its feature
      obtain ⟨d, hd, hfree⟩ := mem_indexesWhere.mp (hmem p hp).2
      simp only [Bool.and_eq_true, Bool.not_eq_true', PersonObject.detected] at hfree
      have hget : (ds₁.map (·.withoutFeature))[p.j_index]? = some d.withoutFeature := by
        rw [hsame, List.getElem?_map, hd]
        rfl
      rw [List.getElem?_map] at hget
      obtain ⟨d', hd', hwd⟩ := Option.map_eq_some_iff.mp hget
      refine ⟨d', hd', ?_, ?_⟩
      · exact (congrArg (·.is_current_frame_matched_or_new) hwd).trans hfree.1.1
      · exact (congrArg (·.is_current_body_detected) hwd).trans hfree.1.2

end EdgeFrame.Track
