/-
# EdgeFrame.Track.Costs -- the tables the solver is given

Both passes hand the solver a table of costs: one minus an overlap, or one minus the
best of some cosines. `Update.tables` collects the tables of one call of `Update` in the
order in which `Solve` receives them, also when the call fails after some of them. Every
table has a cell, and every cell lies between zero and one.

`Update.tables` follows the passes of `Update` beside it. That it lists what `Update`
asks of the solver, and all of it, is `UpdateWith_eq`: with the solver as a parameter,
`Update` depends on the solver's answers to these tables and to no others.

Where the bounds come from:

* an intersection is part of either rectangle, so an overlap is a fraction of the union
  (`GetIOU_mem`), also for rectangles of negative extents;
* a cosine is at most one by the inequality of Cauchy and Schwarz
  (`EdgeFrame.Lib.Cosine`), for any square root that deserves the name;
* a cell is the least of some such costs and of 1, and starts as 1 (`featureCost_mem`).
-/
import EdgeFrame.Lib.Cosine
import EdgeFrame.Track.Conservation
import EdgeFrame.Track.Optimal
import Mathlib

namespace EdgeFrame.Track

open Lib Assign

variable {K : Type} [Field K] [LinearOrder K]

/-! ## The tables -/

/-- A table that `Solve` is given. -/
structure CostTable (K : Type) where
  rows : Nat
  cols : Nat
  cost : Fin rows → Fin cols → K

/-- `assignmentoptimal` has an element to complain about: "All matrix elements have to be
non-negative." -/
def CostTable.complains (t : CostTable K) : Bool :=
  (List.finRange t.rows).any fun i => (List.finRange t.cols).any fun j => t.cost i j < 0

/-- The table of `IOUMatch`, if it calls `Solve`. -/
def IOUMatch.tables (tracked_person_objects cur_detected_person_objects : List (PersonObject K))
    (bbox_type : BBoxType) : List (CostTable K) :=
  if (tracked_indexes tracked_person_objects).isEmpty ||
      (detected_indexes bbox_type cur_detected_person_objects).isEmpty then []
  else [⟨_, _, iouTable bbox_type tracked_person_objects cur_detected_person_objects⟩]

/-- The `expired_indexes` of `FeatureMatch`. -/
def expired_indexes (bbox_type : BBoxType) (ts : List (PersonObject K)) : List Nat :=
  indexesWhere (fun o => !o.is_current_frame_matched_or_new && o.object_status = .confirmed &&
    bbox_type = .body && !o.feature_messages.isEmpty) ts

/-- The `detected_indexes` of `FeatureMatch`. -/
def large_indexes (P : Setup K) (cur : CurrentFrame) (bbox_type : BBoxType)
    (ds : List (PersonObject K)) : List Nat :=
  indexesWhere (fun d => !d.is_current_frame_matched_or_new && d.detected bbox_type &&
    (bbox_type = .face || bodyAreaAbove cur d P.bbox_area_extract_feature_thresh)) ds

/-- The cells that were written; the others hold the 1.0 they were created with. -/
def cells (table : List (List K)) (rows cols : Nat) : Fin rows → Fin cols → K :=
  fun i j => (table[i.val]?.bind (·[j.val]?)).getD 1

/-- The table of `FeatureMatch`, if it gets as far as to call `Solve`. -/
def FeatureMatch.tables (P : Setup K) (cur : CurrentFrame) (expired_person_objects
    cur_detected_person_objects : List (PersonObject K)) (bbox_type : BBoxType) :
    List (CostTable K) :=
  let is := expired_indexes bbox_type expired_person_objects
  let js := large_indexes P cur bbox_type cur_detected_person_objects
  if is.isEmpty || js.isEmpty then []
  else
    match featureTable P cur expired_person_objects js is cur_detected_person_objects with
    | .error _ => []
    | .ok (table, _) => [⟨is.length, js.length, cells table is.length js.length⟩]

/-- `FeatureMatch`, with names for its indexes and its table. -/
theorem FeatureMatch_eq (P : Setup K) (cur : CurrentFrame) (ts ds : List (PersonObject K))
    (bbox_type : BBoxType) :
    FeatureMatch P cur ts ds bbox_type =
      if (expired_indexes bbox_type ts).isEmpty || (large_indexes P cur bbox_type ds).isEmpty then
        .ok ([], ds)
      else
        featureTable P cur ts (large_indexes P cur bbox_type ds) (expired_indexes bbox_type ts) ds >>=
          fun r => do
            let match_pairs ← pairsBelow (expired_indexes bbox_type ts)
              (large_indexes P cur bbox_type ds) (cells r.1 _ _) P.cos_similarity_thresh
            return (match_pairs, r.2) := rfl

/-- The tables of the three passes of `Update`. -/
def Update.tables (P : Setup K) (s : Tracker K) (inp : Input K) : List (CostTable K) :=
  let cur := inp.current
  let dets := inp.cur_detected_person_objects
  if dets.any (·.is_current_frame_matched_or_new) then []
  else
    let tracked := s.trackedPersonObjects.map startFrame
    IOUMatch.tables tracked dets .body ++
    match (do
      let match_pairs ← IOUMatch P tracked dets .body
      UpdateMatchedTrackedObjects P cur match_pairs tracked dets) with
    | .error _ => []
    | .ok (tracked, dets, _) =>
      FeatureMatch.tables P cur tracked dets .body ++
      match (do
        let (match_pairs, dets) ← FeatureMatch P cur tracked dets .body
        let (tracked, dets, _) ← UpdateMatchedTrackedObjects P cur match_pairs tracked dets
        let (_, expired) ← UpdateUnMatchedTrackedObjectsStatus P inp.frame_id tracked
          s.expiredPersonObjects
        return (expired, dets)) with
      | .error _ => []
      | .ok (expired, dets) => FeatureMatch.tables P cur expired dets .body

/-! ## What is asked of the solver

`Update` with the solver as a parameter. It asks the solver about the tables of
`Update.tables` and about no others: a solver that answers these as `Solve` does can take
its place, whatever it says of other tables. -/

/-- What stands in the place of `Solve`. -/
abbrev Solver (K : Type) : Type :=
  ∀ rows cols : Nat, (Fin rows → Fin cols → K) → Except Abort (K × (Fin rows → Option (Fin cols)))

/-- The end of both passes, over a solver. -/
def pairsBelowWith (solve : Solver K) (is js : List Nat) (table : Fin is.length → Fin js.length → K)
    (thresh : K) : Except Abort (List MatchPair) := do
  let (_, assignment) ← solve is.length js.length table
  return (List.finRange is.length).filterMap fun i =>
    match assignment i with
    | none => none
    | some j => if table i j < 1 - thresh then some ⟨is.get i, js.get j⟩ else none

/-- `IOUMatch` over a solver. -/
def IOUMatchWith (solve : Solver K) (P : Setup K) (ts ds : List (PersonObject K))
    (bbox_type : BBoxType) : Except Abort (List MatchPair) :=
  if (tracked_indexes ts).isEmpty || (detected_indexes bbox_type ds).isEmpty then .ok []
  else pairsBelowWith solve (tracked_indexes ts) (detected_indexes bbox_type ds)
    (iouTable bbox_type ts ds) P.iou_thresh

/-- `FeatureMatch` over a solver. -/
def FeatureMatchWith (solve : Solver K) (P : Setup K) (cur : CurrentFrame)
    (ts ds : List (PersonObject K)) (bbox_type : BBoxType) :
    Except Abort (List MatchPair × List (PersonObject K)) :=
  let is := expired_indexes bbox_type ts
  let js := large_indexes P cur bbox_type ds
  if is.isEmpty || js.isEmpty then .ok ([], ds)
  else do
    let (table, ds) ← featureTable P cur ts js is ds
    let match_pairs ← pairsBelowWith solve is js (cells table is.length js.length)
      P.cos_similarity_thresh
    return (match_pairs, ds)

/-- `Update` over a solver. Where it stands, `Update` has `Solve`; nothing else is different. -/
def UpdateWith (solve : Solver K) (P : Setup K) (s : Tracker K) (inp : Input K) :
    Except Abort (Result K) :=
  let cur := inp.current
  let dets := inp.cur_detected_person_objects
  if dets.any (·.is_current_frame_matched_or_new) then .error .assertion
  else do
    let tracked := s.trackedPersonObjects.map startFrame
    let match_pairs ← IOUMatchWith solve P tracked dets .body
    let (tracked, dets, byIou) ← UpdateMatchedTrackedObjects P cur match_pairs tracked dets
    let notMatched := tracked.filter fun o => !o.is_current_frame_matched_or_new
    let (match_pairs, dets) ← FeatureMatchWith solve P cur tracked dets .body
    let (tracked, dets, byFeature) ← UpdateMatchedTrackedObjects P cur match_pairs tracked dets
    let (tracked, expired) ← UpdateUnMatchedTrackedObjectsStatus P inp.frame_id tracked
      s.expiredPersonObjects
    let (match_pairs, dets) ← FeatureMatchWith solve P cur expired dets .body
    let (tracked, expired, dets, byExpired) ←
      UpdateMatchedExpiredObjects P cur match_pairs expired dets tracked
    let (expired, leaves) ← UpdateUnMatchedExpiredObjectsStatus P inp.frame_id expired []
    let (dets, created, global_id) := AddUnMatchedCurDetectedObjects dets s.global_id
    let tracked := AccumulateDuration P cur (tracked ++ created)
    return {
      tracker := ⟨tracked, expired, global_id⟩
      cur_detected_person_objects := dets
      tracked_iou_not_matched_objects := notMatched
      expired_objects := expired
      valid_leave_objects := leaves
      attached := byIou ++ byFeature ++ byExpired
      created := created }

/-- The solver answers these tables as `Solve` does. -/
def Solver.AgreesOn (solve : Solver K) (tables : List (CostTable K)) : Prop :=
  ∀ t ∈ tables, solve t.rows t.cols t.cost = Solve t.cost

/-- A pass at a time. -/
theorem Solver.AgreesOn.of_append {solve : Solver K} {tables tables' : List (CostTable K)}
    (h : solve.AgreesOn (tables ++ tables')) : solve.AgreesOn tables ∧ solve.AgreesOn tables' :=
  ⟨fun t ht => h t (List.mem_append_left _ ht), fun t ht => h t (List.mem_append_right _ ht)⟩

/-- Of the solver the end of a pass sees its answer to the one table. -/
theorem pairsBelowWith_eq {solve : Solver K} {is js : List Nat}
    {table : Fin is.length → Fin js.length → K}
    (h : solve is.length js.length table = Solve table) (thresh : K) :
    pairsBelowWith solve is js table thresh = pairsBelow is js table thresh := by
  unfold pairsBelowWith
  rw [h]
  rfl

/-- `IOUMatch` asks for its table only. -/
theorem IOUMatchWith_eq {solve : Solver K} {P : Setup K} {ts ds : List (PersonObject K)}
    {bbox_type : BBoxType} (h : solve.AgreesOn (IOUMatch.tables ts ds bbox_type)) :
    IOUMatchWith solve P ts ds bbox_type = IOUMatch P ts ds bbox_type := by
  rw [IOUMatch_eq]
  unfold IOUMatchWith
  unfold IOUMatch.tables at h
  split
  · rfl
  · rename_i hnonempty
    rw [if_neg hnonempty] at h
    exact pairsBelowWith_eq (h _ (List.mem_singleton_self _)) _

/-- So does `FeatureMatch`, and it has none to ask for when a cell has failed. -/
theorem FeatureMatchWith_eq {solve : Solver K} {P : Setup K} {cur : CurrentFrame}
    {ts ds : List (PersonObject K)} {bbox_type : BBoxType}
    (h : solve.AgreesOn (FeatureMatch.tables P cur ts ds bbox_type)) :
    FeatureMatchWith solve P cur ts ds bbox_type = FeatureMatch P cur ts ds bbox_type := by
  rw [FeatureMatch_eq]
  unfold FeatureMatchWith
  unfold FeatureMatch.tables at h
  simp only at h ⊢
  split
  · rfl
  · rename_i hnonempty
    rw [if_neg hnonempty] at h
    cases htable : featureTable P cur ts (large_indexes P cur bbox_type ds)
        (expired_indexes bbox_type ts) ds with
    | error e => rfl
    | ok r =>
      rw [htable] at h
      have hpairs := pairsBelowWith_eq (h _ (List.mem_singleton_self _)) P.cos_similarity_thresh
      show (pairsBelowWith solve _ _ (cells r.1 _ _) P.cos_similarity_thresh >>= fun match_pairs =>
        pure (match_pairs, r.2)) = _
      rw [hpairs]
      rfl

/-- **`Update` asks about the tables of `Update.tables`**: with a solver that agrees with `Solve` on
these it comes to the same result. Each pass asks for its own table, and what the pass returns
decides which objects and detections the next one starts from. -/
theorem UpdateWith_eq {solve : Solver K} {P : Setup K} {s : Tracker K} {inp : Input K}
    (h : solve.AgreesOn (Update.tables P s inp)) : UpdateWith solve P s inp = Update P s inp := by
  unfold UpdateWith Update
  unfold Update.tables at h
  simp only at h ⊢
  split
  · rfl
  · rename_i hfree
    rw [if_neg hfree] at h
    -- pass one, then what it leaves for pass two, then what that leaves for pass three
    obtain ⟨hiou, h⟩ := h.of_append
    rw [IOUMatchWith_eq hiou]
    apply Abort.bind_congr
    intro pairs hpairs
    apply Abort.bind_congr
    rintro ⟨tracked, dets, byIou⟩ hfirst
    have hbefore : (do
        let match_pairs ← IOUMatch P (s.trackedPersonObjects.map startFrame)
          inp.cur_detected_person_objects .body
        UpdateMatchedTrackedObjects P inp.current match_pairs (s.trackedPersonObjects.map startFrame)
          inp.cur_detected_person_objects) = .ok (tracked, dets, byIou) := by
      rw [hpairs]
      exact hfirst
    rw [hbefore] at h
    obtain ⟨hfeature, h⟩ := h.of_append
    simp only
    rw [FeatureMatchWith_eq hfeature]
    apply Abort.bind_congr
    rintro ⟨match_pairs, dets'⟩ hmatch
    apply Abort.bind_congr
    rintro ⟨tracked', dets'', byFeature⟩ hsecond
    apply Abort.bind_congr
    rintro ⟨tracked'', expired⟩ hlost
    -- the third pass searches the expired objects, after the lost ones have been moved there
    have hbefore' : (do
        let (match_pairs, dets) ← FeatureMatch P inp.current tracked dets .body
        let (tracked, dets, _) ← UpdateMatchedTrackedObjects P inp.current match_pairs tracked dets
        let (_, expired) ← UpdateUnMatchedTrackedObjectsStatus P inp.frame_id tracked
          s.expiredPersonObjects
        return (expired, dets)) = .ok (expired, dets'') := by
      rw [hmatch]
      show (UpdateMatchedTrackedObjects P inp.current match_pairs tracked dets' >>= _) = _
      rw [hsecond]
      show (UpdateUnMatchedTrackedObjectsStatus P inp.frame_id tracked' _ >>= _) = _
      rw [hlost]
      rfl
    rw [hbefore'] at h
    simp only
    rw [FeatureMatchWith_eq h]

/-- At least one row and one column, and costs between zero and one. -/
structure CostTable.Admissible (t : CostTable K) : Prop where
  rows : 0 < t.rows
  cols : 0 < t.cols
  cost : ∀ i j, 0 ≤ t.cost i j ∧ t.cost i j ≤ 1

/-- An admissible table gives the solver nothing to complain about. -/
theorem CostTable.Admissible.complains {t : CostTable K} (h : t.Admissible) :
    t.complains = false := by
  rw [CostTable.complains, List.any_eq_false]
  intro i _
  rw [Bool.not_eq_true, List.any_eq_false]
  intro j _
  rw [decide_eq_true_eq, not_lt]
  exact (h.cost i j).1

/-! ## Overlaps -/

section

variable [IsStrictOrderedRing K]

/-- An intersection is nothing, or has a part of either rectangle. -/
theorem inter_area (a b : Rect K) : (a.inter b).area = 0 ∨
    0 ≤ (a.inter b).area ∧ (a.inter b).area ≤ a.area ∧ (a.inter b).area ≤ b.area := by
  unfold Rect.inter
  simp only
  split
  · left
    show (0 : K) * 0 = 0
    rw [mul_zero]
  · rename_i hextent
    right
    push Not at hextent
    obtain ⟨hw, hh⟩ := hextent
    have haw : min (a.x + a.width) (b.x + b.width) - max a.x b.x ≤ a.width := by
      linarith [min_le_left (a.x + a.width) (b.x + b.width), le_max_left a.x b.x]
    have hbw : min (a.x + a.width) (b.x + b.width) - max a.x b.x ≤ b.width := by
      linarith [min_le_right (a.x + a.width) (b.x + b.width), le_max_right a.x b.x]
    have hah : min (a.y + a.height) (b.y + b.height) - max a.y b.y ≤ a.height := by
      linarith [min_le_left (a.y + a.height) (b.y + b.height), le_max_left a.y b.y]
    have hbh : min (a.y + a.height) (b.y + b.height) - max a.y b.y ≤ b.height := by
      linarith [min_le_right (a.y + a.height) (b.y + b.height), le_max_right a.y b.y]
    refine ⟨mul_nonneg hw.le hh.le, ?_, ?_⟩
    · exact mul_le_mul haw hah hh.le (hw.le.trans haw)
    · exact mul_le_mul hbw hbh hh.le (hw.le.trans hbw)

/-- **An overlap is between zero and one**, whatever the rectangles are. -/
theorem GetIOU_mem (a b : Rect K) : 0 ≤ GetIOU a b ∧ GetIOU a b ≤ 1 := by
  unfold GetIOU
  simp only
  split
  · exact ⟨le_refl 0, zero_le_one⟩
  · rename_i hun
    have hpos : 0 < a.area + b.area - (a.inter b).area := by
      have heps : (0 : K) < DBL_EPSILON := by
        unfold DBL_EPSILON
        positivity
      exact heps.trans_le (not_lt.mp hun)
    rcases inter_area a b with hzero | ⟨hnonneg, ha, hb⟩
    · rw [hzero, zero_div]
      exact ⟨le_refl 0, zero_le_one⟩
    · refine ⟨div_nonneg hnonneg hpos.le, ?_⟩
      rw [div_le_one hpos]
      linarith

/-- So is an entry of the overlap matrix; outside of it there is no overlap. -/
theorem overlap_mem (bbox_type : BBoxType) (ts ds : List (PersonObject K)) (i j : Nat) :
    0 ≤ overlap bbox_type ts ds i j ∧ overlap bbox_type ts ds i j ≤ 1 := by
  unfold overlap
  split
  · exact GetIOU_mem _ _
  · exact ⟨le_refl 0, zero_le_one⟩

omit [Field K] [LinearOrder K] [IsStrictOrderedRing K] in
/-- A pass that goes on has somebody on either side. -/
theorem length_pos_of_isEmpty {α : Type} {l : List α} (h : l.isEmpty = false) : 0 < l.length := by
  rw [List.length_pos_iff]
  rintro rfl
  cases h

/-- **The table of the first pass**: one minus an overlap. -/
theorem IOUMatch_tables_admissible (ts ds : List (PersonObject K)) (bbox_type : BBoxType) :
    ∀ t ∈ IOUMatch.tables ts ds bbox_type, t.Admissible := by
  intro t ht
  unfold IOUMatch.tables at ht
  split at ht
  · cases ht
  · rename_i hnonempty
    rw [Bool.not_eq_true, Bool.or_eq_false_iff] at hnonempty
    obtain rfl := List.mem_singleton.mp ht
    refine ⟨length_pos_of_isEmpty hnonempty.1, length_pos_of_isEmpty hnonempty.2, ?_⟩
    intro i j
    have hmem := overlap_mem bbox_type ts ds ((tracked_indexes ts).get i)
      ((detected_indexes bbox_type ds).get j)
    exact ⟨sub_nonneg.mpr hmem.2, sub_le_self 1 hmem.1⟩

/-! ## Cosines -/

variable {P : Setup K} {cur : CurrentFrame}

/-- A cosine is at most one. It may be negative, and then its cost is above one: the cost of the pair
stays at the 1 it started with. -/
theorem CalcCosSimilarity_le_one (hsqrt : IsSqrt P.sqrt) {a b : List K} {similarity : K}
    (h : CalcCosSimilarity P a b = .ok similarity) : similarity ≤ 1 := by
  unfold CalcCosSimilarity at h
  split at h
  · rename_i hlen
    obtain rfl := Except.ok.inj h
    exact dot_div_le_one hsqrt hlen
  · cases h

/-- The smallest of some costs that are not negative, and of 1. -/
theorem featureCost_mem (hsqrt : IsSqrt P.sqrt) {o d : PersonObject K} {cost : K}
    (h : featureCost P o d = .ok cost) : 0 ≤ cost ∧ cost ≤ 1 := by
  have hends : Ends (fun _ => True) (fun c : K => 0 ≤ c ∧ c ≤ 1) (featureCost P o d) := by
    unfold featureCost
    refine Ends.foldlM ?_ ⟨zero_le_one, le_refl 1⟩
    intro min_cost message _ hmin
    cases hsim : CalcCosSimilarity P message.tengine_feature
        d.last_updated_body_feature_message.tengine_feature with
    | error e => trivial
    | ok similarity =>
      have hle := CalcCosSimilarity_le_one hsqrt hsim
      show 0 ≤ (if 1 - similarity < min_cost then 1 - similarity else min_cost) ∧
        (if 1 - similarity < min_cost then 1 - similarity else min_cost) ≤ 1
      split
      · rename_i hlt
        exact ⟨sub_nonneg.mpr hle, hlt.le.trans hmin.2⟩
      · exact hmin
  exact hends.of_ok h

/-- The costs of a row, by induction on the detections. -/
theorem featureRow_mem (hsqrt : IsSqrt P.sqrt) {o : PersonObject K} {js : List Nat} :
    ∀ {ds ds' : List (PersonObject K)} {row : List K}, featureRow P cur o js ds = .ok (row, ds') →
      ∀ cost ∈ row, 0 ≤ cost ∧ cost ≤ 1 := by
  induction js with
  | nil =>
    intro ds ds' row h cost hcost
    cases h
    cases hcost
  | cons j js ih =>
    intro ds ds' row h cost hcost
    obtain ⟨d, d', cost', row', -, -, hfirst, hrow, rfl⟩ := featureRow_cons_ok h
    rcases List.mem_cons.mp hcost with rfl | hcost
    · exact featureCost_mem hsqrt hfirst
    · exact ih hrow cost hcost

/-- The costs of all rows. -/
theorem featureTable_mem (hsqrt : IsSqrt P.sqrt) {ts : List (PersonObject K)} {js is : List Nat} :
    ∀ {ds ds' : List (PersonObject K)} {table : List (List K)},
      featureTable P cur ts js is ds = .ok (table, ds') →
      ∀ row ∈ table, ∀ cost ∈ row, 0 ≤ cost ∧ cost ≤ 1 := by
  induction is with
  | nil =>
    intro ds ds' table h row hrow
    cases h
    cases hrow
  | cons i is ih =>
    intro ds ds' table h row hrow
    obtain ⟨o, row', ds₁, table', -, hfirst, htable, rfl⟩ := featureTable_cons_ok h
    rcases List.mem_cons.mp hrow with rfl | hrow
    · exact featureRow_mem hsqrt hfirst
    · exact ih htable row hrow

/-- The cells of the table, with those that nothing was written to. -/
theorem cells_mem {table : List (List K)} (h : ∀ row ∈ table, ∀ cost ∈ row, 0 ≤ cost ∧ cost ≤ 1)
    {rows cols : Nat} (i : Fin rows) (j : Fin cols) :
    0 ≤ cells table rows cols i j ∧ cells table rows cols i j ≤ 1 := by
  unfold cells
  cases hcell : table[i.val]?.bind (·[j.val]?) with
  | none => exact ⟨zero_le_one, le_refl 1⟩
  | some cost =>
    obtain ⟨row, hrow, hcost⟩ := Option.bind_eq_some_iff.mp hcell
    exact h row (List.mem_of_getElem? hrow) cost (List.mem_of_getElem? hcost)

/-- **The table of a feature pass**, if no cell has failed. -/
theorem FeatureMatch_tables_admissible (hsqrt : IsSqrt P.sqrt) (ts ds : List (PersonObject K))
    (bbox_type : BBoxType) : ∀ t ∈ FeatureMatch.tables P cur ts ds bbox_type, t.Admissible := by
  intro t ht
  unfold FeatureMatch.tables at ht
  simp only at ht
  split at ht
  · cases ht
  · rename_i hnonempty
    rw [Bool.not_eq_true, Bool.or_eq_false_iff] at hnonempty
    split at ht
    · cases ht
    · rename_i table ds' htable
      obtain rfl := List.mem_singleton.mp ht
      exact ⟨length_pos_of_isEmpty hnonempty.1, length_pos_of_isEmpty hnonempty.2,
        cells_mem (featureTable_mem hsqrt htable)⟩

/-- The tables of a call are admissible, whatever state it starts from. -/
theorem Update_tables_admissible (hsqrt : IsSqrt P.sqrt) (s : Tracker K) (inp : Input K) :
    ∀ t ∈ Update.tables P s inp, t.Admissible := by
  intro t ht
  unfold Update.tables at ht
  simp only at ht
  split at ht
  · cases ht
  · rcases List.mem_append.mp ht with ht | ht
    · exact IOUMatch_tables_admissible _ _ _ t ht
    · split at ht
      · cases ht
      · rcases List.mem_append.mp ht with ht | ht
        · exact FeatureMatch_tables_admissible hsqrt _ _ _ t ht
        · split at ht
          · cases ht
          · exact FeatureMatch_tables_admissible hsqrt _ _ _ t ht

/-! ## Runs -/

/-- **The tables of a run**: in every reachable state, whatever is detected, the tables that `Solve`
is given are admissible and it has nothing to complain about; and no `assert` fails, that of
`CalcCosSimilarity` among them: a crop that leaves the frame is all that can stop the call.

The first part needs nothing of the state: the tables of any call are admissible
(`Update_tables_admissible`). The run is there for the second part. In a reachable state every stored
feature is the network's, so that the features have one size and the `assert` on it holds
(`Update_ends`). What is listed is what the solver is asked (`UpdateWith_eq`). -/
theorem Run.tables_admissible (hsqrt : IsSqrt P.sqrt) {turns : List (Turn K)} {s : Tracker K}
    (h : Run P Tracker.init turns s) (hnew : ∀ t ∈ turns, Unprocessed t.input) {inp : Input K}
    (hinp : Unprocessed inp)
    (hfree : ∀ d ∈ inp.cur_detected_person_objects, d.is_current_frame_matched_or_new = false) :
    (∀ t ∈ Update.tables P s inp, t.Admissible ∧ t.complains = false) ∧
      ∀ e, Update P s inp = .error e → e = .roi := by
  constructor
  · intro t ht
    have hadmissible := Update_tables_admissible hsqrt s inp t ht
    exact ⟨hadmissible, hadmissible.complains⟩
  · intro e he
    have hends := Update_ends (P := P) (E := (· = .roi)) (h.featured hnew) hfree
      fun d hd => ⟨hinp.featured hd, fun _ => rfl⟩
    rw [he] at hends
    exact hends

end

/-- A tracker over the real numbers, with their square root: the table of the second frame. -/
theorem Run.tables_admissible_reals :
    let P : Setup ℝ := ⟨Thresholds.initial, Real.sqrt, round, fun _ _ _ => 1⟩
    let d : PersonObject ℝ := PersonObject.new ⟨0, 0, ⟨0, 0, 0⟩, ⟨0, 0, 0⟩, 0, 0⟩ none
      (some ⟨1, 1, 1, ⟨100, 100, 20, 40⟩⟩) (-1)
    let inp : Input ℝ := ⟨⟨540, 960, []⟩, 1, 1, [d]⟩
    ∃ r, Update P Tracker.init inp = .ok r ∧
      ∀ t ∈ Update.tables P r.tracker inp, t.Admissible ∧ t.complains = false := by
  intro P d inp
  have hnew : Unprocessed inp := by
    intro d' hd'
    obtain rfl := List.mem_singleton.mp hd'
    exact ⟨rfl, rfl⟩
  have hfirst : ∃ r, Update P Tracker.init inp = .ok r := ⟨_, rfl⟩
  obtain ⟨r, hr⟩ := hfirst
  have hrun : Run P Tracker.init [⟨inp, r⟩] r.tracker := ⟨r.tracker, ⟨hr, rfl⟩, rfl⟩
  refine ⟨r, hr, (Run.tables_admissible ?_ hrun ?_ hnew ?_).1⟩
  · intro x hx
    exact ⟨Real.sqrt_nonneg x, Real.mul_self_sqrt hx⟩
  · intro t ht
    obtain rfl := List.mem_singleton.mp ht
    exact hnew
  · intro d' hd'
    obtain rfl := List.mem_singleton.mp hd'
    rfl

end EdgeFrame.Track
