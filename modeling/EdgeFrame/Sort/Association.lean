/-
# EdgeFrame.Sort.Association -- when there is nothing to assign

`SORT::update` asks whether there are trackers before it predicts, and the prediction may
erase every one of them: then the solver is called on a matrix without rows, whose row 0
it reads. The call is as it should be exactly when a predicted box lies in the image, and
the run of a tracker goes on for as long as that holds of its frames.

What a filter predicts is a parameter, so that it may be anything; `SomeoneInImage` is asked
of the state before a call. With a row, everything after the solver stays inside its
vectors: the pairs are of rows and columns that are there (`associate_spec`,
`Matching.InRange`), and the loops over them return (`updateMatched_returns`,
`unmatchedRects_returns`). So the solver's row is the only thing a call can fail for
(`frame_iff`), and the law for runs is that for calls, frame by frame.
-/
import EdgeFrame.Sort.Tracker
import EdgeFrame.Lib.Loops
import EdgeFrame.Lib.Runs
import Mathlib

namespace EdgeFrame.Sort

open Lib Assign
open Track (Rect GetIOU)

variable {K F : Type} [Field K] [LinearOrder K] (filter : Filter K F)

/-! ## The prediction -/

/-- The trackers that are predicted in the image, as they were before it. -/
def survivors (ts : List (KalmanTracker K F)) : List (KalmanTracker K F) :=
  ts.filter fun t => inImage (t.predict filter).2

/-- The boxes they are predicted at. -/
def predictedBoxes (ts : List (KalmanTracker K F)) : List (Rect K) :=
  (survivors filter ts).map fun t => (t.predict filter).2

/-- The loop erases who is predicted outside of the image, and keeps the others with their boxes. -/
theorem predictLoop_eq (ts : List (KalmanTracker K F)) :
    predictLoop filter ts =
      ((survivors filter ts).map (fun t => (t.predict filter).1), predictedBoxes filter ts) := by
  induction ts with
  | nil => rfl
  | cons t ts ih =>
    rw [predictLoop, ih]
    by_cases hin : inImage (t.predict filter).2 = true
    · have hkept : survivors filter (t :: ts) = t :: survivors filter ts := List.filter_cons_of_pos hin
      simp only [hin, if_true, hkept, predictedBoxes, List.map_cons]
    · have hkept : survivors filter (t :: ts) = survivors filter ts := List.filter_cons_of_neg hin
      simp only [hin, hkept, predictedBoxes]
      rfl

/-- There is one box for each of them. -/
theorem length_predictedBoxes (ts : List (KalmanTracker K F)) :
    (predictedBoxes filter ts).length = (survivors filter ts).length :=
  List.length_map _

/-! ## The assignment -/

section

variable {boxes dets : List (Rect K)}

/-- **The solver** returns, with an entry for each row, once there is a row. -/
theorem solveRows_spec [IsStrictOrderedRing K] (hne : boxes ≠ []) (dets : List (Rect K)) :
    ∃ assignment, solveRows boxes dets = .ok assignment ∧ assignment.length = boxes.length ∧
      ∀ (i j : Nat), assignment[i]? = some (some j) → j < dets.length := by
  obtain ⟨a, ha, -⟩ := assignmentoptimal_spec
    fun (i : Fin boxes.length) (j : Fin dets.length) => iouAt boxes dets i j
  refine ⟨List.ofFn fun i => (a i).map Fin.val, ?_, List.length_ofFn, ?_⟩
  · rw [solveRows, if_neg (by simpa using hne), Solve, ha]
    rfl
  · intro i j hij
    rw [List.getElem?_ofFn] at hij
    split at hij
    · obtain ⟨j', hj', rfl⟩ := Option.map_eq_some_iff.mp (Option.some.inj hij)
      exact j'.isLt
    · cases hij

/-- Without a row the solver reads one that is not there. -/
theorem solveRows_nil (dets : List (Rect K)) : solveRows [] dets = .error .outOfRange := rfl

omit [Field K] [LinearOrder K] in
/-- Who is in a set after an insertion. -/
theorem mem_setInsert {n k : Nat} {s : List Nat} : k ∈ setInsert n s ↔ k = n ∨ k ∈ s := by
  induction s with
  | nil => simp [setInsert]
  | cons m s ih =>
    rw [setInsert]
    split
    · simp
    · split
      · rename_i hnm
        simp [hnm]
      · rw [List.mem_cons, ih, List.mem_cons]
        tauto

/-- A pair is of a row and a column, and what is not matched is a column. -/
structure Matching.InRange (m : Matching) (trkNum detNum : Nat) : Prop where
  pairs : ∀ p ∈ m.matchedPairs, p.1 < trkNum ∧ p.2 < detNum
  unmatched : ∀ n ∈ m.unmatchedDetections, n < detNum

/-- The loop over the rows stays inside the matrix. -/
theorem filterLow_inRange (iouThreshold : K) {assignment : List (Option Nat)}
    (hassignment : ∀ i j : Nat, assignment[i]? = some (some j) → j < dets.length) :
    ((List.range boxes.length).foldl (filterLow iouThreshold boxes dets assignment)
      ⟨[], unassigned boxes.length dets.length assignment⟩).InRange boxes.length dets.length := by
  refine foldl_range_induction
    (I := fun _ m => Matching.InRange m boxes.length dets.length) ?_ ?_
  · constructor
    case pairs => simp
    case unmatched =>
      intro n hn
      rw [unassigned] at hn
      split at hn
      · exact List.mem_range.mp (List.mem_filter.mp hn).1
      · cases hn
  · intro i m hi hm
    rw [filterLow]
    split
    · rename_i j hj
      have hjlt := hassignment i j hj
      -- below the threshold the detection goes back among the unmatched, else the pair is kept
      split
      · constructor
        case pairs => exact hm.pairs
        case unmatched =>
          intro n hn
          rcases mem_setInsert.mp hn with hnj | hn
          · rw [hnj]
            exact hjlt
          · exact hm.unmatched n hn
      · constructor
        case pairs =>
          intro p hp
          rcases List.mem_append.mp hp with hp | hp
          · exact hm.pairs p hp
          · rw [List.mem_singleton.mp hp]
            exact ⟨hi, hjlt⟩
        case unmatched => exact hm.unmatched
    · exact hm

/-- The association returns, with pairs of rows and columns that are there. -/
theorem associate_spec [IsStrictOrderedRing K] (hne : boxes ≠ []) (iouThreshold : K)
    (dets : List (Rect K)) :
    ∃ m, associate iouThreshold boxes dets = .ok m ∧ m.InRange boxes.length dets.length := by
  obtain ⟨assignment, hsolve, -, hcolumns⟩ := solveRows_spec hne dets
  refine ⟨_, ?_, filterLow_inRange iouThreshold hcolumns⟩
  rw [associate, hsolve]
  rfl

/-! ## The trackers -/

omit [Field K] [LinearOrder K] in
/-- The loop over such pairs returns. -/
theorem updateMatched_returns {matchedPairs : List (Nat × Nat)} :
    ∀ {ts : List (KalmanTracker K F)}, (∀ p ∈ matchedPairs, p.1 < ts.length ∧ p.2 < dets.length) →
      ∃ ts', updateMatched filter dets matchedPairs ts = .ok ts' := by
  induction matchedPairs with
  | nil =>
    intro ts _
    exact ⟨ts, rfl⟩
  | cons p matchedPairs ih =>
    intro ts h
    obtain ⟨hi, hj⟩ := h p List.mem_cons_self
    rw [updateMatched, List.getElem?_eq_getElem hi, List.getElem?_eq_getElem hj]
    refine ih fun q hq => ?_
    rw [List.length_set]
    exact h q (List.mem_cons_of_mem p hq)

omit [Field K] [LinearOrder K] in
/-- So does the one over the detections that are left. -/
theorem unmatchedRects_returns {unmatchedDetections : List Nat}
    (h : ∀ n ∈ unmatchedDetections, n < dets.length) :
    ∃ rects, unmatchedRects dets unmatchedDetections = .ok rects := by
  induction unmatchedDetections with
  | nil => exact ⟨[], rfl⟩
  | cons n unmatchedDetections ih =>
    obtain ⟨rects, hrects⟩ := ih fun k hk => h k (List.mem_cons_of_mem n hk)
    have hn : n < dets.length := h n List.mem_cons_self
    refine ⟨dets[n] :: rects, ?_⟩
    rw [unmatchedRects, List.getElem?_eq_getElem hn, hrects]
    rfl

end

/-- The association of a frame returns exactly when a tracker is predicted in the image. -/
theorem associated_returns_iff [IsStrictOrderedRing K] (s : SORT K F) (dets : List (Rect K)) :
    (∃ a, associated filter s dets = .ok a) ↔ survivors filter s.trackers ≠ [] := by
  rw [associated, predictLoop_eq]
  constructor
  · rintro ⟨a, ha⟩ hnone
    have hboxes : predictedBoxes filter s.trackers = [] := by
      rw [predictedBoxes, hnone]
      rfl
    simp only [hboxes, associate, solveRows_nil] at ha
    cases ha
  · intro hsome
    have hne : predictedBoxes filter s.trackers ≠ [] := by
      simpa [predictedBoxes] using hsome
    obtain ⟨m, hm, hrange⟩ := associate_spec hne s.iouThreshold dets
    rw [length_predictedBoxes] at hrange
    have hpairs : ∀ p ∈ m.matchedPairs,
        p.1 < ((survivors filter s.trackers).map fun t => (t.predict filter).1).length ∧
          p.2 < dets.length := by
      rw [List.length_map]
      exact hrange.pairs
    obtain ⟨ts, hts⟩ := updateMatched_returns filter hpairs
    obtain ⟨rects, hrects⟩ := unmatchedRects_returns hrange.unmatched
    simp only [hm, bind, Except.bind, hts, hrects]
    exact ⟨_, rfl⟩

omit [Field K] [LinearOrder K] in
/-- The loop at the end returns, with what the lagging loop leaves. -/
theorem output_eq (s : SORT K F) :
    s.output = .ok ({ s with trackers := lagged s.dead s.trackers },
      (lagged s.dead s.trackers).filterMap s.report) := by
  rw [SORT.output, lagLoop_eq]
  rfl

/-! ## The call -/

/-- A frame that the association has rows for: the tracker starts with it, or one of the boxes it
predicts has its corner in the image. -/
def SomeoneInImage (s : SORT K F) : Prop :=
  s.trackers = [] ∨ ∃ t ∈ s.trackers, inImage (t.predict filter).2 = true

/-- If `update` calls the solver, then on a matrix with a row, and it gets one entry for each. -/
def SolvesRows (s : SORT K F) (dets : List (Rect K)) : Prop :=
  s.trackers = [] ∨ predictedBoxes filter s.trackers ≠ [] ∧
    ∃ assignment, solveRows (predictedBoxes filter s.trackers) dets = .ok assignment ∧
      assignment.length = (predictedBoxes filter s.trackers).length

/-- One frame. -/
def Frame (s : SORT K F) (dets : List (Rect K)) (s' : SORT K F) : Prop :=
  ∃ boxes, s.update filter dets = .ok (s', boxes)

/-- In terms of who survives the prediction. -/
theorem someoneInImage_iff (s : SORT K F) :
    SomeoneInImage filter s ↔ s.trackers = [] ∨ survivors filter s.trackers ≠ [] := by
  have hsome : survivors filter s.trackers ≠ [] ↔
      ∃ t ∈ s.trackers, inImage (t.predict filter).2 = true := by
    rw [survivors, Ne, List.filter_eq_nil_iff]
    push Not
    rfl
  rw [SomeoneInImage, hsome]

/-- The call of the solver is as it should be exactly when it has a row. -/
theorem solvesRows_iff [IsStrictOrderedRing K] (s : SORT K F) (dets : List (Rect K)) :
    SolvesRows filter s dets ↔ SomeoneInImage filter s := by
  have hboxes : predictedBoxes filter s.trackers ≠ [] ↔ survivors filter s.trackers ≠ [] := by
    rw [predictedBoxes, Ne, List.map_eq_nil_iff]
  rw [someoneInImage_iff, SolvesRows, ← hboxes]
  refine or_congr_right (and_iff_left_of_imp ?_)
  intro hne
  obtain ⟨assignment, hsolve, hlength, -⟩ := solveRows_spec hne dets
  exact ⟨assignment, hsolve, hlength⟩

/-- `update` returns exactly when it has a row to assign, or nothing to assign to.

A call without trackers does not come to the solver. -/
theorem frame_iff [IsStrictOrderedRing K] (s : SORT K F) (dets : List (Rect K)) :
    (∃ s', Frame filter s dets s') ↔ SomeoneInImage filter s := by
  rw [someoneInImage_iff]
  by_cases hempty : s.trackers = []
  · refine iff_of_true ?_ (Or.inl hempty)
    simp only [Frame, SORT.update, hempty, List.isEmpty_nil, if_true]
    exact ⟨_, _, rfl⟩
  · have hassociated := associated_returns_iff filter s.count dets
    rw [or_iff_right hempty, ← show s.count.trackers = s.trackers from rfl, ← hassociated]
    simp only [Frame, SORT.update, List.isEmpty_iff, hempty, if_false]
    constructor
    · rintro ⟨s', boxes, h⟩
      obtain ⟨a, ha, -⟩ := Abort.bind_eq_ok h
      exact ⟨a, ha⟩
    · rintro ⟨a, ha⟩
      rw [ha]
      exact ⟨_, _, output_eq a⟩

/-! ## Runs -/

/-- `update` has one result. -/
theorem frame_unique : ∀ s dets s₁ s₂, Frame filter s dets s₁ → Frame filter s dets s₂ → s₁ = s₂ := by
  rintro s dets s₁ s₂ ⟨boxes₁, h₁⟩ ⟨boxes₂, h₂⟩
  rw [h₁] at h₂
  cases h₂
  rfl

/-- **The solver gets a row** in a reachable state exactly when someone is in the image, and then it
has one entry a row; and a run of a tracker goes through its frames exactly when that is so of each
of them, whatever its filter predicts.

The first part is about one call in the state that a run has reached, the second about all the calls
of a run; `frame_iff` gives both. -/
theorem solver_gets_rows_iff [IsStrictOrderedRing K] (max_age : Int) :
    (∀ frames (s : SORT K F) dets, Trace (Frame filter) (SORT.new max_age) frames s →
      (SolvesRows filter s dets ↔ SomeoneInImage filter s)) ∧
    ∀ frames, (∃ s, Trace (Frame filter) (SORT.new max_age) frames s) ↔
      ∀ before dets after s, frames = before ++ dets :: after →
        Trace (Frame filter) (SORT.new max_age) before s → SomeoneInImage filter s :=
  ⟨fun _ s dets _ => solvesRows_iff filter s dets,
    fun frames => trace_exists_iff (frame_unique filter) (frame_iff filter) frames⟩

/-- The run of a tracker over these frames, if it goes through them. -/
def SORT.play (s : SORT K F) (frames : List (List (Rect K))) : Option (SORT K F) :=
  frames.foldlM (fun s dets => (s.update filter dets).toOption.map Prod.fst) s

/-- What is played is a run. -/
theorem SORT.play_trace : ∀ {frames : List (List (Rect K))} {s s' : SORT K F},
    s.play filter frames = some s' → Trace (Frame filter) s frames s' := by
  intro frames
  induction frames with
  | nil =>
    intro s s' h
    exact (Option.some_inj.mp h).symm
  | cons dets frames ih =>
    intro s s' h
    rw [SORT.play, List.foldlM_cons] at h
    obtain ⟨s₁, hfirst, hrest⟩ := Option.bind_eq_some_iff.mp h
    obtain ⟨⟨s₁, boxes⟩, hupdate, rfl⟩ := Option.map_eq_some_iff.mp hfirst
    refine ⟨s₁, ⟨boxes, ?_⟩, ih hrest⟩
    cases hreturned : s.update filter dets with
    | error e =>
      rw [hreturned] at hupdate
      cases hupdate
    | ok r =>
      rw [hreturned] at hupdate
      exact congrArg Except.ok (Option.some.inj hupdate)

/-- A filter that expects everything to stay where it is. -/
def stillFilter : Filter ℚ (Rect ℚ) where
  init_kf rect := rect
  predict rect := (rect, rect)
  correct _ rect := rect

/-- A person in the corner, and again in the next frame, where the solver is given a row for them. -/
theorem solver_gets_rows_corner : ∃ s,
    Trace (Frame stillFilter) (SORT.new 10) [[⟨0, 0, 10, 10⟩]] s ∧ s.trackers ≠ [] ∧
      SolvesRows stillFilter s [⟨1, 0, 10, 10⟩] ∧
      ∃ s', Trace (Frame stillFilter) (SORT.new 10) [[⟨0, 0, 10, 10⟩], [⟨1, 0, 10, 10⟩]] s' := by
  obtain ⟨s, hplay, hcheck⟩ : ∃ s, (SORT.new 10).play stillFilter [[⟨0, 0, 10, 10⟩]] = some s ∧
      decide (s.trackers.length = 1 ∧ ∃ t ∈ s.trackers, inImage (t.predict stillFilter).2 = true) :=
    (Option.any_eq_true _ _).mp (by decide +kernel)
  obtain ⟨hone, hinside⟩ := of_decide_eq_true hcheck
  have hfirst := SORT.play_trace stillFilter hplay
  obtain ⟨hcalls, hruns⟩ := solver_gets_rows_iff stillFilter 10
  refine ⟨s, hfirst, fun hnone => ?_, (hcalls _ s _ hfirst).mpr (Or.inr hinside), (hruns _).mpr ?_⟩
  · rw [hnone] at hone
    cases hone
  · intro before dets after s₀ hframes hbefore
    match before with
    | [] => exact hbefore ▸ Or.inl rfl
    | [_] =>
      obtain ⟨rfl, -⟩ := List.cons.inj hframes
      rw [Trace.unique (frame_unique stillFilter) hbefore hfirst]
      exact Or.inr hinside
    | _ :: _ :: before =>
      obtain ⟨-, hframes⟩ := List.cons.inj hframes
      obtain ⟨-, hframes⟩ := List.cons.inj hframes
      cases before <;> cases hframes

/-- A detection that reaches over the left edge by 20 pixels starts a tracker, and the next call, which
expects it to stay there, has nobody to assign to. -/
theorem solver_without_rows :
    ∃ s, Frame stillFilter (SORT.new 10) [⟨-20, 0, 10, 10⟩] s ∧
      ¬ SolvesRows stillFilter s [] ∧ s.update stillFilter [] = .error .outOfRange := by
  have haway : inImage (⟨-20, 0, 10, 10⟩ : Rect ℚ) = false := by
    simp [inImage]
  refine ⟨_, ⟨_, rfl⟩, ?_, ?_⟩
  · rintro (hempty | ⟨hrows, -⟩)
    · cases hempty
    · refine hrows ?_
      simp [predictedBoxes, survivors, KalmanTracker.new, KalmanTracker.predict, stillFilter, haway]
  · simp [SORT.update, SORT.count, associated, predictLoop, KalmanTracker.new, KalmanTracker.predict,
      stillFilter, haway, associate, solveRows]
    rfl

end EdgeFrame.Sort
