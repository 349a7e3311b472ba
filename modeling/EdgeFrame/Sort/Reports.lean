/-
# EdgeFrame.Sort.Reports -- what a run of SORT reports

Trackers are numbered as they are made and stand in the order of their numbers; erasing
keeps it. A call pairs a tracker with at most one detection and a detection with at most
one tracker, and a tracker's streak counts the calls in a row that paired it. So a report
names every tracker once, and after the first `min_hits` calls only those that were paired
in each of the last `min_hits`. In the first calls a tracker may also be reported in
the call that made it, with the empty box that the constructor leaves.

`Called` is what one call does to the trackers: each stems from one that was there, paired
or not, or was made by the call (`Stems`), and the order of the numbers is kept. It is put
together from the parts of a call (`associated_spec`, `update_called`), with `OneToOne` for
the pairs, which comes from the solver's assignment. `Ran` is what a run knows: how many
frames there were, and that a tracker with a streak of `n` was paired in each of the last
`n` calls (`Streak`).

`never_again` asks less of a run: the number of the next tracker only grows.
-/
import EdgeFrame.Sort.Removal
import Mathlib

namespace EdgeFrame.Sort

open Lib Assign
open Track (Rect GetIOU)

variable {K F : Type}

/-! ## The pairs of a call -/

/-- Pairs of different rows and different columns. -/
structure OneToOne (m : Matching) : Prop where
  rows : (m.matchedPairs.map Prod.fst).Nodup
  columns : (m.matchedPairs.map Prod.snd).Nodup

section

variable [Field K] [LinearOrder K] {boxes dets : List (Rect K)}

/-- The solver gives no column to two rows. -/
theorem solveRows_injective [IsStrictOrderedRing K] {assignment : List (Option Nat)}
    (h : solveRows boxes dets = .ok assignment) {i i' j : Nat}
    (hi : assignment[i]? = some (some j)) (hi' : assignment[i']? = some (some j)) : i = i' := by
  rw [solveRows] at h
  split at h
  · cases h
  · obtain ⟨a, ha, hmatching, -⟩ := assignmentoptimal_spec
      fun (i : Fin boxes.length) (j : Fin dets.length) => iouAt boxes dets i j
    simp only [Solve, ha] at h
    cases h
    rw [List.getElem?_ofFn] at hi hi'
    split at hi
    · rename_i hlt
      split at hi'
      · rename_i hlt'
        obtain ⟨c, hc, hcj⟩ := Option.map_eq_some_iff.mp (Option.some.inj hi)
        obtain ⟨c', hc', hcj'⟩ := Option.map_eq_some_iff.mp (Option.some.inj hi')
        have hcolumn : c' = c := Fin.ext (hcj'.trans hcj.symm)
        rw [hcolumn] at hc'
        exact congrArg Fin.val (hmatching.right hc hc')
      · cases hi'
    · cases hi

/-- The pairs are entries of the assignment, row by row. -/
theorem associate_oneToOne [IsStrictOrderedRing K] {iouThreshold : K} {m : Matching}
    (h : associate iouThreshold boxes dets = .ok m) : OneToOne m := by
  obtain ⟨assignment, hsolve, h⟩ := Abort.bind_eq_ok h
  cases h
  -- the loop takes the rows in order, and from each at most the entry of the assignment
  have hpairs : ((List.range boxes.length).foldl (filterLow iouThreshold boxes dets assignment)
      ⟨[], unassigned boxes.length dets.length assignment⟩).matchedPairs.Pairwise
        (fun p q => p.1 < q.1) ∧
      ∀ p ∈ ((List.range boxes.length).foldl (filterLow iouThreshold boxes dets assignment)
        ⟨[], unassigned boxes.length dets.length assignment⟩).matchedPairs,
        p.1 < boxes.length ∧ assignment[p.1]? = some (some p.2) := by
    refine foldl_range_induction
      (I := fun i (m : Matching) => m.matchedPairs.Pairwise (fun p q => p.1 < q.1) ∧
        ∀ p ∈ m.matchedPairs, p.1 < i ∧ assignment[p.1]? = some (some p.2)) ?_ ?_
    · exact ⟨List.Pairwise.nil, by simp⟩
    · rintro i m - ⟨hsorted, hall⟩
      have hlater : ∀ p ∈ m.matchedPairs, p.1 < i + 1 ∧ assignment[p.1]? = some (some p.2) :=
        fun p hp => ⟨Nat.lt_succ_of_lt (hall p hp).1, (hall p hp).2⟩
      rw [filterLow]
      split
      · rename_i j hj
        split
        · exact ⟨hsorted, hlater⟩
        · constructor
          · apply List.pairwise_append.mpr
            refine ⟨hsorted, List.pairwise_singleton _ _, ?_⟩
            intro p hp q hq
            rw [List.mem_singleton.mp hq]
            exact (hall p hp).1
          · intro p hp
            obtain hold | hnew := List.mem_append.mp hp
            · exact hlater p hold
            · rw [List.mem_singleton.mp hnew]
              exact ⟨Nat.lt_succ_self i, hj⟩
      · exact ⟨hsorted, hlater⟩
  obtain ⟨hsorted, hall⟩ := hpairs
  constructor
  -- the rows are increasing; two rows with one column would be two assigned to it
  · apply List.pairwise_map.mpr
    exact hsorted.imp fun hlt => Nat.ne_of_lt hlt
  · apply List.pairwise_map.mpr
    refine hsorted.imp_of_mem ?_
    intro p q hp hq hlt heq
    have hp' := (hall p hp).2
    rw [heq] at hp'
    exact absurd (solveRows_injective hsolve hp' (hall q hq).2) (Nat.ne_of_lt hlt)

end

/-! ## What a call makes of a tracker -/

section

variable (filter : Filter K F)

/-- What the loop over the pairs makes of the tracker in place `i`. -/
theorem updateMatched_getElem? {dets : List (Rect K)} {matchedPairs : List (Nat × Nat)}
    (hrows : (matchedPairs.map Prod.fst).Nodup) : ∀ {ts ts' : List (KalmanTracker K F)},
    updateMatched filter dets matchedPairs ts = .ok ts' → ts'.length = ts.length ∧
      ∀ {i : Nat} {t : KalmanTracker K F}, ts[i]? = some t →
        (∃ j rect, (i, j) ∈ matchedPairs ∧ dets[j]? = some rect ∧
          ts'[i]? = some (t.update filter rect)) ∨
        (∀ p ∈ matchedPairs, p.1 ≠ i) ∧ ts'[i]? = some t := by
  induction matchedPairs with
  | nil =>
    intro ts ts' h
    cases h
    exact ⟨rfl, fun ht => Or.inr ⟨by simp, ht⟩⟩
  | cons p matchedPairs ih =>
    intro ts ts' h
    obtain ⟨hfirst, hrest⟩ := List.nodup_cons.mp hrows
    rw [updateMatched] at h
    split at h
    · rename_i t₀ rect₀ ht₀ hrect₀
      obtain ⟨hlength, hplaces⟩ := ih hrest h
      refine ⟨by rw [hlength, List.length_set], ?_⟩
      intro i t ht
      by_cases hi : p.1 = i
      · subst hi
        rw [ht₀] at ht
        obtain rfl := Option.some.inj ht
        have hlt := (List.getElem?_eq_some_iff.mp ht₀).1
        -- no later pair has the row
        obtain ⟨j, rect, hmem, -⟩ | ⟨-, hkept⟩ := hplaces (List.getElem?_set_self hlt)
        · exact absurd (List.mem_map.mpr ⟨_, hmem, rfl⟩) hfirst
        · exact Or.inl ⟨p.2, rect₀, List.mem_cons_self, hrect₀, hkept⟩
      · obtain ⟨j, rect, hmem, hrect, hkept⟩ | ⟨hnone, hkept⟩ :=
          hplaces ((List.getElem?_set_ne hi).trans ht)
        · exact Or.inl ⟨j, rect, List.mem_cons_of_mem p hmem, hrect, hkept⟩
        · exact Or.inr ⟨List.forall_mem_cons.mpr ⟨hi, hnone⟩, hkept⟩
    · cases h

/-- A tracker that a call has made. -/
structure Fresh [Zero K] (low high : Int) (t : KalmanTracker K F) : Prop where
  box : t.lastRect = ⟨0, 0, 0, 0⟩
  streak : t.m_hit_streak = 0
  updated : t.m_time_since_update = 0
  low : low ≤ t.m_id
  high : t.m_id < high

/-- New trackers have the next numbers, in order. -/
theorem startTrackers_spec [Field K] (rects : List (Rect K)) : ∀ kf_count : Int,
    kf_count ≤ (startTrackers filter rects kf_count).2 ∧
      ((startTrackers filter rects kf_count).1.map KalmanTracker.m_id).Pairwise (· < ·) ∧
      ∀ t ∈ (startTrackers filter rects kf_count).1,
        Fresh kf_count (startTrackers filter rects kf_count).2 t := by
  induction rects with
  | nil =>
    intro kf_count
    exact ⟨le_refl _, List.Pairwise.nil, by simp [startTrackers]⟩
  | cons rect rects ih =>
    intro kf_count
    obtain ⟨hle, hsorted, hfresh⟩ := ih (kf_count + 1)
    refine ⟨?_, ?_, ?_⟩
    · show kf_count ≤ (startTrackers filter rects (kf_count + 1)).2
      omega
    · show (kf_count :: (startTrackers filter rects (kf_count + 1)).1.map _).Pairwise (· < ·)
      apply List.pairwise_cons.mpr
      refine ⟨?_, hsorted⟩
      intro id hid
      obtain ⟨t, ht, rfl⟩ := List.mem_map.mp hid
      have hlow := (hfresh t ht).low
      omega
    · intro t ht
      show Fresh kf_count (startTrackers filter rects (kf_count + 1)).2 t
      obtain rfl | ht := List.mem_cons.mp ht
      · exact ⟨rfl, rfl, rfl, le_refl _, by show kf_count < _; omega⟩
      · have hold := hfresh t ht
        exact ⟨hold.box, hold.streak, hold.updated, by have := hold.low; omega, hold.high⟩

/-- The loop over the pairs keeps the trackers in their places. -/
theorem updateMatched_ids {dets : List (Rect K)} {matchedPairs : List (Nat × Nat)} :
    ∀ {ts ts' : List (KalmanTracker K F)}, updateMatched filter dets matchedPairs ts = .ok ts' →
      ts'.map KalmanTracker.m_id = ts.map KalmanTracker.m_id := by
  induction matchedPairs with
  | nil =>
    intro ts ts' h
    cases h
    rfl
  | cons p matchedPairs ih =>
    intro ts ts' h
    rw [updateMatched] at h
    split at h
    · rename_i t rect ht hrect
      obtain ⟨hlt, rfl⟩ := List.getElem?_eq_some_iff.mp ht
      have hmap : p.1 < (ts.map KalmanTracker.m_id).length := by
        rw [List.length_map]
        exact hlt
      have hid : (KalmanTracker.update filter ts[p.1] rect).m_id =
          (ts.map KalmanTracker.m_id)[p.1] := by
        rw [List.getElem_map]
        rfl
      rw [ih h, List.map_set, hid]
      exact List.set_getElem_self hmap
    · cases h

end

/-! ## One call -/

variable [Field K] [LinearOrder K] (filter : Filter K F)

/-- The call pairs the tracker `id` with the detection in place `j`. -/
def Paired (s : SORT K F) (dets : List (Rect K)) (id : Int) (j : Nat) : Prop :=
  ∃ m i t, associate s.iouThreshold (predictedBoxes filter s.trackers) dets = .ok m ∧
    (i, j) ∈ m.matchedPairs ∧ (survivors filter s.trackers)[i]? = some t ∧ t.m_id = id

/-- Where a tracker of the next state comes from: the call made it, or it was there and was paired
with a detection, or it was there and goes on without.

A tracker that is paired has one hit more in its streak, or the first of a new one; one that goes on
without is a frame older. -/
inductive Stems (s : SORT K F) (dets : List (Rect K)) (high : Int) (t' : KalmanTracker K F) : Prop
  | made (h : Fresh s.kf_count high t')
  | paired (t : KalmanTracker K F) (ht : t ∈ s.trackers) (hid : t'.m_id = t.m_id) (j : Nat)
    (hpaired : Paired filter s dets t'.m_id j) (hbox : dets[j]? = some t'.lastRect)
    (hupdated : t'.m_time_since_update = 0)
    (hstreak : t'.m_hit_streak = (if t.m_time_since_update > 0 then 0 else t.m_hit_streak) + 1)
  | missed (t : KalmanTracker K F) (ht : t ∈ s.trackers) (hid : t'.m_id = t.m_id)
    (hupdated : t'.m_time_since_update = t.m_time_since_update + 1)

/-- Trackers stand in the order of their numbers. -/
structure Numbered (s : SORT K F) : Prop where
  sorted : (s.trackers.map KalmanTracker.m_id).Pairwise (· < ·)
  nonneg : ∀ t ∈ s.trackers, 0 ≤ t.m_id
  low : 0 ≤ s.kf_count
  high : ∀ t ∈ s.trackers, t.m_id < s.kf_count

/-- What a call does. -/
structure Called (s : SORT K F) (dets : List (Rect K)) (s' : SORT K F) (boxes : List (Box K)) :
    Prop where
  count : s'.frame_count = s.frame_count + 1
  min_hits : s'.min_hits = s.min_hits
  next : s.kf_count ≤ s'.kf_count
  stems : ∀ t' ∈ s'.trackers, Stems filter s dets s'.kf_count t'
  numbered : Numbered s → Numbered s'
  boxes : boxes = [] ∨ boxes = s'.trackers.filterMap s'.report

variable {filter} {s s' : SORT K F} {dets : List (Rect K)} {boxes : List (Box K)}

omit [LinearOrder K] in
/-- New trackers behind the old ones keep the order. -/
theorem Numbered.append (h : Numbered s) {ts created : List (KalmanTracker K F)} {high : Int}
    (hts : (ts.map KalmanTracker.m_id).Sublist (s.trackers.map KalmanTracker.m_id))
    (hhigh : s.kf_count ≤ high) (hcreated : (created.map KalmanTracker.m_id).Pairwise (· < ·))
    (hfresh : ∀ t ∈ created, Fresh s.kf_count high t) :
    Numbered { s with trackers := ts ++ created, kf_count := high } := by
  have hold : ∀ t ∈ ts, 0 ≤ t.m_id ∧ t.m_id < s.kf_count := by
    intro t ht
    obtain ⟨t₀, ht₀, hid⟩ := List.mem_map.mp (hts.subset (List.mem_map_of_mem ht))
    rw [← hid]
    exact ⟨h.nonneg t₀ ht₀, h.high t₀ ht₀⟩
  have hlow := h.low
  constructor
  · show ((ts ++ created).map KalmanTracker.m_id).Pairwise (· < ·)
    rw [List.map_append, List.pairwise_append]
    refine ⟨h.sorted.sublist hts, hcreated, ?_⟩
    intro id hid id' hid'
    obtain ⟨t, ht, rfl⟩ := List.mem_map.mp hid
    obtain ⟨t', ht', rfl⟩ := List.mem_map.mp hid'
    have hlt := (hold t ht).2
    have hle := (hfresh t' ht').low
    omega
  · intro t ht
    obtain ht | ht := List.mem_append.mp ht
    · exact (hold t ht).1
    · have hle := (hfresh t ht).low
      omega
  · show 0 ≤ high
    omega
  · intro t ht
    show t.m_id < high
    obtain ht | ht := List.mem_append.mp ht
    · have hlt := (hold t ht).2
      omega
    · exact (hfresh t ht).high

/-- The first call, and every other one that finds no tracker. -/
theorem called_empty :
    Called filter s dets { s.count with
      trackers := (startTrackers filter dets s.kf_count).1
      kf_count := (startTrackers filter dets s.kf_count).2 } [] := by
  obtain ⟨hle, hsorted, hfresh⟩ := startTrackers_spec filter dets s.kf_count
  constructor
  · rfl
  · rfl
  · exact hle
  · intro t' ht'
    exact .made (hfresh t' ht')
  · intro h
    have hnone : (([] : List (KalmanTracker K F)).map KalmanTracker.m_id).Sublist
        (s.trackers.map KalmanTracker.m_id) := List.nil_sublist _
    have hnumbered := h.append hnone hle hsorted hfresh
    exact ⟨hnumbered.sorted, hnumbered.nonneg, hnumbered.low, hnumbered.high⟩
  · exact Or.inl rfl

/-- Trackers survive the association in their order, and new ones follow. -/
theorem associated_spec [IsStrictOrderedRing K] {a : SORT K F}
    (h : associated filter s dets = .ok a) :
    s.kf_count ≤ a.kf_count ∧ a.frame_count = s.frame_count ∧ a.min_hits = s.min_hits ∧
      (∀ t' ∈ a.trackers, Stems filter s dets a.kf_count t') ∧
      (Numbered s → Numbered a) := by
  rw [associated, predictLoop_eq] at h
  obtain ⟨m, hm, h⟩ := Abort.bind_eq_ok h
  obtain ⟨ts, hts, h⟩ := Abort.bind_eq_ok h
  obtain ⟨rects, hrects, h⟩ := Abort.bind_eq_ok h
  have hids := updateMatched_ids filter hts
  obtain ⟨hlength, hplaces⟩ := updateMatched_getElem? filter (associate_oneToOne hm).rows hts
  obtain ⟨hle, hsorted, hfresh⟩ := startTrackers_spec filter rects s.kf_count
  cases h
  refine ⟨hle, rfl, rfl, ?_, ?_⟩
  · intro t' ht'
    obtain ht' | ht' := List.mem_append.mp ht'
    · obtain ⟨i, hi, hget⟩ := List.getElem_of_mem ht'
      rw [hlength, List.length_map] at hi
      have hsurvivor := List.getElem?_eq_getElem hi
      have hmem : (survivors filter s.trackers)[i] ∈ s.trackers :=
        (List.mem_filter.mp (List.getElem_mem hi)).1
      have hpredicted : ((survivors filter s.trackers).map fun t => (t.predict filter).1)[i]? =
          some (((survivors filter s.trackers)[i]).predict filter).1 := by
        rw [List.getElem?_map, hsurvivor]
        rfl
      have hnow : ts[i]? = some t' := hget ▸ List.getElem?_eq_getElem _
      obtain ⟨j, rect, hpair, hrect, hkept⟩ | ⟨-, hkept⟩ := hplaces hpredicted
      · rw [hnow] at hkept
        obtain rfl := Option.some.inj hkept
        exact .paired _ hmem rfl j ⟨m, i, _, hm, hpair, hsurvivor, rfl⟩ hrect rfl rfl
      · rw [hnow] at hkept
        obtain rfl := Option.some.inj hkept
        exact .missed _ hmem rfl rfl
    · exact .made (hfresh t' ht')
  · intro hnumbered
    -- those still in the image keep their order through prediction and update
    have hsub : (ts.map KalmanTracker.m_id).Sublist (s.trackers.map KalmanTracker.m_id) := by
      rw [hids, List.map_map]
      exact List.filter_sublist.map _
    have happend := hnumbered.append hsub hle hsorted hfresh
    exact ⟨happend.sorted, happend.nonneg, happend.low, happend.high⟩

/-- **One call.**

The association makes the trackers, and the loop at the end erases some and reports others; both keep
the order. -/
theorem update_called [IsStrictOrderedRing K] (h : s.update filter dets = .ok (s', boxes)) :
    Called filter s dets s' boxes := by
  by_cases hempty : s.trackers = []
  · rw [SORT.update, if_pos (by simpa using hempty)] at h
    cases h
    exact called_empty
  · rw [SORT.update, if_neg (by simpa using hempty)] at h
    obtain ⟨a, ha, h⟩ := Abort.bind_eq_ok h
    rw [output_eq] at h
    cases h
    obtain ⟨hle, hcount, hhits, hstems, hnumbered⟩ := associated_spec ha
    -- the last loop of the source only takes trackers away
    have hsub : (lagged a.dead a.trackers).Sublist a.trackers := lagged_sublist a.dead a.trackers
    constructor
    · exact hcount
    · exact hhits
    · exact hle
    · intro t' ht'
      obtain hmade | ⟨t, ht, hid, j, hp, hbox, hup, hst⟩ | ⟨t, ht, hid, hup⟩ :=
        hstems t' (hsub.subset ht')
      · exact .made hmade
      · exact .paired t ht hid j hp hbox hup hst
      · exact .missed t ht hid hup
    · intro hs
      have hcounted : Numbered s.count := ⟨hs.sorted, hs.nonneg, hs.low, hs.high⟩
      have ha' := hnumbered hcounted
      exact ⟨ha'.sorted.sublist (hsub.map _), fun t ht => ha'.nonneg t (hsub.subset ht), ha'.low,
        fun t ht => ha'.high t (hsub.subset ht)⟩
    · exact Or.inr rfl

/-! ## Runs -/

section

variable [IsStrictOrderedRing K] {max_age : Int} {frames : List (List (Rect K))}

variable (filter max_age frames) in
/-- A tracker that has just been updated was paired in every call of its streak.

It says nothing of a tracker that was not paired in the last call, and such a one is not reported. -/
structure Streak (t : KalmanTracker K F) : Prop where
  nonneg : 0 ≤ t.m_time_since_update
  paired : t.m_time_since_update = 0 → ∀ before dets after s₀, frames = before ++ dets :: after →
    (after.length : Int) < t.m_hit_streak → Trace (Frame filter) (SORT.new max_age) before s₀ →
    ∃ j, Paired filter s₀ dets t.m_id j

variable (filter max_age frames) in
/-- What holds after these frames. -/
structure Ran (s : SORT K F) : Prop where
  numbered : Numbered s
  count : s.frame_count = frames.length
  min_hits : s.min_hits = 5
  streaks : ∀ t ∈ s.trackers, Streak filter max_age frames t

omit [IsStrictOrderedRing K] in
/-- Before the first frame there is no tracker. -/
theorem ran_new : Ran filter max_age [] (SORT.new max_age : SORT K F) where
  numbered := ⟨List.Pairwise.nil, by simp [SORT.new], le_refl _, by simp [SORT.new]⟩
  count := rfl
  min_hits := rfl
  streaks := by simp [SORT.new]

omit [IsStrictOrderedRing K] in
/-- A tracker that a call has paired. -/
theorem Streak.step (hrun : Trace (Frame filter) (SORT.new max_age) frames s)
    {t t' : KalmanTracker K F} (ht : Streak filter max_age frames t) (hid : t'.m_id = t.m_id) {j : Nat}
    (hpaired : Paired filter s dets t'.m_id j) (hupdated : t'.m_time_since_update = 0)
    (hstreak : t'.m_hit_streak =
      (if t.m_time_since_update > 0 then 0 else t.m_hit_streak) + 1) :
    Streak filter max_age (frames ++ [dets]) t' where
  nonneg := by rw [hupdated]
  paired := by
    intro _ before d after s₀ hsplit hlength hbefore
    cases after using List.reverseRecOn with
    | nil =>
      -- the call itself
      obtain ⟨rfl, hd⟩ := List.append_inj' hsplit rfl
      obtain rfl := (List.cons.inj hd).1
      rw [Trace.unique (frame_unique filter) hbefore hrun]
      exact ⟨j, hpaired⟩
    | append_singleton after last =>
      rw [← List.cons_append, ← List.append_assoc] at hsplit
      obtain ⟨hfront, -⟩ := List.append_inj' hsplit rfl
      rw [List.length_append] at hlength
      -- a streak that reaches back over this call had no gap before it
      have hnow : t.m_time_since_update = 0 := by
        by_contra hne
        have hpos : t.m_time_since_update > 0 := lt_of_le_of_ne ht.nonneg (Ne.symm hne)
        rw [if_pos hpos] at hstreak
        simp at hlength
        omega
      rw [if_neg (by omega)] at hstreak
      rw [hid]
      apply ht.paired hnow before d after s₀ hfront _ hbefore
      simp at hlength
      omega

omit [IsStrictOrderedRing K] in
/-- One call more. -/
theorem Ran.step (h : Ran filter max_age frames s)
    (hrun : Trace (Frame filter) (SORT.new max_age) frames s)
    (hcalled : Called filter s dets s' boxes) : Ran filter max_age (frames ++ [dets]) s' where
  numbered := hcalled.numbered h.numbered
  count := by
    rw [hcalled.count, h.count]
    simp
  min_hits := hcalled.min_hits.trans h.min_hits
  streaks := by
    intro t' ht'
    obtain hmade | ⟨t, ht, hid, j, hpaired, -, hupdated, hstreak⟩ | ⟨t, ht, -, hupdated⟩ :=
      hcalled.stems t' ht'
    -- a new tracker has no streak that calls before it could have paired
    · constructor
      · rw [hmade.updated]
      · intro _ before d after s₀ _ hlength
        rw [hmade.streak] at hlength
        omega
    · exact (h.streaks t ht).step hrun hid hpaired hupdated hstreak
    · have hnonneg := (h.streaks t ht).nonneg
      constructor
      · omega
      · intro hzero
        omega

/-- After every run. -/
theorem ran (h : Trace (Frame filter) (SORT.new max_age) frames s) : Ran filter max_age frames s := by
  apply Trace.history (H := fun frames s => Ran filter max_age frames s) ran_new _ h
  rintro frames s dets s' hrun hran ⟨boxes, hupdate⟩
  exact hran.step hrun (update_called hupdate)

/-- What a call may report: a tracker that it has paired, under the box of its detection, and which
the calls before have paired too once the first five calls are over; or, in these, one it has made. -/
inductive Reported (filter : Filter K F) (max_age : Int) (frames : List (List (Rect K)))
    (s : SORT K F) (dets : List (Rect K)) (b : Box K) : Prop
  | paired (j : Nat) (hpaired : Paired filter s dets (b.id - 1) j) (hbox : dets[j]? = some b.rect)
    (hbefore : 5 ≤ frames.length → ∀ before d after s₀, frames = before ++ d :: after →
      after.length + 1 < 5 → Trace (Frame filter) (SORT.new max_age) before s₀ →
      ∃ j, Paired filter s₀ d (b.id - 1) j)
  | made (hbox : b.rect = ⟨0, 0, 0, 0⟩) (hnew : s.kf_count < b.id) (hearly : frames.length < 5)

omit [Field K] [LinearOrder K] [IsStrictOrderedRing K] in
/-- What is asked of a tracker that is reported. -/
theorem report_eq_some {t : KalmanTracker K F} {b : Box K} (h : s.report t = some b) :
    t.m_time_since_update < 1 ∧ (s.min_hits ≤ t.m_hit_streak ∨ s.frame_count ≤ s.min_hits) ∧
      b.rect = t.lastRect ∧ b.id = t.m_id + 1 := by
  rw [SORT.report] at h
  split at h
  · rename_i hboth
    obtain rfl := Option.some.inj h
    exact ⟨hboth.1, hboth.2, rfl, rfl⟩
  · cases h

/-- A call pairs no detection with two trackers. -/
theorem Paired.own {id id' : Int} {j : Nat} (h : Paired filter s dets id j)
    (h' : Paired filter s dets id' j) : id = id' := by
  obtain ⟨m, i, t, hm, hpair, ht, rfl⟩ := h
  obtain ⟨m', i', t', hm', hpair', ht', rfl⟩ := h'
  rw [hm] at hm'
  obtain rfl := Except.ok.inj hm'
  -- the assignment has no column twice
  have hrow : (i, j) = (i', j) :=
    List.inj_on_of_nodup_map (associate_oneToOne hm).columns hpair hpair' rfl
  rw [(Prod.mk.inj hrow).1, ht'] at ht
  rw [Option.some.inj ht]

/-- **What SORT reports**: after whatever frames, a call names every tracker at most once, in the order
in which they were made. It has paired each of them with a detection of its own, whose box it reports,
and so have the four calls before, or it is one of the first five calls.

`frame_count` and `kf_count` are `int` in the source, and `kf_count` is a static member that every
constructor of `SORT` sets to 0: the theorem is about one `SORT` at a time, with fewer than 2^31 frames
and trackers. It rests on `Ran`, what a run keeps of the numbers and the streaks, and on `Called`, what
a call makes of each tracker. -/
theorem reported (hrun : Trace (Frame filter) (SORT.new max_age) frames s)
    (h : s.update filter dets = .ok (s', boxes)) :
    (boxes.map Box.id).Pairwise (· < ·) ∧
      (∀ id id' j, Paired filter s dets id j → Paired filter s dets id' j → id = id') ∧
      ∀ b ∈ boxes, 0 < b.id ∧ b.id ≤ s'.kf_count ∧ Reported filter max_age frames s dets b := by
  have hcalled := update_called h
  have hran := ran hrun
  have hnext := hran.step hrun hcalled
  refine ⟨?_, fun id id' j => Paired.own, ?_⟩
  · obtain rfl | hboxes := hcalled.boxes
    · exact List.Pairwise.nil
    · have hsorted := List.pairwise_map.mp hnext.numbered.sorted
      rw [hboxes, List.pairwise_map, List.pairwise_filterMap]
      apply hsorted.imp
      intro t t' hlt b hb b' hb'
      rw [(report_eq_some hb).2.2.2, (report_eq_some hb').2.2.2]
      omega
  · intro b hb
    obtain rfl | hboxes := hcalled.boxes
    · cases hb
    rw [hboxes] at hb
    obtain ⟨t, ht, hreport⟩ := List.mem_filterMap.mp hb
    obtain ⟨hupdated, hhits, hrect, hid⟩ := report_eq_some hreport
    have hnonneg := hnext.numbered.nonneg t ht
    have hhigh := hnext.numbered.high t ht
    have hage := (hnext.streaks t ht).nonneg
    have hcount := hnext.count
    have hfive := hnext.min_hits
    simp at hcount
    refine ⟨by omega, by omega, ?_⟩
    have hback : b.id - 1 = t.m_id := by omega
    obtain hmade | ⟨_, _, _, j, hpaired, hbox, _, _⟩ | ⟨t₀, ht₀, -, hgrown⟩ := hcalled.stems t ht
    · refine .made (hrect.trans hmade.box) ?_ ?_
      · have hlow := hmade.low
        omega
      · have hnone := hmade.streak
        omega
    · refine .paired j (hback ▸ hpaired) (hrect ▸ hbox) ?_
      intro hlate before d after s₀ hsplit hlength hbefore
      rw [hback]
      apply (hnext.streaks t ht).paired (by omega) before d (after ++ [dets]) s₀ _ _ hbefore
      · rw [hsplit, List.append_assoc]
        rfl
      · simp
        omega
    -- whoever was missed in this call is too old to be reported by it
    · have hold := (hran.streaks t₀ ht₀).nonneg
      omega

end

/-- Somebody who stands there. -/
def person : Rect ℚ := ⟨10, 10, 20, 40⟩

/-- Somebody stands there for six frames, and the sixth call reports them for the five calls that have
paired them; the first call has made their tracker. -/
theorem reported_sixFrames : ∃ s s' boxes,
    Trace (Frame stillFilter) (SORT.new 10) (List.replicate 5 [person]) s ∧
      s.update stillFilter [person] = .ok (s', boxes) ∧ boxes.map Box.id = [1] ∧
      (boxes.map Box.id).Pairwise (· < ·) ∧
      (∀ id id' j, Paired stillFilter s [person] id j → Paired stillFilter s [person] id' j →
        id = id') ∧
      ∀ b ∈ boxes, 0 < b.id ∧ b.id ≤ s'.kf_count ∧
        Reported stillFilter 10 (List.replicate 5 [person]) s [person] b := by
  obtain ⟨s, hplay, hcheck⟩ : ∃ s, (SORT.new 10).play stillFilter (List.replicate 5 [person]) = some s ∧
      Abort.returns (s.update stillFilter [person]) (fun r => decide (r.2.map Box.id = [1])) = true :=
    (Option.any_eq_true _ _).mp (by decide +kernel)
  obtain ⟨⟨s', boxes⟩, hupdate, hids⟩ := Abort.of_returns hcheck
  have hrun := SORT.play_trace stillFilter hplay
  exact ⟨s, s', boxes, hrun, hupdate, of_decide_eq_true hids, reported hrun hupdate⟩

/-! ## Numbers are not used twice -/

section

variable [IsStrictOrderedRing K]

omit [IsStrictOrderedRing K] in
/-- What is neither there nor to come. -/
theorem Called.gone (h : Called filter s dets s' boxes) {id : Int} (hold : id < s.kf_count)
    (hgone : ∀ t ∈ s.trackers, t.m_id ≠ id) :
    id < s'.kf_count ∧ ∀ t ∈ s'.trackers, t.m_id ≠ id := by
  refine ⟨lt_of_lt_of_le hold h.next, ?_⟩
  intro t' ht' heq
  obtain hmade | ⟨t, ht, hid, _, _, _, _, _⟩ | ⟨t, ht, hid, _⟩ := h.stems t' ht'
  · have hlow := hmade.low
    omega
  · exact hgone t ht (hid.symm.trans heq)
  · exact hgone t ht (hid.symm.trans heq)

/-- **A number is never used again**: once a tracker that was made is not there any more, no later call
reports its number, however many frames come, as long as fewer than 2^31 trackers are made (`kf_count`
is an `int`) and no other `SORT` is made in between (its constructor sets `kf_count`, a static member,
to 0). The invariant of the run is that the number lies below `kf_count` and nobody has it. -/
theorem never_again {later : List (List (Rect K))} {s₁ : SORT K F}
    (hrun : Trace (Frame filter) s later s₁) {id : Int} (hold : id ≤ s.kf_count)
    (hgone : ∀ t ∈ s.trackers, t.m_id + 1 ≠ id)
    (h : s₁.update filter dets = .ok (s', boxes)) : ∀ b ∈ boxes, b.id ≠ id := by
  have hlater : id - 1 < s₁.kf_count ∧ ∀ t ∈ s₁.trackers, t.m_id ≠ id - 1 := by
    apply Trace.invariant (I := fun s => id - 1 < s.kf_count ∧ ∀ t ∈ s.trackers, t.m_id ≠ id - 1)
      _ _ hrun
    · rintro s dets s' ⟨hlt, hnone⟩ ⟨boxes, hupdate⟩
      exact (update_called hupdate).gone hlt hnone
    · refine ⟨by omega, ?_⟩
      intro t ht heq
      exact hgone t ht (by omega)
  have hcalled := update_called h
  obtain ⟨-, hnone⟩ := hcalled.gone hlater.1 hlater.2
  intro b hb heq
  obtain rfl | hboxes := hcalled.boxes
  · cases hb
  rw [hboxes] at hb
  obtain ⟨t, ht, hreport⟩ := List.mem_filterMap.mp hb
  have hid := (report_eq_some hreport).2.2.2
  exact hnone t ht (by omega)

end

/-- Somebody who reaches over the left edge. -/
def leaver : Rect ℚ := ⟨-20, 0, 10, 10⟩

/-- Somebody else who stands there. -/
def newcomer : Rect ℚ := ⟨300, 10, 20, 40⟩

/-- Two people are found, with the numbers 1 and 2, and the second one leaves: who comes then gets the
number 3. -/
theorem never_again_newcomer : ∃ s s₁ s' boxes,
    Trace (Frame stillFilter) (SORT.new 10) [[person, leaver], [person]] s ∧ s.kf_count = 2 ∧
      Trace (Frame stillFilter) s [[person]] s₁ ∧
      s₁.update stillFilter [person, newcomer] = .ok (s', boxes) ∧ boxes.map Box.id = [1, 3] ∧
      ∀ b ∈ boxes, b.id ≠ 2 := by
  obtain ⟨s, hplay, hcheck⟩ : ∃ s,
      (SORT.new 10).play stillFilter [[person, leaver], [person]] = some s ∧
      (decide (s.kf_count = 2 ∧ ∀ t ∈ s.trackers, t.m_id + 1 ≠ 2) &&
        (s.play stillFilter [[person]]).any fun s₁ =>
          Abort.returns (s₁.update stillFilter [person, newcomer])
            (fun r => decide (r.2.map Box.id = [1, 3]))) = true :=
    (Option.any_eq_true _ _).mp (by decide +kernel)
  obtain ⟨hleft, hcheck⟩ := (Bool.and_eq_true _ _).mp hcheck
  obtain ⟨hmade, hgone⟩ := of_decide_eq_true hleft
  obtain ⟨s₁, hplay₁, hcheck⟩ := (Option.any_eq_true _ _).mp hcheck
  obtain ⟨⟨s', boxes⟩, hupdate, hids⟩ := Abort.of_returns hcheck
  have hlater := SORT.play_trace stillFilter hplay₁
  exact ⟨s, s₁, s', boxes, SORT.play_trace stillFilter hplay, hmade, hlater, hupdate,
    of_decide_eq_true hids, never_again hlater hmade.ge hgone hupdate⟩

end EdgeFrame.Sort
