/-
# EdgeFrame.Sort.Removal -- which dead trackers are removed

The loop that ends `SORT::update` steps on before it looks whether a tracker is dead, and
so never looks at the first one, nor at the one behind a tracker it has just erased. What
it keeps alive is never lost; the dead are all gone exactly when the first tracker is not
one of them and no two of them are neighbours. Who is dead then can be told before the
call: the trackers predicted in the image that have not been updated for `max_age` frames
and that the call pairs with no detection.

The loop is `lagLoop` of `Lib.EraseLoop`, whose laws are `filter_lagged` and
`lagged_clean_iff`; they are about any list and any notion of being dead. This module says
which trackers are dead when the loop begins (`dead_associated_iff`): updating saves a
tracker, predicting makes it older by a frame, and new ones are not dead. Pairs and
predictions do not depend on the loop, so that `Overdue` and `Collectable` are conditions on
the state before the call and its detections.
-/
import EdgeFrame.Sort.Association
import Mathlib

namespace EdgeFrame.Sort

open Lib Assign
open Track (Rect GetIOU)

variable {K F : Type} [Field K] [LinearOrder K] (filter : Filter K F)

/-- No dead tracker is left of these, and every other one is. -/
structure RemovesDead (s : SORT K F) (before after : List (KalmanTracker K F)) : Prop where
  clean : ∀ t ∈ after, t.m_time_since_update ≤ s.max_age
  kept : after.filter (fun t => !s.dead t) = before.filter fun t => !s.dead t

/-- The tracker in this place among those predicted in the image will be dead: it has been without an
update for `max_age` frames, and the call pairs it with no detection.

Its age is that before the prediction, which adds one. -/
def Overdue (s : SORT K F) (dets : List (Rect K)) (i : Nat) : Prop :=
  (∃ t, (survivors filter s.trackers)[i]? = some t ∧ s.max_age ≤ t.m_time_since_update) ∧
    ∀ m, associate s.iouThreshold (predictedBoxes filter s.trackers) dets = .ok m →
      ∀ p ∈ m.matchedPairs, p.1 ≠ i

/-- The first of them is not overdue, and no two neighbours are. -/
def Collectable (s : SORT K F) (dets : List (Rect K)) : Prop :=
  ¬ Overdue filter s dets 0 ∧ ∀ i, ¬ (Overdue filter s dets i ∧ Overdue filter s dets (i + 1))

/-! ## Who is dead -/

section

omit [Field K] [LinearOrder K]

variable {filter} {s : SORT K F}

/-- A tracker is dead that was not updated for more than `max_age` frames. -/
theorem dead_eq_false_iff {t : KalmanTracker K F} :
    s.dead t = false ↔ t.m_time_since_update ≤ s.max_age := by
  rw [SORT.dead, decide_eq_false_iff_not, not_lt]

/-- A tracker that has just been updated is not dead. -/
theorem dead_update (hage : 0 ≤ s.max_age) (t : KalmanTracker K F) (rect : Rect K) :
    s.dead (t.update filter rect) = false :=
  dead_eq_false_iff.mpr hage

/-- The loop over the pairs saves the paired trackers. -/
theorem dead_updateMatched {dets : List (Rect K)} (hage : 0 ≤ s.max_age)
    {matchedPairs : List (Nat × Nat)} : ∀ {ts ts' : List (KalmanTracker K F)},
    updateMatched filter dets matchedPairs ts = .ok ts' →
    ts'.length = ts.length ∧
      ∀ i, ts'[i]?.any s.dead = true ↔ ts[i]?.any s.dead = true ∧ ∀ p ∈ matchedPairs, p.1 ≠ i := by
  induction matchedPairs with
  | nil =>
    intro ts ts' h
    cases h
    exact ⟨rfl, fun i => by simp⟩
  | cons p matchedPairs ih =>
    intro ts ts' h
    rw [updateMatched] at h
    split at h
    · rename_i t rect ht hrect
      obtain ⟨hlength, hdead⟩ := ih h
      refine ⟨by rw [hlength, List.length_set], ?_⟩
      intro i
      rw [hdead i, List.forall_mem_cons]
      by_cases hi : p.1 = i
      · have hlt := (List.getElem?_eq_some_iff.mp ht).1
        rw [← hi, List.getElem?_set_self hlt, Option.any_some, dead_update hage]
        simp
      · rw [List.getElem?_set_ne hi]
        tauto
    · cases h

end

section

variable {filter} {s : SORT K F} {dets : List (Rect K)}

omit [LinearOrder K] in
/-- New trackers are not dead. -/
theorem dead_startTrackers (hage : 0 ≤ s.max_age) : ∀ (rects : List (Rect K)) (kf_count : Int),
    ∀ t ∈ (startTrackers filter rects kf_count).1, s.dead t = false := by
  intro rects
  induction rects with
  | nil =>
    intro kf_count t ht
    cases ht
  | cons rect rects ih =>
    intro kf_count t ht
    rcases List.mem_cons.mp ht with hnew | hrest
    · rw [hnew]
      exact dead_eq_false_iff.mpr hage
    · exact ih (kf_count + 1) t hrest

/-- **The dead** after the association are the overdue ones, in their places.

The new trackers stand behind them, and are not dead either. -/
theorem dead_associated_iff (hage : 0 ≤ s.max_age) {a : SORT K F}
    (h : associated filter s dets = .ok a) :
    a.max_age = s.max_age ∧
      ∀ i, a.trackers[i]?.any s.dead = true ↔ Overdue filter s dets i := by
  rw [associated, predictLoop_eq] at h
  obtain ⟨m, hm, h⟩ := Abort.bind_eq_ok h
  obtain ⟨ts, hts, h⟩ := Abort.bind_eq_ok h
  obtain ⟨rects, hrects, h⟩ := Abort.bind_eq_ok h
  obtain ⟨hlength, hdead⟩ := dead_updateMatched hage hts
  cases h
  refine ⟨rfl, ?_⟩
  intro i
  -- the prediction makes a tracker one frame older
  have hpredicted : ((survivors filter s.trackers).map fun t => (t.predict filter).1)[i]?.any s.dead =
      true ↔ ∃ t, (survivors filter s.trackers)[i]? = some t ∧ s.max_age ≤ t.m_time_since_update := by
    rw [List.getElem?_map]
    cases (survivors filter s.trackers)[i]? with
    | none => simp
    | some t =>
      simp [SORT.dead, KalmanTracker.predict]
  rcases Nat.lt_or_ge i ts.length with hi | hi
  -- in a place among the predicted ones the loop over the pairs decides
  · rw [List.getElem?_append_left hi, hdead, hpredicted, Overdue]
    refine and_congr_right fun _ => ?_
    constructor
    · intro hpairs m' hm'
      rw [hm] at hm'
      cases hm'
      exact hpairs
    · intro hpairs
      exact hpairs m hm
  · -- a new tracker, or none
    rw [List.getElem?_append_right hi]
    have hnew : ¬ ((startTrackers filter rects s.kf_count).1[i - ts.length]?.any s.dead = true) := by
      cases hget : (startTrackers filter rects s.kf_count).1[i - ts.length]? with
      | none => simp
      | some t =>
        simp [dead_startTrackers hage rects s.kf_count t (List.mem_of_getElem? hget)]
    refine iff_of_false hnew ?_
    rintro ⟨⟨t, ht, -⟩, -⟩
    have hlt := (List.getElem?_eq_some_iff.mp ht).1
    rw [List.length_map] at hlength
    omega

/-! ## The call -/

/-- An update of some trackers is its association and the loop at the end. -/
theorem update_eq_ok (hne : s.trackers ≠ []) {s' : SORT K F} {boxes : List (Box K)}
    (h : s.update filter dets = .ok (s', boxes)) :
    ∃ a, associated filter s.count dets = .ok a ∧ s'.trackers = lagged a.dead a.trackers ∧
      boxes = s'.trackers.filterMap a.report := by
  rw [SORT.update, if_neg (by simpa using hne)] at h
  obtain ⟨a, ha, h⟩ := Abort.bind_eq_ok h
  rw [output_eq] at h
  cases h
  exact ⟨a, ha, rfl, rfl⟩

/-- **The removal** is exact: it leaves no dead tracker exactly when they could be collected. -/
theorem removesDead_iff (hage : 0 ≤ s.max_age) {a : SORT K F}
    (ha : associated filter s.count dets = .ok a) :
    RemovesDead s a.trackers (lagged a.dead a.trackers) ↔ Collectable filter s dets := by
  obtain ⟨hmax, hdead⟩ : a.max_age = s.max_age ∧
      ∀ i, a.trackers[i]?.any s.dead = true ↔ Overdue filter s dets i :=
    dead_associated_iff (s := s.count) hage ha
  have hsame : a.dead = s.dead := by
    funext t
    rw [SORT.dead, SORT.dead, hmax]
  have hclean := lagged_clean_iff s.dead a.trackers
  rw [hsame]
  constructor
  · intro h
    obtain ⟨hfirst, hpairs⟩ := hclean.mp fun t ht => dead_eq_false_iff.mpr (h.clean t ht)
    constructor
    · intro hzero
      rw [(hdead 0).mpr hzero] at hfirst
      cases hfirst
    · rintro i ⟨hi, hnext⟩
      exact hpairs i ⟨(hdead i).mpr hi, (hdead (i + 1)).mpr hnext⟩
  · rintro ⟨hfirst, hpairs⟩
    constructor
    case clean =>
      intro t ht
      refine dead_eq_false_iff.mp (hclean.mpr ⟨?_, ?_⟩ t ht)
      · exact Bool.eq_false_iff.mpr fun hzero => hfirst ((hdead 0).mp hzero)
      · rintro i ⟨hi, hnext⟩
        exact hpairs i ⟨(hdead i).mp hi, (hdead (i + 1)).mp hnext⟩
    case kept => exact filter_lagged s.dead a.trackers

/-- What is alive after the association is there when `update` returns, in its order.

It holds of every call, whatever the loop fails to remove. -/
theorem update_keeps_alive (hne : s.trackers ≠ []) {s' : SORT K F} {boxes : List (Box K)}
    (h : s.update filter dets = .ok (s', boxes)) :
    ∃ a, associated filter s.count dets = .ok a ∧
      s'.trackers.filter (fun t => !a.dead t) = a.trackers.filter fun t => !a.dead t := by
  obtain ⟨a, ha, htrackers, -⟩ := update_eq_ok hne h
  exact ⟨a, ha, by rw [htrackers, filter_lagged]⟩

/-- **SORT removes dead trackers** in a call that starts with some exactly when one is predicted in
the image, so that the call returns, and they can be collected: then none is left with more than
`max_age` frames since its update, and every other one that was there after the association still is.

The call returns by `frame_iff`; after that it is `removesDead_iff` for the trackers that the
association leaves, whose dead are the overdue ones by `dead_associated_iff`. The detections enter
through the pairs only. -/
theorem update_removes_dead_iff [IsStrictOrderedRing K] (hne : s.trackers ≠ []) (hage : 0 ≤ s.max_age) :
    (∃ a s' boxes, associated filter s.count dets = .ok a ∧
      s.update filter dets = .ok (s', boxes) ∧ RemovesDead s a.trackers s'.trackers) ↔
      SomeoneInImage filter s ∧ Collectable filter s dets := by
  constructor
  · rintro ⟨a, s', boxes, ha, h, hremoves⟩
    obtain ⟨a', ha', htrackers, -⟩ := update_eq_ok hne h
    rw [ha] at ha'
    cases ha'
    rw [htrackers] at hremoves
    exact ⟨(frame_iff filter s dets).mp ⟨s', boxes, h⟩, (removesDead_iff hage ha).mp hremoves⟩
  · rintro ⟨hsome, hcollectable⟩
    obtain ⟨s', boxes, h⟩ := (frame_iff filter s dets).mpr hsome
    obtain ⟨a, ha, htrackers, -⟩ := update_eq_ok hne h
    refine ⟨a, s', boxes, ha, h, ?_⟩
    rw [htrackers]
    exact (removesDead_iff hage ha).mpr hcollectable

end

/-- A tracker that was started in the first frame and has been waiting since. -/
def waiting (max_age m_time_since_update : Int) : SORT ℚ (Rect ℚ) :=
  { (SORT.new max_age : SORT ℚ (Rect ℚ)) with
    frame_count := 1
    trackers := [{ KalmanTracker.new stillFilter ⟨0, 0, 10, 10⟩ 0 with m_time_since_update }]
    kf_count := 1 }

/-- All of them are predicted where they are. -/
theorem survivors_waiting (max_age n : Int) :
    survivors stillFilter (waiting max_age n).trackers = (waiting max_age n).trackers := by
  simp [survivors, waiting, KalmanTracker.predict, KalmanTracker.new, stillFilter, inImage]

/-- It is in the image, so that the call returns. -/
theorem frame_waiting (max_age n : Int) : ∃ s', Frame stillFilter (waiting max_age n) [] s' := by
  refine (frame_iff stillFilter _ []).mpr ((someoneInImage_iff stillFilter _).mpr (Or.inr ?_))
  rw [survivors_waiting]
  exact List.cons_ne_nil _ _

/-- Whoever stands in a place that is paired is not overdue. -/
theorem not_overdue_of_paired {s : SORT K F} {dets : List (Rect K)} {m : Matching} {i j : Nat}
    (hm : associate s.iouThreshold (predictedBoxes filter s.trackers) dets = .ok m)
    (hpair : (i, j) ∈ m.matchedPairs) : ¬ Overdue filter s dets i :=
  fun hdue => hdue.2 m hm (i, j) hpair rfl

/-- Nobody stands behind the last place. -/
theorem not_overdue_of_le {s : SORT K F} {dets : List (Rect K)} {i : Nat}
    (hi : (survivors filter s.trackers).length ≤ i) : ¬ Overdue filter s dets i := by
  rintro ⟨⟨t, ht, -⟩, -⟩
  rw [List.getElem?_eq_none hi] at ht
  cases ht

/-- Three people are seen in the first frame and missed in the next ten; then the first and the third
are seen again. The tracker of the second one is removed, and the other two stay. -/
theorem update_removes_dead_middle :
    ∃ s, Trace (Frame stillFilter) (SORT.new 10)
        ([⟨0, 0, 10, 10⟩, ⟨100, 0, 10, 10⟩, ⟨200, 0, 10, 10⟩] :: List.replicate 10 []) s ∧
      ∃ a s' boxes, associated stillFilter s.count [⟨0, 0, 10, 10⟩, ⟨200, 0, 10, 10⟩] = .ok a ∧
        s.update stillFilter [⟨0, 0, 10, 10⟩, ⟨200, 0, 10, 10⟩] = .ok (s', boxes) ∧
        RemovesDead s a.trackers s'.trackers ∧ a.trackers.map (·.m_time_since_update) = [0, 11, 0] ∧
        s'.trackers.map (·.m_id) = [0, 2] := by
  obtain ⟨s, hplay, hcheck⟩ : ∃ s, (SORT.new 10).play stillFilter
      ([⟨0, 0, 10, 10⟩, ⟨100, 0, 10, 10⟩, ⟨200, 0, 10, 10⟩] :: List.replicate 10 []) = some s ∧
      (decide (0 ≤ s.max_age ∧ (survivors stillFilter s.trackers).length = 3) &&
        Abort.returns (associate s.iouThreshold (predictedBoxes stillFilter s.trackers)
          [⟨0, 0, 10, 10⟩, ⟨200, 0, 10, 10⟩])
          (fun m => decide (m.matchedPairs = [(0, 0), (2, 1)])) &&
        Abort.returns (associated stillFilter s.count [⟨0, 0, 10, 10⟩, ⟨200, 0, 10, 10⟩])
          (fun a => decide (a.trackers.map (·.m_time_since_update) = [0, 11, 0])) &&
        Abort.returns (s.update stillFilter [⟨0, 0, 10, 10⟩, ⟨200, 0, 10, 10⟩])
          (fun r => decide (r.1.trackers.map (·.m_id) = [0, 2]))) = true :=
    (Option.any_eq_true _ _).mp (by decide +kernel)
  simp only [Bool.and_eq_true, decide_eq_true_eq] at hcheck
  obtain ⟨⟨⟨⟨hage, hthree⟩, hassociate⟩, hassociated⟩, hupdate⟩ := hcheck
  obtain ⟨m, hm, hpairs⟩ := Abort.of_returns hassociate
  obtain ⟨a, ha, hold⟩ := Abort.of_returns hassociated
  obtain ⟨⟨s', boxes⟩, hs', hids⟩ := Abort.of_returns hupdate
  have hpairs := of_decide_eq_true hpairs
  have hsome : survivors stillFilter s.trackers ≠ [] := by
    rw [← List.length_pos_iff, hthree]
    decide
  have hne : s.trackers ≠ [] := by
    intro hnone
    rw [hnone] at hsome
    exact hsome rfl
  -- the first and the third are paired, and there is no fourth
  have hfirst := not_overdue_of_paired (i := 0) (j := 0) stillFilter hm (by rw [hpairs]; decide)
  have hthird := not_overdue_of_paired (i := 2) (j := 1) stillFilter hm (by rw [hpairs]; decide)
  have hcollectable : Collectable stillFilter s [⟨0, 0, 10, 10⟩, ⟨200, 0, 10, 10⟩] := by
    refine ⟨hfirst, ?_⟩
    rintro i ⟨hi, hnext⟩
    obtain rfl | rfl | hlater : i = 0 ∨ i = 1 ∨ 2 ≤ i := by omega
    · exact hfirst hi
    · exact hthird hnext
    · exact not_overdue_of_le stillFilter (by omega) hnext
  obtain ⟨a', s'', boxes', ha', hs'', hremoves⟩ := (update_removes_dead_iff hne hage).mpr
    ⟨(someoneInImage_iff stillFilter s).mpr (Or.inr hsome), hcollectable⟩
  rw [ha] at ha'
  rw [hs'] at hs''
  obtain rfl := Except.ok.inj ha'
  obtain ⟨rfl, rfl⟩ := Prod.mk.inj (Except.ok.inj hs'')
  exact ⟨s, SORT.play_trace stillFilter hplay, a, s', boxes, ha, hs', hremoves,
    of_decide_eq_true hold, of_decide_eq_true hids⟩

/-- With a `max_age` of 0, a person that is seen in the first frame and in no other stays tracked:
nobody tests the first tracker. -/
theorem first_tracker_stays :
    Frame stillFilter (SORT.new 0) [⟨0, 0, 10, 10⟩] (waiting 0 0) ∧
      ∃ a s', associated stillFilter (waiting 0 0).count [] = .ok a ∧
        Frame stillFilter (waiting 0 0) [] s' ∧ ¬ RemovesDead (waiting 0 0) a.trackers s'.trackers := by
  obtain ⟨s', boxes, h⟩ := frame_waiting 0 0
  obtain ⟨a, ha, htrackers, -⟩ := update_eq_ok (List.cons_ne_nil _ _) h
  refine ⟨⟨[], rfl⟩, a, s', ha, ⟨boxes, h⟩, ?_⟩
  rw [htrackers, removesDead_iff (by decide) ha]
  rintro ⟨hfirst, -⟩
  -- there are no detections that the tracker could be paired with
  have hne : predictedBoxes stillFilter (waiting 0 0).trackers ≠ [] := by
    rw [predictedBoxes, survivors_waiting]
    exact List.cons_ne_nil _ _
  obtain ⟨m, hm, hrange⟩ := associate_spec hne (waiting 0 0).iouThreshold []
  refine hfirst ⟨⟨_, by rw [survivors_waiting]; rfl, by decide⟩, ?_⟩
  intro m' hm' p hp
  rw [hm] at hm'
  cases hm'
  exact absurd (hrange.pairs p hp).2 (Nat.not_lt_zero _)

end EdgeFrame.Sort
