/-
# EdgeFrame.Track.Runs -- runs of the tracker

A `Turn` is a call of `Update` that has returned, a run a list of turns. This module
reads the ledger of a turn object by object: where an object of the new state comes
from, and where an object of the old state goes. `Tidy` is what holds between the
calls, and is all that the ledger needs.

The theorems about runs use `Run.history`: what holds of a new tracker, and is kept by every
turn of which the ledger is known, holds of every reachable state. So a module that proves
something of all runs states what the turns so far say about the state, and proves it for
one turn; `Update` itself is not opened again.

`SameTrack` is what is left of an object when a turn does not touch it: the marks of the
frame and the time of residence are set for everybody. `Continues` and `Descends` follow a
person through one turn and through a run.
-/
import EdgeFrame.Lib.Runs
import EdgeFrame.Track.Ledger
import Mathlib

namespace EdgeFrame.Track

open Lib

variable {K : Type}

/-- A call of `Update` that has returned.

The result is kept with it: the two records of a call are what the statements about runs count and
compare. -/
structure Turn (K : Type) where
  input : Input K
  result : Result K

/-- Nothing about a person that is tracked, but for the marks of the current frame and the time of
residence. -/
structure SameTrack (o o' : PersonObject K) : Prop where
  id : o'.id = o.id
  object_status : o'.object_status = o.object_status
  body_hit_num : o'.body_hit_num = o.body_hit_num
  last_updated_body_bbox : o'.last_updated_body_bbox = o.last_updated_body_bbox
  last_updated_face_bbox : o'.last_updated_face_bbox = o.last_updated_face_bbox
  body_trajectory : o'.body_trajectory = o.body_trajectory
  feature_messages : o'.feature_messages = o.feature_messages

/-- Every object is the same as itself. -/
theorem SameTrack.refl (o : PersonObject K) : SameTrack o o :=
  ⟨rfl, rfl, rfl, rfl, rfl, rfl, rfl⟩

/-- What is unchanged twice is unchanged. -/
theorem SameTrack.trans {o o' o'' : PersonObject K} (h : SameTrack o o') (h' : SameTrack o' o'') :
    SameTrack o o'' :=
  ⟨h'.id.trans h.id, h'.object_status.trans h.object_status, h'.body_hit_num.trans h.body_hit_num,
    h'.last_updated_body_bbox.trans h.last_updated_body_bbox,
    h'.last_updated_face_bbox.trans h.last_updated_face_bbox,
    h'.body_trajectory.trans h.body_trajectory, h'.feature_messages.trans h.feature_messages⟩

/-- Starting a frame touches the marks only. -/
theorem sameTrack_startFrame (o : PersonObject K) : SameTrack o (startFrame o) :=
  ⟨rfl, rfl, rfl, rfl, rfl, rfl, rfl⟩

/-- The turn matched the object with this id. -/
def Turn.Matched (t : Turn K) (id : Int) : Prop := ∃ a ∈ t.result.attached, a.object.id = id

/-- The turn created an object with this id. -/
def Turn.Created (t : Turn K) (id : Int) : Prop := ∃ o ∈ t.result.created, o.id = id

/-- Tracked and expired objects together. -/
def everyone (s : Tracker K) : Multiset (PersonObject K) :=
  (s.trackedPersonObjects : Multiset (PersonObject K)) + s.expiredPersonObjects

/-- Everyone is tracked or expired. -/
theorem mem_everyone {s : Tracker K} {o : PersonObject K} :
    o ∈ everyone s ↔ o ∈ s.trackedPersonObjects ∨ o ∈ s.expiredPersonObjects := by
  simp [everyone]

/-- What holds between two calls.

The expired objects were put there by the two loops, which take confirmed ones only, and nobody has
marked them since. -/
def Tidy (s : Tracker K) : Prop :=
  ∀ o ∈ s.expiredPersonObjects, o.Free ∧ o.object_status = .confirmed

variable [Field K] [LinearOrder K]

/-- One call of `Update`. -/
def Updates (P : Setup K) (s : Tracker K) (t : Turn K) (s' : Tracker K) : Prop :=
  Update P s t.input = .ok t.result ∧ s' = t.result.tracker

/-- A run from one state to another. -/
def Run (P : Setup K) : Tracker K → List (Turn K) → Tracker K → Prop := Trace (Updates P)

/-- The run that feeds these inputs to the tracker. -/
def play (P : Setup K) : Tracker K → List (Input K) → Except Abort (List (Turn K) × Tracker K)
  | s, [] => .ok ([], s)
  | s, inp :: inps => do
    let r ← Update P s inp
    let (turns, s') ← play P r.tracker inps
    return (⟨inp, r⟩ :: turns, s')

/-- What is played is a run. -/
theorem play_run {P : Setup K} : ∀ {inps : List (Input K)} {s s' : Tracker K}
    {turns : List (Turn K)}, play P s inps = .ok (turns, s') → Run P s turns s' := by
  intro inps
  induction inps with
  | nil =>
    intro _ _ _ h
    cases h
    rfl
  | cons inp inps ih =>
    intro s s' turns h
    obtain ⟨r, hr, h⟩ := Abort.bind_eq_ok h
    obtain ⟨⟨turns', s₁⟩, hrest, h⟩ := Abort.bind_eq_ok h
    cases h
    exact ⟨r.tracker, ⟨hr, rfl⟩, ih hrest⟩

/-- Of these inputs. -/
theorem play_inputs {P : Setup K} : ∀ {inps : List (Input K)} {s s' : Tracker K}
    {turns : List (Turn K)}, play P s inps = .ok (turns, s') → turns.map (·.input) = inps := by
  intro inps
  induction inps with
  | nil =>
    intro _ _ _ h
    cases h
    rfl
  | cons inp inps ih =>
    intro s s' turns h
    obtain ⟨r, -, h⟩ := Abort.bind_eq_ok h
    obtain ⟨⟨turns', s₁⟩, hrest, h⟩ := Abort.bind_eq_ok h
    cases h
    rw [List.map_cons, ih hrest]

/-- `o'` is the object `o` one turn later. -/
inductive Continues (P : Setup K) (t : Turn K) (o o' : PersonObject K) : Prop where
  | unmatched (h : SameTrack o o')
  | matched (a : Attachment K) (ha : a ∈ t.result.attached) (hattached : Attached P a)
      (hbefore : SameTrack o a.object) (hafter : SameTrack a.updated o')

omit [LinearOrder K] in
/-- The id stays. -/
theorem Continues.id {P : Setup K} {t : Turn K} {o o' : PersonObject K}
    (h : Continues P t o o') : o'.id = o.id := by
  cases h with
  | unmatched h => exact h.id
  | matched a _ hattached hbefore hafter => rw [hafter.id, hattached.id, hbefore.id]

/-- `o'` is the object `o` after a run. -/
inductive Descends (P : Setup K) : List (Turn K) → PersonObject K → PersonObject K → Prop where
  | refl (o : PersonObject K) : Descends P [] o o
  | step {turns : List (Turn K)} {t : Turn K} {o o' o'' : PersonObject K}
      (h : Descends P turns o o') (ht : Continues P t o' o'') : Descends P (turns ++ [t]) o o''

omit [LinearOrder K] in
/-- Through a run as well. -/
theorem Descends.id {P : Setup K} {turns : List (Turn K)} {o o' : PersonObject K}
    (h : Descends P turns o o') : o'.id = o.id := by
  induction h with
  | refl o => rfl
  | step _ ht ih => rw [ht.id, ih]

omit [Field K] [LinearOrder K] in
/-- A sighting has the body box. -/
theorem sighting_body {d d' : PersonObject K} (h : d.sighting = d'.sighting) :
    d.last_updated_body_bbox = d'.last_updated_body_bbox :=
  (congrArg PersonObject.last_updated_body_bbox h :)

/-! ## `AccumulateDuration` -/

/-- `accumulate` sets the members of the stay and no others. -/
theorem accumulate_spec (P : Setup K) (cur : CurrentFrame) (o : PersonObject K) :
    ∃ duration previous timestamp frame_id, accumulate P cur o = { o with
      duration := duration
      is_previous_frame_body_bbox_area_bigger_than_thresh := previous
      previous_body_bbox_area_bigger_than_thresh_timestamp := timestamp
      previous_body_bbox_area_bigger_than_thresh_frame_id := frame_id } := by
  unfold accumulate
  split
  · exact ⟨_, _, _, _, rfl⟩
  · exact ⟨o.duration, o.is_previous_frame_body_bbox_area_bigger_than_thresh,
      o.previous_body_bbox_area_bigger_than_thresh_timestamp,
      o.previous_body_bbox_area_bigger_than_thresh_frame_id, rfl⟩

/-- They are none of those that are tracked. -/
theorem sameTrack_accumulate (P : Setup K) (cur : CurrentFrame) (o : PersonObject K) :
    SameTrack o (accumulate P cur o) := by
  obtain ⟨_, _, _, _, h⟩ := accumulate_spec P cur o
  rw [h]
  exact ⟨rfl, rfl, rfl, rfl, rfl, rfl, rfl⟩

/-- Nor the mark of the frame. -/
theorem accumulate_flag (P : Setup K) (cur : CurrentFrame) (o : PersonObject K) :
    (accumulate P cur o).is_current_frame_matched_or_new = o.is_current_frame_matched_or_new := by
  obtain ⟨_, _, _, _, h⟩ := accumulate_spec P cur o
  rw [h]

/-- Nor the other one. -/
theorem accumulate_body_detected (P : Setup K) (cur : CurrentFrame) (o : PersonObject K) :
    (accumulate P cur o).is_current_body_detected = o.is_current_body_detected := by
  obtain ⟨_, _, _, _, h⟩ := accumulate_spec P cur o
  rw [h]

/-- Only matched and new objects accumulate. -/
theorem accumulate_of_free {P : Setup K} {cur : CurrentFrame} {o : PersonObject K} (h : o.Free) :
    accumulate P cur o = o := by
  rw [PersonObject.Free] at h
  simp [accumulate, h]

/-! ## Where an object comes from -/

section

variable {P : Setup K} {s : Tracker K} {inp : Input K} {r : Result K} {L : Ledger K}

/-- An object of the new state: kept, matched or created. -/
theorem Balanced.mem_tracked (h : Balanced P s inp r L) {o' : PersonObject K} :
    o' ∈ r.tracker.trackedPersonObjects ↔ o' ∈ L.kept ∨
      (∃ a ∈ r.attached, o' = accumulate P inp.current a.updated) ∨
      (∃ o ∈ r.created, o' = accumulate P inp.current o) := by
  rw [← Multiset.mem_coe, h.tracked_after]
  simp only [Multiset.mem_map, Multiset.mem_add, Multiset.mem_coe]
  constructor
  · rintro ⟨o, (ho | ⟨a, ha, rfl⟩) | ho, rfl⟩
    · rw [accumulate_of_free (h.kept o ho).1]
      exact Or.inl ho
    · exact Or.inr (Or.inl ⟨a, ha, rfl⟩)
    · exact Or.inr (Or.inr ⟨o, ho, rfl⟩)
  · rintro (ho | ⟨a, ha, rfl⟩ | ⟨o, ho, rfl⟩)
    · exact ⟨o', Or.inl (Or.inl ho), accumulate_of_free (h.kept o' ho).1⟩
    · exact ⟨a.updated, Or.inl (Or.inr ⟨a, ha, rfl⟩), rfl⟩
    · exact ⟨o, Or.inr ho, rfl⟩

/-- An object of the new expired list: waiting. -/
theorem Balanced.mem_expired (h : Balanced P s inp r L) {o : PersonObject K} :
    o ∈ r.tracker.expiredPersonObjects ↔ o ∈ L.waiting := by
  rw [← Multiset.mem_coe, h.expired_after]

/-- An object of the tracked part of the ledger was tracked. -/
theorem Balanced.was_tracked (h : Balanced P s inp r L) {o : PersonObject K}
    (ho : o ∈ (L.fromTracked : Multiset (Attachment K)).map (·.object) + L.kept + L.aged +
      L.dropped) : ∃ o₀ ∈ s.trackedPersonObjects, o = startFrame o₀ := by
  rw [← h.tracked_before] at ho
  obtain ⟨o₀, ho₀, rfl⟩ := Multiset.mem_map.mp ho
  exact ⟨o₀, ho₀, rfl⟩

/-- An object of the expired part of the ledger was expired, or has just aged. -/
theorem Balanced.was_expired (h : Balanced P s inp r L) {o : PersonObject K}
    (ho : o ∈ (L.fromExpired : Multiset (Attachment K)).map (·.object) + L.waiting + L.gone) :
    o ∈ s.expiredPersonObjects ∨ o ∈ L.aged := by
  rw [← h.expired_before] at ho
  exact Multiset.mem_add.mp ho

/-- Whoever is kept was tracked. -/
theorem Balanced.kept_was_tracked (h : Balanced P s inp r L) {o : PersonObject K}
    (ho : o ∈ L.kept) : ∃ o₀ ∈ s.trackedPersonObjects, o = startFrame o₀ :=
  h.was_tracked (by simp [ho])

/-- Whoever has aged was tracked. -/
theorem Balanced.aged_was_tracked (h : Balanced P s inp r L) {o : PersonObject K}
    (ho : o ∈ L.aged) : ∃ o₀ ∈ s.trackedPersonObjects, o = startFrame o₀ :=
  h.was_tracked (by simp [ho])

/-- What is expired, or was a moment ago, has been confirmed. -/
theorem Balanced.expired_confirmed (hs : Tidy s) (h : Balanced P s inp r L) {o : PersonObject K}
    (ho : o ∈ (L.fromExpired : Multiset (Attachment K)).map (·.object) + L.waiting + L.gone) :
    o.object_status = .confirmed := by
  rcases h.was_expired ho with ho | ho
  · exact (hs o ho).2
  · exact (h.aged o ho).2.1

/-- What is expired, or was a moment ago, was there before the turn. -/
theorem Balanced.expired_was_there (h : Balanced P s inp r L) {o : PersonObject K}
    (ho : o ∈ (L.fromExpired : Multiset (Attachment K)).map (·.object) + L.waiting + L.gone) :
    ∃ o₀ ∈ everyone s, SameTrack o₀ o := by
  rcases h.was_expired ho with ho | ho
  · exact ⟨o, mem_everyone.mpr (Or.inr ho), SameTrack.refl o⟩
  · obtain ⟨o₀, ho₀, rfl⟩ := h.aged_was_tracked ho
    exact ⟨o₀, mem_everyone.mpr (Or.inl ho₀), sameTrack_startFrame o₀⟩

/-- An object that was matched was there before: tracked, or expired and confirmed. -/
theorem Balanced.object_was_there (hs : Tidy s) (h : Balanced P s inp r L) {a : Attachment K}
    (ha : a ∈ r.attached) :
    (∃ o ∈ s.trackedPersonObjects, SameTrack o a.object) ∨
      (∃ o ∈ s.expiredPersonObjects, SameTrack o a.object ∧ o.object_status = .confirmed) := by
  rw [h.attached] at ha
  rcases List.mem_append.mp ha with ha | ha
  · obtain ⟨o, ho, he⟩ := h.was_tracked (o := a.object)
      (by simp only [Multiset.mem_add, Multiset.mem_map]; exact Or.inl (Or.inl (Or.inl ⟨a, ha, rfl⟩)))
    exact Or.inl ⟨o, ho, he ▸ sameTrack_startFrame o⟩
  · have hmem : a.object ∈ (L.fromExpired : Multiset (Attachment K)).map (·.object) + L.waiting +
        L.gone := by
      simp only [Multiset.mem_add, Multiset.mem_map]
      exact Or.inl (Or.inl ⟨a, ha, rfl⟩)
    rcases h.was_expired hmem with ho | ho
    · exact Or.inr ⟨a.object, ho, SameTrack.refl _, (hs _ ho).2⟩
    · obtain ⟨o, ho, he⟩ := h.aged_was_tracked ho
      exact Or.inl ⟨o, ho, he ▸ sameTrack_startFrame o⟩

/-- **Where an object comes from**: it was there before the turn, or the turn created it.

These are the two cases of every proof about an object of a reachable state. -/
theorem Balanced.origin (hs : Tidy s) {t : Turn K} (h : Balanced P s t.input t.result L)
    {o' : PersonObject K} (ho' : o' ∈ everyone t.result.tracker) :
    (∃ o ∈ everyone s, Continues P t o o') ∨ ∃ c ∈ t.result.created, SameTrack c o' := by
  rcases mem_everyone.mp ho' with ho' | ho'
  · rcases h.mem_tracked.mp ho' with ho' | ⟨a, ha, rfl⟩ | ⟨c, hc, rfl⟩
    · obtain ⟨o, ho, rfl⟩ := h.kept_was_tracked ho'
      exact Or.inl ⟨o, mem_everyone.mpr (Or.inl ho), .unmatched (sameTrack_startFrame o)⟩
    · have hafter := sameTrack_accumulate P t.input.current a.updated
      rcases h.object_was_there hs ha with ⟨o, ho, hsame⟩ | ⟨o, ho, hsame, -⟩
      · exact Or.inl ⟨o, mem_everyone.mpr (Or.inl ho),
          .matched a ha (h.attachment a ha) hsame hafter⟩
      · exact Or.inl ⟨o, mem_everyone.mpr (Or.inr ho),
          .matched a ha (h.attachment a ha) hsame hafter⟩
    · exact Or.inr ⟨c, hc, sameTrack_accumulate P t.input.current c⟩
  · obtain ⟨o, ho, hsame⟩ := h.expired_was_there (o := o') (by simp [h.mem_expired.mp ho'])
    exact Or.inl ⟨o, ho, .unmatched hsame⟩

/-- A detection that was booked on an object is one of the frame. -/
theorem Balanced.detection_seen (h : Balanced P s inp r L) {a : Attachment K}
    (ha : a ∈ r.attached) :
    ∃ d ∈ inp.cur_detected_person_objects, d.sighting = a.detection.sighting := by
  have hmem : a.detection.sighting ∈
      (inp.cur_detected_person_objects : Multiset (PersonObject K)).map (·.sighting) := by
    rw [h.detections]
    exact Multiset.mem_add.mpr (Or.inl (Multiset.mem_map.mpr ⟨a, ha, rfl⟩))
  exact Multiset.mem_map.mp hmem

/-- A new object is one of the detections of the frame. -/
theorem Balanced.created_seen (h : Balanced P s inp r L) {c : PersonObject K}
    (hc : c ∈ r.created) : ∃ d ∈ inp.cur_detected_person_objects, d.sighting = c.sighting := by
  have hmem : c.sighting ∈
      (inp.cur_detected_person_objects : Multiset (PersonObject K)).map (·.sighting) := by
    rw [h.detections]
    exact Multiset.mem_add.mpr (Or.inr (Multiset.mem_map.mpr ⟨c, hc, rfl⟩))
  exact Multiset.mem_map.mp hmem

/-- The books keep the state tidy. -/
theorem Balanced.tidy (hs : Tidy s) (h : Balanced P s inp r L) : Tidy r.tracker := by
  intro o ho
  have ho := h.mem_expired.mp ho
  exact ⟨(h.waiting o ho).1, h.expired_confirmed hs (by simp [ho])⟩

end

omit [Field K] [LinearOrder K] in
/-- A new tracker has no expired objects. -/
theorem tidy_init : Tidy (Tracker.init : Tracker K) := by
  intro o ho
  cases ho

variable [IsStrictOrderedRing K]

/-- Every turn from a tidy state has its ledger. -/
theorem Updates.balanced {P : Setup K} {s s' : Tracker K} {t : Turn K} (hs : Tidy s)
    (h : Updates P s t s') : ∃ L, Balanced P s t.input t.result L :=
  Update_balanced (fun o ho => (hs o ho).1) h.1

/-- A turn leaves a tidy state behind. -/
theorem Updates.tidy {P : Setup K} {s s' : Tracker K} {t : Turn K} (hs : Tidy s)
    (h : Updates P s t s') : Tidy s' := by
  obtain ⟨L, hL⟩ := h.balanced hs
  rw [h.2]
  exact hL.tidy hs

/-- Every reachable state is tidy. -/
theorem Run.tidy {P : Setup K} {turns : List (Turn K)} {s s' : Tracker K} (hs : Tidy s)
    (h : Run P s turns s') : Tidy s' :=
  Trace.invariant (I := Tidy) (fun _ _ _ hs ht => Updates.tidy hs ht) hs h

/-- **The history rule of the tracker**: what holds of a new tracker and is kept by every turn, with
its ledger at hand, holds of every reachable state and the turns that led to it.

The condition `Q` on the turns is asked of each of them, and handed to the step; without one it is
`True`. -/
theorem Run.history {P : Setup K} {Q : Turn K → Prop} {H : List (Turn K) → Tracker K → Prop}
    (hinit : H [] Tracker.init)
    (hstep : ∀ turns s t L, Tidy s → H turns s → Q t → Balanced P s t.input t.result L →
      H (turns ++ [t]) t.result.tracker)
    {turns : List (Turn K)} {s : Tracker K} (h : Run P Tracker.init turns s)
    (hall : ∀ t ∈ turns, Q t) : H turns s := by
  refine Trace.history_of_forall hinit ?_ h hall
  intro turns s t s' hrun ih ht hupdates
  have hs := Run.tidy tidy_init hrun
  obtain ⟨L, hL⟩ := hupdates.balanced hs
  rw [hupdates.2]
  exact hstep turns s t L hs ih ht hL

/-! ## A scene -/

/-- A tracker configured for monitoring. -/
def scene : Setup ℚ :=
  Setup.configure ⟨Thresholds.initial, id, round, fun _ _ _ => 0⟩

/-- Someone seen in a frame, always at the same place; the memory behind the face box holds `face`. -/
def someone (face frame_id : UInt64) : PersonObject ℚ :=
  PersonObject.new ⟨0, 0, ⟨face, face, 0⟩, ⟨0, 0, 0⟩, 0, 0⟩ none
    (some ⟨frame_id, frame_id, 9 / 10, ⟨100, 100, 20, 40⟩⟩) (-1)

/-- A frame with someone in it, or nobody. -/
def shot (face frame_id : UInt64) (seen : Bool) : Input ℚ :=
  ⟨⟨540, 960, []⟩, frame_id, frame_id, if seen then [someone face frame_id] else []⟩

end EdgeFrame.Track
