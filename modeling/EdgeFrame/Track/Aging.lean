/-
# EdgeFrame.Track.Aging -- how long an unmatched person is kept

The tracker is meant to follow a timeline: a confirmed person that is not matched stays
tracked until its body box is more than `lost_track_thresh` frames old, and expired
until it is more than `expired_to_delete_thresh` frames old. The code asks for the face
box to be that old as well, and the constructor leaves the stamp of the face box
unassigned when there is no face. So the timeline holds in the runs in which the stamp
of the face, whatever it is, is old whenever the stamp of the body is; with any other
stamp a track goes stale.

Two statements are made of it. `Run.follows_timeline` follows one person through a run of
turns that do not match it; `Run.no_stale_tracks` looks at everybody after each turn. Both
rest on what the ledger says of an object without a match: a tracked one is kept, aged or
dropped by its two ages (`Balanced.tracked_unmatched`), an expired one stays or is deleted
by them (`Balanced.expired_unmatched`). The conditions, `FaceLost` and `FaceAged`, are about
the ages in the state before a turn, so that they can be read off a run as it goes on.

An age is the unsigned difference that the code computes. A stamp that lies ahead of the
frame has a very large one.
-/
import EdgeFrame.Track.Identity
import Mathlib

namespace EdgeFrame.Track

open Lib

variable {K : Type}

/-! ## The timeline -/

/-- Where a person is kept. -/
inductive Place where
  | tracked
  | expired
  | deleted
  deriving DecidableEq, Repr

/-- One frame without a match, `age` frames after the last one. -/
def Place.next (lost delete age : Nat) : Place → Place
  | .tracked => if age ≤ lost then .tracked else if age ≤ delete then .expired else .deleted
  | .expired => if age ≤ delete then .expired else .deleted
  | .deleted => .deleted

/-- Where a tracked person is after frames without a match. -/
def timeline (lost delete : Nat) (ages : List Nat) : Place :=
  ages.foldl (fun place age => place.next lost delete age) .tracked

/-- Tracked until the first age above `lost`. -/
theorem timeline_tracked {lost delete : Nat} {ages : List Nat} (h : ∀ age ∈ ages, age ≤ lost) :
    timeline lost delete ages = .tracked := by
  induction ages with
  | nil => rfl
  | cons age ages ih =>
    have hage := h age List.mem_cons_self
    simpa [timeline, Place.next, hage] using ih fun a ha => h a (List.mem_cons_of_mem _ ha)

/-- Whoever is expired stays so as long as no age is above `delete`. -/
theorem foldl_expired {lost delete : Nat} {ages : List Nat} (h : ∀ age ∈ ages, age ≤ delete) :
    ages.foldl (fun place age => Place.next lost delete age place) Place.expired = .expired := by
  induction ages with
  | nil => rfl
  | cons age ages ih =>
    have hage := h age List.mem_cons_self
    simpa [Place.next, hage] using ih fun a ha => h a (List.mem_cons_of_mem _ ha)

/-- Then expired until the first age above `delete`. -/
theorem timeline_expired {lost delete : Nat} {before after : List Nat} {age : Nat}
    (hbefore : ∀ a ∈ before, a ≤ lost) (hage : lost < age)
    (hafter : ∀ a ∈ age :: after, a ≤ delete) :
    timeline lost delete (before ++ age :: after) = .expired := by
  have hfirst : timeline lost delete before = .tracked := timeline_tracked hbefore
  unfold timeline at hfirst ⊢
  have hnext : Place.next lost delete age .tracked = .expired := by
    simp [Place.next, Nat.not_le.mpr hage, hafter age List.mem_cons_self]
  rw [List.foldl_append, hfirst, List.foldl_cons, hnext]
  exact foldl_expired fun a ha => hafter a (List.mem_cons_of_mem _ ha)

/-- The frames since the last body box, by the code's difference. -/
def bodyAge (o : PersonObject K) (t : Turn K) : Nat :=
  (t.input.frame_id - o.last_updated_body_bbox.update_frame_id).toNat

/-- The frames since the last face box, by the code's difference; without a face box, since whatever
the memory holds. -/
def faceAge (o : PersonObject K) (t : Turn K) : Nat :=
  (t.input.frame_id - o.last_updated_face_bbox.update_frame_id).toNat

/-- The state holds the person, as it was, in the place. -/
def HoldsAt (s : Tracker K) (o : PersonObject K) : Place → Prop
  | .tracked => ∃ o' ∈ s.trackedPersonObjects, SameTrack o o'
  | .expired => ∃ o' ∈ s.expiredPersonObjects, SameTrack o o'
  | .deleted => True

/-- An object that is not touched has the age of its box. -/
theorem SameTrack.bodyAge_eq {o o' : PersonObject K} (h : SameTrack o o') (t : Turn K) :
    bodyAge o' t = bodyAge o t := by
  rw [bodyAge, bodyAge, h.last_updated_body_bbox]

/-- And that of its face. -/
theorem SameTrack.faceAge_eq {o o' : PersonObject K} (h : SameTrack o o') (t : Turn K) :
    faceAge o' t = faceAge o t := by
  rw [faceAge, faceAge, h.last_updated_face_bbox]

/-- The test of the erase loops, in ages. -/
theorem bothOlderThan_iff {o : PersonObject K} {t : Turn K} {thresh : Int} :
    bothOlderThan t.input.frame_id o thresh = true ↔
      asUnsigned thresh < faceAge o t ∧ asUnsigned thresh < bodyAge o t := by
  rw [bothOlderThan, Bool.and_eq_true, olderThan, olderThan, decide_eq_true_eq, decide_eq_true_eq,
    faceAge, bodyAge]

variable [Field K] [LinearOrder K]

/-! ## Unmatched objects in the ledger -/

section

variable {P : Setup K} {s : Tracker K} {inp : Input K} {r : Result K} {L : Ledger K}

/-- A tracked object without a match is kept, aged or dropped.

The three are the verdicts of the erase loop: an unconfirmed object is dropped. -/
theorem Balanced.tracked_unmatched (h : Balanced P s inp r L) {o : PersonObject K}
    (ho : o ∈ s.trackedPersonObjects) (hun : ∀ a ∈ r.attached, a.object.id ≠ o.id) :
    startFrame o ∈ L.kept ∨ startFrame o ∈ L.aged ∨ startFrame o ∈ L.dropped := by
  have hmem : startFrame o ∈
      (s.trackedPersonObjects : Multiset (PersonObject K)).map startFrame :=
    Multiset.mem_map.mpr ⟨o, ho, rfl⟩
  rw [h.tracked_before] at hmem
  simp only [Multiset.mem_add, Multiset.mem_map, Multiset.mem_coe] at hmem
  rcases hmem with ((⟨a, ha, he⟩ | hkept) | haged) | hdropped
  · have hid : a.object.id = o.id := by
      rw [he]
      rfl
    exact absurd hid (hun a (by rw [h.attached]; exact List.mem_append_left _ ha))
  · exact Or.inl hkept
  · exact Or.inr (Or.inl haged)
  · exact Or.inr (Or.inr hdropped)

/-- An expired object without a match stays, or is deleted. -/
theorem Balanced.expired_unmatched (h : Balanced P s inp r L) {o : PersonObject K}
    (ho : o ∈ s.expiredPersonObjects ∨ o ∈ L.aged) (hun : ∀ a ∈ r.attached, a.object.id ≠ o.id) :
    o ∈ L.waiting ∨ o ∈ L.gone := by
  have hmem : o ∈ (s.expiredPersonObjects : Multiset (PersonObject K)) + L.aged :=
    Multiset.mem_add.mpr ho
  rw [h.expired_before] at hmem
  simp only [Multiset.mem_add, Multiset.mem_map, Multiset.mem_coe] at hmem
  rcases hmem with (⟨a, ha, he⟩ | hwaiting) | hgone
  · exact absurd (congrArg PersonObject.id he)
      (hun a (by rw [h.attached]; exact List.mem_append_right _ ha))
  · exact Or.inl hwaiting
  · exact Or.inr hgone

end

/-! ## The timeline of a run -/

/-- When the body box of the tracked person is past `lost_track_thresh`, and not yet past
`expired_to_delete_thresh`, the face box is past `lost_track_thresh` too. -/
def FaceLost (P : Setup K) (o : PersonObject K) (s : Tracker K) (t : Turn K) : Prop :=
  o.id ∈ s.trackedPersonObjects.map (·.id) → asUnsigned P.lost_track_thresh < bodyAge o t →
    bodyAge o t ≤ asUnsigned P.expired_to_delete_thresh →
    asUnsigned P.lost_track_thresh < faceAge o t

instance (P : Setup K) (o : PersonObject K) (s : Tracker K) (t : Turn K) :
    Decidable (FaceLost P o s t) :=
  inferInstanceAs (Decidable (_ → _ → _ → _))

/-- The person is, unchanged, where the timeline has it after these turns. -/
def FollowsTimeline (P : Setup K) (o : PersonObject K) (turns : List (Turn K)) (s : Tracker K) :
    Prop :=
  HoldsAt s o (timeline (asUnsigned P.lost_track_thresh) (asUnsigned P.expired_to_delete_thresh)
    (turns.map (bodyAge o)))

omit [LinearOrder K] in
/-- As long as no age is above `lost_track_thresh` the person is tracked. -/
theorem FollowsTimeline.stays_tracked {P : Setup K} {o : PersonObject K} {turns : List (Turn K)}
    {s : Tracker K} (h : FollowsTimeline P o turns s)
    (hages : ∀ t ∈ turns, bodyAge o t ≤ asUnsigned P.lost_track_thresh) :
    ∃ o' ∈ s.trackedPersonObjects, SameTrack o o' := by
  rw [FollowsTimeline, timeline_tracked (by simpa using hages)] at h
  exact h

omit [LinearOrder K] in
/-- From then on, as long as no age is above `expired_to_delete_thresh`, it is expired. -/
theorem FollowsTimeline.then_expired {P : Setup K} {o : PersonObject K}
    {before after : List (Turn K)} {t : Turn K} {s : Tracker K}
    (h : FollowsTimeline P o (before ++ t :: after) s)
    (hbefore : ∀ u ∈ before, bodyAge o u ≤ asUnsigned P.lost_track_thresh)
    (hlost : asUnsigned P.lost_track_thresh < bodyAge o t)
    (hafter : ∀ u ∈ t :: after, bodyAge o u ≤ asUnsigned P.expired_to_delete_thresh) :
    ∃ o' ∈ s.expiredPersonObjects, SameTrack o o' := by
  rw [FollowsTimeline, List.map_append, List.map_cons,
    timeline_expired (by simpa using hbefore) hlost (by simpa using hafter)] at h
  exact h

/-- An expired object without a match that is within its time stays where it is. -/
theorem Balanced.waits {P : Setup K} {s : Tracker K} {t : Turn K} {L : Ledger K}
    (h : Balanced P s t.input t.result L) {o : PersonObject K}
    (ho : o ∈ s.expiredPersonObjects ∨ o ∈ L.aged)
    (hun : ∀ a ∈ t.result.attached, a.object.id ≠ o.id)
    (hage : bodyAge o t ≤ asUnsigned P.expired_to_delete_thresh) :
    o ∈ t.result.tracker.expiredPersonObjects := by
  rcases h.expired_unmatched ho hun with hwaiting | hgone
  · exact h.mem_expired.mpr hwaiting
  · have hold := (bothOlderThan_iff.mp (h.gone o hgone).2).2
    omega

/-- One turn follows the timeline.

The cases are the places. `FaceLost` lets the code's test of both ages be read as one of the
body's. -/
theorem Balanced.next_place {P : Setup K} {s : Tracker K} {t : Turn K} {L : Ledger K}
    (h : Balanced P s t.input t.result L) {o : PersonObject K} (hface : FaceLost P o s t)
    (hconf : o.object_status = .confirmed) (hun : ¬ t.Matched o.id) {place : Place}
    (hplace : HoldsAt s o place) :
    HoldsAt t.result.tracker o (place.next (asUnsigned P.lost_track_thresh)
      (asUnsigned P.expired_to_delete_thresh) (bodyAge o t)) := by
  -- whoever is the same person has no match either
  have hfree : ∀ o' : PersonObject K, SameTrack o o' →
      ∀ a ∈ t.result.attached, a.object.id ≠ o'.id :=
    fun o' hsame a ha he => hun ⟨a, ha, he.trans hsame.id⟩
  cases place with
  | deleted => trivial
  | expired =>
    obtain ⟨o', ho', hsame⟩ := hplace
    by_cases hage : bodyAge o t ≤ asUnsigned P.expired_to_delete_thresh
    · simp only [Place.next, if_pos hage]
      show ∃ o' ∈ t.result.tracker.expiredPersonObjects, SameTrack o o'
      exact ⟨o', h.waits (Or.inl ho') (hfree o' hsame) (hsame.bodyAge_eq t ▸ hage), hsame⟩
    · simp only [Place.next, if_neg hage]
      trivial
  | tracked =>
    obtain ⟨o', ho', hsame⟩ := hplace
    have hsame' := hsame.trans (sameTrack_startFrame o')
    have hconf' : o'.object_status = .confirmed := hsame.object_status.trans hconf
    have htracked : o.id ∈ s.trackedPersonObjects.map (·.id) :=
      List.mem_map.mpr ⟨o', ho', hsame.id⟩
    have hcases := h.tracked_unmatched ho' (hfree o' hsame)
    -- a confirmed object is not dropped
    have hdrop : startFrame o' ∉ L.dropped := by
      intro hd
      have hunconf : o'.object_status = .unconfirmed := (h.dropped _ hd).2
      rw [hconf'] at hunconf
      cases hunconf
    by_cases hlost : bodyAge o t ≤ asUnsigned P.lost_track_thresh
    · simp only [Place.next, if_pos hlost]
      show ∃ o' ∈ t.result.tracker.trackedPersonObjects, SameTrack o o'
      -- a recent body keeps it tracked, whatever the face says
      rcases hcases with hk | ha | hd
      · exact ⟨startFrame o', h.mem_tracked.mpr (Or.inl hk), hsame'⟩
      · have hboth := bothOlderThan_iff.mp (h.aged _ ha).2.2
        rw [hsame'.bodyAge_eq] at hboth
        omega
      · exact absurd hd hdrop
    · by_cases hage : bodyAge o t ≤ asUnsigned P.expired_to_delete_thresh
      · simp only [Place.next, if_neg hlost, if_pos hage]
        show ∃ o' ∈ t.result.tracker.expiredPersonObjects, SameTrack o o'
        rcases hcases with hk | ha | hd
        · -- both boxes are past the threshold, so it cannot have been kept
          have hboth : bothOlderThan t.input.frame_id (startFrame o') P.lost_track_thresh = true := by
            rw [bothOlderThan_iff, hsame'.faceAge_eq, hsame'.bodyAge_eq]
            exact ⟨hface htracked (by omega) hage, by omega⟩
          rw [(h.kept _ hk).2.2] at hboth
          cases hboth
        · exact ⟨_, h.waits (Or.inr ha) (hfree _ hsame') (hsame'.bodyAge_eq t ▸ hage), hsame'⟩
        · exact absurd hd hdrop
      · simp only [Place.next, if_neg hlost, if_neg hage]
        trivial

variable [IsStrictOrderedRing K]

/-- **No premature loss, no late one**: a confirmed person that no turn matches is, with everything
that is tracked about it as it was, where the timeline has it, provided that its face box is past
`lost_track_thresh` when its body box is, as long as it is tracked.

By induction on the turns, with `Balanced.next_place` for the last of them. -/
theorem Run.follows_timeline {P : Setup K} {turns₁ turns₂ : List (Turn K)} {s₁ s₂ : Tracker K}
    (h₁ : Run P Tracker.init turns₁ s₁) (h₂ : Run P s₁ turns₂ s₂) {o : PersonObject K}
    (ho : o ∈ s₁.trackedPersonObjects) (hconf : o.object_status = .confirmed)
    (hun : ∀ t ∈ turns₂, ¬ t.Matched o.id)
    (hface : EachStep (fun _ t => t.result.tracker) (FaceLost P o) s₁ turns₂) :
    FollowsTimeline P o turns₂ s₂ := by
  have hrest : ∀ (turns : List (Turn K)) (s : Tracker K) (place : Place), Tidy s →
      Run P s turns s₂ → (∀ t ∈ turns, ¬ t.Matched o.id) →
      EachStep (fun _ t => t.result.tracker) (FaceLost P o) s turns → HoldsAt s o place →
      HoldsAt s₂ o ((turns.map (bodyAge o)).foldl (fun place age => place.next
        (asUnsigned P.lost_track_thresh) (asUnsigned P.expired_to_delete_thresh) age) place) := by
    intro turns
    induction turns with
    | nil =>
      rintro s place - rfl - - hplace
      exact hplace
    | cons t turns ih =>
      rintro s place hs ⟨s', ht, hrun⟩ hun ⟨hface, hfaces⟩ hplace
      obtain ⟨L, hL⟩ := ht.balanced hs
      obtain rfl := ht.2
      exact ih _ _ (ht.tidy hs) hrun (fun u hu => hun u (List.mem_cons_of_mem _ hu)) hfaces
        (hL.next_place hface hconf (hun t List.mem_cons_self) hplace)
  exact hrest turns₂ s₁ .tracked (Run.tidy tidy_init h₁) h₂ hun hface ⟨o, ho, SameTrack.refl o⟩

omit [Field K] [LinearOrder K] [IsStrictOrderedRing K] in
/-- In a run without detections nobody is matched. -/
theorem not_matched_of_isEmpty {turns : List (Turn K)} {id : Int}
    (h : turns.all (·.result.attached.isEmpty) = true) : ∀ t ∈ turns, ¬ t.Matched id := by
  rintro t ht ⟨a, ha, -⟩
  rw [List.isEmpty_iff.mp (List.all_eq_true.mp h t ht)] at ha
  cases ha

/-- With zeros in the memory of the face box: someone confirmed in frame 5 is tracked until frame 15
and expired from frame 16 to frame 105. -/
theorem Run.follows_timeline_scene : ∃ turns₁ s₁ turns₂ s₂, ∃ o ∈ s₁.trackedPersonObjects,
    Run scene Tracker.init turns₁ s₁ ∧ Run scene s₁ turns₂ s₂ ∧
      turns₂.map (·.input) = [shot 0 15 false, shot 0 16 false, shot 0 105 false] ∧
      FollowsTimeline scene o turns₂ s₂ := by
  obtain ⟨⟨turns₁, s₁⟩, hplay₁, hcheck⟩ := Abort.of_returns
    (x := play scene Tracker.init
      [shot 0 1 true, shot 0 2 true, shot 0 3 true, shot 0 4 true, shot 0 5 true])
    (p := fun r => Abort.returns
      (play scene r.2 [shot 0 15 false, shot 0 16 false, shot 0 105 false])
      fun r' => r'.1.all (·.result.attached.isEmpty) && r.2.trackedPersonObjects.any fun o =>
        decide (o.object_status = .confirmed) &&
          decide (EachStep (fun _ (t : Turn ℚ) => t.result.tracker) (FaceLost scene o) r.2 r'.1))
    (by decide +kernel)
  obtain ⟨⟨turns₂, s₂⟩, hplay₂, hcheck⟩ := Abort.of_returns hcheck
  simp only [Bool.and_eq_true, List.any_eq_true, decide_eq_true_eq] at hcheck
  obtain ⟨hnone, o, ho, hconf, hface⟩ := hcheck
  exact ⟨turns₁, s₁, turns₂, s₂, o, ho, play_run hplay₁, play_run hplay₂, play_inputs hplay₂,
    Run.follows_timeline (play_run hplay₁) (play_run hplay₂) ho hconf
      (not_matched_of_isEmpty hnone) hface⟩

/-- **A garbage face stamp breaks the timeline**: with 7 in the memory of the face box, someone
confirmed in frame 5 and missed since then is not expired in frame 16. -/
theorem garbage_face_breaks_timeline : ∃ turns₁ s₁ turns₂ s₂, ∃ o ∈ s₁.trackedPersonObjects,
    Run scene Tracker.init turns₁ s₁ ∧ Run scene s₁ turns₂ s₂ ∧
      turns₁.map (·.input) = [shot 7 1 true, shot 7 2 true, shot 7 3 true, shot 7 4 true,
        shot 7 5 true] ∧
      turns₂.map (·.input) = [shot 7 16 false] ∧ o.object_status = .confirmed ∧
      (∀ t ∈ turns₂, ¬ t.Matched o.id) ∧ ¬ FollowsTimeline scene o turns₂ s₂ := by
  obtain ⟨⟨turns₁, s₁⟩, hplay₁, hcheck⟩ := Abort.of_returns
    (x := play scene Tracker.init
      [shot 7 1 true, shot 7 2 true, shot 7 3 true, shot 7 4 true, shot 7 5 true])
    (p := fun r => Abort.returns (play scene r.2 [shot 7 16 false]) fun r' =>
      r'.1.all (·.result.attached.isEmpty) && r'.2.expiredPersonObjects.isEmpty &&
        r.2.trackedPersonObjects.any fun o => decide (o.object_status = .confirmed) &&
          decide (timeline (asUnsigned scene.lost_track_thresh)
            (asUnsigned scene.expired_to_delete_thresh) (r'.1.map (bodyAge o)) = .expired))
    (by decide +kernel)
  obtain ⟨⟨turns₂, s₂⟩, hplay₂, hcheck⟩ := Abort.of_returns hcheck
  simp only [Bool.and_eq_true, List.any_eq_true, decide_eq_true_eq, List.isEmpty_iff] at hcheck
  obtain ⟨⟨hnone, hexpired⟩, o, ho, hconf, hplace⟩ := hcheck
  refine ⟨turns₁, s₁, turns₂, s₂, o, ho, play_run hplay₁, play_run hplay₂, play_inputs hplay₁,
    play_inputs hplay₂, hconf, not_matched_of_isEmpty hnone, fun hfollows => ?_⟩
  rw [FollowsTimeline, hplace] at hfollows
  obtain ⟨o', ho', -⟩ := hfollows
  rw [hexpired] at ho'
  cases ho'

/-! ## Stale tracks -/

omit [IsStrictOrderedRing K]

/-- The turn has matched this object: it has matched its id, which nobody else has. -/
def Turn.Takes (s : Tracker K) (t : Turn K) (o : PersonObject K) : Prop :=
  t.Matched o.id ∧ (ids s).count o.id = 1

instance (s : Tracker K) (t : Turn K) (o : PersonObject K) : Decidable (t.Takes s o) :=
  inferInstanceAs (Decidable ((∃ a ∈ t.result.attached, a.object.id = o.id) ∧ _))

/-- Whenever the body box of a confirmed object that finds no match is past the threshold of the list
it is in, or past the threshold for deletion, so is its face box. Of the objects that are matched
nothing is asked: the loops do not come to their stamps. -/
def FaceAged (P : Setup K) (s : Tracker K) (t : Turn K) : Prop :=
  (∀ o ∈ s.trackedPersonObjects, ¬ t.Takes s o → o.object_status = .confirmed →
    asUnsigned P.lost_track_thresh < bodyAge o t →
    asUnsigned P.lost_track_thresh < faceAge o t) ∧
  ∀ o ∈ everyone s, ¬ t.Takes s o → o.object_status = .confirmed →
    asUnsigned P.expired_to_delete_thresh < bodyAge o t →
    asUnsigned P.expired_to_delete_thresh < faceAge o t

/-- After the turn, what is tracked was matched or created in it, or is confirmed and recent, and
what is expired is within its time. -/
def NoStaleTracks (P : Setup K) (t : Turn K) : Prop :=
  (∀ o ∈ t.result.tracker.trackedPersonObjects, t.Matched o.id ∨ t.Created o.id ∨
    o.object_status = .confirmed ∧ bodyAge o t ≤ asUnsigned P.lost_track_thresh) ∧
  ∀ o ∈ t.result.tracker.expiredPersonObjects,
    bodyAge o t ≤ asUnsigned P.expired_to_delete_thresh

instance (P : Setup K) (s : Tracker K) (t : Turn K) : Decidable (FaceAged P s t) :=
  inferInstanceAs (Decidable ((∀ o ∈ s.trackedPersonObjects, _) ∧ _))

omit [Field K] [LinearOrder K] in
/-- Whose id was not matched was not taken. -/
theorem not_takes_of_unmatched {s : Tracker K} {t : Turn K} {o : PersonObject K}
    (h : ¬ t.Matched o.id) : ¬ t.Takes s o := fun htakes => h htakes.1

/-- An object that stays expired has found no match: had its id been matched, it would be that of two
objects. -/
theorem Balanced.waiting_not_taken {P : Setup K} {s : Tracker K} {t : Turn K} {L : Ledger K}
    (h : Balanced P s t.input t.result L) {o o₀ : PersonObject K} (ho : o ∈ L.waiting)
    (hid : o.id = o₀.id) : ¬ t.Takes s o₀ := by
  rintro ⟨⟨a, ha, hmatched⟩, hcount⟩
  have hattached : 1 ≤ ((t.result.attached : Multiset (Attachment K)).map (·.object.id)).count
      o₀.id := by
    rw [Multiset.one_le_count_iff_mem, ← hmatched]
    exact Multiset.mem_map_of_mem (f := fun a : Attachment K => a.object.id) ha
  have hwaiting : 1 ≤ (L.waiting.map (·.id)).count o₀.id := by
    rw [Multiset.one_le_count_iff_mem, ← hid]
    exact Multiset.mem_map_of_mem _ ho
  rw [h.object_ids] at hcount
  simp only [Multiset.count_add] at hcount
  omega

/-- One turn leaves nothing stale: whoever is kept or stays expired had no match, and is not past the
threshold with both boxes. -/
theorem Balanced.noStaleTracks {P : Setup K} {s : Tracker K} {t : Turn K} {L : Ledger K}
    (hs : Tidy s) (h : Balanced P s t.input t.result L) (hface : FaceAged P s t) :
    NoStaleTracks P t := by
  refine ⟨fun o ho => ?_, fun o ho => ?_⟩
  · rcases h.mem_tracked.mp ho with hk | ⟨a, ha, rfl⟩ | ⟨c, hc, rfl⟩
    · by_cases hmatched : t.Matched o.id
      · exact Or.inl hmatched
      · refine Or.inr (Or.inr ⟨(h.kept o hk).2.1, ?_⟩)
        obtain ⟨o₀, ho₀, rfl⟩ := h.kept_was_tracked hk
        have hsame := sameTrack_startFrame o₀
        have hfree : ¬ t.Takes s o₀ := not_takes_of_unmatched hmatched
        by_contra hold
        rw [hsame.bodyAge_eq, Nat.not_le] at hold
        have hboth : bothOlderThan t.input.frame_id (startFrame o₀) P.lost_track_thresh = true := by
          rw [bothOlderThan_iff, hsame.faceAge_eq, hsame.bodyAge_eq]
          exact ⟨hface.1 o₀ ho₀ hfree (h.kept _ hk).2.1 hold, hold⟩
        rw [(h.kept _ hk).2.2] at hboth
        cases hboth
    · refine Or.inl ⟨a, ha, ?_⟩
      rw [(sameTrack_accumulate P t.input.current a.updated).id, (h.attachment a ha).id]
    · exact Or.inr (Or.inl ⟨c, hc, (sameTrack_accumulate P t.input.current c).id.symm⟩)
  · have hw := h.mem_expired.mp ho
    have hmem : o ∈ (L.fromExpired : Multiset (Attachment K)).map (·.object) + L.waiting +
        L.gone := by simp [hw]
    have hconf := h.expired_confirmed hs hmem
    -- it was there before the turn, with the same stamps
    obtain ⟨o₀, ho₀, hsame⟩ := h.expired_was_there hmem
    have hfree : ¬ t.Takes s o₀ := h.waiting_not_taken hw hsame.id
    by_contra hold
    rw [hsame.bodyAge_eq, Nat.not_le] at hold
    have hboth : bothOlderThan t.input.frame_id o P.expired_to_delete_thresh = true := by
      rw [bothOlderThan_iff, hsame.faceAge_eq, hsame.bodyAge_eq]
      exact ⟨hface.2 o₀ ho₀ hfree (hsame.object_status.symm.trans hconf) hold, hold⟩
    rw [(h.waiting o hw).2] at hboth
    cases hboth

/-- **No stale tracks** in the runs in which the face box of whoever finds no match is old whenever the
body box is. By induction on the run, over its ledgers: what is kept, and what stays expired, is not
past its threshold with both boxes, and by the condition not with the body box alone. -/
theorem Run.no_stale_tracks [IsStrictOrderedRing K] {P : Setup K} {turns : List (Turn K)}
    {s : Tracker K} (h : Run P Tracker.init turns s)
    (hface : EachStep (fun _ t => t.result.tracker) (FaceAged P) Tracker.init turns) :
    ∀ t ∈ turns, NoStaleTracks P t := by
  have hrest : ∀ (turns : List (Turn K)) (s₀ : Tracker K), Tidy s₀ → Run P s₀ turns s →
      EachStep (fun _ t => t.result.tracker) (FaceAged P) s₀ turns →
      ∀ t ∈ turns, NoStaleTracks P t := by
    intro turns
    induction turns with
    | nil =>
      intro s₀ _ _ _ t ht
      cases ht
    | cons u turns ih =>
      rintro s₀ hs ⟨s₁, hu, hrun⟩ ⟨hfaceu, hfaces⟩ t ht
      obtain ⟨L, hL⟩ := hu.balanced hs
      obtain rfl := hu.2
      rcases List.mem_cons.mp ht with rfl | ht
      · exact hL.noStaleTracks hs hfaceu
      · exact ih _ (hu.tidy hs) hrun hfaces t ht
  exact hrest turns Tracker.init tidy_init h hface

/-- With zeros in the memory of the face box nothing goes stale. -/
theorem Run.no_stale_tracks_scene : ∃ turns s, Run scene Tracker.init turns s ∧
    turns.map (·.input) = [shot 0 1 true, shot 0 2 true, shot 0 3 true, shot 0 4 true,
      shot 0 5 true, shot 0 16 false, shot 0 105 false, shot 0 106 false] ∧
    ∀ t ∈ turns, NoStaleTracks scene t := by
  obtain ⟨⟨turns, s⟩, hplay, hface⟩ := Abort.of_returns
    (x := play scene Tracker.init [shot 0 1 true, shot 0 2 true, shot 0 3 true, shot 0 4 true,
      shot 0 5 true, shot 0 16 false, shot 0 105 false, shot 0 106 false])
    (p := fun r => decide (EachStep (fun _ (t : Turn ℚ) => t.result.tracker) (FaceAged scene)
      Tracker.init r.1)) (by decide +kernel)
  exact ⟨turns, s, play_run hplay, play_inputs hplay,
    Run.no_stale_tracks (play_run hplay) (of_decide_eq_true hface)⟩

/-- **A garbage face stamp keeps a stale track**: with 7 in the memory of the face box, someone seen
last in frame 5 is tracked in frame 16, without a match and eleven frames old. -/
theorem garbage_face_keeps_stale_track : ∃ turns s, Run scene Tracker.init turns s ∧
    turns.map (·.input) = [shot 7 1 true, shot 7 2 true, shot 7 3 true, shot 7 4 true,
      shot 7 5 true, shot 7 16 false] ∧ ∃ t ∈ turns, ¬ NoStaleTracks scene t := by
  obtain ⟨⟨turns, s⟩, hplay, hcheck⟩ := Abort.of_returns
    (x := play scene Tracker.init [shot 7 1 true, shot 7 2 true, shot 7 3 true, shot 7 4 true,
      shot 7 5 true, shot 7 16 false])
    (p := fun r => r.1.any fun t => t.result.attached.isEmpty && t.result.created.isEmpty &&
      t.result.tracker.trackedPersonObjects.any fun o => decide (10 < bodyAge o t))
    (by decide +kernel)
  simp only [Bool.and_eq_true, List.any_eq_true, decide_eq_true_eq, List.isEmpty_iff] at hcheck
  obtain ⟨t, ht, ⟨hattached, hcreated⟩, o, ho, hage⟩ := hcheck
  refine ⟨turns, s, play_run hplay, play_inputs hplay, t, ht, fun hfresh => ?_⟩
  rcases hfresh.1 o ho with ⟨a, ha, -⟩ | ⟨c, hc, -⟩ | ⟨-, hle⟩
  · rw [hattached] at ha
    cases ha
  · rw [hcreated] at hc
    cases hc
  · have hlost : asUnsigned scene.lost_track_thresh = 10 := by decide
    omega

end EdgeFrame.Track
