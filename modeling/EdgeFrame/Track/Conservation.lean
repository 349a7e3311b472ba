/-
# EdgeFrame.Track.Conservation -- no detection is lost or counted twice

The detections of a frame are a resource: an update spends each of them on one object
that was there or on one new object, and spends none on an object twice. The ledger
says so in bags, and the statement here is what is left of it for the callers.

An object is flagged when it is matched or created, so that the flagged objects of the new
state are the attachments and the new ones (`Balanced.booked_tracked`). Their boxes are
those of the detections, as bags, since two people may have one box. Whether a call
returns at all is `Track.Returns`: with features that come from the network alone, which
is kept along a run (`Run.featured`), the only way to fail is a crop outside the frame.
-/
import EdgeFrame.Track.Returns
import Mathlib

namespace EdgeFrame.Track

open Lib

variable {K : Type}

/-- Detections without features, as they come from a detector. -/
def Unprocessed (inp : Input K) : Prop :=
  ∀ d ∈ inp.cur_detected_person_objects,
    d.last_updated_body_feature_message.tengine_feature = [] ∧ d.feature_messages = []

/-- A detection without features has only features of the network. -/
theorem Unprocessed.featured {inp : Input K} (h : Unprocessed inp) {d : PersonObject K}
    (hd : d ∈ inp.cur_detected_person_objects) : d.Featured := by
  obtain ⟨hlast, hstored⟩ := h d hd
  refine ⟨Or.inl hlast, fun message hm => ?_⟩
  rw [hstored] at hm
  cases hm

variable [Field K] [LinearOrder K]

/-- What an update does with the detections of its frame. -/
structure Conserved (P : Setup K) (s : Tracker K) (inp : Input K) (r : Result K) : Prop where
  /-- all of them are flagged -/
  flagged : ∀ d ∈ r.cur_detected_person_objects, d.is_current_frame_matched_or_new = true
  /-- they are the ones that were handed over, in order -/
  detections : r.cur_detected_person_objects.map (·.last_updated_body_bbox) =
    inp.cur_detected_person_objects.map (·.last_updated_body_bbox)
  /-- the flagged objects have their boxes -/
  boxes : (booked r.tracker.trackedPersonObjects).map (·.last_updated_body_bbox) =
    (inp.cur_detected_person_objects : Multiset (PersonObject K)).map (·.last_updated_body_bbox)
  /-- each of them was booked on one object or became one -/
  once : (inp.cur_detected_person_objects : Multiset (PersonObject K)).map (·.sighting) =
    (r.attached : Multiset (Attachment K)).map (·.detection.sighting) +
      (r.created : Multiset (PersonObject K)).map (·.sighting)
  /-- the objects they were booked on were there, each at most once -/
  objects : (r.attached : Multiset (Attachment K)).map (·.object) ≤
    (s.trackedPersonObjects : Multiset (PersonObject K)).map startFrame + s.expiredPersonObjects
  /-- they have taken the detections over -/
  updates : ∀ a ∈ r.attached, Attached P a
  /-- and are, with the new ones, the flagged objects -/
  booked : booked r.tracker.trackedPersonObjects =
    ((r.attached : Multiset (Attachment K)).map (·.updated) +
      (r.created : Multiset (PersonObject K))).map (accumulate P inp.current)

section

variable {P : Setup K} {s : Tracker K} {inp : Input K} {r : Result K} {L : Ledger K}

/-- The objects that were kept without a match are not flagged, all others are. -/
theorem Balanced.booked_tracked (h : Balanced P s inp r L) :
    Track.booked r.tracker.trackedPersonObjects =
      ((r.attached : Multiset (Attachment K)).map (·.updated) +
        (r.created : Multiset (PersonObject K))).map (accumulate P inp.current) := by
  have hkept : ∀ o ∈ L.kept.map (accumulate P inp.current), ¬ o.Booked := by
    intro o ho
    obtain ⟨o₀, ho₀, rfl⟩ := Multiset.mem_map.mp ho
    rw [accumulate_of_free (h.kept o₀ ho₀).1]
    exact (h.kept o₀ ho₀).1.not_booked
  have hrest : ∀ o ∈ ((r.attached : Multiset (Attachment K)).map (·.updated) +
      (r.created : Multiset (PersonObject K))).map (accumulate P inp.current), o.Booked := by
    intro o ho
    obtain ⟨o₀, ho₀, rfl⟩ := Multiset.mem_map.mp ho
    rw [PersonObject.Booked, accumulate_flag]
    rcases Multiset.mem_add.mp ho₀ with ho₀ | ho₀
    · obtain ⟨a, ha, rfl⟩ := Multiset.mem_map.mp ho₀
      exact (h.attachment a ha).booked
    · exact h.created o₀ ho₀
  rw [Track.booked, h.tracked_after, add_assoc, Multiset.map_add, Multiset.filter_add,
    Multiset.filter_eq_nil.mpr hkept, Multiset.filter_eq_self.mpr hrest, zero_add]

/-- No object is matched twice: the matched objects are some of those that were there. -/
theorem Balanced.objects_le (h : Balanced P s inp r L) :
    (r.attached : Multiset (Attachment K)).map (·.object) ≤
      (s.trackedPersonObjects : Multiset (PersonObject K)).map startFrame +
        s.expiredPersonObjects := by
  refine le_of_add_le_add_right (a := L.aged) ?_
  rw [add_assoc, h.expired_before, h.tracked_before, h.attached, ← Multiset.coe_add,
    Multiset.map_add]
  calc (L.fromTracked : Multiset (Attachment K)).map (·.object) +
        (L.fromExpired : Multiset (Attachment K)).map (·.object) + L.aged
      ≤ (L.fromTracked : Multiset (Attachment K)).map (·.object) +
          (L.fromExpired : Multiset (Attachment K)).map (·.object) + L.aged +
          (L.kept + L.dropped + L.waiting + L.gone) := Multiset.le_add_right _ _
    _ = _ := by abel

/-- The ledger of an update says all of it. -/
theorem Balanced.conserved (h : Balanced P s inp r L) : Conserved P s inp r := by
  have hbox : ∀ l : List (PersonObject K), l.map (·.last_updated_body_bbox) =
      (l.map (·.sighting)).map (·.last_updated_body_bbox) := by
    intro l
    rw [List.map_map]
    rfl
  refine ⟨h.seen, ?_, ?_, h.detections, h.objects_le, h.attachment, h.booked_tracked⟩
  · rw [hbox, h.sightings, ← hbox]
  · have hattached : (r.attached : Multiset (Attachment K)).map (·.updated.last_updated_body_bbox) =
        (r.attached : Multiset (Attachment K)).map (·.detection.sighting.last_updated_body_bbox) :=
      Multiset.map_congr rfl fun a ha => (h.attachment a ha).body_bbox
    have hdets := congrArg (Multiset.map (·.last_updated_body_bbox)) h.detections
    simp only [Multiset.map_map, Multiset.map_add, Function.comp_def] at hdets
    rw [h.booked_tracked, Multiset.map_map, Multiset.map_add, Multiset.map_map]
    simp only [Function.comp_def,
      fun o : PersonObject K => (sameTrack_accumulate P inp.current o).last_updated_body_bbox]
    exact (congrArg (· + _) hattached).trans hdets.symm

end

variable [IsStrictOrderedRing K]

/-- The features of all objects of a run are the network's. -/
theorem Run.featured {P : Setup K} {turns : List (Turn K)} {s : Tracker K}
    (h : Run P Tracker.init turns s) (hnew : ∀ t ∈ turns, Unprocessed t.input) :
    ∀ o ∈ everyone s, o.Featured := by
  refine Trace.history_of_forall (H := fun _ s => ∀ o ∈ everyone s, o.Featured) ?_ ?_ h hnew
  · intro o ho
    cases (Multiset.notMem_zero o) ho
  · intro turns s t s' _ ih hnew ht
    have hfree : ∀ d ∈ t.input.cur_detected_person_objects, d.Free := by
      obtain ⟨_, _, _, _, _, _, _, _, _, _, _, _, hphases⟩ := Update_phases ht.1
      exact hphases.detections_free
    have hends := Update_ends (P := P) (E := fun _ => True) ih hfree
      fun d hd => ⟨hnew.featured hd, fun _ => trivial⟩
    rw [ht.2]
    exact hends.of_ok ht.1

/-- **Conservation of detections.** From every reachable state, a call of `Update` that returns has
flagged every detection, and the flagged objects are the detections, one for one: the boxes agree as
bags, each detection was booked on an object or became one, and no object was booked twice. With
detections that carry no features yet the call returns, unless the crop of one of them leaves the
frame.

The first part is the ledger, the second `Update_ends` at the state the run has reached. -/
theorem Run.conservation {P : Setup K} {turns : List (Turn K)} {s : Tracker K}
    (h : Run P Tracker.init turns s) {inp : Input K}
    (hfree : ∀ d ∈ inp.cur_detected_person_objects, d.is_current_frame_matched_or_new = false) :
    (∀ r, Update P s inp = .ok r → Conserved P s inp r) ∧
      ((∀ t ∈ turns, Unprocessed t.input) → Unprocessed inp →
        (∃ r, Update P s inp = .ok r) ∨ Update P s inp = .error .roi ∧
          ∃ d ∈ inp.cur_detected_person_objects, cropInside P inp.current d = false) := by
  refine ⟨fun r hr => ?_, fun hnew hinp => ?_⟩
  · obtain ⟨L, hL⟩ := Update_balanced (fun o ho => (Run.tidy tidy_init h o ho).1) hr
    exact hL.conserved
  · have hends := Update_ends (P := P) (E := fun e => e = .roi ∧
        ∃ d ∈ inp.cur_detected_person_objects, cropInside P inp.current d = false)
      (h.featured hnew) hfree fun d hd => ⟨hinp.featured hd, fun hcrop => ⟨rfl, d, hd, hcrop⟩⟩
    rcases hends.cases with ⟨r, hr, -⟩ | ⟨e, he, rfl, hcrop⟩
    · exact Or.inl ⟨r, hr⟩
    · exact Or.inr ⟨he, hcrop⟩

/-- Someone who was seen before and someone new. -/
theorem Run.conservation_two_detections : ∃ turns s r,
    Run scene Tracker.init turns s ∧
    let newcomer := PersonObject.new ⟨0, 0, ⟨0, 0, 0⟩, ⟨0, 0, 0⟩, 0, 0⟩ none
      (some ⟨2, 2, 8 / 10, ⟨300, 100, 20, 40⟩⟩) (-1)
    let inp : Input ℚ := ⟨⟨540, 960, []⟩, 2, 2, [newcomer, someone 0 2]⟩
    Update scene s inp = .ok r ∧ Conserved scene s inp r ∧ r.attached.length = 1 ∧
      r.created.length = 1 := by
  obtain ⟨⟨turns, s⟩, hplay, hcheck⟩ := Abort.of_returns
    (x := play scene Tracker.init [shot 0 1 true])
    (p := fun r => Abort.returns (Update scene r.2 ⟨⟨540, 960, []⟩, 2, 2,
      [PersonObject.new ⟨0, 0, ⟨0, 0, 0⟩, ⟨0, 0, 0⟩, 0, 0⟩ none
        (some ⟨2, 2, 8 / 10, ⟨300, 100, 20, 40⟩⟩) (-1), someone 0 2]⟩)
      fun r' => decide (r'.attached.length = 1 ∧ r'.created.length = 1)) (by decide +kernel)
  obtain ⟨r, hr, hlen⟩ := Abort.of_returns hcheck
  obtain ⟨hattached, hcreated⟩ := of_decide_eq_true hlen
  exact ⟨turns, s, r, play_run hplay, hr,
    (Run.conservation (play_run hplay) (by decide)).1 r hr, hattached, hcreated⟩

end EdgeFrame.Track
