/-
# EdgeFrame.Track.Ledger -- the books of one update

What a call of `Update` is for: every detection is booked once, on an object that was
there or on a new one, and every object is either matched, kept, aged out of the
tracked ones, dropped, left waiting among the expired ones, or gone. A `Ledger` is
such an account, in bags of objects without order or index, and `Balanced` says when
it is the account of a call. `Update_balanced` proves that every call that returns has
one; whatever the code's loops do is said there once.

The proof has two halves. `Update_phases` takes the call apart into its `Phases`: the
vectors after each pass, with the specs of `EdgeFrame.Track.Specs` for the steps from
one to the next. `Update_balanced` then adds up. An equation of bags for each phase is
turned around until the middle vectors cancel, and what is left are the two equations
of the objects (`tracked_before`, `expired_before`), that of the detections, and what
the state afterwards consists of.

Everything that later modules prove about runs starts from a ledger, not from `Update`.
-/
import EdgeFrame.Track.Specs
import Mathlib

namespace EdgeFrame.Track

open Lib

variable {K : Type} [Field K] [LinearOrder K]

/-! ## The account of an update -/

/-- Who went where. -/
structure Ledger (K : Type) where
  /-- tracked objects that were matched -/
  fromTracked : List (Attachment K)
  /-- expired objects that were matched -/
  fromExpired : List (Attachment K)
  /-- tracked objects that stay without a match -/
  kept : Multiset (PersonObject K)
  /-- tracked objects that moved to the expired ones -/
  aged : Multiset (PersonObject K)
  /-- tracked objects that were deleted -/
  dropped : Multiset (PersonObject K)
  /-- expired objects that stay expired -/
  waiting : Multiset (PersonObject K)
  /-- expired objects that were deleted -/
  gone : Multiset (PersonObject K)

/-- The account balances: what was there, what was seen and what is there now. -/
structure Balanced (P : Setup K) (s : Tracker K) (inp : Input K) (r : Result K) (L : Ledger K) :
    Prop where
  attached : r.attached = L.fromTracked ++ L.fromExpired
  attachment : ∀ a ∈ r.attached, Attached P a
  tracked_before : (s.trackedPersonObjects : Multiset (PersonObject K)).map startFrame =
    (L.fromTracked : Multiset (Attachment K)).map (·.object) + L.kept + L.aged + L.dropped
  expired_before : (s.expiredPersonObjects : Multiset (PersonObject K)) + L.aged =
    (L.fromExpired : Multiset (Attachment K)).map (·.object) + L.waiting + L.gone
  detections : (inp.cur_detected_person_objects : Multiset (PersonObject K)).map (·.sighting) =
    (r.attached : Multiset (Attachment K)).map (·.detection.sighting) +
      (r.created : Multiset (PersonObject K)).map (·.sighting)
  tracked_after : (r.tracker.trackedPersonObjects : Multiset (PersonObject K)) =
    (L.kept + (r.attached : Multiset (Attachment K)).map (·.updated) +
      (r.created : Multiset (PersonObject K))).map (accumulate P inp.current)
  expired_after : (r.tracker.expiredPersonObjects : Multiset (PersonObject K)) = L.waiting
  leaves : (r.valid_leave_objects : Multiset (PersonObject K)) =
    L.gone.filter (CheckValidLeave P · = true)
  seen : ∀ d ∈ r.cur_detected_person_objects, d.Booked
  sightings : r.cur_detected_person_objects.map (·.sighting) =
    inp.cur_detected_person_objects.map (·.sighting)
  kept : ∀ o ∈ L.kept, o.Free ∧ o.object_status = .confirmed ∧
    bothOlderThan inp.frame_id o P.lost_track_thresh = false
  aged : ∀ o ∈ L.aged, o.Free ∧ o.object_status = .confirmed ∧
    bothOlderThan inp.frame_id o P.lost_track_thresh = true
  dropped : ∀ o ∈ L.dropped, o.Free ∧ o.object_status = .unconfirmed
  waiting : ∀ o ∈ L.waiting, o.Free ∧
    bothOlderThan inp.frame_id o P.expired_to_delete_thresh = false
  gone : ∀ o ∈ L.gone, o.Free ∧
    bothOlderThan inp.frame_id o P.expired_to_delete_thresh = true
  created : ∀ o ∈ r.created, o.Booked
  created_ids : r.created.map (·.id) = newIds s.global_id r.created.length
  global_id : r.tracker.global_id = s.global_id + UInt64.ofNat r.created.length

/-! ## Every update balances -/

omit [Field K] [LinearOrder K] in
/-- Features that were extracted in between do not change who is free. -/
theorem free_sighting_congr {ds ds' : List (PersonObject K)}
    (h : ds'.map (·.withoutFeature) = ds.map (·.withoutFeature)) :
    (free ds').map (·.sighting) = (free ds).map (·.sighting) := by
  have hfree : ∀ l : List (PersonObject K), (free l).map (·.sighting) =
      (free (l.map (·.withoutFeature))).map (·.sighting) := by
    intro l
    rw [free, free, ← Multiset.map_coe, Multiset.filter_map, Multiset.map_map]
    rfl
  rw [hfree, hfree ds, h]

omit [Field K] [LinearOrder K] in
/-- Nor do they change what was seen. -/
theorem sightings_of_withoutFeature {ds ds' : List (PersonObject K)}
    (h : ds'.map (·.withoutFeature) = ds.map (·.withoutFeature)) :
    ds'.map (·.sighting) = ds.map (·.sighting) := by
  have hmap : ∀ l : List (PersonObject K),
      l.map (·.sighting) = (l.map (·.withoutFeature)).map (·.sighting) := by
    intro l
    rw [List.map_map]
    rfl
  rw [hmap, hmap ds, h]

/-- The vectors between the functions of one update: the tracked objects `ts`, the expired ones
`es` and the detections `ds` after each pass, with the calls the pass has made. -/
structure Phases (P : Setup K) (s : Tracker K) (inp : Input K) (r : Result K)
    (ts₁ ts₂ es₂ es₃ ds₁ ds₂ ds₃ ds₄ ds₅ : List (PersonObject K))
    (byIou byFeature byExpired : List (Attachment K)) : Prop where
  detections_free : ∀ d ∈ inp.cur_detected_person_objects, d.Free
  iou : Pass P (s.trackedPersonObjects.map startFrame) inp.cur_detected_person_objects ts₁ ds₁ byIou
  extracted₂ : (free ds₂).map (·.sighting) = (free ds₁).map (·.sighting)
  feature : Pass P ts₁ ds₂ ts₂ ds₃ byFeature
  extracted₄ : (free ds₄).map (·.sighting) = (free ds₃).map (·.sighting)
  expired : Pass P (s.expiredPersonObjects ++
    ts₂.filter (trackedVerdict P inp.frame_id · = .move)) ds₄ es₂ ds₅ byExpired
  unmatched : (es₃ : Multiset (PersonObject K)) = free es₂
  sightings : ds₅.map (·.sighting) = inp.cur_detected_person_objects.map (·.sighting)
  added : Added ds₅ s.global_id r.cur_detected_person_objects r.created r.tracker.global_id
  attached : r.attached = byIou ++ byFeature ++ byExpired
  tracked_after : (r.tracker.trackedPersonObjects : Multiset (PersonObject K)) =
    ((ts₂.filter (trackedVerdict P inp.frame_id · = .keep) : List (PersonObject K)) + booked es₂ +
      (r.created : Multiset (PersonObject K))).map (accumulate P inp.current)
  expired_after : r.tracker.expiredPersonObjects =
    es₃.filter (expiredVerdict P inp.frame_id · = .keep)
  leaves : r.valid_leave_objects = es₃.filter (expiredVerdict P inp.frame_id · = .move)

/-- An update that returns has gone through its phases.

The binds of `Update` are undone one by one, and each result is replaced by what its function is
known to do. The passes come with the links that `IOUMatch_spec` and `FeatureMatch_spec` provide. -/
theorem Update_phases [IsStrictOrderedRing K] {P : Setup K} {s : Tracker K} {inp : Input K}
    {r : Result K} (h : Update P s inp = .ok r) :
    ∃ ts₁ ts₂ es₂ es₃ ds₁ ds₂ ds₃ ds₄ ds₅ byIou byFeature byExpired,
      Phases P s inp r ts₁ ts₂ es₂ es₃ ds₁ ds₂ ds₃ ds₄ ds₅ byIou byFeature byExpired := by
  unfold Update at h
  simp only at h
  split at h
  · cases h
  rename_i hany
  -- the statements of the function, each of which has returned
  obtain ⟨pairs₁, hiou, h⟩ := Abort.bind_eq_ok h
  obtain ⟨⟨ts₁, ds₁, byIou⟩, hpass₁, h⟩ := Abort.bind_eq_ok h
  obtain ⟨⟨pairs₂, ds₂⟩, hfeature₂, h⟩ := Abort.bind_eq_ok h
  obtain ⟨⟨ts₂, ds₃, byFeature⟩, hpass₂, h⟩ := Abort.bind_eq_ok h
  obtain ⟨⟨ts₃, es₁⟩, hsweep, h⟩ := Abort.bind_eq_ok h
  obtain ⟨⟨pairs₃, ds₄⟩, hfeature₃, h⟩ := Abort.bind_eq_ok h
  obtain ⟨⟨ts₄, es₃, ds₅, byExpired⟩, hpass₃, h⟩ := Abort.bind_eq_ok h
  obtain ⟨⟨es₄, leaves⟩, hleave, h⟩ := Abort.bind_eq_ok h
  simp only at hpass₁ hfeature₂ hpass₂ hsweep hfeature₃ hpass₃ hleave
  -- `IOUMatch` returns in any case, so that the pairs are those of its specification
  obtain ⟨_, hiou', hlink₁⟩ := IOUMatch_spec P (s.trackedPersonObjects.map startFrame)
    inp.cur_detected_person_objects
  rw [hiou'] at hiou
  cases hiou
  obtain ⟨hlink₂, hsame₂⟩ := FeatureMatch_spec hfeature₂
  rw [UpdateUnMatchedTrackedObjectsStatus_eq] at hsweep
  cases hsweep
  obtain ⟨hlink₃, hsame₃⟩ := FeatureMatch_spec hfeature₃
  obtain ⟨es₂, hp₃, hts₄, hes₃⟩ := UpdateMatchedExpiredObjects_spec hlink₃ hpass₃
  rw [UpdateUnMatchedExpiredObjectsStatus_eq] at hleave
  cases hleave
  cases h
  have hp₁ := UpdateMatchedTrackedObjects_spec hlink₁ hpass₁
  have hp₂ := UpdateMatchedTrackedObjects_spec hlink₂ hpass₂
  refine ⟨ts₁, ts₂, es₂, es₃, ds₁, ds₂, ds₃, ds₄, ds₅, byIou, byFeature, byExpired, ?_,
    hp₁, free_sighting_congr hsame₂, hp₂, free_sighting_congr hsame₃, hp₃, hes₃, ?_,
    AddUnMatchedCurDetectedObjects_spec ds₅ s.global_id, rfl, ?_, rfl, rfl⟩
  · intro d hd
    simp only [List.any_eq_true, not_exists, not_and] at hany
    simpa [PersonObject.Free] using hany d hd
  -- the boxes are handed on unchanged from pass to pass
  · calc ds₅.map (·.sighting) = ds₄.map (·.sighting) := hp₃.sightings
      _ = ds₃.map (·.sighting) := sightings_of_withoutFeature hsame₃
      _ = ds₂.map (·.sighting) := hp₂.sightings
      _ = ds₁.map (·.sighting) := sightings_of_withoutFeature hsame₂
      _ = _ := hp₁.sightings
  · rw [← hts₄, Multiset.coe_add, Multiset.map_coe]
    rfl

/-- **Every update balances.**

The bags of the ledger are read off the phases: matched are the attachments of the passes, kept, aged
and dropped are the three verdicts of the first sweep on those that stayed free, and waiting and gone
the verdicts of the second. -/
theorem Update_balanced [IsStrictOrderedRing K] {P : Setup K} {s : Tracker K} {inp : Input K}
    {r : Result K} (hs : ∀ o ∈ s.expiredPersonObjects, o.Free) (h : Update P s inp = .ok r) :
    ∃ L, Balanced P s inp r L := by
  obtain ⟨ts₁, ts₂, es₂, es₃, ds₁, ds₂, ds₃, ds₄, ds₅, byIou, byFeature, byExpired, h⟩ :=
    Update_phases h
  -- who is free when a pass begins
  have hstart : ∀ o ∈ s.trackedPersonObjects.map startFrame, o.Free := by
    intro o ho
    obtain ⟨_, -, rfl⟩ := List.mem_map.mp ho
    rfl
  have hes₁ : ∀ o ∈ s.expiredPersonObjects ++
      ts₂.filter (trackedVerdict P inp.frame_id · = .move), o.Free := by
    intro o ho
    rcases List.mem_append.mp ho with ho | ho
    · exact hs o ho
    · exact (trackedVerdict_eq_move.mp (of_decide_eq_true (List.mem_filter.mp ho).2)).1
  have hes₃ : ∀ o ∈ es₃, o.Free := by
    intro o ho
    rw [← Multiset.mem_coe, h.unmatched] at ho
    exact (Multiset.mem_filter.mp ho).2
  have hkeep : ∀ o : PersonObject K, o.Booked → trackedVerdict P inp.frame_id o = .keep :=
    fun o ho => trackedVerdict_eq_keep.mpr (Or.inl ho)
  refine ⟨{
    fromTracked := byIou ++ byFeature
    fromExpired := byExpired
    kept := free (ts₂.filter (trackedVerdict P inp.frame_id · = .keep))
    aged := (ts₂.filter (trackedVerdict P inp.frame_id · = .move) : List (PersonObject K))
    dropped := (ts₂.filter (trackedVerdict P inp.frame_id · = .erase) : List (PersonObject K))
    waiting := (es₃ : Multiset (PersonObject K)).filter
      (bothOlderThan inp.frame_id · P.expired_to_delete_thresh = false)
    gone := (es₃ : Multiset (PersonObject K)).filter
      (bothOlderThan inp.frame_id · P.expired_to_delete_thresh = true) },
    { attached := h.attached, seen := h.added.booked
      sightings := h.added.sightings.trans h.sightings, created := h.added.created_booked
      created_ids := h.added.ids, global_id := h.added.next, attachment := ?attachment
      tracked_before := ?tracked_before, expired_before := ?expired_before
      detections := ?detections, tracked_after := ?tracked_after, expired_after := ?expired_after
      leaves := ?leaves, kept := ?kept, aged := ?aged, dropped := ?dropped, waiting := ?waiting
      gone := ?gone }⟩
  case attachment =>
    show ∀ a ∈ r.attached, Attached P a
    intro a ha
    rw [h.attached] at ha
    rcases List.mem_append.mp ha with ha | ha
    · rcases List.mem_append.mp ha with ha | ha
      · exact h.iou.attached a ha
      · exact h.feature.attached a ha
    · exact h.expired.attached a ha
  case tracked_before =>
    rw [Multiset.map_coe, ← free_eq_self hstart, h.iou.objects, h.feature.objects,
      free_sweep hkeep, ← Multiset.coe_add, Multiset.map_add]
    simp only [add_assoc]
  case expired_before =>
    have hsplit := Multiset.filter_add_not
      (bothOlderThan inp.frame_id · P.expired_to_delete_thresh = false)
      (es₃ : Multiset (PersonObject K))
    simp only [Bool.not_eq_false] at hsplit
    rw [Multiset.coe_add, ← free_eq_self hes₁, h.expired.objects, ← h.unmatched, add_assoc, hsplit]
  case detections =>
    rw [← free_eq_self h.detections_free, h.iou.detections, ← h.extracted₂, h.feature.detections,
      ← h.extracted₄, h.expired.detections, ← h.added.created_sighting, h.attached]
    simp only [← Multiset.coe_add, Multiset.map_add, add_assoc]
  case tracked_after =>
    have hts₂ : booked ts₂ = (byFeature : Multiset (Attachment K)).map (·.updated) +
        (byIou : Multiset (Attachment K)).map (·.updated) := by
      rw [h.feature.booked, h.iou.booked, booked_eq_zero hstart, add_zero]
    have hes₂ : booked es₂ = (byExpired : Multiset (Attachment K)).map (·.updated) := by
      rw [h.expired.booked, booked_eq_zero hes₁, add_zero]
    rw [h.tracked_after, free_add_booked (ts₂.filter _), booked_sweep hkeep, hts₂, hes₂, h.attached]
    simp only [← Multiset.coe_add, Multiset.map_add]
    abel
  case expired_after =>
    rw [h.expired_after, Multiset.filter_coe]
    simp only [expiredVerdict_eq_keep]
  case leaves =>
    show (r.valid_leave_objects : Multiset (PersonObject K)) =
      ((es₃ : Multiset (PersonObject K)).filter _).filter _
    rw [h.leaves, Multiset.filter_coe, Multiset.filter_coe, List.filter_filter]
    refine congrArg (fun l : List (PersonObject K) => (l : Multiset (PersonObject K)))
      (List.filter_congr fun o _ => ?_)
    simp only [expiredVerdict_eq_move, Bool.decide_and, Bool.decide_eq_true, Bool.and_comm]
  case kept =>
    show ∀ o ∈ free (ts₂.filter _), _
    intro o ho
    obtain ⟨ho, hfree⟩ := Multiset.mem_filter.mp ho
    rcases trackedVerdict_eq_keep.mp (of_decide_eq_true (List.mem_filter.mp ho).2) with hb | hrest
    · exact absurd hb hfree.not_booked
    · exact ⟨hfree, hrest⟩
  case aged =>
    intro o ho
    exact trackedVerdict_eq_move.mp (of_decide_eq_true (List.mem_filter.mp ho).2)
  case dropped =>
    intro o ho
    exact trackedVerdict_eq_erase.mp (of_decide_eq_true (List.mem_filter.mp ho).2)
  case waiting =>
    show ∀ o ∈ (es₃ : Multiset (PersonObject K)).filter _, _
    intro o ho
    obtain ⟨ho, hnot⟩ := Multiset.mem_filter.mp ho
    exact ⟨hes₃ o ho, hnot⟩
  case gone =>
    show ∀ o ∈ (es₃ : Multiset (PersonObject K)).filter _, _
    intro o ho
    obtain ⟨ho, hold⟩ := Multiset.mem_filter.mp ho
    exact ⟨hes₃ o ho, hold⟩

end EdgeFrame.Track
