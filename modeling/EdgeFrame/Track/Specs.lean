/-
# EdgeFrame.Track.Specs -- what each function of the step does

One lemma for each function that `Update` calls, in bags of objects: which of them
are free, which are booked, and what a call takes from the ones to the others. The
callers use these and never look into the functions again.

The bags are there because the code erases from vectors and appends to others: an
order says nothing about who is tracked. A sweep is `eraseLoop` with a verdict, and
`eraseLoop_eq` makes two filters of it; what is left to say of each of the two sweeps
is when its verdict is which (`trackedVerdict_eq_keep` and its siblings). A pass over
match pairs is an induction on the pairs, which `Linked.tail` keeps going: when a pair
has been worked off, the others still point at free objects and free detections.

Detections are compared by their `sighting`, since the passes fill in features and set
flags and ids: what a pass books is what was seen, whatever it has written meanwhile.
-/
import EdgeFrame.Track.Update
import Mathlib

namespace EdgeFrame.Track

open Lib

variable {K : Type}

/-! ## Free and booked objects -/

/-- Not matched yet, and not new. -/
abbrev PersonObject.Free (o : PersonObject K) : Prop :=
  o.is_current_frame_matched_or_new = false

/-- Matched in this frame, or new. -/
abbrev PersonObject.Booked (o : PersonObject K) : Prop :=
  o.is_current_frame_matched_or_new = true

/-- The flag has two values: who is not free is booked. -/
theorem PersonObject.not_free_iff {o : PersonObject K} : ¬ o.Free ↔ o.Booked :=
  Iff.of_eq (Bool.not_eq_false _)

/-- Nobody is both. -/
theorem PersonObject.Free.not_booked {o : PersonObject K} (h : o.Free) : ¬ o.Booked :=
  fun hb => not_free_iff.mpr hb h

/-- The objects that are not matched yet. -/
def free (l : List (PersonObject K)) : Multiset (PersonObject K) :=
  (l : Multiset (PersonObject K)).filter PersonObject.Free

/-- The objects that are matched. -/
def booked (l : List (PersonObject K)) : Multiset (PersonObject K) :=
  (l : Multiset (PersonObject K)).filter PersonObject.Booked

/-- **The two bags make up the vector.** -/
theorem free_add_booked (l : List (PersonObject K)) :
    (l : Multiset (PersonObject K)) = free l + booked l := by
  conv_lhs => rw [← Multiset.filter_add_not PersonObject.Free (l : Multiset (PersonObject K))]
  simp only [free, booked, PersonObject.not_free_iff]

/-- At the start of a frame everybody is free, -/
theorem free_eq_self {l : List (PersonObject K)} (h : ∀ o ∈ l, o.Free) : free l = l :=
  Multiset.filter_eq_self.mpr h

/-- and nobody is booked. -/
theorem booked_eq_zero {l : List (PersonObject K)} (h : ∀ o ∈ l, o.Free) : booked l = 0 :=
  Multiset.filter_eq_nil.mpr fun o ho => (h o ho).not_booked

/-- A detection as it was seen: without its feature, its flag and its id. -/
def PersonObject.sighting (d : PersonObject K) : PersonObject K :=
  { d with
    id := -1
    is_current_frame_matched_or_new := false
    last_updated_body_feature_message := ⟨0, 0, []⟩ }

/-- A feature is no part of what was seen. `FeatureMatch` returns detections that are equal without
their features (`FeatureMatch_spec`), so it leaves every sighting as it was. -/
theorem sighting_withoutFeature {d d' : PersonObject K}
    (h : d'.withoutFeature = d.withoutFeature) : d'.sighting = d.sighting :=
  congrArg (fun o : PersonObject K => { o with id := -1, is_current_frame_matched_or_new := false }) h

/-- The other pairs are still linked when one of them has been worked off. -/
theorem Linked.tail {ts ds : List (PersonObject K)} {p : MatchPair} {match_pairs : List MatchPair}
    (h : Linked ts ds (p :: match_pairs)) (o' d' : PersonObject K) :
    Linked (ts.set p.i_index o') (ds.set p.j_index d') match_pairs := by
  obtain ⟨hi, hni⟩ := List.nodup_cons.mp h.nodup_i
  obtain ⟨hj, hnj⟩ := List.nodup_cons.mp h.nodup_j
  refine ⟨fun q hq => ?_, fun q hq => ?_, hni, hnj⟩
  · have hne : p.i_index ≠ q.i_index := fun he => hi (List.mem_map.mpr ⟨q, hq, he.symm⟩)
    rw [List.getElem?_set_ne hne]
    exact h.objects q (List.mem_cons_of_mem _ hq)
  · have hne : p.j_index ≠ q.j_index := fun he => hj (List.mem_map.mpr ⟨q, hq, he.symm⟩)
    rw [List.getElem?_set_ne hne]
    exact h.detections q (List.mem_cons_of_mem _ hq)

/-- Nor are the flag and the id that a detection gets when it is added. -/
theorem sighting_added {d : PersonObject K} {id : Int} :
    PersonObject.sighting { d.mark with id := id } = d.sighting := rfl

/-! ## The sweeps -/

/-- A sweep that keeps the booked objects splits the free ones by its verdict. -/
theorem free_sweep {verdict : PersonObject K → Verdict} (hkeep : ∀ o, o.Booked → verdict o = .keep)
    (l : List (PersonObject K)) :
    free l = free (l.filter (verdict · = .keep)) +
      (l.filter (verdict · = .move) : Multiset (PersonObject K)) +
      (l.filter (verdict · = .erase) : Multiset (PersonObject K)) := by
  have hfree : ∀ {v : Verdict}, v ≠ .keep → ∀ o ∈ l.filter (verdict · = v), o.Free := by
    intro v hv o ho
    by_contra hno
    have hverdict := (List.mem_filter.mp ho).2
    rw [hkeep o (PersonObject.not_free_iff.mp hno)] at hverdict
    exact hv (of_decide_eq_true hverdict).symm
  conv_lhs => rw [free, bag_eq_verdicts verdict l, Multiset.filter_add, Multiset.filter_add]
  congr 1
  · congr 1
    exact free_eq_self (hfree (by decide))
  · exact free_eq_self (hfree (by decide))

/-- The booked objects do not notice a sweep. -/
theorem booked_sweep {verdict : PersonObject K → Verdict}
    (hkeep : ∀ o, o.Booked → verdict o = .keep) (l : List (PersonObject K)) :
    booked (l.filter (verdict · = .keep)) = booked l := by
  simp only [booked, ← Multiset.filter_coe, Multiset.filter_filter]
  refine Multiset.filter_congr fun o _ => ⟨fun h => h.1, fun h => ⟨h, ?_⟩⟩
  simpa using hkeep o h

/-! ## New objects -/

/-- The ids that `n` new objects get from `global_id` on. -/
def newIds (global_id : UInt64) : Nat → List Int
  | 0 => []
  | n + 1 => asInt global_id :: newIds (global_id + 1) n

/-- The next id, counted from either end; both sides may have wrapped around. -/
theorem add_ofNat_succ (n : UInt64) (k : Nat) :
    n + UInt64.ofNat (k + 1) = n + 1 + UInt64.ofNat k := by
  have h : UInt64.ofNat (k + 1) = 1 + UInt64.ofNat k := by
    rw [Nat.add_comm]
    exact UInt64.ofNat_add 1 k
  rw [h, ← UInt64.add_assoc]

/-- What `AddUnMatchedCurDetectedObjects` does. -/
structure Added (ds : List (PersonObject K)) (global_id : UInt64) (ds' created : List (PersonObject K))
    (next : UInt64) : Prop where
  booked : ∀ d ∈ ds', d.Booked
  created_booked : ∀ o ∈ created, o.Booked
  created_sighting : (created : Multiset (PersonObject K)).map (·.sighting) =
    (free ds).map (·.sighting)
  sightings : ds'.map (·.sighting) = ds.map (·.sighting)
  ids : created.map (·.id) = newIds global_id created.length
  next : next = global_id + UInt64.ofNat created.length

/-- **`AddUnMatchedCurDetectedObjects`** books the detections that are still free and pushes a copy
of each, with the next ids in order. By induction on the detections, with the next id generalised. -/
theorem AddUnMatchedCurDetectedObjects_spec : ∀ (ds : List (PersonObject K)) (global_id : UInt64),
    Added ds global_id (AddUnMatchedCurDetectedObjects ds global_id).1
      (AddUnMatchedCurDetectedObjects ds global_id).2.1
      (AddUnMatchedCurDetectedObjects ds global_id).2.2 := by
  intro ds
  induction ds with
  | nil =>
    intro global_id
    refine ⟨by simp [AddUnMatchedCurDetectedObjects], by simp [AddUnMatchedCurDetectedObjects],
      rfl, rfl, rfl, ?_⟩
    simp [AddUnMatchedCurDetectedObjects]
  | cons d ds ih =>
    intro global_id
    by_cases hd : d.Booked
    · have h := ih global_id
      have hfree : free (d :: ds) = free ds := by
        rw [free, ← Multiset.cons_coe,
          Multiset.filter_cons_of_neg _ (PersonObject.not_free_iff.mpr hd)]
        rfl
      simp only [AddUnMatchedCurDetectedObjects, if_pos hd]
      exact ⟨List.forall_mem_cons.mpr ⟨hd, h.booked⟩, h.created_booked,
        hfree ▸ h.created_sighting, by rw [List.map_cons, h.sightings, List.map_cons], h.ids,
        h.next⟩
    · have h := ih (global_id + 1)
      have hdfree : d.Free := by simpa [PersonObject.Free, PersonObject.Booked] using hd
      simp only [AddUnMatchedCurDetectedObjects, if_neg hd]
      refine ⟨List.forall_mem_cons.mpr ⟨rfl, h.booked⟩,
        List.forall_mem_cons.mpr ⟨rfl, h.created_booked⟩, ?_,
        by rw [List.map_cons, h.sightings, List.map_cons, sighting_added], ?_, ?_⟩
      · rw [← Multiset.cons_coe, Multiset.map_cons, h.created_sighting, free, free,
          ← Multiset.cons_coe, Multiset.filter_cons_of_pos _ hdfree, Multiset.map_cons,
          sighting_added]
      · rw [List.map_cons, h.ids, List.length_cons, newIds]
      · rw [h.next, List.length_cons, add_ofNat_succ]

/-! ## A matched object -/

variable [Field K]

/-- **What a match does** to the tracked object. -/
structure Attached (P : Setup K) (a : Attachment K) : Prop where
  object_free : a.object.is_current_frame_matched_or_new = false
  detection_free : a.detection.is_current_frame_matched_or_new = false
  detection_body : a.detection.is_current_body_detected = true
  id : a.updated.id = a.object.id
  booked : a.updated.is_current_frame_matched_or_new = true
  body_detected : a.updated.is_current_body_detected = true
  hit : a.updated.body_hit_num = a.object.body_hit_num + 1
  status : a.updated.object_status =
    if P.hit_num_thresh < a.object.body_hit_num + 1 then .confirmed else a.object.object_status
  body_bbox : a.updated.last_updated_body_bbox = a.detection.last_updated_body_bbox
  face_bbox : a.updated.last_updated_face_bbox =
    if a.detection.is_current_face_detected then a.detection.last_updated_face_bbox
    else a.object.last_updated_face_bbox
  body_trajectory : a.updated.body_trajectory = trimFront (asUnsigned P.trajectory_size)
    (a.object.body_trajectory ++ [a.detection.last_updated_body_bbox])
  duration : a.updated.duration = a.object.duration

/-- A face changes the flag, the box and the trajectory of the face, and nothing else. Who only asks
for the body uses this instead of the definition. -/
theorem takeFace_spec {P : Setup K} {o d : PersonObject K} :
    ∃ detected trajectory, takeFace P o d = { o with
      is_current_face_detected := detected
      last_updated_face_bbox := if d.is_current_face_detected then d.last_updated_face_bbox
        else o.last_updated_face_bbox
      face_trajectory := trajectory } := by
  unfold takeFace
  cases d.is_current_face_detected with
  | true => exact ⟨_, _, rfl⟩
  | false => exact ⟨false, o.face_trajectory, rfl⟩

/-! ## The verdicts -/

/-- Who stays tracked: those who were matched, and those who are confirmed and not yet lost. An
object is lost when both of its boxes are old. -/
theorem trackedVerdict_eq_keep {P : Setup K} {frame_id : UInt64} {o : PersonObject K} :
    trackedVerdict P frame_id o = .keep ↔ o.Booked ∨
      o.object_status = .confirmed ∧ bothOlderThan frame_id o P.lost_track_thresh = false := by
  unfold trackedVerdict PersonObject.Booked
  cases o.is_current_frame_matched_or_new <;> cases o.object_status <;>
    cases bothOlderThan frame_id o P.lost_track_thresh <;> simp

/-- Who becomes expired. -/
theorem trackedVerdict_eq_move {P : Setup K} {frame_id : UInt64} {o : PersonObject K} :
    trackedVerdict P frame_id o = .move ↔ o.Free ∧
      o.object_status = .confirmed ∧ bothOlderThan frame_id o P.lost_track_thresh = true := by
  unfold trackedVerdict PersonObject.Free
  cases o.is_current_frame_matched_or_new <;> cases o.object_status <;>
    cases bothOlderThan frame_id o P.lost_track_thresh <;> simp

/-- Who is dropped: an unconfirmed object is gone with the first frame that misses it. -/
theorem trackedVerdict_eq_erase {P : Setup K} {frame_id : UInt64} {o : PersonObject K} :
    trackedVerdict P frame_id o = .erase ↔ o.Free ∧ o.object_status = .unconfirmed := by
  unfold trackedVerdict PersonObject.Free
  cases o.is_current_frame_matched_or_new <;> cases o.object_status <;>
    cases bothOlderThan frame_id o P.lost_track_thresh <;> simp

/-- Who stays expired. -/
theorem expiredVerdict_eq_keep {P : Setup K} {frame_id : UInt64} {o : PersonObject K} :
    expiredVerdict P frame_id o = .keep ↔
      bothOlderThan frame_id o P.expired_to_delete_thresh = false := by
  unfold expiredVerdict
  cases bothOlderThan frame_id o P.expired_to_delete_thresh <;> cases CheckValidLeave P o <;> simp

/-- Who is reported as a valid leave. -/
theorem expiredVerdict_eq_move {P : Setup K} {frame_id : UInt64} {o : PersonObject K} :
    expiredVerdict P frame_id o = .move ↔
      bothOlderThan frame_id o P.expired_to_delete_thresh = true ∧ CheckValidLeave P o = true := by
  unfold expiredVerdict
  cases bothOlderThan frame_id o P.expired_to_delete_thresh <;> cases CheckValidLeave P o <;> simp

/-- The first sweep as two filters; it always returns. -/
theorem UpdateUnMatchedTrackedObjectsStatus_eq {P : Setup K} {frame_id : UInt64}
    (ts es : List (PersonObject K)) : UpdateUnMatchedTrackedObjectsStatus P frame_id ts es =
      .ok (ts.filter (trackedVerdict P frame_id · = .keep),
        es ++ ts.filter (trackedVerdict P frame_id · = .move)) := by
  rw [UpdateUnMatchedTrackedObjectsStatus, eraseLoop_eq]
  rfl

/-- The second sweep as two filters. -/
theorem UpdateUnMatchedExpiredObjectsStatus_eq {P : Setup K} {frame_id : UInt64}
    (es out : List (PersonObject K)) : UpdateUnMatchedExpiredObjectsStatus P frame_id es out =
      .ok (es.filter (expiredVerdict P frame_id · = .keep),
        out ++ es.filter (expiredVerdict P frame_id · = .move)) := by
  rw [UpdateUnMatchedExpiredObjectsStatus, eraseLoop_eq]
  rfl

/-! ## A pass -/

variable [LinearOrder K]

/-- Storing a feature touches the features of the object, and at most the feature of the
detection. -/
theorem storeFeature_spec {P : Setup K} {cur : CurrentFrame} {o d o' d' : PersonObject K}
    (h : storeFeature P cur o d = .ok (o', d')) :
    (∃ message messages, o' = { o with
      last_updated_body_feature_message := message, feature_messages := messages }) ∧
      d'.withoutFeature = d.withoutFeature := by
  unfold storeFeature at h
  split at h
  · obtain ⟨d₁, hd, h⟩ := Abort.bind_eq_ok h
    cases h
    exact ⟨⟨_, _, rfl⟩, extractFeature_withoutFeature hd⟩
  · cases h
    exact ⟨⟨o.last_updated_body_feature_message, o.feature_messages, rfl⟩, rfl⟩

/-- `UpdateMatchedObjectStatus` on a free object and a free detection with a body. -/
theorem UpdateMatchedObjectStatus_spec {P : Setup K} {cur : CurrentFrame}
    {o d o' d' : PersonObject K} (h : UpdateMatchedObjectStatus P cur o d = .ok (o', d'))
    (ho : o.is_current_frame_matched_or_new = false)
    (hd : d.is_current_frame_matched_or_new = false) (hbody : d.is_current_body_detected = true) :
    Attached P ⟨o, d, o'⟩ ∧ d'.is_current_frame_matched_or_new = true ∧
      d'.sighting = d.sighting := by
  have hmark : d.mark.is_current_body_detected = true := hbody
  unfold UpdateMatchedObjectStatus at h
  simp only [hmark, if_true] at h
  obtain ⟨⟨o₁, d₁⟩, hstore, h⟩ := Abort.bind_eq_ok h
  obtain ⟨⟨message, messages, rfl⟩, hsame⟩ := storeFeature_spec hstore
  obtain ⟨detected, trajectory, htake⟩ := takeFace_spec (P := P) (d := d₁)
    (o := takeBody P { o.mark with
      last_updated_body_feature_message := message, feature_messages := messages }
      d₁.last_updated_body_bbox)
  simp only [htake] at h
  cases h
  -- the extracted feature is all that tells the detection from what it was, but for the mark
  have hbox : d'.last_updated_body_bbox = d.last_updated_body_bbox :=
    (congrArg PersonObject.last_updated_body_bbox hsame :)
  have hface : d'.is_current_face_detected = d.is_current_face_detected :=
    (congrArg PersonObject.is_current_face_detected hsame :)
  have hfbox : d'.last_updated_face_bbox = d.last_updated_face_bbox :=
    (congrArg PersonObject.last_updated_face_bbox hsame :)
  refine ⟨⟨ho, hd, hbody, rfl, rfl, rfl, rfl, rfl, hbox, ?_, ?_, rfl⟩, ?_,
    (sighting_withoutFeature hsame).trans rfl⟩
  · simp only [hface, hfbox]
    rfl
  · simp only [hbox]
    rfl
  · exact (congrArg PersonObject.is_current_frame_matched_or_new hsame :)

/-- What a pass over linked pairs does to its two vectors. -/
structure Pass (P : Setup K) (ts ds ts' ds' : List (PersonObject K)) (done : List (Attachment K)) :
    Prop where
  attached : ∀ a ∈ done, Attached P a
  objects : free ts = (done : Multiset (Attachment K)).map (·.object) + free ts'
  booked : booked ts' = (done : Multiset (Attachment K)).map (·.updated) + booked ts
  detections : (free ds).map (·.sighting) =
    (done : Multiset (Attachment K)).map (·.detection.sighting) + (free ds').map (·.sighting)
  sightings : ds'.map (·.sighting) = ds.map (·.sighting)

/-- **A pass** takes the objects it matches from the free ones to the booked ones, and the
detections with them. -/
theorem UpdateMatchedTrackedObjects_spec {P : Setup K} {cur : CurrentFrame}
    {match_pairs : List MatchPair} : ∀ {ts ds ts' ds' : List (PersonObject K)}
      {done : List (Attachment K)}, Linked ts ds match_pairs →
      UpdateMatchedTrackedObjects P cur match_pairs ts ds = .ok (ts', ds', done) →
      Pass P ts ds ts' ds' done := by
  induction match_pairs with
  | nil =>
    intro ts ds ts' ds' done _ h
    cases h
    exact ⟨by simp, by simp, by simp, by simp, rfl⟩
  | cons p match_pairs ih =>
    intro ts ds ts' ds' done hlink h
    -- the pair is of a free object and a free detection, which are booked now
    obtain ⟨o, ho, (hofree : o.Free)⟩ := hlink.objects p List.mem_cons_self
    obtain ⟨d, hd, (hdfree : d.Free), hdbody⟩ := hlink.detections p List.mem_cons_self
    unfold UpdateMatchedTrackedObjects at h
    simp only [ho, hd] at h
    obtain ⟨⟨o', d'⟩, hstatus, h⟩ := Abort.bind_eq_ok h
    obtain ⟨⟨ts₁, ds₁, done₁⟩, hrest, h⟩ := Abort.bind_eq_ok h
    cases h
    show Pass P ts ds ts₁ ds₁ (⟨o, d, o'⟩ :: done₁)
    obtain ⟨hattached, hdbooked, hsight⟩ :=
      UpdateMatchedObjectStatus_spec hstatus hofree hdfree hdbody
    have ho' : o'.Booked := hattached.booked
    have hd' : d'.Booked := hdbooked
    -- the two lists change in one place each
    obtain ⟨tsRest, hts, htsSet⟩ := bag_of_getElem? ho
    obtain ⟨dsRest, hds, hdsSet⟩ := bag_of_getElem? hd
    have hpass := ih (hlink.tail o' d') hrest
    refine ⟨?attached, ?objects, ?booked, ?detections,
      hpass.sightings.trans (map_set_of_eq hd hsight)⟩
    case attached =>
      intro a ha
      rcases List.mem_cons.mp ha with rfl | ha
      · exact hattached
      · exact hpass.attached a ha
    case objects =>
      -- the object is no longer free, and one of those that have been matched
      have hnext := hpass.objects
      rw [free, htsSet o', Multiset.filter_cons_of_neg _ (PersonObject.not_free_iff.mpr ho')] at hnext
      rw [free, hts, Multiset.filter_cons_of_pos _ hofree, hnext, ← Multiset.cons_coe,
        Multiset.map_cons, Multiset.cons_add]
    case booked =>
      -- it is booked instead
      have hnext := hpass.booked
      rw [booked, booked, htsSet o', Multiset.filter_cons_of_pos _ ho'] at hnext
      rw [booked, booked, hnext, hts, Multiset.filter_cons_of_neg _ hofree.not_booked,
        ← Multiset.cons_coe, Multiset.map_cons, Multiset.cons_add, Multiset.add_cons]
    case detections =>
      have hnext := hpass.detections
      rw [free, hdsSet d', Multiset.filter_cons_of_neg _ (PersonObject.not_free_iff.mpr hd')] at hnext
      rw [free, hds, Multiset.filter_cons_of_pos _ hdfree, Multiset.map_cons, hnext,
        ← Multiset.cons_coe, Multiset.map_cons, Multiset.cons_add]

/-- A pass over the expired objects, and what it books moves to the tracked ones. -/
theorem UpdateMatchedExpiredObjects_spec {P : Setup K} {cur : CurrentFrame}
    {match_pairs : List MatchPair} {es ds ts ts' es' ds' : List (PersonObject K)}
    {done : List (Attachment K)} (hlink : Linked es ds match_pairs)
    (h : UpdateMatchedExpiredObjects P cur match_pairs es ds ts = .ok (ts', es', ds', done)) :
    ∃ es₁, Pass P es ds es₁ ds' done ∧
      (ts' : Multiset (PersonObject K)) = (ts : Multiset (PersonObject K)) + booked es₁ ∧
      (es' : Multiset (PersonObject K)) = free es₁ := by
  unfold UpdateMatchedExpiredObjects at h
  obtain ⟨⟨es₁, ds₁, done₁⟩, hpass, h⟩ := Abort.bind_eq_ok h
  simp only [eraseLoop_eq] at h
  cases h
  refine ⟨es₁, UpdateMatchedTrackedObjects_spec hlink hpass, ?_, ?_⟩
  · rw [booked, Multiset.filter_coe, Multiset.coe_add]
    refine congrArg (fun l => ((ts ++ l : List (PersonObject K)) : Multiset (PersonObject K)))
      (List.filter_congr fun o _ => ?_)
    simp [matchedVerdict, PersonObject.Booked]
  · rw [free, Multiset.filter_coe]
    refine congrArg (fun l : List (PersonObject K) => (l : Multiset (PersonObject K)))
      (List.filter_congr fun o _ => ?_)
    simp [matchedVerdict, PersonObject.Free]

end EdgeFrame.Track
