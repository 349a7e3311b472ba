/-
# EdgeFrame.Track.Returns -- what can stop an update

An update can fail in many places: the solver has loops and asserts, every vector is
read by index, and two features are compared under an `assert` that they have one
size. None of it happens as long as every feature that is stored is the network's and
the indexes are `Linked`. One reason is left: a crop of the frame that leaves the
frame, for which OpenCV throws.

`Ends E Q` says of a call that it returns something with the property `Q`, or fails
with one of the errors in `E` (`EdgeFrame.Lib.Outcome`); its rules follow the binds of
the code. Each function here has one lemma of that form, in the order in which `Update`
calls them, and `E` is a parameter up to the last one. Two properties travel along:

* `Featured`: the features of an object have the size that the network gives them, so
  that two of them can be compared;
* `Usable`: a detection has such a feature or none yet, and if its crop is not inside
  the frame, `E` has the exception.
-/
import EdgeFrame.Lib.Outcome
import EdgeFrame.Track.Runs
import Mathlib

namespace EdgeFrame.Track

open Lib

variable {K : Type}

/-- The features that a person carries are the network's; the last one may not be extracted yet. -/
structure PersonObject.Featured (o : PersonObject K) : Prop where
  last : o.last_updated_body_feature_message.tengine_feature = [] ∨
    o.last_updated_body_feature_message.tengine_feature.length = 512
  stored : ∀ message ∈ o.feature_messages, message.tengine_feature.length = 512

variable [Field K]

/-- The crop of the detection is inside the frame. -/
def cropInside (P : Setup K) (cur : CurrentFrame) (d : PersonObject K) : Bool :=
  insideImage cur.p_cur_process_frame_mat_ (d.last_updated_body_bbox.bbox_rect.round P.cvRound)

/-- A detection that an update can use; if its crop is not inside the frame, then `E` allows for
the exception. -/
structure Usable (P : Setup K) (cur : CurrentFrame) (E : Abort → Prop) (d : PersonObject K) :
    Prop where
  featured : d.Featured
  crop : cropInside P cur d = false → E .roi

variable {P : Setup K} {cur : CurrentFrame} {E : Abort → Prop}

/-! ## Features -/

/-- The one place where an update fails. With a crop inside the frame the detection gets the 512
numbers of the network; with a feature already there it is left alone. -/
theorem extractFeature_ends {d : PersonObject K} (hd : Usable P cur E d) :
    Ends E (fun d' => Usable P cur E d' ∧
      d'.last_updated_body_feature_message.tengine_feature.length = 512)
      (extractFeature P cur d) := by
  unfold extractFeature
  simp only
  split
  · rename_i hempty
    rw [List.isEmpty_iff] at hempty
    split
    · have hlen : (List.ofFn (P.reid cur.p_cur_process_frame_mat_
          (d.last_updated_body_bbox.bbox_rect.round P.cvRound)) ++
          d.last_updated_body_feature_message.tengine_feature).length = 512 := by
        simp only [List.length_append, List.length_ofFn, hempty, List.length_nil]
      exact ⟨⟨⟨Or.inr hlen, hd.featured.stored⟩, hd.crop⟩, hlen⟩
    · rename_i hcrop
      show E .roi
      exact hd.crop (Bool.eq_false_iff.mpr hcrop)
  · rename_i hsome
    refine ⟨hd, hd.featured.last.resolve_left fun hnil => hsome ?_⟩
    rw [hnil]
    rfl

section

variable [LinearOrder K]

/-- The `assert` of `CalcCosSimilarity` holds for features of one size. -/
theorem featureCost_ends {o d : PersonObject K} (ho : o.Featured)
    (hd : d.last_updated_body_feature_message.tengine_feature.length = 512) :
    Ends E (fun _ => True) (featureCost P o d) := by
  unfold featureCost
  refine Ends.foldlM (fun min_cost message hm _ => ?_) trivial
  have hsim : CalcCosSimilarity P message.tengine_feature
      d.last_updated_body_feature_message.tengine_feature = .ok _ :=
    if_pos ((ho.stored message hm).trans hd.symm)
  rw [hsim]
  trivial

/-- A row of the table: the indexes are in range, as they were taken from the same vector
(`indexesWhere_lt`), and the detections stay usable for the next row. -/
theorem featureRow_ends {o : PersonObject K} (ho : o.Featured) {js : List Nat} :
    ∀ {ds : List (PersonObject K)}, (∀ j ∈ js, j < ds.length) → (∀ d ∈ ds, Usable P cur E d) →
      Ends E (fun r => r.2.length = ds.length ∧ ∀ d ∈ r.2, Usable P cur E d)
        (featureRow P cur o js ds) := by
  induction js with
  | nil =>
    intro ds _ hds
    exact ⟨rfl, hds⟩
  | cons j js ih =>
    intro ds hjs hds
    obtain ⟨hj, hjs⟩ := List.forall_mem_cons.mp hjs
    have hget : ds[j]? = some ds[j] := List.getElem?_eq_getElem hj
    unfold featureRow
    simp only [hget]
    apply Ends.bind (extractFeature_ends (hds _ (List.getElem_mem hj)))
    rintro d' ⟨hd', hlen⟩
    refine (featureCost_ends ho hlen).bind fun cost _ => ?_
    have hjs' : ∀ j' ∈ js, j' < (ds.set j d').length := by simpa using hjs
    apply Ends.bind (ih hjs' (forall_mem_set hds hd'))
    rintro ⟨row, ds'⟩ ⟨hlen', hds'⟩
    show ds'.length = ds.length ∧ ∀ d ∈ ds', Usable P cur E d
    exact ⟨hlen'.trans List.length_set, hds'⟩

/-- The table, row by row. -/
theorem featureTable_ends {ts : List (PersonObject K)} {js is : List Nat}
    (hts : ∀ o ∈ ts, o.Featured) : ∀ {ds : List (PersonObject K)}, (∀ i ∈ is, i < ts.length) →
      (∀ j ∈ js, j < ds.length) → (∀ d ∈ ds, Usable P cur E d) →
      Ends E (fun r => ∀ d ∈ r.2, Usable P cur E d) (featureTable P cur ts js is ds) := by
  induction is with
  | nil =>
    intro ds _ _ hds
    exact hds
  | cons i is ih =>
    intro ds his hjs hds
    obtain ⟨hi, his⟩ := List.forall_mem_cons.mp his
    have hget : ts[i]? = some ts[i] := List.getElem?_eq_getElem hi
    unfold featureTable
    simp only [hget]
    apply Ends.bind (featureRow_ends (hts _ (List.getElem_mem hi)) hjs hds)
    rintro ⟨row, ds₁⟩ ⟨hlen, hds₁⟩
    apply Ends.bind (ih his (fun j hj => hlen ▸ hjs j hj) hds₁)
    rintro ⟨table, ds₂⟩ hds₂
    show ∀ d ∈ ds₂, Usable P cur E d
    exact hds₂

omit [Field K] [LinearOrder K] in
/-- An index that a loop has collected is one of the vector. -/
theorem indexesWhere_lt {p : PersonObject K → Bool} {l : List (PersonObject K)} :
    ∀ i ∈ indexesWhere p l, i < l.length := by
  intro i hi
  obtain ⟨a, ha, -⟩ := mem_indexesWhere.mp hi
  exact (List.getElem?_eq_some_iff.mp ha).1

/-- **`FeatureMatch`** returns linked pairs, unless a crop leaves the frame: beside the table it has
the solver, which always returns (`pairsBelow_spec`). -/
theorem FeatureMatch_ends [IsStrictOrderedRing K] {ts ds : List (PersonObject K)}
    (hts : ∀ o ∈ ts, o.Featured) (hds : ∀ d ∈ ds, Usable P cur E d) :
    Ends E (fun r => (∀ d ∈ r.2, Usable P cur E d) ∧ Linked ts r.2 r.1)
      (FeatureMatch P cur ts ds .body) := by
  refine Ends.and_ok ?_ fun r hr => (FeatureMatch_spec hr).1
  unfold FeatureMatch
  simp only
  split
  · exact hds
  · apply Ends.bind (featureTable_ends hts indexesWhere_lt indexesWhere_lt hds)
    rintro ⟨table, ds'⟩ hds'
    obtain ⟨pairs, hpairs, -⟩ :=
      pairsBelow_spec (K := K) nodup_indexesWhere nodup_indexesWhere _ _
    rw [hpairs]
    show ∀ d ∈ ds', Usable P cur E d
    exact hds'

/-! ## Passes -/

/-- What is stored with an object is a feature that was extracted, of the right size. -/
theorem storeFeature_ends {o d : PersonObject K} (ho : o.Featured) (hd : Usable P cur E d) :
    Ends E (fun r => r.1.Featured ∧ Usable P cur E r.2) (storeFeature P cur o d) := by
  unfold storeFeature
  split
  · apply Ends.bind (extractFeature_ends hd)
    rintro d' ⟨hd', hlen⟩
    refine ⟨⟨hd'.featured.last, fun message hm => ?_⟩, hd'⟩
    rcases List.mem_append.mp (mem_of_mem_trimFront hm) with hm | hm
    · exact ho.stored message hm
    · rw [List.mem_singleton.mp hm]
      exact hlen
  · exact ⟨ho, hd⟩

omit [LinearOrder K] in
/-- A face brings no feature. -/
theorem takeFace_featured {o d : PersonObject K} (ho : o.Featured) :
    (takeFace P o d).Featured := by
  obtain ⟨_, _, h⟩ := takeFace_spec (P := P) (o := o) (d := d)
  rw [h]
  exact ⟨ho.last, ho.stored⟩

/-- A match keeps the object's features in order. -/
theorem UpdateMatchedObjectStatus_ends {o d : PersonObject K} (ho : o.Featured)
    (hd : Usable P cur E d) : Ends E (fun r => r.1.Featured ∧ Usable P cur E r.2)
      (UpdateMatchedObjectStatus P cur o d) := by
  have hmo : o.mark.Featured := ⟨ho.last, ho.stored⟩
  have hmd : Usable P cur E d.mark := ⟨⟨hd.featured.last, hd.featured.stored⟩, hd.crop⟩
  unfold UpdateMatchedObjectStatus
  simp only
  split
  · apply Ends.bind (storeFeature_ends hmo hmd)
    rintro ⟨o', d'⟩ ⟨ho', hd'⟩
    show (takeFace P (takeBody P o' d'.last_updated_body_bbox) d').Featured ∧ Usable P cur E d'
    exact ⟨takeFace_featured ⟨ho'.last, ho'.stored⟩, hd'⟩
  · exact ⟨takeFace_featured ⟨hmo.last, hmo.stored⟩, hmd⟩

/-- A pass, by induction on its pairs. -/
theorem UpdateMatchedTrackedObjects_ends {match_pairs : List MatchPair} :
    ∀ {ts ds : List (PersonObject K)}, Linked ts ds match_pairs → (∀ o ∈ ts, o.Featured) →
      (∀ d ∈ ds, Usable P cur E d) →
      Ends E (fun r => (∀ o ∈ r.1, o.Featured) ∧ ∀ d ∈ r.2.1, Usable P cur E d)
        (UpdateMatchedTrackedObjects P cur match_pairs ts ds) := by
  induction match_pairs with
  | nil =>
    intro ts ds _ hts hds
    exact ⟨hts, hds⟩
  | cons p match_pairs ih =>
    intro ts ds hlink hts hds
    obtain ⟨o, ho, -⟩ := hlink.objects p List.mem_cons_self
    obtain ⟨d, hd, -⟩ := hlink.detections p List.mem_cons_self
    unfold UpdateMatchedTrackedObjects
    simp only [ho, hd]
    apply Ends.bind (UpdateMatchedObjectStatus_ends (hts o (List.mem_of_getElem? ho))
      (hds d (List.mem_of_getElem? hd)))
    rintro ⟨o', d'⟩ ⟨ho', hd'⟩
    apply Ends.bind (ih (hlink.tail o' d') (forall_mem_set hts ho') (forall_mem_set hds hd'))
    rintro ⟨ts₁, ds₁, done⟩ h
    show (∀ o ∈ ts₁, o.Featured) ∧ ∀ d ∈ ds₁, Usable P cur E d
    exact h

/-- A pass over the expired objects; its second loop only moves objects from one vector to the
other. -/
theorem UpdateMatchedExpiredObjects_ends {match_pairs : List MatchPair}
    {es ds ts : List (PersonObject K)} (hlink : Linked es ds match_pairs)
    (hes : ∀ o ∈ es, o.Featured) (hds : ∀ d ∈ ds, Usable P cur E d) (hts : ∀ o ∈ ts, o.Featured) :
    Ends E (fun r => (∀ o ∈ r.1, o.Featured) ∧ (∀ o ∈ r.2.1, o.Featured) ∧
      ∀ d ∈ r.2.2.1, Usable P cur E d) (UpdateMatchedExpiredObjects P cur match_pairs es ds ts) := by
  unfold UpdateMatchedExpiredObjects
  apply Ends.bind (UpdateMatchedTrackedObjects_ends hlink hes hds)
  rintro ⟨es₁, ds₁, done⟩ ⟨hes₁, hds₁⟩
  simp only [eraseLoop_eq]
  refine ⟨fun o ho => ?_, fun o ho => hes₁ o (List.mem_of_mem_filter ho), hds₁⟩
  rcases List.mem_append.mp ho with ho | ho
  · exact hts o ho
  · exact hes₁ o (List.mem_of_mem_filter ho)

omit [Field K] [LinearOrder K] in
/-- A new object is a detection with its flag and its id set. -/
theorem created_featured {ds : List (PersonObject K)} : ∀ {global_id : UInt64},
    (∀ d ∈ ds, d.Featured) → ∀ o ∈ (AddUnMatchedCurDetectedObjects ds global_id).2.1,
      o.Featured := by
  induction ds with
  | nil =>
    intro global_id _ o ho
    cases ho
  | cons d ds ih =>
    intro global_id hds o ho
    obtain ⟨hd, hds⟩ := List.forall_mem_cons.mp hds
    unfold AddUnMatchedCurDetectedObjects at ho
    split at ho
    · exact ih hds o ho
    · rcases List.mem_cons.mp ho with rfl | ho
      · exact ⟨hd.last, hd.stored⟩
      · exact ih hds o ho

/-- The time of residence is no feature. -/
theorem accumulate_featured {o : PersonObject K} (ho : o.Featured) :
    (accumulate P cur o).Featured := by
  obtain ⟨_, _, _, _, h⟩ := accumulate_spec P cur o
  rw [h]
  exact ⟨ho.last, ho.stored⟩

/-! ## The update -/

/-- **An update returns**, or one of its detections has a crop that leaves the frame; and the
features stay the network's.

Every call on the way has its lemma above; what remains is to hand the vectors from one to the next,
and to see that what the sweeps leave is part of what they were given. -/
theorem Update_ends [IsStrictOrderedRing K] {s : Tracker K} {inp : Input K}
    (hs : ∀ o ∈ everyone s, o.Featured) (hfree : ∀ d ∈ inp.cur_detected_person_objects, d.Free)
    (hdets : ∀ d ∈ inp.cur_detected_person_objects, Usable P inp.current E d) :
    Ends E (fun r => ∀ o ∈ everyone r.tracker, o.Featured) (Update P s inp) := by
  have hts₀ : ∀ o ∈ s.trackedPersonObjects.map startFrame, o.Featured := by
    intro o ho
    obtain ⟨o₀, ho₀, rfl⟩ := List.mem_map.mp ho
    have h := hs o₀ (mem_everyone.mpr (Or.inl ho₀))
    exact ⟨h.last, h.stored⟩
  have hany : inp.cur_detected_person_objects.any (·.is_current_frame_matched_or_new) = false := by
    rw [List.any_eq_false]
    intro d hd
    simpa using hfree d hd
  -- the passes in their order: what each of them needs of the features, the one before has kept
  obtain ⟨pairs, hiou, hlink₁⟩ := IOUMatch_spec P (s.trackedPersonObjects.map startFrame)
    inp.cur_detected_person_objects
  unfold Update
  simp only [hany, hiou]
  apply Ends.bind (UpdateMatchedTrackedObjects_ends hlink₁ hts₀ hdets)
  rintro ⟨ts₁, ds₁, byIou⟩ ⟨hts₁, hds₁⟩
  apply Ends.bind (FeatureMatch_ends hts₁ hds₁)
  rintro ⟨pairs₂, ds₂⟩ ⟨hds₂, hlink₂⟩
  apply Ends.bind (UpdateMatchedTrackedObjects_ends hlink₂ hts₁ hds₂)
  rintro ⟨ts₂, ds₃, byFeature⟩ ⟨hts₂, hds₃⟩
  simp only [UpdateUnMatchedTrackedObjectsStatus_eq]
  -- the third pass is over the expired objects, with those that have just aged
  have hes₁ : ∀ o ∈ s.expiredPersonObjects ++
      ts₂.filter (trackedVerdict P inp.frame_id · = .move), o.Featured := by
    intro o ho
    rcases List.mem_append.mp ho with ho | ho
    · exact hs o (mem_everyone.mpr (Or.inr ho))
    · exact hts₂ o (List.mem_of_mem_filter ho)
  apply Ends.bind (FeatureMatch_ends hes₁ hds₃)
  rintro ⟨pairs₃, ds₄⟩ ⟨hds₄, hlink₃⟩
  apply Ends.bind (UpdateMatchedExpiredObjects_ends hlink₃ hes₁ hds₄
    fun o ho => hts₂ o (List.mem_of_mem_filter ho))
  rintro ⟨ts₄, es₃, ds₅, byExpired⟩ ⟨hts₄, hes₃, hds₅⟩
  simp only [UpdateUnMatchedExpiredObjectsStatus_eq]
  intro o ho
  rcases mem_everyone.mp ho with ho | ho
  -- a tracked object has been there, or was a detection
  · obtain ⟨o₁, ho₁, rfl⟩ := List.mem_map.mp ho
    apply accumulate_featured
    rcases List.mem_append.mp ho₁ with ho₁ | ho₁
    · exact hts₄ o₁ ho₁
    · exact created_featured (fun d hd => (hds₅ d hd).featured) o₁ ho₁
  · exact hes₃ o (List.mem_of_mem_filter ho)

end

end EdgeFrame.Track
