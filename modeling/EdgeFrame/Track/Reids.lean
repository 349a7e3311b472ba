/-
# EdgeFrame.Track.Reids -- the calls of `sdk::reid`

`FeatureMatch` and `UpdateMatchedObjectStatus` both extract the feature of a detection,
each behind a test on the area of its box. The functions here count how often the two
come to `sdk::reid` in a call of `Update`: they follow the loops of `Track.Match` and
`Track.Update` and add up the extractions. The count is tied to `Update` by
`Update_withReid`: a call that is counted with no extraction is the same call whatever
`sdk::reid` would have returned.

A detection whose box is not above the threshold is `Blocked`. A frame of blocked
detections goes through `Update` without a single extraction, and leaves objects
without features without features. Both are needed for the next frame: an object with
a feature would be compared with every detection that is large enough.
-/
import EdgeFrame.Track.Runs
import Mathlib

namespace EdgeFrame.Track

open Lib

variable {K : Type} [Field K] [LinearOrder K]

/-! ## Counting -/

/-- What is counted once a call has returned; nothing follows a call that has not. -/
def following {α : Type} (x : Except Abort α) (f : α → Nat) : Nat :=
  match x with
  | .error _ => 0
  | .ok a => f a

/-- The extraction calls `sdk::reid` for a detection without a feature. -/
def extractionReids (d : PersonObject K) : Nat :=
  if d.last_updated_body_feature_message.tengine_feature.isEmpty then 1 else 0

/-- The calls in `UpdateMatchedObjectStatus`. -/
def statusReids (P : Setup K) (cur : CurrentFrame)
    (tracked_person_object cur_detect_person_object : PersonObject K) : Nat :=
  let o := tracked_person_object.mark
  let d := cur_detect_person_object.mark
  if d.is_current_body_detected && (IsObjectNeedExtractFeature P cur o &&
      bodyAreaAbove cur d P.bbox_area_extract_feature_thresh) then extractionReids d
  else 0

/-- The calls in the loop over the match pairs. -/
def matchedReids (P : Setup K) (cur : CurrentFrame) :
    List MatchPair → List (PersonObject K) → List (PersonObject K) → Nat
  | [], _, _ => 0
  | p :: match_pairs, ts, ds =>
    match ts[p.i_index]?, ds[p.j_index]? with
    | some o, some d => statusReids P cur o d +
      following (UpdateMatchedObjectStatus P cur o d) fun r =>
        matchedReids P cur match_pairs (ts.set p.i_index r.1) (ds.set p.j_index r.2)
    | _, _ => 0

/-- The calls in one row of the feature table. -/
def rowReids (P : Setup K) (cur : CurrentFrame) : List Nat → List (PersonObject K) → Nat
  | [], _ => 0
  | j :: js, ds =>
    match ds[j]? with
    | none => 0
    | some d => extractionReids d +
      following (extractFeature P cur d) fun d => rowReids P cur js (ds.set j d)

/-- The calls in all rows. -/
def tableReids (P : Setup K) (cur : CurrentFrame) (expired_person_objects : List (PersonObject K))
    (js : List Nat) : List Nat → List (PersonObject K) → Nat
  | [], _ => 0
  | i :: is, ds =>
    match expired_person_objects[i]? with
    | none => 0
    | some o => rowReids P cur js ds +
      following (featureRow P cur o js ds) fun r =>
        tableReids P cur expired_person_objects js is r.2

/-- The calls in `FeatureMatch`. -/
def featureReids (P : Setup K) (cur : CurrentFrame) (expired_person_objects
    cur_detected_person_objects : List (PersonObject K)) (bbox_type : BBoxType) : Nat :=
  let expired_indexes := indexesWhere (fun o => !o.is_current_frame_matched_or_new &&
    o.object_status = .confirmed && bbox_type = .body && !o.feature_messages.isEmpty)
    expired_person_objects
  let detected_indexes := indexesWhere (fun d => !d.is_current_frame_matched_or_new &&
    d.detected bbox_type && (bbox_type = .face ||
      bodyAreaAbove cur d P.bbox_area_extract_feature_thresh)) cur_detected_person_objects
  if expired_indexes.isEmpty || detected_indexes.isEmpty then 0
  else tableReids P cur expired_person_objects detected_indexes expired_indexes
    cur_detected_person_objects

/-- The calls in `Update`, as far as it gets. -/
def updateReids (P : Setup K) (s : Tracker K) (inp : Input K) : Nat :=
  let cur := inp.current
  let dets := inp.cur_detected_person_objects
  if dets.any (·.is_current_frame_matched_or_new) then 0
  else
    let tracked := s.trackedPersonObjects.map startFrame
    following (IOUMatch P tracked dets .body) fun pairs =>
      matchedReids P cur pairs tracked dets +
    following (UpdateMatchedTrackedObjects P cur pairs tracked dets) fun r₁ =>
      featureReids P cur r₁.1 r₁.2.1 .body +
    following (FeatureMatch P cur r₁.1 r₁.2.1 .body) fun r₂ =>
      matchedReids P cur r₂.1 r₁.1 r₂.2 +
    following (UpdateMatchedTrackedObjects P cur r₂.1 r₁.1 r₂.2) fun r₃ =>
    following (UpdateUnMatchedTrackedObjectsStatus P inp.frame_id r₃.1 s.expiredPersonObjects)
      fun r₄ =>
      featureReids P cur r₄.2 r₃.2.1 .body +
    following (FeatureMatch P cur r₄.2 r₃.2.1 .body) fun r₅ =>
      matchedReids P cur r₅.1 r₄.2 r₅.2

/-! ## What is counted

A call that is counted as one without extractions does not look at what `sdk::reid` would
return: with another one in its place it comes to the same result. -/

/-- The same setup with another `sdk::reid`. -/
def Setup.withReid (P : Setup K) (reid : Mat → Rect Int → Fin 512 → K) : Setup K :=
  { P with reid := reid }

section

variable {P : Setup K} {cur : CurrentFrame} (reid : Mat → Rect Int → Fin 512 → K)

/-- Where nothing is counted, nothing is counted in what follows a call that returned. -/
theorem following_ok {α : Type} {x : Except Abort α} {f : α → Nat} {a : α}
    (h : following x f = 0) (hx : x = .ok a) : f a = 0 := by
  rw [hx] at h
  exact h

omit [LinearOrder K] in
/-- A detection that has its feature is not looked at again. -/
theorem extractFeature_withReid {d : PersonObject K} (h : extractionReids d = 0) :
    extractFeature (P.withReid reid) cur d = extractFeature P cur d := by
  have hfeature : d.last_updated_body_feature_message.tengine_feature.isEmpty = false := by
    unfold extractionReids at h
    split at h
    · cases h
    · rename_i hfeature
      rwa [Bool.not_eq_true] at hfeature
  unfold extractFeature
  simp [hfeature]

/-- A match extracts behind two tests, and neither of them asks `sdk::reid`. -/
theorem UpdateMatchedObjectStatus_withReid {o d : PersonObject K} (h : statusReids P cur o d = 0) :
    UpdateMatchedObjectStatus (P.withReid reid) cur o d = UpdateMatchedObjectStatus P cur o d := by
  unfold statusReids at h
  unfold UpdateMatchedObjectStatus
  simp only at h ⊢
  by_cases hbody : d.mark.is_current_body_detected = true
  · rw [if_pos hbody, if_pos hbody]
    have hstore : storeFeature (P.withReid reid) cur o.mark d.mark =
        storeFeature P cur o.mark d.mark := by
      unfold storeFeature
      by_cases hneed : (IsObjectNeedExtractFeature P cur o.mark &&
          bodyAreaAbove cur d.mark P.bbox_area_extract_feature_thresh) = true
      · rw [hbody, hneed, Bool.and_self, if_pos rfl] at h
        rw [extractFeature_withReid reid h]
        rfl
      · exact (if_neg hneed).trans (if_neg hneed).symm
    rw [hstore]
    rfl
  · rw [if_neg hbody, if_neg hbody]
    rfl

/-- **The loop over the match pairs**, by induction on the pairs: the first extraction would have been
counted. -/
theorem UpdateMatchedTrackedObjects_withReid : ∀ {match_pairs : List MatchPair}
    {ts ds : List (PersonObject K)}, matchedReids P cur match_pairs ts ds = 0 →
      UpdateMatchedTrackedObjects (P.withReid reid) cur match_pairs ts ds =
        UpdateMatchedTrackedObjects P cur match_pairs ts ds := by
  intro match_pairs
  induction match_pairs with
  | nil => exact fun _ => rfl
  | cons p match_pairs ih =>
    intro ts ds h
    unfold matchedReids at h
    unfold UpdateMatchedTrackedObjects
    split
    · rename_i o d ho hd
      simp only [ho, hd] at h
      obtain ⟨hfirst, hrest⟩ := Nat.add_eq_zero_iff.mp h
      rw [UpdateMatchedObjectStatus_withReid reid hfirst]
      apply Abort.bind_congr
      rintro ⟨o', d'⟩ hstatus
      simp only
      have hrest := following_ok hrest hstatus
      rw [ih hrest]
    · rfl

/-- A row of the table, by induction on the detections. -/
theorem featureRow_withReid {o : PersonObject K} : ∀ {js : List Nat} {ds : List (PersonObject K)},
    rowReids P cur js ds = 0 →
      featureRow (P.withReid reid) cur o js ds = featureRow P cur o js ds := by
  intro js
  induction js with
  | nil => exact fun _ => rfl
  | cons j js ih =>
    intro ds h
    unfold rowReids at h
    unfold featureRow
    cases hd : ds[j]? with
    | none => rfl
    | some d =>
      rw [hd] at h
      obtain ⟨hfirst, hrest⟩ := Nat.add_eq_zero_iff.mp h
      simp only
      rw [extractFeature_withReid reid hfirst]
      apply Abort.bind_congr
      intro d' hextract
      have hrest := following_ok hrest hextract
      rw [ih hrest]
      rfl

/-- All rows, by induction on the objects. -/
theorem featureTable_withReid {ts : List (PersonObject K)} {js : List Nat} :
    ∀ {is : List Nat} {ds : List (PersonObject K)}, tableReids P cur ts js is ds = 0 →
      featureTable (P.withReid reid) cur ts js is ds = featureTable P cur ts js is ds := by
  intro is
  induction is with
  | nil => exact fun _ => rfl
  | cons i is ih =>
    intro ds h
    unfold tableReids at h
    unfold featureTable
    cases ho : ts[i]? with
    | none => rfl
    | some o =>
      rw [ho] at h
      obtain ⟨hfirst, hrest⟩ := Nat.add_eq_zero_iff.mp h
      simp only
      rw [featureRow_withReid reid hfirst]
      apply Abort.bind_congr
      rintro ⟨row, ds'⟩ hrow
      simp only
      have hrest := following_ok hrest hrow
      rw [ih hrest]

/-- `FeatureMatch` extracts in its table only. -/
theorem FeatureMatch_withReid {ts ds : List (PersonObject K)} {bbox_type : BBoxType}
    (h : featureReids P cur ts ds bbox_type = 0) :
    FeatureMatch (P.withReid reid) cur ts ds bbox_type = FeatureMatch P cur ts ds bbox_type := by
  unfold featureReids at h
  unfold FeatureMatch
  simp only at h ⊢
  split
  · rename_i hempty
    exact (if_pos hempty).symm
  · rename_i hnonempty
    have htable : tableReids P cur ts _ _ ds = 0 := (if_neg hnonempty).symm.trans h
    refine Eq.trans ?_ (if_neg hnonempty).symm
    exact congrArg (· >>= _) (featureTable_withReid reid htable)

/-- **An `Update` that is counted as one without extractions** does not depend on `sdk::reid`: each of
its passes is counted as one without, and hands the same vectors to the next. -/
theorem Update_withReid {s : Tracker K} {inp : Input K} (h : updateReids P s inp = 0) :
    Update (P.withReid reid) s inp = Update P s inp := by
  unfold updateReids at h
  unfold Update
  simp only at h ⊢
  split
  · rfl
  · rename_i hfree
    rw [if_neg hfree] at h
    -- the count is a sum over the passes, so that each of its terms is zero
    show (IOUMatch P _ _ _ >>= _) = _
    apply Abort.bind_congr
    intro pairs hpairs
    have h := following_ok h hpairs
    obtain ⟨hmatched, h⟩ := Nat.add_eq_zero_iff.mp h
    rw [UpdateMatchedTrackedObjects_withReid reid hmatched]
    apply Abort.bind_congr
    rintro ⟨tracked, dets, byIou⟩ hfirst
    have h := following_ok h hfirst
    obtain ⟨hfeature, h⟩ := Nat.add_eq_zero_iff.mp h
    simp only
    rw [FeatureMatch_withReid reid hfeature]
    apply Abort.bind_congr
    rintro ⟨pairs₁, dets₁⟩ hmatch
    have h := following_ok h hmatch
    obtain ⟨hmatched₁, h⟩ := Nat.add_eq_zero_iff.mp h
    simp only
    rw [UpdateMatchedTrackedObjects_withReid reid hmatched₁]
    apply Abort.bind_congr
    rintro ⟨tracked₁, dets₂, byFeature⟩ hsecond
    have h := following_ok h hsecond
    show (UpdateUnMatchedTrackedObjectsStatus P _ _ _ >>= _) = _
    apply Abort.bind_congr
    rintro ⟨tracked₂, expired⟩ hlost
    have h := following_ok h hlost
    obtain ⟨hfeature₁, h⟩ := Nat.add_eq_zero_iff.mp h
    simp only
    rw [FeatureMatch_withReid reid hfeature₁]
    apply Abort.bind_congr
    rintro ⟨pairs₂, dets₃⟩ hmatch₁
    have h := following_ok h hmatch₁
    have hexpired : UpdateMatchedExpiredObjects (P.withReid reid) inp.current pairs₂ expired dets₃
        tracked₂ = UpdateMatchedExpiredObjects P inp.current pairs₂ expired dets₃ tracked₂ :=
      congrArg (· >>= _) (UpdateMatchedTrackedObjects_withReid reid h)
    simp only
    rw [hexpired]
    rfl

end

/-! ## Blocked detections -/

/-- The box of the detection is not above the threshold of the extraction. -/
def Blocked (P : Setup K) (cur : CurrentFrame) (d : PersonObject K) : Prop :=
  bodyAreaAbove cur d P.bbox_area_extract_feature_thresh = false

/-- No feature is stored. -/
def Featureless (o : PersonObject K) : Prop := o.feature_messages = []

variable {P : Setup K} {cur : CurrentFrame}

/-- Nothing is counted after a call, whatever it returns. -/
theorem following_eq_zero {α : Type} {x : Except Abort α} {f : α → Nat}
    (h : ∀ a, x = .ok a → f a = 0) : following x f = 0 := by
  cases x with
  | error e => rfl
  | ok a => exact h a rfl

/-- A flag changes no box. -/
theorem Blocked.mark {d : PersonObject K} (h : Blocked P cur d) : Blocked P cur d.mark := h

/-- The test on the area stands before the extraction of a match, -/
theorem statusReids_of_blocked {o d : PersonObject K} (h : Blocked P cur d) :
    statusReids P cur o d = 0 := by
  have harea : bodyAreaAbove cur d.mark P.bbox_area_extract_feature_thresh = false := h
  simp [statusReids, harea]

/-- which is left out with everything it would store. -/
theorem storeFeature_of_blocked {o d : PersonObject K} (h : Blocked P cur d) :
    storeFeature P cur o d = .ok (o, d) := by
  rw [Blocked] at h
  simp [storeFeature, h]

/-- **A matched object takes a blocked detection over without its feature.** -/
theorem UpdateMatchedObjectStatus_of_blocked {o d : PersonObject K} (h : Blocked P cur d)
    (ho : Featureless o) :
    ∃ o', UpdateMatchedObjectStatus P cur o d = .ok (o', d.mark) ∧ Featureless o' := by
  have hface : ∀ o₁ d₁ : PersonObject K,
      (takeFace P o₁ d₁).feature_messages = o₁.feature_messages := by
    intro o₁ d₁
    unfold takeFace
    split
    · rfl
    · rfl
  unfold UpdateMatchedObjectStatus
  by_cases hbody : d.mark.is_current_body_detected = true
  · simp only [hbody, if_true, storeFeature_of_blocked h.mark]
    refine ⟨_, rfl, ?_⟩
    exact (hface _ _).trans ho
  · simp only [hbody]
    refine ⟨_, rfl, ?_⟩
    exact (hface _ _).trans ho

/-- **A pass over blocked detections** extracts nothing and stores nothing. -/
theorem UpdateMatchedTrackedObjects_of_blocked : ∀ (match_pairs : List MatchPair)
    {ts ds : List (PersonObject K)}, (∀ o ∈ ts, Featureless o) →
      (∀ d ∈ ds, Blocked P cur d ∧ Featureless d) →
      matchedReids P cur match_pairs ts ds = 0 ∧
        ∀ r, UpdateMatchedTrackedObjects P cur match_pairs ts ds = .ok r →
          (∀ o ∈ r.1, Featureless o) ∧ ∀ d ∈ r.2.1, Blocked P cur d ∧ Featureless d := by
  intro match_pairs
  induction match_pairs with
  | nil =>
    intro ts ds hts hds
    refine ⟨rfl, fun r hr => ?_⟩
    obtain rfl : (ts, ds, []) = r := Except.ok.inj hr
    exact ⟨hts, hds⟩
  | cons p match_pairs ih =>
    intro ts ds hts hds
    unfold matchedReids UpdateMatchedTrackedObjects
    cases ho : ts[p.i_index]? with
    -- an index outside its vector ends the pass before anything is extracted
    | none => exact ⟨rfl, fun r hr => absurd hr (by simp)⟩
    | some o =>
      cases hd : ds[p.j_index]? with
      | none => exact ⟨rfl, fun r hr => absurd hr (by simp)⟩
      | some d =>
        obtain ⟨hblocked, hplain⟩ := hds d (List.mem_of_getElem? hd)
        obtain ⟨o', hstatus, ho'⟩ :=
          UpdateMatchedObjectStatus_of_blocked hblocked (hts o (List.mem_of_getElem? ho))
        obtain ⟨hzero, hnext⟩ :=
          ih (forall_mem_set hts ho') (forall_mem_set hds ⟨hblocked.mark, hplain⟩)
        simp only [hstatus]
        refine ⟨?_, fun r hr => ?_⟩
        -- the pair extracts nothing, and what is put back is as plain as before
        · show statusReids P cur o d + matchedReids P cur match_pairs _ _ = 0
          rw [statusReids_of_blocked hblocked, hzero]
        · obtain ⟨r₁, hr₁, hr⟩ := Abort.bind_eq_ok hr
          obtain rfl : (o', d.mark) = r₁ := Except.ok.inj hr₁
          obtain ⟨r₂, hr₂, hr⟩ := Abort.bind_eq_ok hr
          obtain rfl := Except.ok.inj hr
          exact hnext r₂ hr₂

/-- **`FeatureMatch` on blocked detections** returns before it fills its table. -/
theorem FeatureMatch_of_blocked (ts : List (PersonObject K)) {ds : List (PersonObject K)}
    (hds : ∀ d ∈ ds, Blocked P cur d ∧ Featureless d) :
    featureReids P cur ts ds .body = 0 ∧ FeatureMatch P cur ts ds .body = .ok ([], ds) := by
  have hnone : indexesWhere (fun d : PersonObject K => !d.is_current_frame_matched_or_new &&
      d.detected .body && (BBoxType.body = .face ||
        bodyAreaAbove cur d P.bbox_area_extract_feature_thresh)) ds = [] := by
    apply List.eq_nil_iff_forall_not_mem.mpr
    intro j hj
    obtain ⟨d, hd, htest⟩ := mem_indexesWhere.mp hj
    have hblocked : bodyAreaAbove cur d P.bbox_area_extract_feature_thresh = false :=
      (hds d (List.mem_of_getElem? hd)).1
    rw [hblocked] at htest
    exact absurd htest (by simp)
  unfold featureReids FeatureMatch
  simp only [hnone, List.isEmpty_nil, Bool.or_true, if_true]
  exact ⟨trivial, trivial⟩

/-- Without pairs only the objects that were marked before move. -/
theorem UpdateMatchedExpiredObjects_nil {es ds ts : List (PersonObject K)} :
    UpdateMatchedExpiredObjects P cur [] es ds ts =
      .ok (ts ++ es.filter (matchedVerdict · = .move), es.filter (matchedVerdict · = .keep), ds, []) := by
  show (Abort.ofFuel (eraseLoop matchedVerdict (es.length + 1) 0 es ts) >>= fun r =>
    pure (r.2, r.1, ds, ([] : List (Attachment K)))) = _
  rw [eraseLoop_eq]
  rfl

omit [Field K] [LinearOrder K] in
/-- New objects are detections of the frame. -/
theorem featureless_created {ds : List (PersonObject K)} (hds : ∀ d ∈ ds, Featureless d)
    {global_id : UInt64} {o : PersonObject K}
    (ho : o ∈ (AddUnMatchedCurDetectedObjects ds global_id).2.1) : Featureless o := by
  have hmem : o.sighting ∈ (free ds).map (·.sighting) := by
    rw [← (AddUnMatchedCurDetectedObjects_spec ds global_id).created_sighting]
    exact Multiset.mem_map.mpr ⟨o, ho, rfl⟩
  obtain ⟨d, hd, hsame⟩ := Multiset.mem_map.mp hmem
  have hfeatures : d.feature_messages = o.feature_messages :=
    (congrArg PersonObject.feature_messages hsame :)
  exact hfeatures.symm.trans (hds d (Multiset.mem_filter.mp hd).1)

omit [Field K] [LinearOrder K] in
/-- The loop that starts a frame leaves the features alone. -/
theorem featureless_startFrame {ts : List (PersonObject K)} (hts : ∀ o ∈ ts, Featureless o) :
    ∀ o ∈ ts.map startFrame, Featureless o := by
  intro o ho
  obtain ⟨o₀, ho₀, rfl⟩ := List.mem_map.mp ho
  exact hts o₀ ho₀

section

variable {s : Tracker K} {inp : Input K}

/-- `Update` does not come to `sdk::reid` in a frame of blocked detections. -/
theorem updateReids_of_blocked (hs : ∀ o ∈ everyone s, Featureless o)
    (hdets : ∀ d ∈ inp.cur_detected_person_objects, Blocked P inp.current d ∧ Featureless d) :
    updateReids P s inp = 0 := by
  have hstart := featureless_startFrame fun o ho => hs o (mem_everyone.mpr (Or.inl ho))
  unfold updateReids
  simp only
  split
  · rfl
  · apply following_eq_zero
    intro pairs _
    obtain ⟨hzero, hnext⟩ :=
      UpdateMatchedTrackedObjects_of_blocked pairs hstart hdets
    rw [hzero, zero_add]
    apply following_eq_zero
    intro r₁ hr₁
    obtain ⟨_, hds⟩ := hnext r₁ hr₁
    obtain ⟨hzero₁, hmatch₁⟩ := FeatureMatch_of_blocked r₁.1 hds
    rw [hzero₁, hmatch₁, zero_add]
    -- without pairs the next pass does nothing
    show 0 + following (UpdateUnMatchedTrackedObjectsStatus P inp.frame_id r₁.1
      s.expiredPersonObjects) _ = 0
    rw [zero_add]
    apply following_eq_zero
    intro r₄ _
    obtain ⟨hzero₂, hmatch₂⟩ := FeatureMatch_of_blocked r₄.2 hds
    show featureReids P inp.current r₄.2 r₁.2.1 .body +
      following (FeatureMatch P inp.current r₄.2 r₁.2.1 .body) _ = 0
    rw [hzero₂, hmatch₂]
    rfl

/-- Nobody has a feature after a frame of blocked detections. -/
theorem Update_featureless (hs : ∀ o ∈ everyone s, Featureless o)
    (hdets : ∀ d ∈ inp.cur_detected_person_objects, Blocked P inp.current d ∧ Featureless d) :
    ∀ r, Update P s inp = .ok r → ∀ o ∈ everyone r.tracker, Featureless o := by
  have hstart := featureless_startFrame fun o ho => hs o (mem_everyone.mpr (Or.inl ho))
  have hexpired : ∀ o ∈ s.expiredPersonObjects, Featureless o :=
    fun o ho => hs o (mem_everyone.mpr (Or.inr ho))
  intro r h
  unfold Update at h
  simp only at h
  split at h
  · exact absurd h (by simp)
  · obtain ⟨pairs, _, h⟩ := Abort.bind_eq_ok h
    obtain ⟨r₁, hr₁, h⟩ := Abort.bind_eq_ok h
    obtain ⟨_, hnext⟩ :=
      UpdateMatchedTrackedObjects_of_blocked pairs hstart hdets
    obtain ⟨hts, hds⟩ := hnext r₁ hr₁
    rw [(FeatureMatch_of_blocked r₁.1 hds).2] at h
    obtain ⟨r₂, hr₂, h⟩ := Abort.bind_eq_ok h
    obtain rfl := Except.ok.inj hr₂
    obtain ⟨r₃, hr₃, h⟩ := Abort.bind_eq_ok h
    obtain rfl : (r₁.1, r₁.2.1, []) = r₃ := Except.ok.inj hr₃
    rw [UpdateUnMatchedTrackedObjectsStatus_eq] at h
    obtain ⟨r₄, hr₄, h⟩ := Abort.bind_eq_ok h
    obtain rfl := Except.ok.inj hr₄
    rw [(FeatureMatch_of_blocked _ hds).2] at h
    obtain ⟨r₅, hr₅, h⟩ := Abort.bind_eq_ok h
    obtain rfl := Except.ok.inj hr₅
    rw [UpdateMatchedExpiredObjects_nil] at h
    obtain ⟨r₆, hr₆, h⟩ := Abort.bind_eq_ok h
    obtain rfl := Except.ok.inj hr₆
    rw [UpdateUnMatchedExpiredObjectsStatus_eq] at h
    obtain ⟨r₇, hr₇, h⟩ := Abort.bind_eq_ok h
    obtain rfl := Except.ok.inj hr₇
    obtain rfl := Except.ok.inj h
    -- every object of the new state was tracked, expired or is new
    have hwaiting : ∀ o ∈ s.expiredPersonObjects ++
        r₁.1.filter (trackedVerdict P inp.frame_id · = .move), Featureless o := by
      intro o ho
      rcases List.mem_append.mp ho with ho | ho
      · exact hexpired o ho
      · exact hts o (List.mem_of_mem_filter ho)
    intro o ho
    rcases mem_everyone.mp ho with ho | ho
    · obtain ⟨o₀, ho₀, rfl⟩ := List.mem_map.mp ho
      have hsame := (sameTrack_accumulate P inp.current o₀).feature_messages
      refine hsame.trans ?_
      rcases List.mem_append.mp ho₀ with ho₀ | ho₀
      · rcases List.mem_append.mp ho₀ with ho₀ | ho₀
        · exact hts o₀ (List.mem_of_mem_filter ho₀)
        · exact hwaiting o₀ (List.mem_of_mem_filter ho₀)
      · exact featureless_created (fun d hd => (hds d hd).2) ho₀
    · exact hwaiting o (List.mem_of_mem_filter (List.mem_of_mem_filter ho))

end

/-- **A frame of blocked detections**: `Update` does not come to `sdk::reid`, and nobody has a
feature afterwards.

The three passes are gone through one after the other: the first matches by overlap and stores no
feature, so that the two feature passes find nobody to compare with and do nothing. -/
theorem Update_of_blocked {s : Tracker K} {inp : Input K}
    (hs : ∀ o ∈ everyone s, Featureless o)
    (hdets : ∀ d ∈ inp.cur_detected_person_objects, Blocked P inp.current d ∧ Featureless d) :
    updateReids P s inp = 0 ∧
      ∀ r, Update P s inp = .ok r → ∀ o ∈ everyone r.tracker, Featureless o :=
  ⟨updateReids_of_blocked hs hdets, Update_featureless hs hdets⟩

end EdgeFrame.Track
