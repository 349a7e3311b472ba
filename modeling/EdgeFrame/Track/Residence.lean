/-
# EdgeFrame.Track.Residence -- the time of residence

`AccumulateDuration` credits a person that is in the frame with the time since it was
last found to be large enough there, if that was few enough frames ago. All of it is
unsigned arithmetic on readings of the wall clock. As long as the clock has not been set
back behind the last reading of a person that is credited, or has been, the credits of
an object telescope, and the time of residence is bounded by what the clock has run. A
step back under a credit makes the difference wrap around; one between two credits
makes them count the same time twice.

`Dated` is the invariant: the record of an object is one of the readings, and an earlier
one is at least as far back as the object has been credited. `accumulate_cases` says what
the loop does to an object (nothing, a new record, or a new record with a credit), and
`Dated.counted` that each of them keeps it. A match does not come near it: what the passes
do to an object leaves the stay alone (`Updates.sameStay`).

Objects come and go during a run, so that a turn is followed through `Carries`: whoever is
there afterwards was carried over by the turn or is new, and starts without a record.
-/
import EdgeFrame.Track.Runs
import Mathlib

namespace EdgeFrame.Track

open Lib

variable {K : Type}

/-! ## What residence time is meant to be -/

/-- The largest of these readings of the clock minus the smallest. -/
def span (readings : List UInt64) : Nat :=
  (readings.map UInt64.toNat).max?.getD 0 - (readings.map UInt64.toNat).min?.getD 0

/-- The readings of the clock in these turns. -/
def readings (turns : List (Turn K)) : List UInt64 := turns.map (·.input.timestamp)

/-- A detection as its constructor leaves it. -/
def Built [Field K] (d : PersonObject K) : Prop :=
  ∃ u face_bbox body_bbox p_id, d = PersonObject.new u face_bbox body_bbox p_id

variable [Field K] [LinearOrder K]

/-- The condition in the loop of `AccumulateDuration`. -/
def resident (P : Setup K) (cur : CurrentFrame) (o : PersonObject K) : Bool :=
  o.is_current_frame_matched_or_new && o.is_current_body_detected &&
    bodyAreaAbove cur o P.body_residence_area_thresh

/-- The test before the subtraction: few enough frames since the object was last resident.

The frame of the last record is compared, not its time. -/
def withinInterval (P : Setup K) (cur : CurrentFrame) (o : PersonObject K) : Bool :=
  (cur.cur_process_frame_id_ - o.previous_body_bbox_area_bigger_than_thresh_frame_id).toNat <
    asUnsigned P.body_bbox_area_bigger_than_thresh_frame_interval

/-- `o'` is what a turn has made of the object `o`.

Whoever is not matched is not touched but for the marks of the frame; a matched object has been
through the loop. -/
inductive Carries (P : Setup K) (t : Turn K) (o : PersonObject K) : PersonObject K → Prop where
  | expired : Carries P t o o
  | tracked : Carries P t o (startFrame o)
  | matched (a : Attachment K) (ha : a ∈ t.result.attached)
      (hobject : a.object = o ∨ a.object = startFrame o) :
      Carries P t o (accumulate P t.input.current a.updated)

/-- The time of residence after the turn `t` from `s` to `s'`: it has decreased for nobody, and is no
longer than the clock has run. -/
structure TimeKept (P : Setup K) (turns : List (Turn K)) (s : Tracker K) (t : Turn K)
    (s' : Tracker K) : Prop where
  never_decreases : ∀ o ∈ everyone s, ∀ o' ∈ everyone s', Carries P t o o' →
    o.duration ≤ o'.duration
  bounded : ∀ o ∈ everyone s', o.duration.toNat ≤ span (readings (turns ++ [t]))

/-- The clock is not behind the record of an object that the turn finds resident, where it counts:
where the object is credited with the difference, or has been credited before. A record that goes
back without a credit makes the next credits count the same time again.

It asks nothing of objects that the loop passes over, and nothing of a first record. -/
def Turn.ClockKept (P : Setup K) (t : Turn K) : Prop :=
  ∀ a ∈ t.result.attached, resident P t.input.current a.updated = true →
    a.object.is_previous_frame_body_bbox_area_bigger_than_thresh = true →
    withinInterval P t.input.current a.object = true ∨ a.object.duration ≠ 0 →
      a.object.previous_body_bbox_area_bigger_than_thresh_timestamp ≤ t.input.timestamp

instance (P : Setup K) (t : Turn K) : Decidable (t.ClockKept P) :=
  inferInstanceAs (Decidable (∀ a ∈ t.result.attached, _ → _ → _ → _))

/-! ## A match leaves the time of residence alone -/

/-- The members that only `AccumulateDuration` writes. -/
structure SameStay (o o' : PersonObject K) : Prop where
  duration : o'.duration = o.duration
  flag : o'.is_previous_frame_body_bbox_area_bigger_than_thresh =
    o.is_previous_frame_body_bbox_area_bigger_than_thresh
  timestamp : o'.previous_body_bbox_area_bigger_than_thresh_timestamp =
    o.previous_body_bbox_area_bigger_than_thresh_timestamp
  frame_id : o'.previous_body_bbox_area_bigger_than_thresh_frame_id =
    o.previous_body_bbox_area_bigger_than_thresh_frame_id

omit [Field K] [LinearOrder K] in
/-- Two steps that leave the stay alone. -/
theorem SameStay.trans {o o' o'' : PersonObject K} (h : SameStay o o') (h' : SameStay o' o'') :
    SameStay o o'' :=
  ⟨h'.duration.trans h.duration, h'.flag.trans h.flag, h'.timestamp.trans h.timestamp,
    h'.frame_id.trans h.frame_id⟩

omit [Field K] [LinearOrder K] in
/-- Starting a frame does. -/
theorem sameStay_startFrame (o : PersonObject K) : SameStay o (startFrame o) :=
  ⟨rfl, rfl, rfl, rfl⟩

omit [LinearOrder K] in
/-- Taking over a face does. -/
theorem sameStay_takeFace {P : Setup K} {o d : PersonObject K} : SameStay o (takeFace P o d) := by
  obtain ⟨detected, trajectory, h⟩ := takeFace_spec (P := P) (o := o) (d := d)
  rw [h]
  exact ⟨rfl, rfl, rfl, rfl⟩

/-- And so does all of a match. -/
theorem UpdateMatchedObjectStatus_sameStay {P : Setup K} {cur : CurrentFrame}
    {o d o' d' : PersonObject K} (h : UpdateMatchedObjectStatus P cur o d = .ok (o', d')) :
    SameStay o o' := by
  unfold UpdateMatchedObjectStatus at h
  simp only at h
  split at h
  · obtain ⟨⟨o₁, d₁⟩, hstore, h⟩ := Abort.bind_eq_ok h
    obtain ⟨⟨message, messages, rfl⟩, -⟩ := storeFeature_spec hstore
    cases h
    refine SameStay.trans ?_ sameStay_takeFace
    exact ⟨rfl, rfl, rfl, rfl⟩
  · cases h
    refine SameStay.trans ?_ sameStay_takeFace
    exact ⟨rfl, rfl, rfl, rfl⟩

/-- The attachments of a pass are calls of `UpdateMatchedObjectStatus`. -/
theorem UpdateMatchedTrackedObjects_calls {P : Setup K} {cur : CurrentFrame}
    {match_pairs : List MatchPair} : ∀ {ts ds ts' ds' : List (PersonObject K)}
      {done : List (Attachment K)},
      UpdateMatchedTrackedObjects P cur match_pairs ts ds = .ok (ts', ds', done) →
      ∀ a ∈ done, ∃ d', UpdateMatchedObjectStatus P cur a.object a.detection =
        .ok (a.updated, d') := by
  induction match_pairs with
  | nil =>
    intro ts ds ts' ds' done h a ha
    cases h
    cases ha
  | cons p match_pairs ih =>
    intro ts ds ts' ds' done h a ha
    unfold UpdateMatchedTrackedObjects at h
    split at h
    · rename_i o d _ _
      obtain ⟨⟨o', d'⟩, hstatus, h⟩ := Abort.bind_eq_ok h
      obtain ⟨⟨ts₁, ds₁, done₁⟩, hrest, h⟩ := Abort.bind_eq_ok h
      cases h
      rcases List.mem_cons.mp ha with rfl | ha
      · exact ⟨d', hstatus⟩
      · exact ih hrest a ha
    · cases h

/-- **The attachments of an update** are calls of `UpdateMatchedObjectStatus`. -/
theorem Update_calls {P : Setup K} {s : Tracker K} {inp : Input K} {r : Result K}
    (h : Update P s inp = .ok r) : ∀ a ∈ r.attached,
      ∃ d', UpdateMatchedObjectStatus P inp.current a.object a.detection = .ok (a.updated, d') := by
  unfold Update at h
  simp only at h
  split at h
  · cases h
  obtain ⟨pairs₁, -, h⟩ := Abort.bind_eq_ok h
  obtain ⟨⟨ts₁, ds₁, byIou⟩, hpass₁, h⟩ := Abort.bind_eq_ok h
  obtain ⟨⟨pairs₂, ds₂⟩, -, h⟩ := Abort.bind_eq_ok h
  obtain ⟨⟨ts₂, ds₃, byFeature⟩, hpass₂, h⟩ := Abort.bind_eq_ok h
  obtain ⟨⟨ts₃, es₁⟩, -, h⟩ := Abort.bind_eq_ok h
  obtain ⟨⟨pairs₃, ds₄⟩, -, h⟩ := Abort.bind_eq_ok h
  obtain ⟨⟨ts₄, es₃, ds₅, byExpired⟩, hpass₃, h⟩ := Abort.bind_eq_ok h
  obtain ⟨⟨es₄, leaves⟩, -, h⟩ := Abort.bind_eq_ok h
  cases h
  -- the pass over the expired objects is the same loop again
  unfold UpdateMatchedExpiredObjects at hpass₃
  obtain ⟨⟨es, ds, done⟩, hloop, hpass₃⟩ := Abort.bind_eq_ok hpass₃
  obtain ⟨⟨es', ts'⟩, -, hpass₃⟩ := Abort.bind_eq_ok hpass₃
  cases hpass₃
  intro a ha
  rcases List.mem_append.mp ha with ha | ha
  · rcases List.mem_append.mp ha with ha | ha
    · exact UpdateMatchedTrackedObjects_calls hpass₁ a ha
    · exact UpdateMatchedTrackedObjects_calls hpass₂ a ha
  · exact UpdateMatchedTrackedObjects_calls hloop a ha

/-- A match leaves the time of residence alone. -/
theorem Updates.sameStay {P : Setup K} {s s' : Tracker K} {t : Turn K} (h : Updates P s t s') :
    ∀ a ∈ t.result.attached, SameStay a.object a.updated := by
  intro a ha
  obtain ⟨d', hcall⟩ := Update_calls h.1 a ha
  exact UpdateMatchedObjectStatus_sameStay hcall

/-! ## One credit -/

/-- The record of a person, if it has one, goes back to one reading of the clock and ends at
another, and what has been credited lies between the two. -/
structure Dated (readings : List UInt64) (o : PersonObject K) : Prop where
  recorded : o.is_previous_frame_body_bbox_area_bigger_than_thresh = true →
    o.previous_body_bbox_area_bigger_than_thresh_timestamp ∈ readings ∧
      ∃ first ∈ readings, first.toNat + o.duration.toNat ≤
        o.previous_body_bbox_area_bigger_than_thresh_timestamp.toNat
  unrecorded : o.is_previous_frame_body_bbox_area_bigger_than_thresh = false → o.duration = 0

omit [Field K] [LinearOrder K] in
/-- It is about the stay only. -/
theorem Dated.same {l : List UInt64} {o o' : PersonObject K} (h : Dated l o) (hsame : SameStay o o') :
    Dated l o' := by
  constructor
  · rw [hsame.flag, hsame.timestamp, hsame.duration]
    exact h.recorded
  · rw [hsame.flag, hsame.duration]
    exact h.unrecorded

omit [Field K] [LinearOrder K] in
/-- Further readings do not undate anybody. -/
theorem Dated.later {l : List UInt64} {o : PersonObject K} (h : Dated l o) (now : UInt64) :
    Dated (l ++ [now]) o := by
  refine ⟨?_, h.unrecorded⟩
  intro hflag
  obtain ⟨hmem, first, hfirst, hle⟩ := h.recorded hflag
  exact ⟨List.mem_append_left _ hmem, first, List.mem_append_left _ hfirst, hle⟩

omit [Field K] [LinearOrder K] in
/-- What has been credited is bounded by what the clock has run. -/
theorem Dated.duration_le {l : List UInt64} {o : PersonObject K} (h : Dated l o) :
    o.duration.toNat ≤ span l := by
  cases hflag : o.is_previous_frame_body_bbox_area_bigger_than_thresh with
  | false =>
    rw [h.unrecorded hflag]
    exact Nat.zero_le _
  | true =>
    obtain ⟨hmem, first, hfirst, hle⟩ := h.recorded hflag
    have hmin := List.min?_getD_le_of_mem (k := 0) (List.mem_map_of_mem (f := UInt64.toNat) hfirst)
    have hmax := List.le_max?_getD_of_mem (k := 0) (List.mem_map_of_mem (f := UInt64.toNat) hmem)
    unfold span
    omega

/-- Without a step back of the clock a credit adds what the clock has run, and does not wrap.

The sum stays below the latest reading, which is a 64-bit number. -/
theorem credit_toNat {duration previous now first : UInt64} (hclock : previous ≤ now)
    (hle : first.toNat + duration.toNat ≤ previous.toNat) :
    (duration + (now - previous)).toNat = duration.toNat + (now.toNat - previous.toNat) := by
  have hnow := UInt64.toNat_lt now
  have hclock' := UInt64.le_iff_toNat_le.mp hclock
  rw [UInt64.toNat_add, UInt64.toNat_sub_of_le _ _ hclock]
  exact Nat.mod_eq_of_lt (by omega)

/-- **One pass through the loop of `AccumulateDuration`**: nothing, or a new record, with or without
a credit for the time since the last one.

The conditions of the branches stand with the cases, so that the proofs after it need not open the
loop. -/
theorem accumulate_cases (P : Setup K) (cur : CurrentFrame) (o : PersonObject K) :
    accumulate P cur o = o ∨ resident P cur o = true ∧
      (accumulate P cur o).is_previous_frame_body_bbox_area_bigger_than_thresh = true ∧
      (accumulate P cur o).previous_body_bbox_area_bigger_than_thresh_timestamp =
        cur.cur_process_frame_timestamp_ ∧
      ((accumulate P cur o).duration = o.duration ∨
        o.is_previous_frame_body_bbox_area_bigger_than_thresh = true ∧ withinInterval P cur o = true ∧
          (accumulate P cur o).duration = o.duration + (cur.cur_process_frame_timestamp_ -
            o.previous_body_bbox_area_bigger_than_thresh_timestamp)) := by
  cases hresident : resident P cur o with
  | false =>
    left
    exact if_neg (Bool.eq_false_iff.mp hresident)
  | true =>
    right
    have hcounts : accumulate P cur o = _ := if_pos hresident
    rw [hcounts]
    refine ⟨rfl, rfl, rfl, ?_⟩
    dsimp only
    split
    · rename_i hcredit
      rw [Bool.and_eq_true] at hcredit
      exact Or.inr ⟨hcredit.1, hcredit.2, rfl⟩
    · exact Or.inl rfl

/-- **The step**: when the clock is not behind the record of a person that is credited, or has been
before, its time of residence does not decrease, and stays within what the clock has run. Whoever has
not been credited yet may start again at an earlier reading.

The three cases are those of `accumulate_cases`. With a credit the first reading stays the same and
the record moves to the present one, by as much as is credited. -/
theorem Dated.counted {l : List UInt64} {o : PersonObject K} (P : Setup K) (cur : CurrentFrame)
    (h : Dated l o) (hclock : resident P cur o = true →
      o.is_previous_frame_body_bbox_area_bigger_than_thresh = true →
      withinInterval P cur o = true ∨ o.duration ≠ 0 →
        o.previous_body_bbox_area_bigger_than_thresh_timestamp ≤ cur.cur_process_frame_timestamp_) :
    Dated (l ++ [cur.cur_process_frame_timestamp_]) (accumulate P cur o) ∧
      o.duration ≤ (accumulate P cur o).duration := by
  have hlast : cur.cur_process_frame_timestamp_ ∈ l ++ [cur.cur_process_frame_timestamp_] :=
    List.mem_append_right _ List.mem_cons_self
  rcases accumulate_cases P cur o with hsame | ⟨hresident, hflag', htime, hduration⟩
  · rw [hsame]
    exact ⟨h.later _, UInt64.le_refl _⟩
  · have hrecorded : ∀ d : UInt64, (accumulate P cur o).duration = d →
        (∃ first ∈ l ++ [cur.cur_process_frame_timestamp_],
          first.toNat + d.toNat ≤ cur.cur_process_frame_timestamp_.toNat) →
        Dated (l ++ [cur.cur_process_frame_timestamp_]) (accumulate P cur o) := by
      rintro d rfl hfirst
      refine ⟨fun _ => ?_, fun hnot => ?_⟩
      · rw [htime]
        exact ⟨hlast, hfirst⟩
      · rw [hflag'] at hnot
        cases hnot
    cases hflag : o.is_previous_frame_body_bbox_area_bigger_than_thresh with
    | false =>
      -- the first record: nothing has been credited yet
      have hzero := h.unrecorded hflag
      rcases hduration with hduration | ⟨htrue, -⟩
      · refine ⟨hrecorded 0 (hduration.trans hzero) ⟨_, hlast, le_refl _⟩, ?_⟩
        exact UInt64.le_of_eq hduration.symm
      · rw [hflag] at htrue
        cases htrue
    | true =>
      obtain ⟨-, first, hfirst, hle⟩ := h.recorded hflag
      have hmem : first ∈ l ++ [cur.cur_process_frame_timestamp_] := List.mem_append_left _ hfirst
      rcases hduration with hduration | ⟨-, hinterval, hduration⟩
      · refine ⟨hrecorded _ hduration ?_, UInt64.le_of_eq hduration.symm⟩
        by_cases hzero : o.duration = 0
        · exact ⟨_, hlast, by rw [hzero]; exact le_refl _⟩
        · have hnow := UInt64.le_iff_toNat_le.mp (hclock hresident hflag (Or.inr hzero))
          exact ⟨first, hmem, hle.trans hnow⟩
      · have hnow := hclock hresident hflag (Or.inl hinterval)
        have hnow' := UInt64.le_iff_toNat_le.mp hnow
        have hcredit := credit_toNat hnow hle
        refine ⟨hrecorded _ hduration ⟨first, hmem, ?_⟩, ?_⟩
        · rw [hcredit]
          omega
        · rw [hduration, UInt64.le_iff_toNat_le, hcredit]
          exact Nat.le_add_right _ _

/-! ## A turn -/

section

variable {P : Setup K} {s : Tracker K} {t : Turn K} {L : Ledger K}

/-- An object of a matched pair was there before the turn. -/
theorem Balanced.object_was (h : Balanced P s t.input t.result L) {a : Attachment K}
    (ha : a ∈ t.result.attached) : ∃ o ∈ everyone s, a.object = o ∨ a.object = startFrame o := by
  rw [h.attached] at ha
  have haged : ∀ o ∈ L.aged, ∃ o₀ ∈ everyone s, o = o₀ ∨ o = startFrame o₀ := by
    intro o ho
    obtain ⟨o₀, ho₀, rfl⟩ := h.aged_was_tracked ho
    exact ⟨o₀, mem_everyone.mpr (Or.inl ho₀), Or.inr rfl⟩
  rcases List.mem_append.mp ha with ha | ha
  · obtain ⟨o, ho, he⟩ := h.was_tracked (o := a.object)
      (by simp only [Multiset.mem_add, Multiset.mem_map]; exact Or.inl (Or.inl (Or.inl ⟨a, ha, rfl⟩)))
    exact ⟨o, mem_everyone.mpr (Or.inl ho), Or.inr he⟩
  · rcases h.was_expired (o := a.object)
      (by simp only [Multiset.mem_add, Multiset.mem_map]; exact Or.inl (Or.inl ⟨a, ha, rfl⟩)) with
      ho | ho
    · exact ⟨a.object, mem_everyone.mpr (Or.inr ho), Or.inl rfl⟩
    · exact haged _ ho

/-- **Where an object comes from**: the turn carried it over or created it. -/
theorem Balanced.carried (h : Balanced P s t.input t.result L) {o' : PersonObject K}
    (ho' : o' ∈ everyone t.result.tracker) : (∃ o ∈ everyone s, Carries P t o o') ∨
      ∃ c ∈ t.result.created, o' = accumulate P t.input.current c := by
  rcases mem_everyone.mp ho' with ho' | ho'
  · rcases h.mem_tracked.mp ho' with ho' | ⟨a, ha, rfl⟩ | ⟨c, hc, rfl⟩
    · obtain ⟨o, ho, rfl⟩ := h.kept_was_tracked ho'
      exact Or.inl ⟨o, mem_everyone.mpr (Or.inl ho), .tracked⟩
    · obtain ⟨o, ho, hobject⟩ := h.object_was ha
      exact Or.inl ⟨o, ho, .matched a ha hobject⟩
    · exact Or.inr ⟨c, hc, rfl⟩
  · rcases h.was_expired (o := o') (by simp [h.mem_expired.mp ho']) with ho | ho
    · exact Or.inl ⟨o', mem_everyone.mpr (Or.inr ho), .expired⟩
    · obtain ⟨o, hmem, rfl⟩ := h.aged_was_tracked ho
      exact Or.inl ⟨o, mem_everyone.mpr (Or.inl hmem), .tracked⟩

/-- What a turn carries over stays dated, and its time of residence does not decrease. -/
theorem Carries.dated {l : List UInt64} {o o' : PersonObject K} (h : Carries P t o o')
    (hdated : Dated l o) (hsame : ∀ a ∈ t.result.attached, SameStay a.object a.updated)
    (hclock : t.ClockKept P) :
    Dated (l ++ [t.input.timestamp]) o' ∧ o.duration ≤ o'.duration := by
  cases h with
  | expired => exact ⟨hdated.later _, UInt64.le_refl _⟩
  | tracked => exact ⟨(hdated.same (sameStay_startFrame o)).later _, UInt64.le_refl _⟩
  | matched a ha hobject =>
    have hstay : SameStay o a.object := by
      rcases hobject with hobject | hobject
      · rw [hobject]
        exact ⟨rfl, rfl, rfl, rfl⟩
      · rw [hobject]
        exact sameStay_startFrame o
    have hboth := hstay.trans (hsame a ha)
    rw [← hboth.duration]
    refine (hdated.same hboth).counted P t.input.current ?_
    intro hresident hflag hcounts
    rw [withinInterval, (hsame a ha).frame_id, (hsame a ha).duration] at hcounts
    rw [(hsame a ha).flag] at hflag
    rw [(hsame a ha).timestamp]
    exact hclock a ha hresident hflag hcounts

/-- A new object is dated. -/
theorem Balanced.created_dated (h : Balanced P s t.input t.result L)
    (hnew : ∀ d ∈ t.input.cur_detected_person_objects, Built d) {c : PersonObject K}
    (hc : c ∈ t.result.created) (l : List UInt64) :
    Dated (l ++ [t.input.timestamp]) (accumulate P t.input.current c) := by
  obtain ⟨d, hd, hsight⟩ := h.created_seen hc
  obtain ⟨u, face_bbox, body_bbox, p_id, hbuilt⟩ := hnew d hd
  have hflag : d.is_previous_frame_body_bbox_area_bigger_than_thresh =
      c.is_previous_frame_body_bbox_area_bigger_than_thresh :=
    (congrArg PersonObject.is_previous_frame_body_bbox_area_bigger_than_thresh hsight :)
  have hduration : d.duration = c.duration := (congrArg PersonObject.duration hsight :)
  have hfresh : c.is_previous_frame_body_bbox_area_bigger_than_thresh = false := by
    rw [← hflag, hbuilt]
    rfl
  have hdated : Dated l c := by
    constructor
    · intro htrue
      rw [hfresh] at htrue
      cases htrue
    · intro _
      rw [← hduration, hbuilt]
      rfl
  refine (hdated.counted P t.input.current ?_).1
  intro _ htrue _
  rw [hfresh] at htrue
  cases htrue

end

/-! ## Runs -/

variable [IsStrictOrderedRing K]

/-- Everyone in a reachable state is dated.

By induction on the run: what is carried over by `Carries.dated`, what is new by
`Balanced.created_dated`. -/
theorem Run.dated {P : Setup K} {turns : List (Turn K)} {s : Tracker K}
    (h : Run P Tracker.init turns s)
    (hall : ∀ t ∈ turns, (∀ d ∈ t.input.cur_detected_person_objects, Built d) ∧ t.ClockKept P ∧
      ∀ a ∈ t.result.attached, SameStay a.object a.updated) :
    ∀ o ∈ everyone s, Dated (readings turns) o := by
  refine Run.history (H := fun turns s => ∀ o ∈ everyone s, Dated (readings turns) o) ?_ ?_ h hall
  · intro o ho
    cases (Multiset.notMem_zero o) ho
  · rintro turns s t L - ih ⟨hnew, hclock, hsame⟩ hL o' ho'
    have hreadings : readings (turns ++ [t]) = readings turns ++ [t.input.timestamp] := by
      rw [readings, List.map_append]
      rfl
    rw [hreadings]
    rcases hL.carried ho' with ⟨o, ho, hcarries⟩ | ⟨c, hc, rfl⟩
    · exact (hcarries.dated (ih o ho) hsame hclock).1
    · exact hL.created_dated hnew hc _

omit [IsStrictOrderedRing K] in
/-- The turns of a run leave the stays of their matches alone. -/
theorem Run.sameStay {P : Setup K} {turns : List (Turn K)} {s s' : Tracker K}
    (h : Run P s turns s') : ∀ t ∈ turns, ∀ a ∈ t.result.attached, SameStay a.object a.updated := by
  intro t ht
  obtain ⟨_, _, _, _, -, -, hupdates, -⟩ := Trace.of_mem h ht
  exact hupdates.sameStay

/-- **Residence time is bounded by real time** after every turn of a run in which the clock is never
behind the record of an object that is found resident and is credited, or has been. It rests on
`Dated`: from the first reading that was credited to the last record the clock has run as long as the
time of residence, and no credit wraps. -/
theorem Run.time_kept {P : Setup K} {turns : List (Turn K)} {s : Tracker K} {t : Turn K}
    {s' : Tracker K} (h : Run P Tracker.init turns s) (ht : Updates P s t s')
    (hnew : ∀ u ∈ turns ++ [t], ∀ d ∈ u.input.cur_detected_person_objects, Built d)
    (hclock : ∀ u ∈ turns ++ [t], u.ClockKept P) : TimeKept P turns s t s' := by
  have hrun : Run P Tracker.init (turns ++ [t]) s' := trace_snoc.mpr ⟨s, h, ht⟩
  have hsame := hrun.sameStay
  have hbefore := h.dated fun u hu =>
    ⟨hnew u (List.mem_append_left _ hu), hclock u (List.mem_append_left _ hu),
      hsame u (List.mem_append_left _ hu)⟩
  have hafter := hrun.dated fun u hu => ⟨hnew u hu, hclock u hu, hsame u hu⟩
  constructor
  · intro o ho o' _ hcarries
    exact (hcarries.dated (hbefore o ho) ht.sameStay (hclock t (by simp))).2
  · intro o ho
    exact (hafter o ho).duration_le

/-! ## A visitor and a clock -/

/-- A frame with a visitor who stands close enough to be resident. -/
def visit (timestamp frame_id : UInt64) : Input ℚ :=
  ⟨⟨540, 960, []⟩, timestamp, frame_id, [PersonObject.new ⟨0, 0, ⟨0, 0, 0⟩, ⟨0, 0, 0⟩, 0, 0⟩ none
    (some ⟨timestamp, frame_id, 9 / 10, ⟨100, 100, 200, 300⟩⟩) (-1)]⟩

/-- Whoever visits is as the constructor leaves it. -/
theorem visits_built (calls : List (UInt64 × UInt64)) {turns : List (Turn ℚ)}
    (hinputs : turns.map (·.input) = calls.map fun c => visit c.1 c.2) :
    ∀ u ∈ turns, ∀ d ∈ u.input.cur_detected_person_objects, Built d := by
  intro u hu d hd
  have hmem : u.input ∈ calls.map fun c => visit c.1 c.2 := hinputs ▸ List.mem_map_of_mem hu
  obtain ⟨c, -, hc⟩ := List.mem_map.mp hmem
  rw [← hc] at hd
  obtain rfl := List.mem_singleton.mp hd
  exact ⟨_, _, _, _, rfl⟩

/-- The last turn of a run that has one. -/
theorem Run.last_turn {turns : List (Turn ℚ)} {s' : Tracker ℚ}
    (hrun : Run scene Tracker.init turns s') (hsome : turns ≠ []) :
    ∃ before t s, turns = before ++ [t] ∧ Run scene Tracker.init before s ∧ Updates scene s t s' := by
  obtain ⟨s, hs, hstep⟩ := trace_snoc.mp
    (show Run scene Tracker.init (turns.dropLast ++ [turns.getLast hsome]) s' from
      (List.dropLast_append_getLast hsome).symm ▸ hrun)
  exact ⟨_, _, s, (List.dropLast_append_getLast hsome).symm, hs, hstep⟩

/-- Someone has stayed longer than the clock has run. -/
theorem not_timeKept_of_long {turns : List (Turn ℚ)} {s : Tracker ℚ} {t : Turn ℚ} {s' : Tracker ℚ}
    {inputs : List (Input ℚ)} (hinputs : (turns ++ [t]).map (·.input) = inputs)
    (hlong : ∃ o ∈ s'.trackedPersonObjects, span (inputs.map (·.timestamp)) < o.duration.toNat) :
    ¬ TimeKept scene turns s t s' := by
  intro hkept
  obtain ⟨o, ho, hlong⟩ := hlong
  have hbound := hkept.bounded o (mem_everyone.mpr (Or.inl ho))
  rw [← hinputs, List.map_map] at hlong
  exact absurd hlong (Nat.not_lt.mpr hbound)

/-- **The clock is set back** by 600 between two frames, and the time of residence wraps around. -/
theorem clock_step_back_wraps : ∃ turns s t s', Run scene Tracker.init turns s ∧
    Updates scene s t s' ∧ (turns ++ [t]).map (·.input) = [visit 1000 1, visit 400 2] ∧
    ((turns ++ [t]).map (·.input.frame_id)).Pairwise (· ≤ ·) ∧
    (∀ u ∈ turns ++ [t], ∀ d ∈ u.input.cur_detected_person_objects, Built d) ∧
    ¬ TimeKept scene turns s t s' := by
  obtain ⟨⟨turns, s'⟩, hplay, hcheck⟩ := Abort.of_returns
    (x := play scene Tracker.init [visit 1000 1, visit 400 2])
    (p := fun r => decide (∃ o ∈ r.2.trackedPersonObjects,
      span ([visit 1000 1, visit 400 2].map (·.timestamp)) < o.duration.toNat)) (by decide +kernel)
  have hinputs := play_inputs hplay
  obtain ⟨before, t, s, rfl, hrun, hstep⟩ := (play_run hplay).last_turn fun hnil => by
    rw [hnil] at hinputs
    cases hinputs
  refine ⟨before, s, t, s', hrun, hstep, hinputs, ?_, visits_built [(1000, 1), (400, 2)]
    hinputs, not_timeKept_of_long hinputs (of_decide_eq_true hcheck)⟩
  have hids : (before ++ [t]).map (·.input.frame_id) =
      [visit 1000 1, visit 400 2].map (·.frame_id) := by
    rw [← hinputs, List.map_map]
    rfl
  rw [hids]
  decide

/-- **The clock is set back while nobody is credited**: the visitor stays from 0 to 1000, and again from
0 to 1000 ten frames later, and is credited with 2000. -/
theorem clock_step_back_counts_twice : ∃ turns s t s', Run scene Tracker.init turns s ∧
    Updates scene s t s' ∧ (turns ++ [t]).map (·.input) =
      [visit 0 1, visit 1000 2, visit 0 12, visit 1000 13] ∧ ¬ TimeKept scene turns s t s' := by
  obtain ⟨⟨turns, s'⟩, hplay, hcheck⟩ := Abort.of_returns
    (x := play scene Tracker.init [visit 0 1, visit 1000 2, visit 0 12, visit 1000 13])
    (p := fun r => decide (∃ o ∈ r.2.trackedPersonObjects,
      span ([visit 0 1, visit 1000 2, visit 0 12, visit 1000 13].map (·.timestamp)) <
        o.duration.toNat)) (by decide +kernel)
  have hinputs := play_inputs hplay
  obtain ⟨before, t, s, rfl, hrun, hstep⟩ := (play_run hplay).last_turn fun hnil => by
    rw [hnil] at hinputs
    cases hinputs
  exact ⟨before, s, t, s', hrun, hstep, hinputs,
    not_timeKept_of_long hinputs (of_decide_eq_true hcheck)⟩

/-- Before the visitor is credited for the first time the clock may be set back, if that is enough
frames ago. -/
theorem Run.time_kept_three_visits : ∃ turns s t s', Run scene Tracker.init turns s ∧
    Updates scene s t s' ∧
    (turns ++ [t]).map (·.input) = [visit 1000 1, visit 400 12, visit 900 13] ∧
    TimeKept scene turns s t s' := by
  obtain ⟨⟨turns, s'⟩, hplay, hclock⟩ := Abort.of_returns
    (x := play scene Tracker.init [visit 1000 1, visit 400 12, visit 900 13])
    (p := fun r => decide (∀ t ∈ r.1, t.ClockKept scene)) (by decide +kernel)
  have hinputs := play_inputs hplay
  obtain ⟨before, t, s, rfl, hrun, hstep⟩ := (play_run hplay).last_turn fun hnil => by
    rw [hnil] at hinputs
    cases hinputs
  exact ⟨before, s, t, s', hrun, hstep, hinputs, Run.time_kept hrun hstep
    (visits_built [(1000, 1), (400, 12), (900, 13)] hinputs) (of_decide_eq_true hclock)⟩

end EdgeFrame.Track
