/-
# EdgeFrame.Monitor.Events -- what a monitor event says

A run of the processor is a run of its tracker, and what holds of the tracker's runs
carries over. An event that `handle` pushes shows the confirmed people that were
matched in the same frame, at the ground points of the boxes they were matched to, and
everyone it shows has a history.

Who is shown is a matter of flags: `monitor` asks for confirmed objects that the frame has
matched or created, with a body. New objects are not confirmed, so that the shown ones are
the matched ones (`shown_eq`), and their boxes are those of the detections they were matched
to, which the ledger of the turn has as bags. That nobody is shown twice needs ids that are
not shared, and so the bound on their number.

The history is `Run.documented` of the tracker, for the runs of the processor: everyone
who is confirmed was seen in as many frames as the threshold asks for, one after the other.
-/
import EdgeFrame.Monitor.Processor
import EdgeFrame.Track.Identity
import Mathlib

namespace EdgeFrame.Monitor

open Lib Track

variable {K : Type} [Field K]

/-! ## The handler's loop -/

/-- The entry of an event for an object. -/
def infoOf (P : Setup K) (o : PersonObject K) : CrowdInfo := ⟨xGround P o, yGround P o, o.id⟩

/-- The indexes of the loop stay within the vectors of an event for objects.

The loop is bounded by one of the vectors and reads all of them; `monitor` fills them in step. -/
theorem crowdInfo_eq {P : Setup K} {all : List (PersonObject K)} :
    ∀ (os before : List (PersonObject K)), all = before ++ os →
      crowdInfo (all.map (yGround P)) (all.map (·.id)) (os.map (xGround P)) before.length =
        .ok (os.map (infoOf P)) := by
  intro os
  induction os with
  | nil =>
    intro _ _
    exact rfl
  | cons o os ih =>
    intro before h
    have hrest := ih (before ++ [o]) (by simpa using h)
    rw [List.length_append, List.length_singleton] at hrest
    have hget : all[before.length]? = some o := by
      rw [h, List.getElem?_append_right le_rfl, Nat.sub_self]
      rfl
    rw [List.map_cons, crowdInfo, List.getElem?_map, List.getElem?_map, hget]
    simp only [Option.map_some, hrest]
    rfl

/-- **The handler** of an event for objects posts one entry for each of them. -/
theorem handler_eventOf {P : Setup K} {c : Call K} {os : List (PersonObject K)} {shop_id : String}
    (hos : os ≠ []) : (eventOf P c os).handler shop_id =
      .ok (some ⟨shop_id, c.msg.camera_sn, c.msg.camera_time, os.map (infoOf P)⟩) := by
  have hloop : crowdInfo (os.map (yGround P)) (os.map (·.id)) (os.map (xGround P)) 0 =
      .ok (os.map (infoOf P)) := crowdInfo_eq os [] rfl
  have hne : ∀ f : PersonObject K → Int, (os.map f).isEmpty = false := by
    intro f
    rw [List.isEmpty_eq_false_iff]
    exact fun h => hos (List.map_eq_nil_iff.mp h)
  simp only [MonitorEvent.handler, eventOf, hne]
  rw [hloop]
  rfl

variable [LinearOrder K]

/-! ## The tracker of the processor -/

section

variable {P : Setup K} {monitor_interval : Int} {rounds : List (Round K)} {p : MonitorProcessor K}

omit [Field K] [LinearOrder K] in
/-- After `init` nothing is in the vectors. -/
theorem cleared_init : (MonitorProcessor.init : MonitorProcessor K).Cleared := ⟨rfl, rfl, rfl⟩

/-- What is known of each round of a run. -/
theorem Rounds.of_mem (h : Rounds P monitor_interval MonitorProcessor.init rounds p) {t : Round K}
    (ht : t ∈ rounds) : ∃ before after s, rounds = before ++ t :: after ∧
      Run P Tracker.init (before.map Round.turn) s ∧ Updates P s t.turn t.result.tracker ∧
      ∀ e ∈ t.pushed, t.result.tracker.trackedPersonObjects.filter shown ≠ [] ∧
        e = eventOf P t.call (t.result.tracker.trackedPersonObjects.filter shown) := by
  obtain ⟨before, after, p₁, p₂, heq, hbefore, hstep, -⟩ := Trace.of_mem h ht
  have hupdate := hstep.updates
  have hpushed := (hstep.pushes (Rounds.cleared cleared_init hbefore)).2
  have hp₂ : p₂.tracker_ = t.result.tracker := hupdate.2
  rw [hp₂] at hupdate hpushed
  exact ⟨before, after, p₁.tracker_, heq, Rounds.run hbefore, hupdate, hpushed⟩

omit [LinearOrder K] in
/-- The detections of a round come from the constructor. -/
theorem Round.freshDetections (t : Round K) : FreshDetections t.turn := by
  intro d hd
  obtain ⟨u, box, -, -, rfl⟩ := mem_CvtDetToPed hd
  exact ⟨rfl, rfl⟩

end

/-! ## Who is shown -/

section

variable {P : Setup K} {s : Tracker K} {t : Turn K} {L : Ledger K}

/-- **The shown objects** of a turn are the matched ones that are confirmed. -/
theorem shown_eq (h : Balanced P s t.input t.result L) (hfresh : FreshDetections t) :
    ((t.result.tracker.trackedPersonObjects.filter shown : List (PersonObject K)) :
      Multiset (PersonObject K)) =
      ((t.result.attached.filter (·.updated.object_status = .confirmed) : List (Attachment K)) :
        Multiset (Attachment K)).map fun a => accumulate P t.input.current a.updated := by
  have hshown : ∀ o : PersonObject K, shown (accumulate P t.input.current o) = shown o := by
    intro o
    rw [shown, shown, (sameTrack_accumulate P t.input.current o).object_status,
      accumulate_body_detected]
  have hkept : ∀ o ∈ L.kept, ¬ shown o = true := by
    intro o ho
    obtain ⟨o₀, -, rfl⟩ := h.kept_was_tracked ho
    simp [shown, startFrame]
  have hcreated : ∀ o ∈ (t.result.created : Multiset (PersonObject K)), ¬ shown o = true := by
    intro o ho
    simp [shown, (h.created_fresh hfresh ho).1]
  have hattached : (t.result.attached : Multiset (Attachment K)).filter
      (fun a => shown a.updated = true) =
      (t.result.attached : Multiset (Attachment K)).filter
        (·.updated.object_status = .confirmed) := by
    refine Multiset.filter_congr fun a ha => ?_
    simp [shown, (h.attachment a ha).body_detected]
  have htracked : ((t.result.tracker.trackedPersonObjects.filter shown : List (PersonObject K)) :
      Multiset (PersonObject K)) = (t.result.tracker.trackedPersonObjects :
        Multiset (PersonObject K)).filter (fun o => shown o = true) := by
    simp only [Multiset.filter_coe, Bool.decide_eq_true]
  rw [htracked, h.tracked_after, Multiset.filter_map, Multiset.filter_add, Multiset.filter_add]
  simp only [Function.comp_def, hshown]
  rw [Multiset.filter_eq_nil.mpr hkept, Multiset.filter_eq_nil.mpr hcreated, zero_add, add_zero,
    Multiset.filter_map, Multiset.map_map]
  simp only [Function.comp_def]
  rw [hattached, Multiset.filter_coe]

end

/-! ## The contents of an event -/

/-- The event shows the matched confirmed people of the round, and nothing else.

Both parts are about one list of objects, the shown ones in their order. -/
structure Contents (P : Setup K) (t : Round K) (e : MonitorEvent) : Prop where
  x_length : e.x_axis.length = e.id.length
  y_length : e.y_axis.length = e.id.length
  nodup : e.id.Nodup
  /-- the handler posts one entry for each of them: the id of the object, and the ground point of
  the detection it was matched to -/
  people : ∀ shop_id, ∃ crowd : List CrowdInfo,
    e.handler shop_id = .ok (some ⟨shop_id, e.cameraSn, e.timeStamp, crowd⟩) ∧
    (crowd : Multiset CrowdInfo) =
      ((t.result.attached.filter (·.updated.object_status = .confirmed) : List (Attachment K)) :
        Multiset (Attachment K)).map
        fun a => ⟨xGround P a.detection, yGround P a.detection, a.object.id⟩
  /-- the ids are those of the posted entries -/
  ids : (e.id : Multiset Int) =
    ((t.result.attached.filter (·.updated.object_status = .confirmed) : List (Attachment K)) :
      Multiset (Attachment K)).map (·.object.id)
  /-- the detections are boxes of the message -/
  boxes : ∀ a ∈ t.result.attached, ∃ box ∈ t.call.msg.object_boxes, box.class_idx = cls_ped ∧
    a.detection.last_updated_body_bbox = ConvertBoxToBBoxMessage box
      t.call.msg.camera_time.toUInt64 t.call.msg.frame_id

/-- The ledger of a turn says what the event of its shown objects shows. -/
theorem contents_of_balanced {P : Setup K} {s : Tracker K} {t : Round K} {L : Ledger K}
    (h : Balanced P s t.turn.input t.turn.result L)
    (hnodup : (ids t.result.tracker).Nodup)
    (hsome : t.result.tracker.trackedPersonObjects.filter shown ≠ []) :
    Contents P t (eventOf P t.call (t.result.tracker.trackedPersonObjects.filter shown)) := by
  have hshown := shown_eq h t.freshDetections
  refine ⟨by simp [eventOf], by simp [eventOf], ?nodup, ?people, ?ids, ?boxes⟩
  -- an id for each tracked object, and no two of them the same
  case nodup =>
    rw [ids, everyone, Multiset.map_add] at hnodup
    have htracked : (t.result.tracker.trackedPersonObjects.map (·.id)).Nodup :=
      Multiset.coe_nodup.mp (Multiset.nodup_add.mp hnodup).1
    exact htracked.sublist (List.filter_sublist.map _)
  case people =>
    intro shop_id
    refine ⟨_, handler_eventOf hsome, ?_⟩
    rw [← Multiset.map_coe]
    refine (congrArg (Multiset.map (infoOf P)) hshown).trans ?_
    rw [Multiset.map_map]
    -- an attached object has the box of the detection it was matched to
    refine Multiset.map_congr rfl fun a ha => ?_
    have ha : a ∈ t.result.attached := (List.mem_filter.mp ha).1
    have hsame := sameTrack_accumulate P t.call.input.current a.updated
    have hatt := h.attachment a ha
    have hbox : (accumulate P t.call.input.current a.updated).last_updated_body_bbox =
        a.detection.last_updated_body_bbox := hsame.last_updated_body_bbox.trans hatt.body_bbox
    show infoOf P (accumulate P t.call.input.current a.updated) = _
    simp only [infoOf, xGround, yGround, hbox, hsame.id, hatt.id]
  case ids =>
    rw [eventOf, ← Multiset.map_coe]
    refine (congrArg (Multiset.map (·.id)) hshown).trans ?_
    rw [Multiset.map_map]
    refine Multiset.map_congr rfl fun a ha => ?_
    have ha : a ∈ t.result.attached := (List.mem_filter.mp ha).1
    exact (sameTrack_accumulate P t.call.input.current a.updated).id.trans (h.attachment a ha).id
  case boxes =>
    intro a ha
    obtain ⟨d, hd, hsight⟩ := h.detection_seen ha
    obtain ⟨u, box, hbox, hped, rfl⟩ := mem_CvtDetToPed hd
    exact ⟨box, hbox, hped, (sighting_body hsight).symm⟩

variable [IsStrictOrderedRing K]

/-- **Event contents.** In a run of the processor with fewer than 2^31 objects every event shows
exactly the confirmed people that a detection of its frame was matched to, each once and at the
ground point of that detection; between two calls the vectors are empty.

Each round has its ledger, and `contents_of_balanced` reads the contents off it; the vectors are
`Rounds.cleared`. -/
theorem Rounds.event_contents {P : Setup K} {monitor_interval : Int} {rounds : List (Round K)}
    {p : MonitorProcessor K} (h : Rounds P monitor_interval MonitorProcessor.init rounds p)
    (hbound : createdCount (rounds.map Round.turn) < 2 ^ 31) :
    p.Cleared ∧ ∀ t ∈ rounds, ∀ e ∈ t.pushed, Contents P t e := by
  refine ⟨Rounds.cleared cleared_init h, fun t ht e he => ?_⟩
  obtain ⟨before, after, s, rfl, hrun, hupdate, hpushed⟩ := h.of_mem ht
  obtain ⟨hsome, rfl⟩ := hpushed e he
  obtain ⟨L, hL⟩ := hupdate.balanced (Run.tidy tidy_init hrun)
  have hacc := Run.accounted (trace_snoc.mpr ⟨s, hrun, hupdate⟩) (by
    simp only [List.map_append, List.map_cons, ← List.singleton_append (l := after.map _),
      createdCount_append] at hbound ⊢
    omega)
  exact contents_of_balanced hL (Multiset.nodup_add.mp hacc.nodup).1 hsome

/-- A message with one person, always at the same place. -/
def message (frame_id : UInt64) : Call ℚ where
  msg := {
    camera_sn := "camera"
    camera_time := 40
    frame_id := frame_id
    cvImage := ⟨540, 960, []⟩
    object_boxes := [⟨100, 100, 120, 140, 9 / 10, cls_ped⟩] }
  memory _ := ⟨0, 0, ⟨0, 0, 0⟩, ⟨0, 0, 0⟩, 0, 0⟩

/-- The fifth frame with the same person in it brings the first event. -/
theorem Rounds.event_contents_five_frames : ∃ rounds p,
    Rounds scene 1 MonitorProcessor.init rounds p ∧ ∃ t ∈ rounds, ∃ e ∈ t.pushed,
      e.x_axis = [110] ∧ e.y_axis = [140] ∧ e.id = [0] ∧ Contents scene t e := by
  obtain ⟨⟨rounds, p⟩, hfeed, hcheck⟩ := Abort.of_returns
    (x := feed scene 1 MonitorProcessor.init
      [message 1, message 2, message 3, message 4, message 5])
    (p := fun r => decide (createdCount (r.1.map Round.turn) = 1) && r.1.any fun t =>
      t.pushed.any fun e => decide (e.x_axis = [110] ∧ e.y_axis = [140] ∧ e.id = [0]))
    (by decide +kernel)
  simp only [Bool.and_eq_true, List.any_eq_true, decide_eq_true_eq] at hcheck
  obtain ⟨hcount, t, ht, e, he, hx, hy, hid⟩ := hcheck
  have hbound : createdCount (rounds.map Round.turn) < 2 ^ 31 := by
    rw [hcount]
    decide
  exact ⟨rounds, p, feed_rounds hfeed, t, ht, e, he, hx, hy, hid,
    (Rounds.event_contents (feed_rounds hfeed) hbound).2 t ht e he⟩

/-! ## No ghosts -/

/-- An unconfirmed object that the turn did not match is gone after it. -/
structure UnmatchedGone (s : Tracker K) (turns : List (Turn K)) (t : Turn K) : Prop where
  /-- what is there was matched, or is new, or was confirmed before -/
  origin : ∀ o' ∈ everyone t.result.tracker,
    (∃ a ∈ t.result.attached, SameTrack a.updated o') ∨ (∃ c ∈ t.result.created, SameTrack c o') ∨
      ∃ o ∈ everyone s, SameTrack o o' ∧ o.object_status = .confirmed
  /-- and, as long as ids are not reused, the id of such an object is free again -/
  ids : createdCount (turns ++ [t]) < 2 ^ 31 → ∀ o ∈ everyone s, o.object_status = .unconfirmed →
    ¬ t.Matched o.id → o.id ∉ Track.ids t.result.tracker

/-- It is so after every turn, by the ledger. -/
theorem Updates.unmatchedGone {P : Setup K} {turns : List (Turn K)} {s s' : Tracker K} {t : Turn K}
    (hrun : Run P Tracker.init turns s) (h : Updates P s t s') : UnmatchedGone s turns t := by
  have hs := Run.tidy tidy_init hrun
  obtain ⟨L, hL⟩ := h.balanced hs
  refine ⟨fun o' ho' => hL.unmatched_confirmed hs ho', fun hbound o ho hunconf hmatched hid => ?_⟩
  rw [createdCount_append, createdCount_singleton] at hbound
  have hacc := hrun.accounted (by omega)
  obtain ⟨o', ho', hid⟩ := Multiset.mem_map.mp hid
  rcases hL.unmatched_confirmed hs ho' with ⟨a, ha, hsame⟩ | ⟨c, hc, hsame⟩ | ⟨o₁, ho₁, hsame, hconf⟩
  · exact hmatched ⟨a, ha, by rw [← hid, hsame.id, (hL.attachment a ha).id]⟩
  · -- a new id is above every id in use
    have hnew : c.id ∈ newIds s.global_id t.result.created.length := by
      rw [← hL.created_ids]
      exact List.mem_map_of_mem hc
    have hge := ((mem_newIds (by rw [hacc.global_id]; omega)).mp hnew).1
    have hlt := (hacc.below o.id (by simp [Track.ids, Multiset.mem_map_of_mem _ ho])).2
    rw [← hid, hsame.id] at hlt
    omega
  · -- ids are distinct, so that it is the same object
    have hnodup : (Track.ids s).Nodup := (Multiset.nodup_add.mp hacc.nodup).1
    have heq : o₁ = o :=
      Multiset.inj_on_of_nodup_map hnodup o₁ ho₁ o ho (hsame.id.symm.trans hid)
    rw [heq, hunconf] at hconf
    cases hconf

/-- **No ghosts.** Everyone an event shows was created in some update and matched to a detection with
a body in each of the `hit_num_thresh + 1` updates that followed it. The same holds of every
confirmed object in every reachable state; every expired object is confirmed; and an unconfirmed
object that the next update does not match is gone after it.

What is said of an event is read off the state after its round, where everyone it shows is
confirmed. -/
theorem Rounds.no_ghosts {P : Setup K} {monitor_interval : Int} (hthresh : 0 ≤ P.hit_num_thresh)
    {rounds : List (Round K)} {p : MonitorProcessor K}
    (h : Rounds P monitor_interval MonitorProcessor.init rounds p) :
    (∀ before t after, rounds = before ++ t :: after → ∀ e ∈ t.pushed, ∀ id ∈ e.id,
      Seen (P.hit_num_thresh + 1).toNat ((before ++ [t]).map Round.turn) id) ∧
    (∀ o ∈ everyone p.tracker_, o.object_status = .confirmed →
      Seen (P.hit_num_thresh + 1).toNat (rounds.map Round.turn) o.id) ∧
    (∀ o ∈ p.tracker_.expiredPersonObjects, o.object_status = .confirmed) ∧
    ∀ t p', Handles P monitor_interval p t p' →
      UnmatchedGone p.tracker_ (rounds.map Round.turn) t.turn := by
  have hdocumented : ∀ {rounds : List (Round K)} {p : MonitorProcessor K},
      Rounds P monitor_interval MonitorProcessor.init rounds p →
      Documented (P.hit_num_thresh + 1).toNat (rounds.map Round.turn) p.tracker_ := by
    intro rounds p h
    refine Run.documented hthresh (Rounds.run h) fun t ht => ?_
    obtain ⟨u, -, rfl⟩ := List.mem_map.mp ht
    exact u.freshDetections
  refine ⟨?_, (hdocumented h).confirmed, fun o ho => (Run.tidy tidy_init (Rounds.run h) o ho).2,
    fun t p' ht => Updates.unmatchedGone (Rounds.run h) ht.updates⟩
  rintro before t after rfl e he id hid
  obtain ⟨p₁, hbefore, p₂, ht, -⟩ := trace_append.mp h
  obtain ⟨-, rfl⟩ := (ht.pushes (Rounds.cleared cleared_init hbefore)).2 e he
  obtain ⟨o, ho, rfl⟩ := List.mem_map.mp hid
  obtain ⟨hmem, hshown⟩ := List.mem_filter.mp ho
  simp only [shown, Bool.and_eq_true, decide_eq_true_eq] at hshown
  exact (hdocumented (trace_snoc.mpr ⟨p₁, hbefore, ht⟩)).confirmed o
    (mem_everyone.mpr (Or.inl hmem)) hshown.1

/-- The person of the first event was seen in the four frames before it. -/
theorem Rounds.no_ghosts_five_frames : ∃ before t p,
    Rounds scene 1 MonitorProcessor.init (before ++ [t]) p ∧
    (∃ e ∈ t.pushed, e.id = [0]) ∧ Seen 4 ((before ++ [t]).map Round.turn) 0 := by
  obtain ⟨⟨before, p₁⟩, hfeed, hcheck⟩ := Abort.of_returns
    (x := feed scene 1 MonitorProcessor.init
      [message 1, message 2, message 3, message 4])
    (p := fun r => Abort.returns (handle scene 1 r.2 (message 5)) fun r' =>
      r'.2.1.any fun e => decide (e.id = [0])) (by decide +kernel)
  obtain ⟨⟨r, events, p⟩, hhandle, hevent⟩ := Abort.of_returns hcheck
  simp only [List.any_eq_true, decide_eq_true_eq] at hevent
  obtain ⟨e, he, hid⟩ := hevent
  have hrounds : Rounds scene 1 MonitorProcessor.init
      (before ++ [⟨message 5, r, events⟩]) p :=
    trace_snoc.mpr ⟨p₁, feed_rounds hfeed, hhandle⟩
  refine ⟨before, ⟨message 5, r, events⟩, p, hrounds, ⟨e, he, hid⟩, ?_⟩
  exact (Rounds.no_ghosts (by decide) hrounds).1 before _ [] rfl e he 0 (by simp [hid])

end EdgeFrame.Monitor
