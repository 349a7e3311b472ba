/-
# EdgeFrame.Running.Events -- what the running service reports of its frames

What the monitor does in a run of the service is a run of the monitor alone, over the
frames that have come through. With a loader that numbers its frames upwards their
numbers go upwards too, whatever was dropped on the way, and every event can be traced
back to a frame that was captured and to what was detected on it.

Three results are joined here. `Steps.monitored` takes the run of the monitor out of a run
of the service: the other threads leave its members alone, and each call of `handle` that
returns is one round. `Steps.numbered` numbers the captured frames; the messages that are
handled are some of them in their order (`Running.Delivery`), so that their numbers go
upwards as well. What is known of the rounds of the processor (`Monitor.Events`) and of the
reports of its tracker (`Track.Leaves`) then holds in the service.
-/
import EdgeFrame.Monitor.Events
import EdgeFrame.Running.Delivery
import EdgeFrame.Track.Leaves
import Mathlib

namespace EdgeFrame.Running

open EdgeFrame.Lib EdgeFrame.Track
open EdgeFrame.Api (Box)
open EdgeFrame.Monitor (WhaleData Call Round MonitorEvent Handles Rounds Contents eventOf)

namespace Service

variable {K : Type} [Field K] {B : BoundedQueue (Any K)} {C : Config K} {size : Nat}
  {s s' : Service B C} {rs : List (Report K)} {es : List (Move K × List (Report K))}

/-! ## What each thread leaves alone -/

/-- The loader leaves the monitor alone. -/
theorem loader_frame {a : Answer} (h : s.loaderStep a = some (s', rs)) :
    s'.processor = s.processor ∧ ∀ t, .handled t ∉ rs := by
  cases hpc : s.loaderPc <;> simp only [loaderStep, hpc, read] at h
  case push f =>
    cases h
    refine ⟨rfl, fun t ht => ?_⟩
    split at ht <;> simp at ht
  case ended => cases h
  case head =>
    cases h
    simp
  case quit =>
    cases h
    simp
  all_goals
    split at h <;> cases h <;> simp

/-- The detector leaves the monitor and the loader alone. -/
theorem detector_frame {object_boxes : List (Box K)}
    (h : s.detectorStep object_boxes = some (s', rs)) :
    s'.processor = s.processor ∧ s'.members = s.members ∧ (∀ t, .handled t ∉ rs) ∧
      ∀ f, .captured f ∉ rs := by
  cases hpc : s.detectorPc <;> simp only [detectorStep, hpc] at h
  case pop =>
    simp only [detectorPop, Option.some.injEq] at h
    split at h
    · cases h
      simp
    · split at h <;> cases h <;> simp
  case size d => split at h <;> cases h <;> simp
  case push d =>
    cases h
    refine ⟨rfl, rfl, fun t ht => ?_, fun f hf => ?_⟩
    · split at ht <;> simp at ht
    · split at hf <;> simp at hf
  case ended => cases h
  all_goals
    cases h
    simp

/-- What a step of the loader does to its count. -/
theorem loader_counts {count : C.L.Members → Int} (hcount : C.L.Counts count) {a : Answer}
    (h : s.loaderStep a = some (s', rs)) :
    (rs.flatMap Report.made = [] ∧ count s.members ≤ count s'.members ∧
        count s'.members ≤ count s.members + 1) ∨
      ∃ a, rs = [.captured (makeFrame C a (count s.members + 1))] ∧
        count s'.members = count s.members + 1 := by
  cases hpc : s.loaderPc <;> simp only [loaderStep, hpc, read] at h
  -- a pass captures a frame and counts it, or reads again, or loses its source
  case read =>
    split at h
    · rename_i id m hpass
      cases h
      obtain ⟨rfl, hm⟩ := hcount.push hpass
      exact Or.inr ⟨a, rfl, hm⟩
    · rename_i hpass
      cases h
      exact Or.inl ⟨rfl, hcount.again hpass⟩
    · rename_i hpass
      cases h
      exact Or.inl ⟨rfl, hcount.reopen hpass⟩
    · cases h
      simp
    · cases h
  -- a retry leaves the count, or gives up
  case reopen =>
    split at h
    · rename_i m hretry
      cases h
      have hsame := hcount.retry hretry
      refine Or.inl ⟨rfl, hsame.ge, ?_⟩
      show count m ≤ count s.members + 1
      omega
    · cases h
      simp [Report.made]
  case push f =>
    cases h
    refine Or.inl ⟨?_, le_rfl, by show count s.members ≤ _; omega⟩
    split <;> rfl
  case size f =>
    split at h <;> cases h <;> simp [Report.made]
  case ended => cases h
  all_goals
    cases h
    simp
variable [LinearOrder K]

/-- The monitor leaves the loader alone, and its own members change with a call of `handle` that
returns and with nothing else. -/
theorem monitor_frame {memory : Nat → Unassigned K} (h : s.monitorStep memory = some (s', rs)) :
    s'.members = s.members ∧ (∀ f, .captured f ∉ rs) ∧
      (((∀ t, .handled t ∉ rs) ∧ s'.processor = s.processor) ∨
        ∃ t, rs = [.handled t] ∧ Handles C.P C.monitor_interval s.processor t s'.processor) := by
  cases hpc : s.monitorPc <;> simp only [monitorStep, hpc] at h
  case pop =>
    simp only [monitorPop, Option.some.injEq] at h
    split at h <;> cases h <;> simp
  case handle d =>
    simp only [handleStep, Option.some.injEq] at h
    split at h
    · rename_i r events p hhandle
      cases h
      exact ⟨rfl, by simp, Or.inr ⟨_, rfl, hhandle⟩⟩
    · cases h
      simp
  case ended => cases h
  all_goals
    cases h
    simp

/-- **A step of the service**, as the monitor sees it. -/
theorem Step.processor {e : Move K × List (Report K)} (h : s.Step e s') :
    ((∀ t, .handled t ∉ e.2) ∧ s'.processor = s.processor) ∨
      ∃ t, e.2 = [.handled t] ∧ Handles C.P C.monitor_interval s.processor t s'.processor := by
  obtain ⟨m, rs⟩ := e
  cases m with
  | loader a =>
    obtain ⟨hprocessor, hrs⟩ := loader_frame h
    exact Or.inl ⟨hrs, hprocessor⟩
  | detector object_boxes =>
    obtain ⟨hprocessor, -, hrs, -⟩ := detector_frame h
    exact Or.inl ⟨hrs, hprocessor⟩
  | monitor memory => exact (monitor_frame h).2.2
  | stopAll =>
    cases h
    exact Or.inl ⟨by simp, rfl⟩

/-- **What the monitor does in a run of the service is a run of the monitor.**

By induction on the run; the members of the monitor are handed on by every step that is not such a
call. -/
theorem Steps.monitored {m : C.L.Members} {timers : Monitor.DetectorProcessor}
    (h : (init B C size m timers).Steps es s) :
    Rounds C.P C.monitor_interval .init (rounds es) s.processor := by
  refine Trace.history (H := fun es (s : Service B C) =>
    Rounds C.P C.monitor_interval .init (rounds es) s.processor) ?_ ?_ h
  · exact rfl
  intro es s e s' _ ih hstep
  rw [rounds, collect_snoc]
  rcases hstep.processor with ⟨hnone, hsame⟩ | ⟨t, hrs, ht⟩
  · have hnil : e.2.flatMap Report.round = [] := by
      refine List.flatMap_eq_nil_iff.mpr fun r hr => ?_
      cases r with
      | handled t => exact absurd hr (hnone t)
      | _ => rfl
    rw [hnil, List.append_nil, hsame]
    exact ih
  · rw [hrs]
    exact trace_snoc.mpr ⟨s.processor, ih, ht⟩

/-! ## The numbers of the frames -/

/-- What a step of the service does to the count of the loader. -/
theorem Step.counts {count : C.L.Members → Int} (hcount : C.L.Counts count)
    {e : Move K × List (Report K)} (h : s.Step e s') :
    (e.2.flatMap Report.made = [] ∧ count s.members ≤ count s'.members ∧
        count s'.members ≤ count s.members + 1) ∨
      ∃ a, e.2 = [.captured (makeFrame C a (count s.members + 1))] ∧
        count s'.members = count s.members + 1 := by
  have hquiet : ∀ {rs : List (Report K)}, (∀ f, .captured f ∉ rs) → s'.members = s.members →
      rs.flatMap Report.made = [] ∧ count s.members ≤ count s'.members ∧
        count s'.members ≤ count s.members + 1 := by
    intro rs hrs hsame
    refine ⟨List.flatMap_eq_nil_iff.mpr fun r hr => ?_, by rw [hsame], by rw [hsame]; omega⟩
    cases r with
    | captured f => exact absurd hr (hrs f)
    | _ => rfl
  obtain ⟨m, rs⟩ := e
  cases m with
  | loader a => exact loader_counts hcount h
  | detector object_boxes =>
    obtain ⟨-, hmembers, -, hrs⟩ := detector_frame h
    exact Or.inl (hquiet hrs hmembers)
  | monitor memory =>
    obtain ⟨hmembers, hrs, -⟩ := monitor_frame h
    exact Or.inl (hquiet hrs hmembers)
  | stopAll =>
    cases h
    exact Or.inl (hquiet (by simp) rfl)

/-- A number that the loader gives, as the frame carries it. -/
theorem toNat_ofInt {n : Int} (h : 0 ≤ n) (hlt : n < 2 ^ 64) :
    (UInt64.ofInt n).toNat = n.toNat := by
  show (UInt64.ofNat (n % 2 ^ 64).toNat).toNat = n.toNat
  rw [Int.emod_eq_of_lt h hlt, UInt64.toNat_ofNat_of_lt']
  show n.toNat < 2 ^ 64
  omega

/-- The frames of a run so far: numbered upwards, up to where the count of the loader stands. -/
structure Numbered (fs : List WhaleFrame) (n : Int) (steps : Nat) : Prop where
  upwards : fs.Pairwise fun f g => f.frame_id < g.frame_id
  below : ∀ f ∈ fs, (f.frame_id.toNat : Int) ≤ n
  nonneg : 0 ≤ n
  count : n ≤ steps

omit [LinearOrder K] in
/-- One more frame, with the next number. -/
theorem Numbered.next {fs : List WhaleFrame} {n : Int} {steps : Nat} (h : Numbered fs n steps)
    (hsteps : steps + 1 < 2 ^ 64) (a : Answer) :
    Numbered (fs ++ [makeFrame C a (n + 1)]) (n + 1) (steps + 1) := by
  obtain ⟨hupwards, hbelow, hnonneg, hcount⟩ := h
  have hid : ((makeFrame C a (n + 1)).frame_id.toNat : Int) = n + 1 := by
    show ((UInt64.ofInt (n + 1)).toNat : Int) = n + 1
    rw [toNat_ofInt (by omega) (by omega)]
    omega
  refine ⟨?_, ?_, by omega, by omega⟩
  · refine List.pairwise_append.mpr ⟨hupwards, List.pairwise_singleton _ _, ?_⟩
    intro f hf g hg
    obtain rfl := List.mem_singleton.mp hg
    have hle := hbelow f hf
    rw [UInt64.lt_iff_toNat_lt]
    omega
  · intro f hf
    rcases List.mem_append.mp hf with hf | hf
    · have hle := hbelow f hf
      omega
    · obtain rfl := List.mem_singleton.mp hf
      exact hid.le

/-- **The loader numbers the frames upwards.**

A loader may give a frame up, and a number with it; it never gives one twice. The frame carries the
count as an unsigned 64-bit number, which is why the steps are bounded. -/
theorem Steps.numbered {count : C.L.Members → Int} (hcount : C.L.Counts count) {m : C.L.Members}
    (hm : count m = 0) {timers : Monitor.DetectorProcessor}
    (h : (init B C size m timers).Steps es s) (hlen : es.length < 2 ^ 64) :
    Numbered (captured es) (count s.members) es.length := by
  revert hlen
  refine Trace.history (H := fun es (s : Service B C) => es.length < 2 ^ 64 →
    Numbered (captured es) (count s.members) es.length) ?_ ?_ h
  · intro _
    have hzero : count (init B C size m timers).members = 0 := hm
    refine ⟨List.Pairwise.nil, ?_, hzero.ge, hzero.le⟩
    intro f hf
    cases hf
  · intro es s e s' _ ih hstep hlen
    rw [List.length_append, List.length_singleton] at hlen ⊢
    have hbefore := ih (by omega)
    rw [captured, collect_snoc]
    rcases hstep.counts hcount with ⟨hnone, hle, hlt⟩ | ⟨a, hrs, hnext⟩
    · rw [hnone, List.append_nil]
      refine ⟨hbefore.upwards, fun f hf => (hbefore.below f hf).trans hle,
        hbefore.nonneg.trans hle, ?_⟩
      have hsteps := hbefore.count
      omega
    · rw [hrs, hnext]
      exact hbefore.next hlen a

omit [LinearOrder K] in
/-- The detections of a round carry the number of its frame. -/
theorem stamped_turns (ts : List (Round K)) : Stamped (ts.map Round.turn) := by
  intro u hu d hd
  obtain ⟨t, -, rfl⟩ := List.mem_map.mp hu
  obtain ⟨unassigned, box, -, -, rfl⟩ := Monitor.mem_CvtDetToPed hd
  rfl

/-- Whoever the tracker reports as having left was last seen long before, by the numbers of the frames,
when these go upwards. -/
theorem left_long_ago [IsStrictOrderedRing K] {P : Setup K} {turns : List (Turn K)}
    {tracker : Tracker K} {t : Turn K} (hrun : Run P Tracker.init turns tracker)
    (ht : Updates P tracker t t.result.tracker) (hstamped : Stamped turns)
    (hbefore : ∀ u ∈ turns, u.input.frame_id ≤ t.input.frame_id) {o : PersonObject K}
    (ho : o ∈ t.result.valid_leave_objects) :
    o.last_updated_body_bbox.update_frame_id.toNat + asUnsigned P.expired_to_delete_thresh <
      t.input.frame_id.toNat := by
  obtain ⟨L, hL⟩ := ht.balanced (Run.tidy tidy_init hrun)
  have hgone := hL.mem_leaves ho
  have hold := (hL.gone o hgone).2
  simp only [bothOlderThan, Bool.and_eq_true] at hold
  have hage : asUnsigned P.expired_to_delete_thresh <
      (t.input.frame_id - o.last_updated_body_bbox.update_frame_id).toNat := of_decide_eq_true hold.2
  -- the stamp is the number of an earlier frame, so that the difference does not wrap
  obtain ⟨o₀, ho₀, hsame⟩ := hL.expired_was_there (o := o) (by simp [hgone])
  obtain ⟨u, hu, hstamp⟩ := hrun.body_stamps hstamped o₀ ho₀
  have hle : o.last_updated_body_bbox.update_frame_id ≤ t.input.frame_id := by
    rw [hsame.last_updated_body_bbox, hstamp]
    exact hbefore u hu
  rw [UInt64.toNat_sub_of_le _ _ hle] at hage
  omega

/-- **The frames come through in the order of their numbers**, whatever the threads do and whatever
is dropped: with a loader that numbers its frames upwards, the frames of the messages that have been
handled are numbered upwards, and the tracker reports nobody as having left whose body was seen
within the last `expired_to_delete_thresh` numbers.

The first part joins `Steps.numbered` and the order of delivery, the second is `left_long_ago` for
the tracker's run. -/
theorem Steps.frames_ordered [IsStrictOrderedRing K] {count : C.L.Members → Int}
    (hcount : C.L.Counts count) {m : C.L.Members} (hm : count m = 0)
    {timers : Monitor.DetectorProcessor} (h : (init B C size m timers).Steps es s)
    (hlen : es.length < 2 ^ 63) :
    (rounds es).Pairwise (fun t u => t.call.msg.frame_id < u.call.msg.frame_id) ∧
      ∀ t ∈ rounds es, ∀ o ∈ t.result.valid_leave_objects,
        o.last_updated_body_bbox.update_frame_id.toNat + asUnsigned C.P.expired_to_delete_thresh <
          t.call.msg.frame_id.toNat := by
  have hsub := (Steps.account h).2.whole.out_sublist
  have hframes := (Steps.numbered hcount hm h (by omega)).upwards.sublist hsub
  have hupwards : (rounds es).Pairwise (fun t u => t.call.msg.frame_id < u.call.msg.frame_id) := by
    rw [List.pairwise_map] at hframes
    exact hframes
  refine ⟨hupwards, fun t ht o ho => ?_⟩
  obtain ⟨before, after, tracker, hsplit, hrun, hupdates, -⟩ := (Steps.monitored h).of_mem ht
  refine left_long_ago hrun hupdates (stamped_turns before) (fun u hu => ?_) ho
  obtain ⟨v, hv, rfl⟩ := List.mem_map.mp hu
  rw [hsplit, List.pairwise_append] at hupwards
  exact UInt64.le_of_lt (hupwards.2.2 v hv t List.mem_cons_self)

/-- Two frames of a stream, one after the other. -/
theorem Steps.frames_ordered_twoRounds : ∃ es, ∃ s : Service (.list _) oneCamera,
    (init (.list _) oneCamera 10 (⟨0⟩ : RtspLoader) (.init 0 0)).Steps es s ∧
    (rounds es).length = 2 ∧
    (rounds es).Pairwise fun t u => t.call.msg.frame_id < u.call.msg.frame_id := by
  obtain ⟨⟨es, s⟩, hexec, hcheck⟩ : ∃ r, (init (.list _) oneCamera 10 (⟨0⟩ : RtspLoader)
      (.init 0 0)).exec (oneRound ++ oneRound) = some r ∧
      decide ((rounds r.1).length = 2 ∧ r.1.length < 2 ^ 63) = true :=
    (Option.any_eq_true _ _).mp (by decide +kernel)
  obtain ⟨hrounds, hlen⟩ := of_decide_eq_true hcheck
  exact ⟨es, s, exec_steps hexec, hrounds,
    (Steps.frames_ordered rtsp_counts rfl (exec_steps hexec) hlen).1⟩

/-! ## The events -/

/-- A call of `handle` pushes one event, or none. -/
theorem pushed_le_one {P : Setup K} {monitor_interval : Int} {p p' : Monitor.MonitorProcessor K}
    {t : Round K} (h : Handles P monitor_interval p t p') : t.pushed.length ≤ 1 := by
  obtain ⟨-, ⟨hnone, -⟩ | ⟨q, hmonitor, -⟩⟩ := h.cases
  · rw [hnone]
    exact Nat.zero_le 1
  · have hpushed := congrArg Prod.snd hmonitor
    unfold Monitor.monitor at hpushed
    dsimp only at hpushed
    split at hpushed <;> simp [← hpushed]

/-- A message that was handled is what the detector made of a captured frame. -/
theorem Steps.round_made {m : C.L.Members} {timers : Monitor.DetectorProcessor}
    (h : (init B C size m timers).Steps es s) {t : Round K} (ht : t ∈ rounds es) :
    frameOf t.call.msg ∈ captured es ∧ t.call.msg ∈ detected es := by
  obtain ⟨-, haccount⟩ := Steps.account h
  exact ⟨haccount.whole.mem_offered (Or.inl (List.mem_map_of_mem ht)),
    haccount.data.mem_offered (Or.inl (List.mem_map_of_mem ht))⟩

/-- With fewer than 2^31 people so far, an event shows the matched confirmed people. -/
theorem Steps.round_contents [IsStrictOrderedRing K] {m : C.L.Members}
    {timers : Monitor.DetectorProcessor} (h : (init B C size m timers).Steps es s)
    (hbound : createdCount ((rounds es).map Round.turn) < 2 ^ 31) {t : Round K} (ht : t ∈ rounds es)
    {e : MonitorEvent} (he : e ∈ t.pushed) : e.cameraSn = t.call.msg.camera_sn ∧
      e.timeStamp = t.call.msg.camera_time ∧ Contents C.P t e := by
  obtain ⟨before, after, tracker, hsplit, hrun, hupdates, hpushed⟩ := (Steps.monitored h).of_mem ht
  obtain ⟨hshown, rfl⟩ := hpushed e he
  refine ⟨rfl, rfl, ?_⟩
  -- fewer than 2^31 people so far, so that their ids are distinct
  obtain ⟨L, hL⟩ := hupdates.balanced (Run.tidy tidy_init hrun)
  rw [hsplit, List.map_append, List.map_cons, createdCount_append] at hbound
  have hacc := Run.accounted (trace_snoc.mpr ⟨tracker, hrun, hupdates⟩) (by
    rw [createdCount_append, createdCount_singleton]
    simp only [createdCount, List.map_cons, List.sum_cons] at hbound ⊢
    omega)
  exact Monitor.contents_of_balanced hL (Multiset.nodup_add.mp hacc.nodup).1 hshown

/-- **Where an event comes from.** Whatever the threads do: each message that was handled is what the
detector made of a frame that the loader captured; it brought at most one event; and the event
carries the serial number of the camera and the time of that frame, and shows exactly the confirmed
people that a box found on that frame was matched to.

It joins `Steps.round_made`, `pushed_le_one` and `Steps.round_contents`. -/
theorem Steps.events [IsStrictOrderedRing K] {m : C.L.Members} {timers : Monitor.DetectorProcessor}
    (h : (init B C size m timers).Steps es s)
    (hbound : createdCount ((rounds es).map Round.turn) < 2 ^ 31) :
    ∀ t ∈ rounds es, frameOf t.call.msg ∈ captured es ∧ t.call.msg ∈ detected es ∧
      t.pushed.length ≤ 1 ∧ ∀ e ∈ t.pushed, e.cameraSn = C.camera_sns ∧
        e.timeStamp = (frameOf t.call.msg).camera_time ∧ Contents C.P t e := by
  intro t ht
  obtain ⟨hcaptured, hdetected⟩ := Steps.round_made h ht
  obtain ⟨-, -, p₁, p₂, -, -, hstep, -⟩ := Trace.of_mem (Steps.monitored h) ht
  refine ⟨hcaptured, hdetected, pushed_le_one hstep, ?_⟩
  intro e he
  obtain ⟨hsn, htime, hcontents⟩ := Steps.round_contents h hbound ht he
  obtain ⟨a, id, m₁, m₂, -, hmade⟩ := Steps.captured_made h _ hcaptured
  exact ⟨hsn.trans (congrArg WhaleFrame.camera_sn hmade), htime, hcontents⟩

/-- The same person in five frames: the fifth brings an event. -/
theorem Steps.events_fiveRounds : ∃ es, ∃ s : Service (.list _) oneCamera,
    (init (.list _) oneCamera 10 (⟨0⟩ : RtspLoader) (.init 0 0)).Steps es s ∧
    ∃ t ∈ rounds es, ∃ e ∈ t.pushed, e.id = [0] ∧ e.cameraSn = "camera" ∧
      frameOf t.call.msg ∈ captured es ∧ Contents scene t e := by
  obtain ⟨⟨es, s⟩, hexec, hcheck⟩ : ∃ r, (init (.list _) oneCamera 10 (⟨0⟩ : RtspLoader)
      (.init 0 0)).exec (oneRound ++ oneRound ++ oneRound ++ oneRound ++ oneRound) = some r ∧
      (decide (createdCount ((rounds r.1).map Round.turn) = 1) && (rounds r.1).any fun t =>
        t.pushed.any fun e => decide (e.id = [0])) = true :=
    (Option.any_eq_true _ _).mp (by decide +kernel)
  simp only [Bool.and_eq_true, List.any_eq_true, decide_eq_true_eq] at hcheck
  obtain ⟨hcount, t, ht, e, he, hid⟩ := hcheck
  have hbound : createdCount ((rounds es).map Round.turn) < 2 ^ 31 := by
    rw [hcount]
    decide
  obtain ⟨hcaptured, -, -, hevents⟩ := Steps.events (exec_steps hexec) hbound t ht
  obtain ⟨hsn, -, hcontents⟩ := hevents e he
  exact ⟨es, s, exec_steps hexec, t, ht, e, he, hid, hsn, hcaptured, hcontents⟩

end Service

end EdgeFrame.Running
