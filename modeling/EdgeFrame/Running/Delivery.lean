/-
# EdgeFrame.Running.Delivery -- what becomes of the frames

A frame that a loader makes is on its way through a queue to the detector, and what the
detector makes of it through another queue to the monitor, unless it is dropped where a
queue is full, or left out. Both stretches keep the order in which things were put in,
whatever the threads do.

`Sound` is what holds between the steps, and `Shift` what one step does to the two
stretches. A message of the wrong kind, or a push that the library refuses, is not among
its cases.

A stretch is what the producer holds, the queue, and what the consumer holds, read from the
far end (`framesInside`, `dataInside`). `Sound.step` does two things at once, for one step of
any thread: the service stays sound, and the stretches shift. From it the account of a
run follows by rules of `Lib.Channel` (`Account.step`): what was put in, in its order, is
what has come out, what was dropped, and what is still inside.

The queues are one-reader, one-writer queues here. `Pipeline.Sharing` says of which
configurations that is true; the service of this module has one loader and one feature.
-/
import EdgeFrame.Running.Threads
import Mathlib

namespace EdgeFrame.Running

open EdgeFrame.Lib EdgeFrame.Track
open EdgeFrame.Api (Box)
open EdgeFrame.Monitor (WhaleData Round LoggerEvent)

variable {K : Type}

/-! ## The two stretches -/

/-- The frame that the loader holds. -/
def LoaderPc.hand : LoaderPc → List WhaleFrame
  | .size f => [f]
  | .push f => [f]
  | _ => []

/-- The frame that the detector holds before it detects. -/
def DetectorPc.frameHand : DetectorPc K → List WhaleFrame
  | .detect f => [f]
  | _ => []

/-- The data that the detector holds afterwards. -/
def DetectorPc.dataHand : DetectorPc K → List (WhaleData K)
  | .size d => [d]
  | .push d => [d]
  | _ => []

/-- The data that the monitor holds. -/
def MonitorPc.hand : MonitorPc K → List (WhaleData K)
  | .handle d => [d]
  | _ => []

/-- What the queue of the detector should hold. -/
def isFrame (x : Any K) : Prop := ∃ f, x = some (.frame f)

/-- What the queue of the monitor should hold. -/
def isData (x : Any K) : Prop := ∃ d, x = some (.data d)

/-- The loader holds one thing at a time. -/
theorem LoaderPc.length_hand (pc : LoaderPc) : pc.hand.length ≤ 1 := by
  cases pc <;> simp [LoaderPc.hand]

/-- The detector holds one thing at a time. -/
theorem DetectorPc.length_hands (pc : DetectorPc K) :
    pc.frameHand.length + pc.dataHand.length ≤ 1 := by
  cases pc <;> simp [DetectorPc.frameHand, DetectorPc.dataHand]

/-- So does the monitor. -/
theorem MonitorPc.length_hand (pc : MonitorPc K) : pc.hand.length ≤ 1 := by
  cases pc <;> simp [MonitorPc.hand]

/-! ## What a report says -/

/-- The frame that was made. -/
def Report.made : Report K → List WhaleFrame
  | .captured f => [f]
  | _ => []

/-- The frame that will not be detected on. -/
def Report.droppedFrame : Report K → List WhaleFrame
  | .fullFrame f => [f]
  | .skipped f => [f]
  | _ => []

/-- The data that were made of a frame. -/
def Report.data : Report K → List (WhaleData K)
  | .detected d _ => [d]
  | _ => []

/-- The data that will not be handled. -/
def Report.lostData : Report K → List (WhaleData K)
  | .fullData d => [d]
  | .failed d => [d]
  | _ => []

/-- The call of `handle` that returned. -/
def Report.round : Report K → List (Round K)
  | .handled t => [t]
  | _ => []

namespace Service

variable [Field K] {B : BoundedQueue (Any K)} {C : Config K}

/-- The frames between the loader and the detector, the one that is farthest first. -/
def framesInside (s : Service B C) : List WhaleFrame :=
  s.detectorPc.frameHand ++ s.detectQueue.items.filterMap castFrame ++ s.loaderPc.hand

/-- The data between the detector and the monitor. -/
def dataInside (s : Service B C) : List (WhaleData K) :=
  s.monitorPc.hand ++ s.monitorQueue.items.filterMap castData ++ s.detectorPc.dataHand

/-- Between the steps: the queues hold what their consumers expect, and a thread that is about to
push or to pop can.

The links are those of `Lib.Channel`: at most `size` things in a queue, all of one kind, and room or
something to take for a thread that has tested for it. -/
structure Sound (size : Nat) (s : Service B C) : Prop where
  detect : s.detectQueue.Link size isFrame (∃ f, s.loaderPc = .push f) (s.detectorPc = .pop)
  monitor : s.monitorQueue.Link size isData (∃ d, s.detectorPc = .push d) (s.monitorPc = .pop)

/-- What a step of `s` does to the two stretches, and what it reports.

The two lists before and the two lists after are those of the stretches; the reports in between say
what has left them. -/
inductive Shift (s : Service B C) : List WhaleFrame → List (WhaleData K) → List (Report K) →
    List WhaleFrame → List (WhaleData K) → Prop
  | quiet (fs ds) : Shift s fs ds [] fs ds
  | waiting (fs ds) : Shift s fs ds [.waiting] fs ds
  | captured (fs ds a id m) (hpass : C.L.pass a s.members = .push id m) :
    Shift s fs ds [.captured (makeFrame C a id)] (fs ++ [makeFrame C a id]) ds
  | fullFrame (fs ds f) (hfull : s.detectQueue.full = true) :
    Shift s (fs ++ [f]) ds [.fullFrame f] fs ds
  | skipped (f fs ds) (hempty : emptyImage f.cvImage = true) :
    Shift s (f :: fs) ds [.skipped f] fs ds
  | detected (d fs ds events) : Shift s (frameOf d :: fs) ds [.detected d events] fs (ds ++ [d])
  | fullData (fs ds d) (hfull : s.monitorQueue.full = true) :
    Shift s fs (ds ++ [d]) [.fullData d] fs ds
  | handled (t : Round K) (fs ds) : Shift s fs (t.call.msg :: ds) [.handled t] fs ds
  | failed (d fs ds) : Shift s fs (d :: ds) [.failed d] fs ds

variable {size : Nat} {s s' : Service B C} {rs : List (Report K)}

/-- At the start the queues are empty and no thread holds anything. -/
theorem sound_init (m : C.L.Members) (timers : Monitor.DetectorProcessor) :
    Sound size (init B C size m timers) where
  detect := Queue.Link.new.imp (fun ⟨_, h⟩ => by cases h) (fun h => by cases h)
  monitor := Queue.Link.new.imp (fun ⟨_, h⟩ => by cases h) (fun h => by cases h)

/-! ## One step -/

/-- A step that leaves both stretches as they are. -/
theorem Shift.of_eq {fs fs' : List WhaleFrame} {ds ds' : List (WhaleData K)} (hfs : fs' = fs)
    (hds : ds' = ds) : Shift s fs ds [] fs' ds' := by
  rw [hfs, hds]
  exact .quiet fs ds

/-- Where the loader goes on to something else than a push, and the queues are untouched. -/
theorem Sound.loaderPc {pc : LoaderPc} {m : C.L.Members} (hs : s.Sound size) (hpc : ∀ f, pc ≠ .push f) :
    Sound size { s with loaderPc := pc, members := m } where
  detect := hs.detect.imp (fun ⟨f, hf⟩ => absurd hf (hpc f)) id
  monitor := hs.monitor

/-- **A step of the loader.** -/
theorem Sound.loader (hs : s.Sound size) {a : Answer} (h : s.loaderStep a = some (s', rs)) :
    s'.Sound size ∧ Shift s s.framesInside s.dataInside rs s'.framesInside s'.dataInside := by
  cases hpc : s.loaderPc with
  | head =>
    simp only [loaderStep, hpc, Option.some.injEq, Prod.mk.injEq] at h
    obtain ⟨rfl, rfl⟩ := h
    refine ⟨hs.loaderPc fun f => by split <;> simp, Shift.of_eq ?_ rfl⟩
    cases hquit : s.sys_quit <;> simp [framesInside, hpc, LoaderPc.hand]
  | read =>
    simp only [loaderStep, hpc, read] at h
    split at h
    -- the frame enters the first stretch where it is made
    · rename_i id m hpass
      cases h
      refine ⟨hs.loaderPc fun f => by simp, ?_⟩
      simpa [framesInside, dataInside, hpc, LoaderPc.hand] using
        Shift.captured s.framesInside s.dataInside a id m hpass
    · cases h
      refine ⟨hs.loaderPc fun f => by simp, Shift.of_eq ?_ rfl⟩
      simp [framesInside, hpc, LoaderPc.hand]
    · cases h
      refine ⟨hs.loaderPc fun f => by simp, Shift.of_eq ?_ rfl⟩
      simp [framesInside, hpc, LoaderPc.hand]
    · cases h
      refine ⟨hs.loaderPc fun f => by simp, Shift.of_eq ?_ rfl⟩
      simp [framesInside, hpc, LoaderPc.hand]
    · cases h
  | reopen =>
    simp only [loaderStep, hpc] at h
    split at h
    · cases h
      refine ⟨hs.loaderPc fun f => by simp, Shift.of_eq ?_ rfl⟩
      simp [framesInside, hpc, LoaderPc.hand]
    · cases h
      exact ⟨hs, Shift.waiting _ _⟩
  | size f =>
    simp only [loaderStep, hpc] at h
    split at h
    · rename_i hfull
      cases h
      refine ⟨hs.loaderPc fun f => by simp, ?_⟩
      -- the frame is given up at the full queue
      simpa [framesInside, dataInside, hpc, LoaderPc.hand] using Shift.fullFrame
        (s.detectorPc.frameHand ++ s.detectQueue.items.filterMap castFrame) s.dataInside f hfull
    · rename_i hroom
      cases h
      -- from here on there is room, since nobody else pushes
      refine ⟨⟨hs.detect.saw_room (Bool.eq_false_iff.mpr hroom) _, hs.monitor⟩,
        Shift.of_eq ?_ rfl⟩
      simp [framesInside, hpc, LoaderPc.hand]
  | push f =>
    obtain ⟨htaken, hitems, hlink⟩ :=
      hs.detect.implPush ⟨f, hpc⟩ (t := some (.frame f)) ⟨f, rfl⟩
    simp only [loaderStep, hpc, htaken, if_true, Option.some.injEq, Prod.mk.injEq] at h
    obtain ⟨rfl, rfl⟩ := h
    refine ⟨⟨hlink.imp (fun ⟨_, hf⟩ => by cases hf) id, hs.monitor⟩, Shift.of_eq ?_ rfl⟩
    simp [framesInside, hpc, LoaderPc.hand, hitems, List.filterMap_append, castFrame]
  | quit =>
    -- `sys_quit` is no part of either stretch
    simp only [loaderStep, hpc, Option.some.injEq, Prod.mk.injEq] at h
    obtain ⟨rfl, rfl⟩ := h
    refine ⟨⟨hs.detect.imp (fun ⟨_, hf⟩ => by cases hf) id, hs.monitor⟩, Shift.of_eq ?_ rfl⟩
    simp [framesInside, hpc, LoaderPc.hand]
  | ended =>
    simp only [loaderStep, hpc] at h
    cases h

/-- Where the detector goes on with the queues as they are, and neither to a push nor to a pop. -/
theorem Sound.detectorPc {pc : DetectorPc K} {timers : Monitor.DetectorProcessor} (hs : s.Sound size)
    (hpush : ∀ d, pc ≠ .push d) (hpop : pc ≠ .pop) :
    Sound size { s with detectorPc := pc, timers := timers } where
  detect := hs.detect.imp id fun h => absurd h hpop
  monitor := hs.monitor.imp (fun ⟨d, hd⟩ => absurd hd (hpush d)) id

/-- **A step of the detector.** -/
theorem Sound.detector (hs : s.Sound size) {object_boxes : List (Box K)}
    (h : s.detectorStep object_boxes = some (s', rs)) :
    s'.Sound size ∧ Shift s s.framesInside s.dataInside rs s'.framesInside s'.dataInside := by
  cases hpc : s.detectorPc with
  | head =>
    simp only [detectorStep, hpc, Option.some.injEq, Prod.mk.injEq] at h
    obtain ⟨rfl, rfl⟩ := h
    refine ⟨hs.detectorPc (fun d => by split <;> simp) (by split <;> simp), Shift.of_eq ?_ ?_⟩
    · cases hquit : s.sys_quit <;> simp [framesInside, hpc, DetectorPc.frameHand]
    · cases hquit : s.sys_quit <;> simp [dataInside, hpc, DetectorPc.dataHand]
  | empty =>
    simp only [detectorStep, hpc, Option.some.injEq, Prod.mk.injEq] at h
    obtain ⟨rfl, rfl⟩ := h
    cases hempty : s.detectQueue.Empty with
    | true =>
      -- an empty queue is looked at again
      refine ⟨hs.detectorPc (by simp) (by simp), Shift.of_eq ?_ ?_⟩
      · simp [framesInside, hpc, DetectorPc.frameHand]
      · simp [dataInside, hpc, DetectorPc.dataHand]
    | false =>
      -- from here on there is something to pop, since nobody else pops
      refine ⟨⟨hs.detect.saw_some hempty _, hs.monitor.imp (by simp) id⟩, Shift.of_eq ?_ ?_⟩
      · simp [framesInside, hpc, DetectorPc.frameHand]
      · simp [dataInside, hpc, DetectorPc.dataHand]
  | pop =>
    obtain ⟨x, xs, hitems, ⟨f, rfl⟩, hx, hxs, hlink⟩ := hs.detect.Pop hpc none
    simp only [detectorStep, hpc, detectorPop, hx, castFrame, Option.some.injEq] at h
    split at h
    -- a frame without an image is left out
    · rename_i hempty
      cases h
      refine ⟨⟨hlink.imp id (by simp), hs.monitor.imp (by simp) id⟩, ?_⟩
      simpa [framesInside, dataInside, hpc, DetectorPc.frameHand, DetectorPc.dataHand, hitems, hxs,
        castFrame] using Shift.skipped f _ s.dataInside hempty
    · cases h
      refine ⟨⟨hlink.imp id (by simp), hs.monitor.imp (by simp) id⟩, Shift.of_eq ?_ ?_⟩
      · simp [framesInside, hpc, DetectorPc.frameHand, hitems, hxs, castFrame]
      · simp [dataInside, hpc, DetectorPc.dataHand]
  | detect f =>
    simp only [detectorStep, hpc, Option.some.injEq, Prod.mk.injEq] at h
    obtain ⟨rfl, rfl⟩ := h
    refine ⟨hs.detectorPc (by simp) (by simp), ?_⟩
    simpa [framesInside, dataInside, hpc, DetectorPc.frameHand, DetectorPc.dataHand, frameOf,
      makeData] using Shift.detected (makeData object_boxes f) _ s.dataInside _
  | size d =>
    simp only [detectorStep, hpc] at h
    split at h
    · rename_i hfull
      cases h
      refine ⟨hs.detectorPc (by simp) (by simp), ?_⟩
      -- the data are given up at the full queue
      simpa [framesInside, dataInside, hpc, DetectorPc.frameHand, DetectorPc.dataHand] using
        Shift.fullData s.framesInside (s.monitorPc.hand ++ s.monitorQueue.items.filterMap castData) d
          hfull
    · rename_i hroom
      cases h
      -- from here on there is room, since nobody else pushes
      refine ⟨⟨hs.detect.imp id (by simp), hs.monitor.saw_room (Bool.eq_false_iff.mpr hroom) _⟩,
        Shift.of_eq ?_ ?_⟩
      · simp [framesInside, hpc, DetectorPc.frameHand]
      · simp [dataInside, hpc, DetectorPc.dataHand]
  | push d =>
    obtain ⟨htaken, hitems, hlink⟩ := hs.monitor.implPush ⟨d, hpc⟩ (t := some (.data d)) ⟨d, rfl⟩
    simp only [detectorStep, hpc, htaken, if_true, Option.some.injEq, Prod.mk.injEq] at h
    obtain ⟨rfl, rfl⟩ := h
    refine ⟨⟨hs.detect.imp id (by simp), hlink.imp (by simp) id⟩, Shift.of_eq ?_ ?_⟩
    · simp [framesInside, hpc, DetectorPc.frameHand]
    · simp [dataInside, hpc, DetectorPc.dataHand, hitems, List.filterMap_append, castData]
  | ended =>
    simp only [detectorStep, hpc] at h
    cases h

variable [LinearOrder K]

/-- **A step of the monitor.** -/
theorem Sound.monitorThread (hs : s.Sound size) {memory : Nat → Unassigned K}
    (h : s.monitorStep memory = some (s', rs)) :
    s'.Sound size ∧ Shift s s.framesInside s.dataInside rs s'.framesInside s'.dataInside := by
  cases hpc : s.monitorPc with
  | head =>
    simp only [monitorStep, hpc, Option.some.injEq, Prod.mk.injEq] at h
    obtain ⟨rfl, rfl⟩ := h
    refine ⟨⟨hs.detect, hs.monitor.imp id fun hpop => ?_⟩, Shift.of_eq rfl ?_⟩
    · split at hpop <;> cases hpop
    · cases hquit : s.sys_quit <;> simp [dataInside, hpc, MonitorPc.hand]
  | empty =>
    simp only [monitorStep, hpc, Option.some.injEq, Prod.mk.injEq] at h
    obtain ⟨rfl, rfl⟩ := h
    cases hempty : s.monitorQueue.Empty with
    | true =>
      refine ⟨⟨hs.detect, hs.monitor.imp id (by simp)⟩, Shift.of_eq rfl ?_⟩
      simp [dataInside, hpc, MonitorPc.hand]
    | false =>
      -- the queue was seen not empty, and only this thread takes from it
      refine ⟨⟨hs.detect, hs.monitor.saw_some hempty _⟩, Shift.of_eq rfl ?_⟩
      simp [dataInside, hpc, MonitorPc.hand]
  | pop =>
    -- so the pop finds an item, and the cast finds data
    obtain ⟨x, xs, hitems, ⟨d, rfl⟩, hx, hxs, hlink⟩ := hs.monitor.Pop hpc none
    simp only [monitorStep, hpc, monitorPop, hx, castData, Option.some.injEq, Prod.mk.injEq] at h
    obtain ⟨rfl, rfl⟩ := h
    refine ⟨⟨hs.detect, hlink.imp id (by simp)⟩, Shift.of_eq rfl ?_⟩
    simp [dataInside, hpc, MonitorPc.hand, hitems, hxs, castData]
  | handle d =>
    simp only [monitorStep, hpc, handleStep, Option.some.injEq] at h
    split at h
    · cases h
      refine ⟨⟨hs.detect, hs.monitor.imp id (by simp)⟩, ?_⟩
      simpa [framesInside, dataInside, hpc, MonitorPc.hand] using
        Shift.handled ⟨⟨d, memory⟩, _, _⟩ s.framesInside _
    -- a handle that fails loses its data, as `Shift.failed` books it
    · cases h
      refine ⟨⟨hs.detect, hs.monitor.imp id (by simp)⟩, ?_⟩
      simpa [framesInside, dataInside, hpc, MonitorPc.hand] using Shift.failed d s.framesInside _
  | ended =>
    simp only [monitorStep, hpc] at h
    cases h

/-- **What one step does**: it leaves the service sound, and shifts the two stretches.

By the thread that takes the step, `Sound.loader`, `Sound.detector` or `Sound.monitorThread`. -/
theorem Sound.step {e : Move K × List (Report K)} (hs : s.Sound size) (h : s.Step e s') :
    s'.Sound size ∧ Shift s s.framesInside s.dataInside e.2 s'.framesInside s'.dataInside := by
  obtain ⟨m, rs⟩ := e
  cases m with
  | loader a => exact hs.loader h
  | detector object_boxes => exact hs.detector h
  | monitor memory => exact hs.monitorThread h
  | stopAll =>
    cases h
    exact ⟨⟨hs.detect, hs.monitor⟩, Shift.quiet _ _⟩

/-! ## Whole runs -/

variable {es es' : List (Move K × List (Report K))}

/-- What the reports of a run say, in order. -/
def collect {β : Type} (f : Report K → List β) (es : List (Move K × List (Report K))) : List β :=
  es.flatMap fun e => e.2.flatMap f

omit [Field K] [LinearOrder K] in
/-- What two stretches of a run say. -/
theorem collect_append {β : Type} (f : Report K → List β) :
    collect f (es ++ es') = collect f es ++ collect f es' := List.flatMap_append

omit [Field K] [LinearOrder K] in
/-- What one more step says. -/
theorem collect_snoc {β : Type} (f : Report K → List β) (e : Move K × List (Report K)) :
    collect f (es ++ [e]) = collect f es ++ e.2.flatMap f := by
  rw [collect_append]
  exact congrArg (collect f es ++ ·) (List.append_nil _)

/-- The frames that were made. -/
def captured (es : List (Move K × List (Report K))) : List WhaleFrame := collect Report.made es

/-- The frames that did not get to be detected on. -/
def droppedFrames (es : List (Move K × List (Report K))) : List WhaleFrame :=
  collect Report.droppedFrame es

/-- What the detector made of the frames. -/
def detected (es : List (Move K × List (Report K))) : List (WhaleData K) :=
  collect Report.data es

/-- The data that did not get to be handled. -/
def droppedData (es : List (Move K × List (Report K))) : List (WhaleData K) :=
  collect Report.lostData es

/-- The calls of `handle` that returned. -/
def rounds (es : List (Move K × List (Report K))) : List (Round K) := collect Report.round es

/-- The account of a run: what became of the frames, and of what was detected on them. -/
structure Account (es : List (Move K × List (Report K))) (s : Service B C) : Prop where
  frames : Conveys (captured es) ((detected es).map frameOf) s.framesInside (droppedFrames es)
  data : Conveys (detected es) ((rounds es).map (·.call.msg)) s.dataInside (droppedData es)

omit [LinearOrder K] in
/-- The account is kept: each case of `Shift` is a rule of `Conveys` for one of the stretches, or for
both. -/
theorem Account.step {e : Move K × List (Report K)} (h : Account es s)
    (hshift : Shift s s.framesInside s.dataInside e.2 s'.framesInside s'.dataInside) :
    Account (es ++ [e]) s' := by
  obtain ⟨hframes, hdata⟩ := h
  rw [captured, detected, droppedFrames] at hframes
  rw [detected, rounds, droppedData] at hdata
  constructor
  · rw [captured, detected, droppedFrames, collect_snoc, collect_snoc, collect_snoc]
    generalize s.framesInside = fs, s.dataInside = ds, e.2 = rs, s'.framesInside = fs',
      s'.dataInside = ds' at hshift hframes
    cases hshift with
    | captured => simpa [Report.made, Report.data, Report.droppedFrame] using hframes.enter _
    | fullFrame => simpa [Report.made, Report.data, Report.droppedFrame] using hframes.drop fs' []
    | skipped => simpa [Report.made, Report.data, Report.droppedFrame] using hframes.drop [] fs'
    | detected => simpa [Report.made, Report.data, Report.droppedFrame] using hframes.leave
    | _ => simpa [Report.made, Report.data, Report.droppedFrame] using hframes
  · rw [detected, rounds, droppedData, collect_snoc, collect_snoc, collect_snoc]
    generalize s.framesInside = fs, s.dataInside = ds, e.2 = rs, s'.framesInside = fs',
      s'.dataInside = ds' at hshift hdata
    cases hshift with
    | detected d => simpa [Report.data, Report.round, Report.lostData] using hdata.enter d
    | fullData => simpa [Report.data, Report.round, Report.lostData] using hdata.drop ds' []
    | handled => simpa [Report.data, Report.round, Report.lostData] using hdata.leave
    | failed => simpa [Report.data, Report.round, Report.lostData] using hdata.drop [] ds'
    | _ => simpa [Report.data, Report.round, Report.lostData] using hdata

omit [LinearOrder K] in
theorem account_init (m : C.L.Members) (timers : Monitor.DetectorProcessor) :
    Account [] (init B C size m timers) := by
  have hframes : (init B C size m timers).framesInside = [] := by
    simp [framesInside, init, LoaderPc.hand, DetectorPc.frameHand]
  have hdata : (init B C size m timers).dataInside = [] := by
    simp [dataInside, init, MonitorPc.hand, DetectorPc.dataHand]
  exact ⟨hframes ▸ Conveys.nil, hdata ▸ Conveys.nil⟩

theorem Steps.account {m : C.L.Members} {timers : Monitor.DetectorProcessor}
    (h : (init B C size m timers).Steps es s) : s.Sound size ∧ Account es s := by
  refine Trace.history (H := fun es s => s.Sound size ∧ Account es s)
    ⟨sound_init m timers, account_init m timers⟩ ?_ h
  intro es s e s' _ ⟨hs, haccount⟩ hstep
  obtain ⟨hs', hshift⟩ := hs.step hstep
  exact ⟨hs', haccount.step hshift⟩

/-- The frames on their way, the one that is farthest first. -/
def inFlight (s : Service B C) : List WhaleFrame := s.dataInside.map frameOf ++ s.framesInside

omit [LinearOrder K] in
/-- Each queue holds at most `size` messages, and each thread one. -/
theorem Sound.length_inFlight (hs : s.Sound size) : s.inFlight.length ≤ 2 * size + 3 := by
  have hframes : (s.detectQueue.items.filterMap castFrame).length ≤ size :=
    (List.length_filterMap_le ..).trans (hs.detect.cap ▸ s.detectQueue.length_items_le)
  have hdata : (s.monitorQueue.items.filterMap castData).length ≤ size :=
    (List.length_filterMap_le ..).trans (hs.monitor.cap ▸ s.monitorQueue.length_items_le)
  have hloader := s.loaderPc.length_hand
  have hdetector := s.detectorPc.length_hands
  have hmonitor := s.monitorPc.length_hand
  simp only [inFlight, framesInside, dataInside, List.length_append, List.length_map]
  omega

omit [LinearOrder K] in
/-- The two stretches together. -/
theorem Account.whole (h : Account es s) :
    Conveys (captured es) ((rounds es).map fun t => frameOf t.call.msg) s.inFlight
      ((droppedData es).map frameOf ++ droppedFrames es) := by
  have hdata := h.data.map frameOf
  rw [List.map_map] at hdata
  exact h.frames.trans hdata

/-- **Delivery.** Whatever the order in which the threads take their steps, and at every moment: the
frames whose data have been handled are the first ones to have come through, in the order in which the
loader made them and each once; every other frame is on its way, behind them in the same order, or was
dropped; what was handled is what the detector made of these frames, in its order; and no more than
what fills the two queues and the hands of the three threads is on its way. -/
theorem Steps.delivers {m : C.L.Members} {timers : Monitor.DetectorProcessor}
    (h : (init B C size m timers).Steps es s) :
    Conveys (captured es) ((rounds es).map fun t => frameOf t.call.msg) s.inFlight
      ((droppedData es).map frameOf ++ droppedFrames es) ∧
    ((rounds es).map (·.call.msg)).Sublist (detected es) ∧ s.inFlight.length ≤ 2 * size + 3 := by
  obtain ⟨hs, haccount⟩ := Steps.account h
  exact ⟨haccount.whole, haccount.data.out_sublist, hs.length_inFlight⟩

/-- Two frames on the way to a monitor that shows everyone in every frame. -/
def oneCamera : Config ℚ := ⟨rtsp, "camera", scene, 1⟩

def image : Answer := ⟨true, ⟨540, 960, [0]⟩, 40, ⟨0, true, true⟩, true⟩

def oneRound : List (Move ℚ) :=
  List.replicate 4 (.loader image) ++ List.replicate 6 (.detector [⟨100, 100, 120, 140, 9 / 10, 1⟩]) ++
    List.replicate 4 (.monitor fun _ => ⟨0, 0, ⟨0, 0, 0⟩, ⟨0, 0, 0⟩, 0, 0⟩)

/-- One frame is handled, and the next is captured. -/
theorem Steps.delivers_oneRound : ∃ es, ∃ s : Service (.list _) oneCamera,
    (init (.list _) oneCamera 10 (⟨0⟩ : RtspLoader) (.init 0 0)).Steps es s ∧
    (rounds es).length = 1 ∧ s.inFlight.length = 1 ∧
    Conveys (captured es) ((rounds es).map fun t => frameOf t.call.msg) s.inFlight
      ((droppedData es).map frameOf ++ droppedFrames es) := by
  obtain ⟨⟨es, s⟩, hexec, hcheck⟩ : ∃ r, (init (.list _) oneCamera 10 (⟨0⟩ : RtspLoader)
      (.init 0 0)).exec (oneRound ++ [.loader image, .loader image]) = some r ∧
      decide ((rounds r.1).length = 1 ∧ r.2.inFlight.length = 1) = true :=
    (Option.any_eq_true _ _).mp (by decide +kernel)
  obtain ⟨hrounds, hinFlight⟩ := of_decide_eq_true hcheck
  exact ⟨es, s, exec_steps hexec, hrounds, hinFlight, (Steps.delivers (exec_steps hexec)).1⟩

/-! ## Losses -/

/-- Every captured frame was made in a pass of the loader. -/
theorem Steps.captured_made {m : C.L.Members} {timers : Monitor.DetectorProcessor}
    (h : (init B C size m timers).Steps es s) : ∀ f ∈ captured es, ∃ a id m₁ m₂,
      C.L.pass a m₁ = .push id m₂ ∧ f = makeFrame C a id := by
  refine Trace.history (H := fun es _ => ∀ f ∈ captured es, ∃ a id m₁ m₂,
    C.L.pass a m₁ = .push id m₂ ∧ f = makeFrame C a id) (fun f hf => by cases hf) ?_ h
  intro es s e s' hes ih hstep f hf
  rw [captured, collect_snoc, List.mem_append] at hf
  rcases hf with hf | hf
  · exact ih f hf
  · have hshift := ((Steps.account hes).1.step hstep).2
    generalize s.framesInside = fs, s.dataInside = ds, e.2 = rs, s'.framesInside = fs',
      s'.dataInside = ds' at hshift hf
    cases hshift with
    | captured fs ds a id m₂ hpass =>
      obtain rfl : f = makeFrame C a id := by simpa [Report.made] using hf
      exact ⟨a, id, s.members, m₂, hpass, rfl⟩
    | _ => simp [Report.made] at hf

omit [LinearOrder K] in
/-- The reports of a shift: what is dropped is dropped at a full queue, what is left out has no
image. -/
theorem Shift.reports_at_full {fs fs' : List WhaleFrame} {ds ds' : List (WhaleData K)}
    (h : Shift s fs ds rs fs' ds') : .badCast ∉ rs ∧ .refused ∉ rs ∧
      (∀ f, .fullFrame f ∈ rs → s.detectQueue.full = true) ∧
      (∀ d, .fullData d ∈ rs → s.monitorQueue.full = true) ∧
      ∀ f, .skipped f ∈ rs → emptyImage f.cvImage = true ∧ f ∈ fs := by
  cases h <;> simp_all

/-- **Losses.** In every run a frame or its data are only dropped at a moment at which the queue in
front is full; no thread ever ends over a message of the wrong kind or an empty queue, and the library
never refuses what a thread pushes after its own test. A loader that looks at its images never has one
of its frames left out.

Dropped is what a thread leaves out in front of a full queue. The data of a `handle` that fails are not
counted as dropped, though they are lost as well (`lostData`): they end the monitor thread.

It rests on the account of the run: every step is a `Shift` of the frames and data on their way, and a
shift that reports a loss starts at a full queue (`reports_at_full`). -/
theorem Steps.losses {m : C.L.Members} {timers : Monitor.DetectorProcessor}
    (h : (init B C size m timers).Steps es s) {before after : List (Move K × List (Report K))}
    {e : Move K × List (Report K)} (he : es = before ++ e :: after) :
    ∃ s₁, (init B C size m timers).Steps before s₁ ∧ .badCast ∉ e.2 ∧ .refused ∉ e.2 ∧
      (∀ f, .fullFrame f ∈ e.2 → s₁.detectQueue.items.length = size) ∧
      (∀ d, .fullData d ∈ e.2 → s₁.monitorQueue.items.length = size) ∧
      ((∀ a m id m', C.L.pass a m = .push id m' → emptyImage a.image = false) →
        ∀ f, .skipped f ∉ e.2) := by
  subst he
  obtain ⟨s₁, hbefore, s₂, hstep, -⟩ := trace_append.mp h
  obtain ⟨hs, haccount⟩ := Steps.account hbefore
  obtain ⟨hcast, hrefused, hframe, hdata, hskipped⟩ := (hs.step hstep).2.reports_at_full
  refine ⟨s₁, hbefore, hcast, hrefused, fun f hf => ?_, fun d hd => ?_, fun hlooks f hf => ?_⟩
  · exact (Queue.full_eq_true.mp (hframe f hf)).trans hs.detect.cap
  · exact (Queue.full_eq_true.mp (hdata d hd)).trans hs.monitor.cap
  · obtain ⟨hempty, hinside⟩ := hskipped f hf
    have hcaptured := haccount.frames.mem_offered (Or.inr (Or.inl hinside))
    obtain ⟨a, id, m₁, m₂, hpass, rfl⟩ := Steps.captured_made hbefore f hcaptured
    have himage : emptyImage a.image = true := hempty
    rw [hlooks a m₁ id m₂ hpass] at himage
    cases himage

/-- Two frames for a queue of one: the second is dropped, at the full queue. -/
theorem Steps.losses_fullQueue : ∃ es, ∃ s : Service (.list _) oneCamera, ∃ f before s₁,
    (init (.list _) oneCamera 1 (⟨0⟩ : RtspLoader) (.init 0 0)).Steps es s ∧ f ∈ droppedFrames es ∧
    (init (.list _) oneCamera 1 (⟨0⟩ : RtspLoader) (.init 0 0)).Steps before s₁ ∧
    s₁.detectQueue.items.length = 1 := by
  obtain ⟨⟨es, s⟩, hexec, hcheck⟩ : ∃ r, (init (.list _) oneCamera 1 (⟨0⟩ : RtspLoader)
      (.init 0 0)).exec (List.replicate 7 (.loader image)) = some r ∧
      decide ((droppedFrames r.1).length = 1) = true :=
    (Option.any_eq_true _ _).mp (by decide +kernel)
  obtain ⟨f, hf⟩ := List.length_eq_one_iff.mp (of_decide_eq_true hcheck)
  have hmem : f ∈ droppedFrames es := hf ▸ List.mem_singleton_self f
  obtain ⟨e, he, hf⟩ := List.mem_flatMap.mp hmem
  obtain ⟨r, hr, hf⟩ := List.mem_flatMap.mp hf
  obtain ⟨before, after, hsplit⟩ := List.append_of_mem he
  obtain ⟨s₁, hbefore, -, -, hfull, -, hskipped⟩ := Steps.losses (exec_steps hexec) hsplit
  refine ⟨es, s, f, before, s₁, exec_steps hexec, hmem, hbefore, ?_⟩
  cases r with
  | fullFrame g => exact hfull g hr
  | skipped g => exact absurd hr (hskipped (fun a m id m' => rtsp_looks) g)
  | _ => cases hf

end Service

end EdgeFrame.Running
