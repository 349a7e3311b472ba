/-
# EdgeFrame.Running.Threads -- the running service

A loader, the detector and the monitor, each in a thread of its own, with a queue between
each two of them. A thread does nothing with the others but through a queue or the flag
`sys_quit`, and every step here touches one of these at most once; a run interleaves the
steps of the three threads in any order, and a signal may set the flag at any time.

A step reports what a reader of the service would want to know of it. The images, the
clock, the boxes that are detected and the memory of new objects come from outside.

The events go to the queue of the dispatcher, which has two producers. It is outside of
this model: what is pushed to it is reported, and nothing comes back from there. Nothing
ever sets `stream_connect`, so that the video stream has no part either.
-/
import EdgeFrame.Monitor.Processor
import EdgeFrame.Monitor.Timers
import EdgeFrame.Running.Loaders
import EdgeFrame.Running.Queue
import Mathlib

namespace EdgeFrame.Running

open EdgeFrame.Lib EdgeFrame.Track
open EdgeFrame.Api (Box)
open EdgeFrame.Monitor (WhaleData Call Round MonitorEvent LoggerEvent)

variable {K : Type}

/-! ## Messages -/

/-- What may be in a `boost::any` of these queues. -/
inductive Message (K : Type) where
  | frame (frame : WhaleFrame)
  | data (data : WhaleData K)
  | logger (event : LoggerEvent)
  | monitor (event : MonitorEvent)

/-- `boost::any`, which starts empty. -/
abbrev Any (K : Type) := Option (Message K)

/-- `boost::any_cast<std::shared_ptr<WhaleFrame>>`, with no value where it throws. -/
def castFrame : Any K → Option WhaleFrame
  | some (.frame f) => some f
  | _ => none

/-- `boost::any_cast<std::shared_ptr<WhaleData>>`. -/
def castData : Any K → Option (WhaleData K)
  | some (.data d) => some d
  | _ => none

/-- `std::make_shared<WhaleData>(object_boxes, frame)`. -/
def makeData (object_boxes : List (Box K)) (f : WhaleFrame) : WhaleData K :=
  ⟨f.camera_sn, f.camera_time, f.frame_id, f.cvImage, object_boxes⟩

/-- `frame_`. -/
def frameOf (d : WhaleData K) : WhaleFrame := ⟨d.camera_time, d.cvImage, d.camera_sn, d.frame_id⟩

/-- What the timers of the detector read of a frame. -/
def timed (f : WhaleFrame) : Monitor.WhaleFrame :=
  ⟨f.camera_sn, f.camera_time.toInt, emptyImage f.cvImage⟩

/-! ## Where a thread stands -/

/-- The next statement of a loader. -/
inductive LoaderPc where
  /-- `if (gt->sys_quit)` -/
  | head
  /-- `capture_->read`, and what follows up to the push -/
  | read
  /-- the loop of `reopenCamera` -/
  | reopen
  /-- `if (Size() >= cap_)` in `Push` -/
  | size (frame : WhaleFrame)
  /-- `queue_impl_->push` -/
  | push (frame : WhaleFrame)
  /-- `gt->sys_quit = true` -/
  | quit
  | ended

/-- The next statement of `DetectorProcessor::run`. -/
inductive DetectorPc (K : Type) where
  | head
  /-- `if (input_queue_->Empty())` -/
  | empty
  /-- `input_queue_->Pop(context)`, and the cast -/
  | pop
  /-- from `detect` to the making of the data -/
  | detect (frame : WhaleFrame)
  | size (data : WhaleData K)
  | push (data : WhaleData K)
  | ended

/-- The next statement of `MonitorProcessor::run`. -/
inductive MonitorPc (K : Type) where
  | head
  | empty
  | pop
  /-- `handle(message)` -/
  | handle (message : WhaleData K)
  | ended

/-- What a step reports. -/
inductive Report (K : Type) where
  /-- an image was read, and made a frame -/
  | captured (frame : WhaleFrame)
  /-- the camera has not come back -/
  | waiting
  /-- the queue of the detector was full, and the frame is dropped -/
  | fullFrame (frame : WhaleFrame)
  /-- the detector leaves out a frame without an image -/
  | skipped (frame : WhaleFrame)
  /-- the detector has made data of a frame, and pushed the events of its timers -/
  | detected (data : WhaleData K) (events : List LoggerEvent)
  /-- the queue of the monitor was full, and the data are dropped -/
  | fullData (data : WhaleData K)
  /-- a message was handled, which may have pushed an event -/
  | handled (round : Round K)
  /-- handling a message failed, and the thread is at its end -/
  | failed (message : WhaleData K)
  /-- the library refused to take a message -/
  | refused
  /-- `any_cast` threw, and the thread is at its end -/
  | badCast

/-! ## The service -/

/-- What the service is started with. -/
structure Config (K : Type) [Field K] where
  L : Loader
  camera_sns : String
  P : Setup K
  monitor_interval : Int

variable [Field K] {B : BoundedQueue (Any K)} {C : Config K}

/-- The flag, the queues, the members of the processors, and where each thread stands. -/
structure Service (B : BoundedQueue (Any K)) (C : Config K) where
  sys_quit : Bool
  detectQueue : Queue B
  monitorQueue : Queue B
  loaderPc : LoaderPc
  members : C.L.Members
  detectorPc : DetectorPc K
  timers : Monitor.DetectorProcessor
  monitorPc : MonitorPc K
  processor : Monitor.MonitorProcessor K

namespace Service

/-- The threads enter their loops; `size` is `__MAX_IMAGE_QUEUE_SIZE__`. -/
def init (B : BoundedQueue (Any K)) (C : Config K) (size : Nat) (m : C.L.Members)
    (timers : Monitor.DetectorProcessor) : Service B C where
  sys_quit := false
  detectQueue := .new B size
  monitorQueue := .new B size
  loaderPc := .head
  members := m
  detectorPc := .head
  timers := timers
  monitorPc := .head
  processor := .init

/-! ### The loader -/

/-- The frame that a loader makes. -/
def makeFrame (C : Config K) (a : Answer) (id : Int) : WhaleFrame :=
  ⟨a.now, a.image, C.camera_sns, UInt64.ofInt id⟩

/-- `capture_->read` and what follows. -/
def read (s : Service B C) (a : Answer) : Option (Service B C × List (Report K)) :=
  match C.L.pass a s.members with
  | .push id m =>
    some ({ s with loaderPc := .size (makeFrame C a id), members := m },
      [.captured (makeFrame C a id)])
  | .again m => some ({ s with loaderPc := .head, members := m }, [])
  | .reopen m => some ({ s with loaderPc := .reopen, members := m }, [])
  | .quit => some ({ s with loaderPc := .quit }, [])
  | .fatal => none

/-- The next statement of the loader. -/
def loaderStep (s : Service B C) (a : Answer) : Option (Service B C × List (Report K)) :=
  match s.loaderPc with
  | .head => some ({ s with loaderPc := if s.sys_quit then .ended else .read }, [])
  | .read => s.read a
  | .reopen =>
    match C.L.retry a s.members with
    | some m => some ({ s with loaderPc := .head, members := m }, [])
    | none => some (s, [.waiting])
  | .size f =>
    if s.detectQueue.full then some ({ s with loaderPc := .head }, [.fullFrame f])
    else some ({ s with loaderPc := .push f }, [])
  | .push f =>
    let (taken, q) := s.detectQueue.implPush (some (.frame f))
    some ({ s with loaderPc := .head, detectQueue := q }, if taken then [] else [.refused])
  | .quit => some ({ s with loaderPc := .ended, sys_quit := true }, [])
  | .ended => none

/-! ### The detector -/

/-- `Pop` and the cast. -/
def detectorPop (s : Service B C) : Service B C × List (Report K) :=
  let (context, q) := s.detectQueue.Pop none
  match castFrame context with
  | none => ({ s with detectorPc := .ended, detectQueue := q }, [.badCast])
  | some f =>
    if emptyImage f.cvImage then ({ s with detectorPc := .head, detectQueue := q }, [.skipped f])
    else ({ s with detectorPc := .detect f, detectQueue := q }, [])

/-- The next statement of the detector; `object_boxes` is what `detect` finds. -/
def detectorStep (s : Service B C) (object_boxes : List (Box K)) :
    Option (Service B C × List (Report K)) :=
  match s.detectorPc with
  | .head => some ({ s with detectorPc := if s.sys_quit then .ended else .empty }, [])
  | .empty => some ({ s with detectorPc := if s.detectQueue.Empty then .head else .pop }, [])
  | .pop => some s.detectorPop
  | .detect f =>
    let (timers, events) := s.timers.process (timed f)
    some ({ s with detectorPc := .size (makeData object_boxes f), timers := timers },
      [.detected (makeData object_boxes f) events])
  | .size d =>
    if s.monitorQueue.full then some ({ s with detectorPc := .head }, [.fullData d])
    else some ({ s with detectorPc := .push d }, [])
  | .push d =>
    let (taken, q) := s.monitorQueue.implPush (some (.data d))
    some ({ s with detectorPc := .head, monitorQueue := q },
      if taken then [] else [.refused])
  | .ended => none

/-! ### The monitor -/

/-- `Pop` and the cast. -/
def monitorPop (s : Service B C) : Service B C × List (Report K) :=
  let (context, q) := s.monitorQueue.Pop none
  match castData context with
  | none => ({ s with monitorPc := .ended, monitorQueue := q }, [.badCast])
  | some d => ({ s with monitorPc := .handle d, monitorQueue := q }, [])

variable [LinearOrder K]

/-- `handle(message)`. An exception ends the thread. -/
def handleStep (s : Service B C) (d : WhaleData K) (memory : Nat → Unassigned K) :
    Service B C × List (Report K) :=
  match Monitor.handle C.P C.monitor_interval s.processor ⟨d, memory⟩ with
  | .ok (r, events, p) =>
    ({ s with monitorPc := .head, processor := p }, [.handled ⟨⟨d, memory⟩, r, events⟩])
  | .error _ => ({ s with monitorPc := .ended }, [.failed d])

/-- The next statement of the monitor. -/
def monitorStep (s : Service B C) (memory : Nat → Unassigned K) :
    Option (Service B C × List (Report K)) :=
  match s.monitorPc with
  | .head => some ({ s with monitorPc := if s.sys_quit then .ended else .empty }, [])
  | .empty => some ({ s with monitorPc := if s.monitorQueue.Empty then .head else .pop }, [])
  | .pop => some s.monitorPop
  | .handle d => some (s.handleStep d memory)
  | .ended => none

/-! ### Runs -/

/-- One step of the service, with what it is told from outside. -/
inductive Move (K : Type) where
  | loader (answer : Answer)
  | detector (object_boxes : List (Box K))
  | monitor (memory : Nat → Unassigned K)
  /-- `SolutionPipeline::StopAll`, called by the handler of a signal -/
  | stopAll

/-- A move, if the thread it belongs to can make it, and what it reports. -/
def step (s : Service B C) : Move K → Option (Service B C × List (Report K))
  | .loader a => s.loaderStep a
  | .detector object_boxes => s.detectorStep object_boxes
  | .monitor memory => s.monitorStep memory
  | .stopAll => some ({ s with sys_quit := true }, [])

/-- A step with its report. -/
def Step (s : Service B C) (e : Move K × List (Report K)) (s' : Service B C) : Prop :=
  s.step e.1 = some (s', e.2)

/-- Some interleaving leads from `s` to `s'`. -/
abbrev Steps (s : Service B C) (es : List (Move K × List (Report K))) (s' : Service B C) : Prop :=
  Trace Step s es s'

/-- The run that these moves make, if each can be made in its turn. -/
def exec (s : Service B C) : List (Move K) → Option (List (Move K × List (Report K)) × Service B C)
  | [] => some ([], s)
  | m :: ms => do
    let (s', rs) ← s.step m
    let (es, s'') ← exec s' ms
    return ((m, rs) :: es, s'')

theorem exec_steps {ms : List (Move K)} : ∀ {s s' : Service B C}
    {es : List (Move K × List (Report K))}, s.exec ms = some (es, s') → s.Steps es s' := by
  induction ms with
  | nil =>
    intro s s' es h
    cases h
    rfl
  | cons m ms ih =>
    intro s s' es h
    obtain ⟨⟨s₁, rs⟩, hstep, h⟩ := Option.bind_eq_some_iff.mp h
    obtain ⟨⟨es₁, s₂⟩, hrest, h⟩ := Option.bind_eq_some_iff.mp h
    cases h
    exact ⟨s₁, hstep, ih hrest⟩

end Service

end EdgeFrame.Running
