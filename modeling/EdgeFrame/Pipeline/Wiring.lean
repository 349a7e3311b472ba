/-
# EdgeFrame.Pipeline.Wiring -- how the processors of a configuration are wired

`ServiceDaemon::Loop` builds the processors of the configuration one after the other and
hands each to a thread. `buildProcessor` puts a queue into `QueueManager` under the
processor's name, unless there is one, and the `init` of a processor looks up, by name, the
queue it pops from and those it pushes to. What a processor pushes to in its `run` is then
settled, and the state after the start says which threads share a queue.
-/
import EdgeFrame.Lib.Registry
import Mathlib.Data.List.Infix

namespace EdgeFrame.Pipeline

open Lib

/-! ## Names -/

def WHALE_PROCESSOR_MONITOR : String := "MonitorProcessor"
def WHALE_PROCESSOR_DETECT : String := "DetectorProcessor"
def WHALE_PROCESSOR_DISPATCH : String := "DispatchProcessor"
def WHALE_PROCESSOR_RTSP : String := "RtspLoaderProcessor"
def WHALE_PROCESSOR_USBCAMERA : String := "UsbDeviceLoaderProcessor"
def WHALE_PROCESSOR_HISICAMERA : String := "HisiCameraProcessor"
def WHALE_PROCESSOR_LOCALVIDEO : String := "LocalVideoLoaderProcessor"
def WHALE_PROCESSOR_FLOWRPC : String := "FlowRpcAsynProcessor"
def WHALE_PROCESSOR_WEBSOCKETSTREAM : String := "WebsocketStreamProcessor"

/-- The feature pipeline. -/
def feature_map : Dict String (List String) :=
  AList.insert "monitor" [WHALE_PROCESSOR_MONITOR] ∅

def global_executor_names_ : List String := [WHALE_PROCESSOR_DISPATCH, WHALE_PROCESSOR_FLOWRPC]

def global_core_executor_names_ : List String := [WHALE_PROCESSOR_DETECT]

/-! ## Processors -/

/-- The classes that register with a `ProcessorFactory`. -/
inductive Kind where
  | monitor
  | detector
  | dispatch
  | flowRpcAsyn
  | usbDeviceLoader
  | rtspLoader
  | localVideoLoader
  deriving DecidableEq, Repr

/-- The name a constructor gives to its `Processor`. -/
def Kind.processor_name : Kind → String
  | .monitor => WHALE_PROCESSOR_MONITOR
  | .detector => WHALE_PROCESSOR_DETECT
  | .dispatch => WHALE_PROCESSOR_DISPATCH
  | .flowRpcAsyn => WHALE_PROCESSOR_FLOWRPC
  | .usbDeviceLoader => WHALE_PROCESSOR_USBCAMERA
  | .rtspLoader => WHALE_PROCESSOR_RTSP
  | .localVideoLoader => WHALE_PROCESSOR_LOCALVIDEO

/-- The name of the type, under which it registers. -/
def Kind.strTypeName : Kind → String
  | .monitor => "whale::vision::MonitorProcessor"
  | .detector => "whale::vision::DetectorProcessor"
  | .dispatch => "whale::vision::DispatchProcessor"
  | .flowRpcAsyn => "whale::vision::FlowRpcAsynProcessor"
  | .usbDeviceLoader => "whale::vision::UsbDeviceLoaderProcessor"
  | .rtspLoader => "whale::vision::RtspLoaderProcessor"
  | .localVideoLoader => "whale::vision::LocalVideoLoaderProcessor"

/-- There is one factory for the constructors without a parameter and one for those that take a
video input. -/
def create_func_map_ : Option String → List Kind
  | none => [.monitor, .detector, .dispatch, .flowRpcAsyn]
  | some _ => [.usbDeviceLoader, .rtspLoader, .localVideoLoader]

/-- `ProcessorBuild::MakeSharedProcessor`. -/
def MakeSharedProcessor (strTypeName : String) (params : Option String) : Option Kind :=
  (create_func_map_ params).find? fun kind => kind.strTypeName = strTypeName

/-- A queue is known by its number; `none` is the null pointer. -/
abbrev QueuePtr := Option Nat

/-- The state of a processor that `init` fills in. -/
structure Processor where
  kind : Kind
  params : Option String
  processor_name_ : String := kind.processor_name
  next_processor_name_ : String := ""
  input_queue_ : QueuePtr := none
  output_queue_ : QueuePtr := none
  /-- of a `DetectorProcessor` only -/
  next_processor_unit_ : Dict String QueuePtr := ∅

/-- What the start-up works on. -/
structure Wiring where
  feature_map : Dict String (List String) := feature_map
  /-- `QueueManager` -/
  queues : Registry String := .empty
  isLocalInput : Bool := false
  /-- the processors whose `run` was handed to the executor -/
  threads : List Processor := []

/-- Why the start-up ends the process. -/
inductive Stop where
  /-- `LOG(FATAL)`: the processor does not register -/
  | notRegistered (processor_name : String)
  /-- `LOG(FATAL)`: there is no video input -/
  | noVideoInput
  /-- `feature_map[feature][0]` of an empty vector -/
  | emptyPipeline (feature : String)
  deriving DecidableEq, Repr

/-! ## Initialisation -/

/-- `QueueManager::SafeGet`, which leaves `val` as it is when it finds nothing. -/
def SafeGet (queues : Registry String) (name : String) (val : QueuePtr) : QueuePtr :=
  match queues.lookup name with
  | none => val
  | some q => some q

namespace Processor

/-- The input queue of an `init`: the one under the processor's own name. -/
def getInput (queues : Registry String) (p : Processor) : Processor :=
  { p with input_queue_ := SafeGet queues p.processor_name_ p.input_queue_ }

/-- The output queue of an `init`. -/
def getOutput (queues : Registry String) (name : String) (p : Processor) : Processor :=
  { p with output_queue_ := SafeGet queues name p.output_queue_ }

end Processor

/-- It pops from its own queue and pushes to the dispatcher. -/
def MonitorProcessor.init (queues : Registry String) (p : Processor) : Processor :=
  (p.getInput queues).getOutput queues WHALE_PROCESSOR_DISPATCH

/-- It pops from its own queue. -/
def DispatchProcessor.init (queues : Registry String) (p : Processor) : Processor :=
  p.getInput queues

/-- It uses no queue of these. -/
def FlowRpcAsynProcessor.init (p : Processor) : Processor := p

/-- The loaders push to the detector. -/
def UsbDeviceLoaderProcessor.init (queues : Registry String) (p : Processor) : Processor :=
  p.getOutput queues WHALE_PROCESSOR_DETECT

def RtspLoaderProcessor.init (queues : Registry String) (p : Processor) : Processor :=
  p.getOutput queues WHALE_PROCESSOR_DETECT

def LocalVideoLoaderProcessor.init (queues : Registry String) (p : Processor) : Processor :=
  p.getOutput queues WHALE_PROCESSOR_DETECT

/-- The body of the loop of `DetectorProcessor::init`. -/
def DetectorProcessor.addNext (s : Wiring × Processor) (feature : String) :
    Except Stop (Wiring × Processor) :=
  -- the subscript inserts an empty pipeline for a name that the map does not have
  let pipeline := s.1.feature_map.subscript feature
  match pipeline.1[0]? with
  | none => .error (.emptyPipeline feature)
  | some base_processor =>
    let q := SafeGet s.1.queues base_processor none
    .ok ({ s.1 with feature_map := pipeline.2 },
      { s.2 with next_processor_unit_ := s.2.next_processor_unit_.insert base_processor q })

/-- It pops from its own queue, and has a next processor for every feature. -/
def DetectorProcessor.init (features : List String) (w : Wiring) (p : Processor) :
    Except Stop (Wiring × Processor) :=
  features.foldlM DetectorProcessor.addNext
    (w, (p.getInput w.queues).getOutput w.queues WHALE_PROCESSOR_DISPATCH)

/-- The virtual `init`. -/
def Processor.init (features : List String) (w : Wiring) (p : Processor) :
    Except Stop (Wiring × Processor) :=
  match p.kind with
  | .monitor => .ok (w, MonitorProcessor.init w.queues p)
  | .detector => DetectorProcessor.init features w p
  | .dispatch => .ok (w, DispatchProcessor.init w.queues p)
  | .flowRpcAsyn => .ok (w, FlowRpcAsynProcessor.init p)
  | .usbDeviceLoader => .ok (w, UsbDeviceLoaderProcessor.init w.queues p)
  | .rtspLoader => .ok (w, RtspLoaderProcessor.init w.queues p)
  | .localVideoLoader => .ok (w, LocalVideoLoaderProcessor.init w.queues p)

/-! ## The start-up -/

/-- A processor of the class with this name, whose queue is registered. -/
def buildProcessor (name next : String) (params : Option String) (w : Wiring) :
    Except Stop (Wiring × Processor) :=
  -- the class is found under its full name, the queue goes under the short one
  let processor_name := "whale::vision::" ++ name
  match MakeSharedProcessor processor_name params with
  | none => .error (.notRegistered processor_name)
  | some kind =>
    .ok ({ w with queues := w.queues.add name }, { kind, params, next_processor_name_ := next })

/-- The loop of `Build` over the rest of the pipeline. -/
def buildPipeline (features : List String) : List String → Wiring →
    Except Stop (Wiring × List Processor)
  | [], w => .ok (w, [])
  | name :: solution_process_vec, w => do
    -- the last processor of a pipeline hands over to the dispatcher
    let next := solution_process_vec.head?.getD WHALE_PROCESSOR_DISPATCH
    let built ← buildProcessor name next none w
    let ptr ← built.2.init features built.1
    let rest ← buildPipeline features solution_process_vec ptr.1
    return (rest.1, ptr.2 :: rest.2)

/-- `SolutionPipeline::Build`: with the executors of the pipeline. -/
def Build (features : List String) (solution_name_ : String) (w : Wiring) :
    Except Stop (Wiring × List Processor) :=
  let pipeline := w.feature_map.subscript solution_name_
  buildPipeline features pipeline.1 { w with feature_map := pipeline.2 }

/-- `SolutionPipeline::Start`. -/
def Start (executors_ : List Processor) (w : Wiring) : Wiring :=
  { w with threads := w.threads ++ executors_ }

/-- The body of the loop of `ServiceDaemon::Loop` over the features. -/
def buildFeature (features : List String) (w : Wiring) (feature : String) :
    Except Stop Wiring := do
  let built ← Build features feature w
  return Start built.2 built.1

/-- The body of the loops of `BuildAndStartGlobal` and `BuildAndStartCoreGlobal`. -/
def buildAndStart (features : List String) (w : Wiring) (name : String) : Except Stop Wiring := do
  let built ← buildProcessor name "" none w
  let ptr ← built.2.init features built.1
  return Start [ptr.2] ptr.1

/-- The global processors, one after the other. -/
def BuildAndStartGlobal (features : List String) (w : Wiring) : Except Stop Wiring :=
  global_executor_names_.foldlM (buildAndStart features) w

/-- And the detector. -/
def BuildAndStartCoreGlobal (features : List String) (w : Wiring) : Except Stop Wiring :=
  global_core_executor_names_.foldlM (buildAndStart features) w

/-- `s.find(t) != s.npos`. -/
def found (s t : String) : Bool := t.toList <:+: s.toList

/-- The `data_loader_name` of a video input; that of an rtmp stream stays empty. -/
def data_loader_name (input : String) : String :=
  if found input "rtsp" then WHALE_PROCESSOR_RTSP
  else if found input "/dev" then WHALE_PROCESSOR_USBCAMERA
  else if found input "rtmp" then ""
  else if input = "hisi" then WHALE_PROCESSOR_HISICAMERA
  else WHALE_PROCESSOR_LOCALVIDEO

/-- The body of the loop of `BuildVideoInput`; an input that is named twice keeps one executor. -/
def buildVideoInput (s : Wiring × Dict String Processor) (input : String) :
    Except Stop (Wiring × Dict String Processor) := do
  let name := data_loader_name input
  let isLocalInput := s.1.isLocalInput || decide (name = WHALE_PROCESSOR_LOCALVIDEO)
  let built ← buildProcessor name WHALE_PROCESSOR_DETECT (some input) { s.1 with isLocalInput }
  return (built.1, s.2.insert input built.2)

/-- `SolutionPipeline::BuildVideoInput`: with `global_video_input_executors_`. -/
def BuildVideoInput (video_input : List String) (w : Wiring) :
    Except Stop (Wiring × Dict String Processor) :=
  if video_input.length < 1 then .error .noVideoInput
  else video_input.foldlM buildVideoInput (w, ∅)

/-- `SolutionPipeline::StartVideoInput`: each thread begins with the `init` of its loader. -/
def StartVideoInput (features : List String) (executors : Dict String Processor) (w : Wiring) :
    Except Stop Wiring :=
  executors.entries.foldlM (fun w e => do
    let ptr ← Processor.init features w e.2
    return Start [ptr.2] ptr.1) w

/-- `ServiceDaemon::Loop` up to the core: the global processors and the features. -/
def buildFeatures (features : List String) : Except Stop Wiring := do
  let w ← BuildAndStartGlobal features {}
  features.foldlM (buildFeature features) w

/-- `ServiceDaemon::Loop` up to its waiting loop. -/
def Loop (features video_input : List String) : Except Stop Wiring := do
  let w ← buildFeatures features
  let w ← BuildAndStartCoreGlobal features w
  let inputs ← BuildVideoInput video_input w
  StartVideoInput features inputs.2 inputs.1

/-! ## Who shares a queue -/

/-- The queues that `run` pops from. -/
def Processor.pops (p : Processor) : List QueuePtr :=
  match p.kind with
  | .monitor | .detector | .dispatch => [p.input_queue_]
  | .flowRpcAsyn | .usbDeviceLoader | .rtspLoader | .localVideoLoader => []

/-- The queues that `run` pushes to; `queues` is where it finds `stream_queue`. -/
def Processor.pushes (queues : Registry String) (p : Processor) : List QueuePtr :=
  match p.kind with
  | .monitor | .rtspLoader | .localVideoLoader => [p.output_queue_]
  | .detector => p.output_queue_ :: SafeGet queues WHALE_PROCESSOR_WEBSOCKETSTREAM none ::
      p.next_processor_unit_.entries.map (·.2)
  | .usbDeviceLoader => [p.output_queue_, SafeGet queues WHALE_PROCESSOR_WEBSOCKETSTREAM none]
  | .dispatch | .flowRpcAsyn => []

namespace Wiring

/-- How many threads push to the queue `q`. -/
def producers (w : Wiring) (q : Nat) : Nat :=
  w.threads.countP fun p => some q ∈ p.pushes w.queues

/-- How many threads pop from the queue `q`. -/
def consumers (w : Wiring) (q : Nat) : Nat :=
  w.threads.countP fun p => some q ∈ p.pops

/-- What `boost::lockfree::spsc_queue` needs of every queue that is registered. -/
def Spsc (w : Wiring) : Prop :=
  ∀ name q, w.queues.lookup name = some q → w.producers q ≤ 1 ∧ w.consumers q ≤ 1

end Wiring

end EdgeFrame.Pipeline
