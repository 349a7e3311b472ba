/-
# EdgeFrame.Metric.Manager -- the metric store and the events that report it

`ServiceMetricManager` keeps one map of counters for each `MetricAction`. `add` raises
a counter; `getAndClear` hands a map over and empties it. A `LoggerEvent` calls
`getAndClear` first, in `handler` as in `reSend`, and then copies what it got into the
JSON `data` it builds, or does not.

Every access of the store is made under `global_mt`, and an execution has a single
one, its `getAndClear`. What follows touches only locals, so an execution is one event
here, placed where its `getAndClear` stands among the other calls. What `uploadImage`
and `uploadImageByBuff` answer is part of the event.

`units` fields are bookkeeping the code does not have: they record which calls of `add`
a counter or an assignment carries. No branch reads them.
-/
import EdgeFrame.Lib.Runs
import Mathlib

namespace EdgeFrame.Metric

/-! ## The store -/

/-- `MetricAction`. -/
inductive MetricAction where
  | kServiceVersionMonitor
  | kAlgoModelMonitor
  | kAlgoDataMonitor
  | kFlowStatusMonitor
  | kStreamStatusMonitor
  | kImageStatusMonitor
  | kApiStatusMonitor
  deriving DecidableEq, Repr

/-- `static_cast<int>(action)`. -/
def MetricAction.toInt : MetricAction → Int
  | .kServiceVersionMonitor => 1
  | .kAlgoModelMonitor => 2
  | .kAlgoDataMonitor => 3
  | .kFlowStatusMonitor => 4
  | .kStreamStatusMonitor => 5
  | .kImageStatusMonitor => 6
  | .kApiStatusMonitor => 7

/-- A counter, and the numbers of the calls of `add` that made it up. -/
structure Counter where
  value : Int
  units : List Nat
  deriving DecidableEq, Repr

/-- `std::unordered_map<std::string, int>`; the list gives the order of an iteration. -/
abbrev Metrics := List (String × Counter)

/-- `metrics[key] += value`, for the `n`-th call of `add`. -/
def Metrics.add (key : String) (value : Int) (n : Nat) : Metrics → Metrics
  | [] => [(key, ⟨value, [n]⟩)]
  | (k, c) :: metrics =>
    if k = key then (k, ⟨c.value + value, c.units ++ [n]⟩) :: metrics
    else (k, c) :: Metrics.add key value n metrics

/-! ## The events that report it -/

/-- A JSON value. -/
inductive JsonValue where
  | int (i : Int)
  | real (q : Rat)
  | text (s : String)
  deriving DecidableEq, Repr

/-- An assignment `data[key] = value`. -/
structure Write where
  key : String
  value : JsonValue
  units : List Nat := []
  deriving DecidableEq, Repr

/-- What `uploadImage` and `uploadImageByBuff` answer. -/
structure Upload where
  ok : Bool
  image_url : String
  deriving DecidableEq, Repr

structure LoggerEvent where
  cameraSn : String
  timeStamp : Int
  action_ : MetricAction
  deriving DecidableEq, Repr

/-- What an execution leaves: whether it left through its upload-failed return, and the assignments
to `data` in their order. -/
structure Execution where
  action_ : MetricAction
  failed : Bool
  data : List Write
  deriving DecidableEq, Repr

/-- `1000.0 / WHALE_ALGO_MODEL_METRIC_INTERVAL`. -/
def rate : Rat := 1000 / 600000

/-- `data[ite.first] = ite.second`. -/
def copyMetric (ite : String × Counter) : Write :=
  ⟨ite.1, .int ite.2.value, ite.2.units⟩

/-- The same, with the two frame counts reported as rates. -/
def copyModelMetric (ite : String × Counter) : Write :=
  if ite.1 = "cv_input_frame_count" then
    ⟨"cv_input_frame_rate", .real (ite.2.value * rate), ite.2.units⟩
  else if ite.1 = "cv_output_frame_count" then
    ⟨"cv_output_frame_rate", .real (ite.2.value * rate), ite.2.units⟩
  else copyMetric ite

namespace LoggerEvent

/-- `data["time"] = timeStamp; data["action"] = static_cast<int>(action_);` -/
def stamp (e : LoggerEvent) : List Write :=
  [⟨"time", .int e.timeStamp, []⟩, ⟨"action", .int e.action_.toInt, []⟩]

/-- `data["camera_sn"] = cameraSn;` -/
def camera (e : LoggerEvent) : Write := ⟨"camera_sn", .text e.cameraSn, []⟩

/-- `data["cv_image_url"] = image_url;` -/
def imageUrl (up : Upload) : Write := ⟨"cv_image_url", .text up.image_url, []⟩

/-- `LoggerEvent::handler` on what `getAndClear` gave it. -/
def handler (e : LoggerEvent) (metrics : Metrics) (up : Upload) : Execution :=
  match e.action_ with
  | .kAlgoModelMonitor => ⟨e.action_, false, e.stamp ++ metrics.map copyModelMetric ++ [e.camera]⟩
  | .kAlgoDataMonitor => ⟨e.action_, false, e.stamp ++ metrics.map copyMetric ++ [e.camera]⟩
  | .kImageStatusMonitor =>
    let data := e.stamp ++ metrics.map copyMetric ++ [imageUrl up]
    -- the result of the upload is looked at after the copy
    if up.ok then ⟨e.action_, false, data ++ [e.camera]⟩ else ⟨e.action_, true, data⟩
  -- the other actions copy nothing of what they were given
  | _ => ⟨e.action_, false, e.stamp ++ [e.camera]⟩

/-- `LoggerEvent::reSend` on what `getAndClear` gave it. -/
def reSend (e : LoggerEvent) (metrics : Metrics) (up : Upload) : Execution :=
  -- and here before it
  if up.ok then
    ⟨e.action_, false, e.stamp ++ metrics.map copyMetric ++ [imageUrl up, e.camera]⟩
  else ⟨e.action_, true, e.stamp⟩

end LoggerEvent

/-! ## Runs -/

/-- The store, with what was added to it and the executions so far. -/
structure Manager where
  metrics_ : MetricAction → Metrics := fun _ => []
  added : List (MetricAction × String × Int) := []
  executions : List Execution := []

namespace Manager

/-- What happens to the store. -/
inductive Event where
  | add (action : MetricAction) (key : String) (value : Int)
  | handler (e : LoggerEvent) (up : Upload)
  | reSend (e : LoggerEvent) (up : Upload)
  deriving DecidableEq, Repr

/-- `ServiceMetricManager::add`. -/
def add (action : MetricAction) (key : String) (value : Int) (s : Manager) : Manager :=
  { s with
    metrics_ := Function.update s.metrics_ action
      ((s.metrics_ action).add key value s.added.length)
    added := s.added ++ [(action, key, value)] }

/-- `ServiceMetricManager::getAndClear`: the map, and the store without it. -/
def getAndClear (action : MetricAction) (s : Manager) : Metrics × Manager :=
  (s.metrics_ action, { s with metrics_ := Function.update s.metrics_ action [] })

/-- An execution: `getAndClear`, then what the event makes of it. -/
def execute (action : MetricAction) (body : Metrics → Execution) (s : Manager) : Manager :=
  let (metrics, s) := s.getAndClear action
  { s with executions := s.executions ++ [body metrics] }

def step (s : Manager) : Event → Manager
  | .add action key value => s.add action key value
  | .handler e up => s.execute e.action_ fun metrics => e.handler metrics up
  | .reSend e up => s.execute e.action_ fun metrics => e.reSend metrics up

/-- The store after the events `evs`, in the order of their store accesses. -/
def run (evs : List Event) : Manager := evs.foldl step {}

end Manager

end EdgeFrame.Metric
