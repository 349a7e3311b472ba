/-
# EdgeFrame.Flow.Uploader -- the upload thread `FlowRpcAsynProcessor::run`

The queue `q_` is filled by `SendToFlowServer` and drained by the inner loop of
`run`. Each round of that loop sends the front message, re-sends or stores what
failed before, and pops the front. A round is one event here and so is an
enqueue: an enqueue during a round only appends behind the front, so it commutes
to one side of the round's `pop`.

The last three fields of `Uploader` are bookkeeping the code does not have. They
record what was popped, what `run` called `sendMessage` on and what it handed to
`saveCache`; no branch reads them.
-/
import EdgeFrame.Flow.CacheDir
import EdgeFrame.Flow.Spill
import Mathlib

namespace EdgeFrame.Flow

/-- A queued message. `seq` numbers the pushes, so that two messages with equal text stay apart. -/
structure Msg where
  seq : Nat
  text : String
  deriving DecidableEq, Repr

/-- The uploader between two rounds of the inner loop. -/
structure Uploader where
  q_ : List Msg := []
  failed_q : List Msg := []
  continue_failed_cnt : Nat := 0
  metric_upload_freq : Nat := 0
  spool : Spool
  /-- clock readings taken for file names so far -/
  ticks : Nat := 0
  /-- number of messages pushed so far -/
  pushed : Nat := 0
  popped : List Msg := []
  calls : List (Msg × Bool) := []
  saved : List Msg := []

namespace Uploader

/-! ## Filling the queue -/

/-- `SendToFlowServer` with the packed message: a queue of more than 2000 spills to disk. -/
def SendToFlowServer (env : FlowEnv) (data_store pack : String) (s : Uploader) : Uploader :=
  if s.q_.length > 2000 then
    { s with
      spool := { s.spool with dir := saveCache data_store (env.getCurrentTime s.ticks) pack s.spool.dir }
      ticks := s.ticks + 1 }
  else
    { s with q_ := s.q_ ++ [⟨s.pushed, pack⟩], pushed := s.pushed + 1 }

/-! ## One round of the inner loop -/

/-- A `sendMessage` call of `run` on a queued message. -/
def send (env : FlowEnv) (m : Msg) (s : Uploader) : Bool × Uploader :=
  let (ret, posts) := sendMessage env s.spool.posts m.text
  (ret, { s with spool := { s.spool with posts := posts }, calls := s.calls ++ [(m, ret)] })

/-- The branch after a failed first send. -/
def noteFailed (m : Msg) (s : Uploader) : Uploader :=
  { s with
    continue_failed_cnt := s.continue_failed_cnt + 1
    failed_q := s.failed_q ++ [m]
    spool := { s.spool with metrics := { s.spool.metrics with
      cv_flow_rt_upload_failed_count_ := s.spool.metrics.cv_flow_rt_upload_failed_count_ + 1 } } }

/-- The re-send's success branch: count, and leave the message where it is. -/
def countRetry (s : Uploader) : Uploader :=
  { s with spool := { s.spool with metrics := { s.spool.metrics with
    cv_flow_reupload_retry_count_ := s.spool.metrics.cv_flow_reupload_retry_count_ + 1 } } }

/-- The re-send's failure branch: count, and pop the message. -/
def popFailed (rest : List Msg) (s : Uploader) : Uploader :=
  { s with
    failed_q := rest
    spool := { s.spool with metrics := { s.spool.metrics with
      cv_flow_reupload_success_count_ := s.spool.metrics.cv_flow_reupload_success_count_ + 1 } } }

/-- `while (failed_q.size() > 0)` after a successful first send, with the value of `ret` it leaves.
The two branches stand as in the source: a re-send that succeeds breaks, one that fails pops. -/
def resendFailed (env : FlowEnv) : List Msg → Bool → Uploader → Bool × Uploader
  | [], ret, s => (ret, s)
  | m :: rest, _, s =>
    let (ret, s) := send env m s
    if ret then (ret, countRetry s) else resendFailed env rest ret (popFailed rest s)

/-- The branch after a successful first send. -/
def noteSent (env : FlowEnv) (data_store : String) (s : Uploader) : Uploader :=
  let (ret, s) := resendFailed env s.failed_q true s
  if ret then { s with spool := resendCache env data_store s.spool } else s

/-- `q_.pop()` under `qmt_`. -/
def pop (m : Msg) (s : Uploader) : Uploader :=
  { s with q_ := s.q_.tail, popped := s.popped ++ [m] }

/-- `while (failed_q.size() > 0) { saveCache(front); pop }`. -/
def flushFailed (env : FlowEnv) (data_store : String) : List Msg → Uploader → Uploader
  | [], s => s
  | m :: rest, s =>
    flushFailed env data_store rest { s with
      failed_q := rest
      saved := s.saved ++ [m]
      spool := { s.spool with dir := saveCache data_store (env.getCurrentTime s.ticks) m.text s.spool.dir }
      ticks := s.ticks + 1 }

/-- Ten failures in a row write `failed_q` to disk. -/
def writeToFile (env : FlowEnv) (data_store : String) (s : Uploader) : Uploader :=
  if s.continue_failed_cnt ≥ 10 then
    { flushFailed env data_store s.failed_q s with continue_failed_cnt := 0 }
  else s

/-- `sendMetric`: any non-zero counter clears them all. -/
def sendMetric (s : Uploader) : Uploader :=
  if s.spool.metrics = {} then s else { s with spool := { s.spool with metrics := {} } }

/-- `if (metric_upload_freq++ % 20 == 0)`. -/
def tickMetric (s : Uploader) : Uploader :=
  if s.metric_upload_freq % 20 = 0 then { sendMetric s with metric_upload_freq := 0 }
  else { s with metric_upload_freq := s.metric_upload_freq + 1 }

/-- One round of `while (q_.size() > 0)`. -/
def round (env : FlowEnv) (data_store : String) (s : Uploader) : Uploader :=
  match s.q_ with
  | [] => s
  | m :: _ =>
    let (ret, s) := send env m s
    let s := if ret then noteSent env data_store s else noteFailed m s
    tickMetric (writeToFile env data_store (pop m s))

/-! ## Runs -/

/-- What happens to the uploader between two heads of the inner loop. -/
inductive Event where
  | enqueue (pack : String)
  | round
  deriving DecidableEq, Repr

def step (env : FlowEnv) (data_store : String) (s : Uploader) : Event → Uploader
  | .enqueue pack => SendToFlowServer env data_store pack s
  | .round => round env data_store s

/-- The uploader after the events `evs`; every prefix ends at a head of the inner loop. -/
def run (env : FlowEnv) (data_store : String) (evs : List Event) (s : Uploader) : Uploader :=
  evs.foldl (step env data_store) s

/-- The uploader when `run` enters its loops, with whatever the start-up left on disk. -/
def init (spool : Spool) : Uploader := { spool := spool }

end Uploader

end EdgeFrame.Flow
