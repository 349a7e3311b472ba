/-
# EdgeFrame.Flow.Threads -- `run` and the threads that call `SendToFlowServer`

The upload thread `FlowRpcAsynProcessor::run` shares `q_` with any number of threads
that call `SendToFlowServer`. Two mutexes stand between them: `qmt_` guards `q_`, and
`resmt_` is what `run` sleeps on, held by itself, until a sender frees it.

Here every statement of the two functions that touches shared data or a mutex is a
step of its own and a run interleaves the steps of all threads. What `sendMessage`
returns is chosen by the step. The files behind `saveCache` and `resendCache` are the
subject of `Flow.CacheDir`; no branch of the two functions reads them.
-/
import EdgeFrame.Lib.Mutex
import EdgeFrame.Lib.Runs
import Mathlib

namespace EdgeFrame.Flow

open EdgeFrame.Lib

/-! ## Where a thread stands -/

/-- The threads: `run`, and the callers of `SendToFlowServer` by a number. -/
inductive Thread where
  | run
  | sender (i : Nat)
  deriving DecidableEq, Repr

/-- The next statement of a caller of `SendToFlowServer`. -/
inductive SenderPc where
  /-- outside the function -/
  | idle
  /-- `qmt_.lock()` -/
  | lockQ (pack : String)
  /-- `if (q_.size() > 2000)` -/
  | testSize (pack : String)
  /-- `saveCache(data_store, pack)` -/
  | save (pack : String)
  /-- `q_.push(pack)` -/
  | push (pack : String)
  /-- `if (q_.size() == 1)` -/
  | testOne
  /-- `resmt_.unlock()` -/
  | unlockRes
  /-- `qmt_.unlock()` -/
  | unlockQ
  deriving DecidableEq, Repr

/-- The next statement of `run`, from its outer loop on. -/
inductive RunPc where
  /-- `qmt_.lock()` -/
  | lockQ
  /-- `resmt_.lock()` -/
  | lockRes
  /-- `if (q_.size() == 0)` -/
  | testEmpty
  /-- `qmt_.unlock()` before going to sleep -/
  | sleepUnlockQ
  /-- `resmt_.lock()`, the thread sleeps -/
  | sleepLock
  /-- `qmt_.unlock()` of the other branch -/
  | awakeUnlockQ
  /-- `resmt_.unlock()` -/
  | unlockRes
  /-- `while (q_.size() > 0)`, the head of the inner loop -/
  | head
  /-- `ret = sendMessage(q_.front())` -/
  | send
  /-- `continue_failed_cnt++` -/
  | countFailed
  /-- `failed_q.push(q_.front())` -/
  | pushFailed
  /-- `while (failed_q.size() > 0)` after a send that succeeded -/
  | retryHead
  /-- `ret = sendMessage(failed_q.front())` -/
  | retrySend
  /-- `failed_q.pop()` -/
  | retryPop
  /-- `if (ret) resendCache(data_store)` -/
  | resend
  /-- `qmt_.lock()` around the pop -/
  | popLock
  /-- `q_.pop()` -/
  | popQ
  /-- `qmt_.unlock()` after the pop -/
  | popUnlock
  /-- `if (continue_failed_cnt >= 10)` -/
  | testWrite
  /-- `while (failed_q.size() > 0)` when writing to file -/
  | flushHead
  /-- `saveCache(data_store, failed_q.front()); failed_q.pop()` -/
  | flushPop
  /-- `continue_failed_cnt = 0` -/
  | resetCnt
  /-- `if (metric_upload_freq++ % 20 == 0)` -/
  | metric
  deriving DecidableEq, Repr

/-- The shared data, the locals of `run`, and where every thread stands. -/
structure Threads where
  q_ : List String := []
  qmt_ : Mutex Thread := {}
  resmt_ : Mutex Thread := {}
  pc : RunPc := .lockQ
  ret : Bool := false
  failed_q : List String := []
  continue_failed_cnt : Nat := 0
  metric_upload_freq : Nat := 0
  senders : Nat → SenderPc := fun _ => .idle

namespace Threads

/-! ## The steps of a sender -/

/-- Caller `i` goes on to `p`. -/
def goto (s : Threads) (i : Nat) (p : SenderPc) : Threads :=
  { s with senders := Function.update s.senders i p }

/-- The next statement of caller `i`; no value while it waits or has nothing to do. -/
def senderStep (s : Threads) (i : Nat) : Option Threads :=
  match s.senders i with
  | .idle => none
  | .lockQ pack => (s.qmt_.lock (.sender i)).map fun m => { s.goto i (.testSize pack) with qmt_ := m }
  | .testSize pack => some (if s.q_.length > 2000 then s.goto i (.save pack) else s.goto i (.push pack))
  | .save _ => some (s.goto i .testOne)
  | .push pack => some { s.goto i .testOne with q_ := s.q_ ++ [pack] }
  | .testOne => some (if s.q_.length = 1 then s.goto i .unlockRes else s.goto i .unlockQ)
  | .unlockRes => some { s.goto i .unlockQ with resmt_ := s.resmt_.unlock }
  | .unlockQ => some { s.goto i .idle with qmt_ := s.qmt_.unlock }

/-! ## The steps of `run` -/

/-- The next statement of `run`; `ret` is what `sendMessage` answers if that is the statement. -/
def runStep (s : Threads) (ret : Bool) : Option Threads :=
  match s.pc with
  | .lockQ => (s.qmt_.lock .run).map fun m => { s with pc := .lockRes, qmt_ := m }
  | .lockRes => (s.resmt_.lock .run).map fun m => { s with pc := .testEmpty, resmt_ := m }
  | .testEmpty => some { s with pc := if s.q_.length = 0 then .sleepUnlockQ else .awakeUnlockQ }
  | .sleepUnlockQ => some { s with pc := .sleepLock, qmt_ := s.qmt_.unlock }
  | .sleepLock => (s.resmt_.lock .run).map fun m => { s with pc := .unlockRes, resmt_ := m }
  | .awakeUnlockQ => some { s with pc := .unlockRes, qmt_ := s.qmt_.unlock }
  | .unlockRes => some { s with pc := .head, resmt_ := s.resmt_.unlock }
  | .head => some { s with pc := if s.q_.length > 0 then .send else .lockQ }
  | .send => some { s with ret := ret, pc := if ret then .retryHead else .countFailed }
  | .countFailed => some { s with pc := .pushFailed, continue_failed_cnt := s.continue_failed_cnt + 1 }
  | .pushFailed => some { s with pc := .popLock, failed_q := s.failed_q ++ s.q_.take 1 }
  | .retryHead => some { s with pc := if s.failed_q.length > 0 then .retrySend else .resend }
  | .retrySend => some { s with ret := ret, pc := if ret then .resend else .retryPop }
  | .retryPop => some { s with pc := .retryHead, failed_q := s.failed_q.tail }
  | .resend => some { s with pc := .popLock }
  | .popLock => (s.qmt_.lock .run).map fun m => { s with pc := .popQ, qmt_ := m }
  | .popQ => some { s with pc := .popUnlock, q_ := s.q_.tail }
  | .popUnlock => some { s with pc := .testWrite, qmt_ := s.qmt_.unlock }
  | .testWrite => some { s with pc := if s.continue_failed_cnt ≥ 10 then .flushHead else .metric }
  | .flushHead => some { s with pc := if s.failed_q.length > 0 then .flushPop else .resetCnt }
  | .flushPop => some { s with pc := .flushHead, failed_q := s.failed_q.tail }
  | .resetCnt => some { s with pc := .metric, continue_failed_cnt := 0 }
  | .metric => some { s with
      pc := .head
      metric_upload_freq := if s.metric_upload_freq % 20 = 0 then 0 else s.metric_upload_freq + 1 }

/-! ## Runs -/

/-- One step of the system. -/
inductive Move where
  /-- thread `i` calls `SendToFlowServer`, which packs its event and comes to `qmt_.lock()` -/
  | call (i : Nat) (pack : String)
  /-- the call of thread `i` makes its next step -/
  | sender (i : Nat)
  /-- `run` makes its next step -/
  | run (ret : Bool)
  deriving DecidableEq, Repr

/-- A move, if the thread it belongs to can make it. -/
def step (s : Threads) : Move → Option Threads
  | .call i pack => if s.senders i = .idle then some (s.goto i (.lockQ pack)) else none
  | .sender i => s.senderStep i
  | .run ret => s.runStep ret

/-- The moves of some interleaving lead from `s` to `s'`. -/
abbrev Steps (s : Threads) (ms : List Move) (s' : Threads) : Prop :=
  Trace (fun s m s' => step s m = some s') s ms s'

/-- `run` enters its outer loop: nobody holds a mutex and nothing is queued. -/
def init : Threads := {}

/-- The state after the moves, if each can be made in its turn. -/
def exec (s : Threads) (ms : List Move) : Option Threads := ms.foldlM step s

theorem steps_iff_exec {ms : List Move} : ∀ {s s' : Threads}, s.Steps ms s' ↔ s.exec ms = some s' := by
  induction ms with
  | nil =>
    intro s s'
    show s' = s ↔ some s = some s'
    rw [Option.some_inj, eq_comm]
  | cons m ms ih =>
    intro s s'
    show (∃ t, s.step m = some t ∧ t.Steps ms s') ↔ (s.step m).bind (fun t => t.exec ms) = some s'
    rw [Option.bind_eq_some_iff]
    exact exists_congr fun t => and_congr_right fun _ => ih

end Threads

end EdgeFrame.Flow
