/-
# EdgeFrame.Flow.Memory -- what the uploader keeps in memory

`q_` is pushed to only while it holds at most 2000 messages. `failed_q` has no test of
its own: it is bounded through `continue_failed_cnt`, which every failed message raises
and which is reset only once `failed_q` has been written to disk. Both bounds hold in
every interleaving, whatever `sendMessage` answers.

The invariant counts at each place of `run`. A failure is counted before its message is
in `failed_q`, so that the list is one shorter than the count there (`RunPc.owed`), and
the count is ten only between a failed send and the reset (`RunPc.mostFailed`). A caller
needs the test behind it still to hold when it pushes, which is `UpToDate` of
`Flow.Interleaving`: the two bounds rest on the mutex discipline of that module.
-/
import EdgeFrame.Flow.Interleaving
import Mathlib

namespace EdgeFrame.Flow

open EdgeFrame.Lib

/-- How many failures in a row there can have been at each place of `run`: ten only between a
failed send and the reset. -/
def RunPc.mostFailed : RunPc → Nat
  | .pushFailed | .popLock | .popQ | .popUnlock | .testWrite => 10
  | .flushHead | .flushPop | .resetCnt => 10
  | _ => 9

/-- One failure is counted and not in `failed_q` yet. -/
def RunPc.owed : RunPc → Nat
  | .pushFailed => 1
  | _ => 0

namespace Threads

/-- The bounds on what the uploader keeps, at each place of `run`.

At the head of the inner loop the place says that nothing is owed and at most nine have failed. -/
structure Bounded (s : Threads) : Prop where
  q_le : s.q_.length ≤ 2001
  failed_le : s.failed_q.length + s.pc.owed ≤ s.continue_failed_cnt
  count_le : s.continue_failed_cnt ≤ s.pc.mostFailed
  flushed : s.pc = .resetCnt → s.failed_q = []

/-- It holds before the first step: both queues are empty. -/
theorem bounded_init : Bounded init :=
  ⟨by decide, by decide, by decide, fun _ => rfl⟩

/-- A caller pushes only when it has found room, and touches no local of `run`. -/
theorem Bounded.sender {s s' : Threads} {i : Nat} (hinv : Inv s) (h : Bounded s)
    (hstep : SenderTakes s i s') : Bounded s' := by
  cases hstep with
  | push pack hpc =>
    have hroom : s.q_.length ≤ 2000 := by
      have := hinv.upToDate i
      rwa [hpc] at this
    refine ⟨?_, h.failed_le, h.count_le, h.flushed⟩
    show (s.q_ ++ [pack]).length ≤ 2001
    rw [List.length_append, List.length_singleton]
    omega
  | call | lockQ | full | room | save | alone | behind | unlockRes | unlockQ =>
    exact ⟨h.q_le, h.failed_le, h.count_le, h.flushed⟩

/-- A statement of `run` that changes neither `failed_q` nor the count. -/
theorem Bounded.keep {s s' : Threads} (h : Bounded s) (hq : s'.q_.length ≤ s.q_.length)
    (hfailed : s'.failed_q = s.failed_q) (hcount : s'.continue_failed_cnt = s.continue_failed_cnt)
    (howed : s'.pc.owed ≤ s.pc.owed) (hmost : s.continue_failed_cnt ≤ s'.pc.mostFailed)
    (hreset : s'.pc = .resetCnt → s.failed_q = []) : Bounded s' := by
  obtain ⟨hq_le, hfailed_le, hcount_le, hflushed⟩ := h
  refine ⟨hq.trans hq_le, ?_, ?_, fun hpc => ?_⟩
  · rw [hfailed, hcount]
    omega
  · rwa [hcount]
  · rw [hfailed]
    exact hreset hpc

/-- **One statement of `run` keeps the bounds.**

The cases are the statements that count, push, pop or reset, and the tests before the flush and the
reset; every other statement is `Bounded.keep`. -/
theorem Bounded.run {s s' : Threads} {ret : Bool} (h : Bounded s)
    (hstep : s.runStep ret = some s') : Bounded s' := by
  have hfailed_le := h.failed_le
  have hcount_le := h.count_le
  unfold runStep at hstep
  cases hpc : s.pc with
  | countFailed =>
    rw [hpc] at hstep hfailed_le hcount_le
    obtain rfl := Option.some.inj hstep
    -- the message is counted here and owed to `failed_q`
    refine ⟨h.q_le, ?_, ?_, by simp⟩
    · show s.failed_q.length + 1 ≤ s.continue_failed_cnt + 1
      exact Nat.succ_le_succ hfailed_le
    · show s.continue_failed_cnt + 1 ≤ 10
      exact Nat.succ_le_succ hcount_le
  | pushFailed =>
    rw [hpc] at hstep hfailed_le hcount_le
    obtain rfl := Option.some.inj hstep
    refine ⟨h.q_le, ?_, hcount_le, by simp⟩
    show (s.failed_q ++ s.q_.take 1).length + 0 ≤ s.continue_failed_cnt
    have htake : (s.q_.take 1).length ≤ 1 := List.length_take_le 1 s.q_
    have howed : s.failed_q.length + 1 ≤ s.continue_failed_cnt := hfailed_le
    rw [List.length_append]
    omega
  | retryPop | flushPop =>
    rw [hpc] at hstep hfailed_le hcount_le
    obtain rfl := Option.some.inj hstep
    refine ⟨h.q_le, ?_, hcount_le, by simp⟩
    show s.failed_q.tail.length + 0 ≤ s.continue_failed_cnt
    have htail : s.failed_q.tail.length ≤ s.failed_q.length := by
      rw [List.length_tail]
      omega
    exact htail.trans hfailed_le
  | resetCnt =>
    rw [hpc] at hstep
    obtain rfl := Option.some.inj hstep
    refine ⟨h.q_le, ?_, Nat.zero_le _, by simp⟩
    show s.failed_q.length + 0 ≤ 0
    rw [h.flushed hpc]
    exact Nat.le_refl 0
  | testWrite =>
    -- below ten failures the loop goes on
    rw [hpc] at hstep hcount_le
    obtain rfl := Option.some.inj hstep
    by_cases hten : s.continue_failed_cnt ≥ 10
    · rw [if_pos hten]
      exact h.keep (Nat.le_refl _) rfl rfl (Nat.zero_le _) hcount_le (by simp)
    · rw [if_neg hten]
      refine h.keep (Nat.le_refl _) rfl rfl (Nat.zero_le _) ?_ (by simp)
      show s.continue_failed_cnt ≤ 9
      omega
  | flushHead =>
    rw [hpc] at hstep hcount_le
    obtain rfl := Option.some.inj hstep
    by_cases hmore : s.failed_q.length > 0
    · rw [if_pos hmore]
      exact h.keep (Nat.le_refl _) rfl rfl (Nat.zero_le _) hcount_le (by simp)
    · rw [if_neg hmore]
      -- the flush goes on to the reset only with `failed_q` empty
      refine h.keep (Nat.le_refl _) rfl rfl (Nat.zero_le _) hcount_le fun _ => ?_
      exact List.length_eq_zero_iff.mp (by omega)
  | popQ =>
    rw [hpc] at hstep hcount_le
    obtain rfl := Option.some.inj hstep
    refine h.keep ?_ rfl rfl (Nat.zero_le _) hcount_le (by simp)
    show s.q_.tail.length ≤ s.q_.length
    rw [List.length_tail]
    omega
  | lockQ | lockRes | sleepLock | popLock =>
    rw [hpc] at hstep hcount_le
    obtain ⟨m, _, rfl⟩ := Option.map_eq_some_iff.mp hstep
    exact h.keep (Nat.le_refl _) rfl rfl (Nat.zero_le _) hcount_le (by simp)
  | resend =>
    rw [hpc] at hstep hcount_le
    obtain rfl := Option.some.inj hstep
    exact h.keep (Nat.le_refl _) rfl rfl (Nat.zero_le _) (Nat.le_succ_of_le hcount_le) (by simp)
  | sleepUnlockQ | awakeUnlockQ | unlockRes | popUnlock | metric =>
    rw [hpc] at hstep hcount_le
    obtain rfl := Option.some.inj hstep
    exact h.keep (Nat.le_refl _) rfl rfl (Nat.zero_le _) hcount_le (by simp)
  | testEmpty | head | send | retryHead | retrySend =>
    rw [hpc] at hstep hcount_le
    obtain rfl := Option.some.inj hstep
    split
    all_goals exact h.keep (Nat.le_refl _) rfl rfl (Nat.zero_le _) hcount_le (by simp)

/-- **The bounds hold in every interleaving.** -/
theorem bounded_steps {ms : List Move} {s : Threads} (hsteps : init.Steps ms s) : Bounded s := by
  refine Trace.history (H := fun _ s => Bounded s) bounded_init ?_ hsteps
  intro ms s m s' hms hs hstep
  have hinv := inv_init.steps hms
  cases m with
  | call i pack => exact hs.sender hinv (call_takes hstep)
  | sender i => exact hs.sender hinv (senderStep_takes hstep)
  | run ret => exact hs.run hstep

/-- **The uploader's memory is bounded**: `q_` holds at most 2001 messages, `failed_q` at most as
many as there were failures in a row, and at the head of the inner loop these are at most 9.

It is `Bounded` at any place for the first two bounds, and at the head for the third. -/
theorem memory_bounded {ms : List Move} {s : Threads} (hsteps : init.Steps ms s) :
    s.q_.length ≤ 2001 ∧ s.failed_q.length ≤ s.continue_failed_cnt ∧
      (s.pc = .head → s.continue_failed_cnt ≤ 9 ∧ s.failed_q.length ≤ 9) := by
  have h := bounded_steps hsteps
  have hfailed : s.failed_q.length ≤ s.continue_failed_cnt :=
    (Nat.le_add_right _ _).trans h.failed_le
  refine ⟨h.q_le, hfailed, fun hpc => ?_⟩
  have hcount : s.continue_failed_cnt ≤ 9 := by
    have := h.count_le
    rwa [hpc] at this
  exact ⟨hcount, hfailed.trans hcount⟩

/-- One message is queued, sent without success and popped. -/
def failedOnce : List Move :=
  .call 0 "a" :: List.replicate 6 (.sender 0) ++ List.replicate 14 (.run false)

/-- The state in which `failedOnce` ends. -/
def afterFailedOnce : Threads := (init.exec failedOnce).getD init

/-- One failure in a row, and one message that waits. -/
theorem memory_bounded_afterFailedOnce :
    afterFailedOnce.pc = .head ∧ afterFailedOnce.failed_q = ["a"] ∧
      afterFailedOnce.continue_failed_cnt ≤ 9 ∧ afterFailedOnce.failed_q.length ≤ 9 := by
  have hsteps : init.Steps failedOnce afterFailedOnce := steps_iff_exec.mpr rfl
  exact ⟨rfl, rfl, (memory_bounded hsteps).2.2 rfl⟩

end Threads

end EdgeFrame.Flow
