/-
# EdgeFrame.Flow.Discipline -- which mutex calls are defined

`std::mutex` asks that a thread unlocks only what it holds and does not lock what it
holds already. `qmt_` is used so throughout. `resmt_` is not: `run` sleeps by locking
it a second time, and a caller wakes it by unlocking what it never held. This module
finds the two undefined calls and says in which interleavings nobody makes them.

A move is legal when the thread may make the mutex call it is at. Whether it may is read off
the invariant of `Flow.Interleaving`, which knows who holds what: at all other places the
call is legal in every reachable state (`Inv.run_legal`), and at these two it never is. So an
interleaving is disciplined exactly as long as no thread comes to one of the two, which
can be told from the state before a move.
-/
import EdgeFrame.Flow.Interleaving
import Mathlib

namespace EdgeFrame.Flow

open EdgeFrame.Lib

namespace Threads

/-! ## The mutex calls -/

/-- The mutex call at which a thread stands. -/
def nextCall (s : Threads) : Thread → Option (Mutex Thread × Mutex.Op)
  | .sender i =>
    match s.senders i with
    | .lockQ _ => some (s.qmt_, .lock)
    | .unlockRes => some (s.resmt_, .unlock)
    | .unlockQ => some (s.qmt_, .unlock)
    | _ => none
  | .run =>
    match s.pc with
    | .lockQ | .popLock => some (s.qmt_, .lock)
    | .sleepUnlockQ | .awakeUnlockQ | .popUnlock => some (s.qmt_, .unlock)
    | .lockRes | .sleepLock => some (s.resmt_, .lock)
    | .unlockRes => some (s.resmt_, .unlock)
    | _ => none

/-- No thread stands at a call that unlocks what it does not hold or locks what it holds. -/
def Disciplined (s : Threads) : Prop :=
  ∀ t m op, s.nextCall t = some (m, op) → m.Legal t op

/-- No caller ever holds `resmt_`. -/
theorem Inv.res_not_sender {s : Threads} (h : Inv s) (i : Nat) :
    s.resmt_.holder ≠ some (.sender i) := by
  have hres := h.resKnown
  unfold ResKnown at hres
  split at hres
  · rw [hres]
    simp
  · rw [hres.1]
    simp
  · rcases hres with ⟨hheld, _⟩ | ⟨hfree, _⟩
    · rw [hheld]
      simp
    · rw [hfree]
      simp
  · rw [hres.1]
    simp
  · rw [hres.1]
    simp
  · rw [hres]
    simp

/-- A caller's calls of `qmt_` are in order. -/
theorem Inv.sender_legal {s : Threads} (h : Inv s) {m : Mutex Thread} {op : Mutex.Op}
    (hpc : s.senders i ≠ .unlockRes) (hcall : s.nextCall (.sender i) = some (m, op)) :
    m.Legal (.sender i) op := by
  have hguard (hin : (s.senders i).inside = true) : s.qmt_.Legal (.sender i) .unlock :=
    h.guarded.legal_unlock hin
  cases hi : s.senders i with
  | lockQ pack =>
    rw [nextCall, hi] at hcall
    obtain ⟨rfl, rfl⟩ := Prod.mk.inj (Option.some.inj hcall)
    apply h.guarded.legal_lock
    show ¬ (s.senders i).inside = true
    simp [hi, SenderPc.inside]
  | unlockQ =>
    rw [nextCall, hi] at hcall
    obtain ⟨rfl, rfl⟩ := Prod.mk.inj (Option.some.inj hcall)
    exact hguard (by rw [hi]; rfl)
  | unlockRes => exact absurd hi hpc
  | idle | testSize | save | push | testOne =>
    rw [nextCall, hi] at hcall
    exact absurd hcall (by simp)

/-- The calls of `run` are in order, the one it sleeps in apart. -/
theorem Inv.run_legal {s : Threads} (h : Inv s) {m : Mutex Thread} {op : Mutex.Op}
    (hsleep : ¬ (s.pc = .sleepLock ∧ s.resmt_.holder = some .run))
    (hcall : s.nextCall .run = some (m, op)) : m.Legal .run op := by
  have hres := h.resKnown
  have hlock (hout : s.pc.inside = false) : s.qmt_.Legal .run .lock := by
    apply h.guarded.legal_lock
    show ¬ s.pc.inside = true
    rw [hout]
    decide
  have hunlock (hin : s.pc.inside = true) : s.qmt_.Legal .run .unlock :=
    h.guarded.legal_unlock hin
  cases hpc : s.pc with
  | lockQ | popLock =>
    rw [nextCall, hpc] at hcall
    obtain ⟨rfl, rfl⟩ := Prod.mk.inj (Option.some.inj hcall)
    exact hlock (by rw [hpc]; rfl)
  | sleepUnlockQ | awakeUnlockQ | popUnlock =>
    rw [nextCall, hpc] at hcall
    obtain ⟨rfl, rfl⟩ := Prod.mk.inj (Option.some.inj hcall)
    exact hunlock (by rw [hpc]; rfl)
  -- here `run` knows that it does not hold `resmt_`
  | lockRes =>
    rw [nextCall, hpc] at hcall
    obtain ⟨rfl, rfl⟩ := Prod.mk.inj (Option.some.inj hcall)
    rw [ResKnown, hpc] at hres
    show s.resmt_.holder ≠ some .run
    rw [hres]
    simp
  -- the one call that may lock a mutex the thread holds, and what `hsleep` is for
  | sleepLock =>
    rw [nextCall, hpc] at hcall
    obtain ⟨rfl, rfl⟩ := Prod.mk.inj (Option.some.inj hcall)
    exact fun hheld => hsleep ⟨hpc, hheld⟩
  | unlockRes =>
    rw [nextCall, hpc] at hcall
    obtain ⟨rfl, rfl⟩ := Prod.mk.inj (Option.some.inj hcall)
    rw [ResKnown, hpc] at hres
    exact hres.1
  -- no other line locks or unlocks
  | testEmpty | head | send | countFailed | pushFailed | retryHead | retrySend | retryPop | resend
  | popQ | testWrite | flushHead | flushPop | resetCnt | metric =>
    rw [nextCall, hpc] at hcall
    exact absurd hcall (by simp)

/-- **The two undefined calls**: a caller's `resmt_.unlock()`, and the `resmt_.lock()` in which `run`
sleeps on a mutex it holds. Every other call is in order. -/
theorem Inv.disciplined_iff {s : Threads} (h : Inv s) :
    s.Disciplined ↔ (∀ i, s.senders i ≠ .unlockRes) ∧
      ¬ (s.pc = .sleepLock ∧ s.resmt_.holder = some .run) := by
  constructor
  · intro hdis
    refine ⟨fun i hpc => ?_, fun ⟨hpc, hres⟩ => ?_⟩
    · have hcall : s.nextCall (.sender i) = some (s.resmt_, .unlock) := by rw [nextCall, hpc]
      exact h.res_not_sender i (hdis _ _ _ hcall)
    · have hcall : s.nextCall .run = some (s.resmt_, .lock) := by rw [nextCall, hpc]
      exact hdis _ _ _ hcall hres
  · rintro ⟨hsender, hrun⟩ t m op hcall
    cases t with
    | sender i => exact h.sender_legal (hsender i) hcall
    | run => exact h.run_legal hrun hcall

/-! ## When the discipline holds -/

/-- The step takes neither of the two branches around `resmt_`: a caller does not find its own
message alone in `q_`, and `run` does not leave for its sleep with `q_` empty. -/
def NoSignal (s : Threads) : Move → Prop
  | .call _ _ => True
  | .sender i => s.senders i = .testOne → s.q_.length ≠ 1
  | .run _ => s.pc = .sleepUnlockQ → s.q_ ≠ []

/-- Without the two branches nobody comes to the two undefined calls. -/
theorem NoSignal.keeps {s s' : Threads} {m : Move} (h : Inv s) (hquiet : s.NoSignal m)
    (hunlock : ∀ i, s.senders i ≠ .unlockRes) (hsleep : s.pc ≠ .sleepLock)
    (hstep : s.step m = some s') : (∀ i, s'.senders i ≠ .unlockRes) ∧ s'.pc ≠ .sleepLock := by
  have hgoto {i : Nat} {p : SenderPc} (hp : p ≠ .unlockRes) (j : Nat) :
      Function.update s.senders i p j ≠ .unlockRes := by
    by_cases hj : j = i
    · rwa [hj, Function.update_self]
    · rw [Function.update_of_ne hj]
      exact hunlock j
  cases m with
  | call i pack =>
    obtain ⟨_, rfl⟩ : s.senders i = .idle ∧ s.goto i (.lockQ pack) = s' := by
      simpa [step] using hstep
    exact ⟨hgoto (by simp), hsleep⟩
  | sender i =>
    cases senderStep_takes hstep with
    | alone hpc hlen => exact absurd hlen (hquiet hpc)
    | call | lockQ | full | room | save | push | behind | unlockRes | unlockQ =>
      exact ⟨hgoto (by simp), hsleep⟩
  | run ret =>
    cases runStep_takes hstep with
    | sleepUnlockQ hpc =>
      have hres := h.resKnown
      rw [ResKnown, hpc] at hres
      exact absurd hres.2 (hquiet hpc)
    | work p ret failed_q cnt freq hpc hp =>
      refine ⟨hunlock, fun heq => ?_⟩
      rw [show p = .sleepLock from heq] at hp
      exact absurd hp (by decide)
    | lockQ | lockRes | findEmpty | findFull | wake | awakeUnlockQ | unlockRes | popLock | popQ
    | popUnlock => exact ⟨hunlock, by simp⟩

/-- A step through one of the two branches ends at an undefined call. -/
theorem signal_undisciplined {s : Threads} {m : Move} (h : Inv s) (hsignal : ¬ s.NoSignal m) :
    ∃ s', s.step m = some s' ∧ ¬ s'.Disciplined := by
  cases m with
  | call i pack => exact absurd trivial hsignal
  | sender i =>
    obtain ⟨hpc, hlen⟩ : s.senders i = .testOne ∧ s.q_.length = 1 := by
      simpa [NoSignal] using hsignal
    have hstep : s.step (.sender i) = some (s.goto i .unlockRes) := by
      simp [step, senderStep, hpc, hlen]
    refine ⟨_, hstep, fun hdis => ?_⟩
    have hall := ((h.step hstep).disciplined_iff.mp hdis).1 i
    exact hall (Function.update_self ..)
  | run ret =>
    obtain ⟨hpc, _⟩ : s.pc = .sleepUnlockQ ∧ s.q_ = [] := by
      simpa [NoSignal] using hsignal
    have hstep : s.step (.run ret) = some { s with pc := .sleepLock, qmt_ := ⟨none⟩ } := by
      simp only [step, runStep, hpc]
      rfl
    refine ⟨_, hstep, fun hdis => ?_⟩
    have hres := h.resKnown
    rw [ResKnown, hpc] at hres
    exact ((h.step hstep).disciplined_iff.mp hdis).2 ⟨rfl, hres.1⟩

/-- **The mutex calls of an interleaving are in order exactly when nobody signals**: no caller finds
its own message alone in `q_`, and `run` never goes to sleep on an empty `q_`. Few interleavings are of
this kind. The queue is empty at the start, so the caller that pushes first finds its message alone, and
it tests for that before it gives `qmt_` back: in an interleaving that meets the condition no message
has been popped yet.

One direction is `signal_undisciplined`, that a signal leads to an undefined call. For the other, a
thread comes to one of the two undefined calls by a signal only. -/
theorem mutex_discipline_iff (ms : List Move) :
    (∀ before after s, ms = before ++ after → init.Steps before s → s.Disciplined) ↔
      ∀ before m after s, ms = before ++ m :: after → init.Steps before s → s.NoSignal m := by
  constructor
  · intro hdis before m after s hms hsteps
    by_contra hsignal
    obtain ⟨s', hstep, hbad⟩ := signal_undisciplined (inv_init.steps hsteps) hsignal
    apply hbad
    exact hdis (before ++ [m]) after s' (by rw [hms]; simp) (trace_snoc.mpr ⟨s, hsteps, hstep⟩)
  · intro hquiet before after s hms hsteps
    -- nobody is at an undefined call, at the start and after every step that does not signal
    have hgood : ∀ es t, init.Steps es t → (∃ rest, ms = es ++ rest) →
        (∀ i, t.senders i ≠ .unlockRes) ∧ t.pc ≠ .sleepLock := by
      intro es t hes
      refine Trace.history (H := fun es t => (∃ rest, ms = es ++ rest) →
        (∀ i, t.senders i ≠ .unlockRes) ∧ t.pc ≠ .sleepLock) ?_ ?_ hes
      · intro _
        exact ⟨fun i => by simp [init], by decide⟩
      · rintro es t m t' hes ih hstep ⟨rest, hrest⟩
        have hsplit : ms = es ++ m :: rest := by
          rw [hrest, List.append_assoc]
          rfl
        obtain ⟨hunlock, hsleep⟩ := ih ⟨m :: rest, hsplit⟩
        exact (hquiet es m rest t hsplit hes).keeps (inv_init.steps hes) hunlock hsleep hstep
    obtain ⟨hunlock, hsleep⟩ := hgood before s hsteps ⟨after, hms⟩
    apply (inv_init.steps hsteps).disciplined_iff.mpr
    exact ⟨hunlock, fun hat => hsleep hat.1⟩

/-- A caller that has put the first message into `q_`, before `run` has taken a step. -/
def firstPushed : Threads where
  q_ := ["pack"]
  qmt_ := ⟨some (.sender 0)⟩
  senders := Function.update (fun _ => .idle) 0 .unlockRes

theorem steps_firstPushed :
    init.Steps [.call 0 "pack", .sender 0, .sender 0, .sender 0, .sender 0] firstPushed := by
  refine ⟨_, rfl, _, rfl, _, rfl, _, rfl, _, rfl, ?_⟩
  show firstPushed = _
  simp [firstPushed, goto, init]

/-- **Both threads break the discipline**: `run` locks `resmt_` while it holds it, and a caller
unlocks it while nobody does. -/
theorem mutex_discipline_fails :
    ((∃ ms, init.Steps ms asleepOnEmpty) ∧ asleepOnEmpty.nextCall .run = some (⟨some .run⟩, .lock) ∧
      ¬ (⟨some .run⟩ : Mutex Thread).Legal .run .lock) ∧
    ((∃ ms, init.Steps ms firstPushed) ∧
      firstPushed.nextCall (.sender 0) = some (⟨none⟩, .unlock) ∧
      ¬ (⟨none⟩ : Mutex Thread).Legal (.sender 0) .unlock) ∧
    ¬ ∀ ms s, init.Steps ms s → s.Disciplined := by
  refine ⟨⟨⟨_, steps_asleepOnEmpty⟩, by decide, by decide⟩,
    ⟨⟨_, steps_firstPushed⟩, by decide, by decide⟩, fun hall => ?_⟩
  exact hall _ _ steps_asleepOnEmpty .run ⟨some .run⟩ .lock rfl rfl

end Threads

end EdgeFrame.Flow
