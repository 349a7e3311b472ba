/-
# EdgeFrame.Flow.Interleaving -- what holds in every interleaving

The steps of `Flow.Threads` are inverted once, for a sender and for `run`; what
follows reads only these two inversions. One invariant says who holds which mutex,
what a caller still knows of `q_`, and when `run` may be asleep. It holds in every
interleaving, and no wake-up is lost.

The invariant has three parts, and they build on each other:

  * `Guarded`: `qmt_` is held by the thread that is between its `lock()` and its
    `unlock()`, so that there is one such thread at most (`Guarded.only_sender`,
    `Guarded.run_alone`);
  * `UpToDate`: what a caller has read of the size of `q_` is still so, since nobody else
    can have changed it;
  * `ResKnown`: while `resmt_` is held and nobody is on the way to free it, `q_` is empty.

The third is the one that matters. `run` takes `resmt_` only after it has found `q_`
empty under `qmt_`, and waits for it after it has let `qmt_` go. The caller that fills
`q_` in between finds it empty, and frees `resmt_`; the caller that comes next finds a
message, and has nothing to free (`asleep_sender`, `Awake.sender`).

The mutexes are used as the source uses them: `resmt_` is freed by a caller although `run`
has taken it, so a mutex remembers its holder and `unlock()` does not ask for it.
-/
import EdgeFrame.Flow.Threads
import Mathlib

namespace EdgeFrame.Flow

open EdgeFrame.Lib

/-! ## Places -/

/-- Between `qmt_.lock()` and `qmt_.unlock()`. -/
def SenderPc.inside : SenderPc → Bool
  | .idle | .lockQ _ => false
  | _ => true

/-- Between `qmt_.lock()` and `qmt_.unlock()`. -/
def RunPc.inside : RunPc → Bool
  | .lockRes | .testEmpty | .sleepUnlockQ | .awakeUnlockQ | .popQ | .popUnlock => true
  | _ => false

/-- In the inner loop, outside its critical section, or at the head of the outer loop. -/
def RunPc.working : RunPc → Bool
  | .lockRes | .testEmpty | .sleepUnlockQ | .sleepLock | .awakeUnlockQ | .unlockRes => false
  | .popQ | .popUnlock => false
  | _ => true

/-- The places of `run` outside its regions are not inside one. -/
theorem RunPc.not_inside_of_working {p : RunPc} (h : p.working = true) : p.inside = false := by
  cases p <;> first | rfl | exact absurd h (by decide)

/-- What a caller knows of the size of `q_` from the tests behind it. -/
def SenderPc.Knows : SenderPc → Nat → Prop
  | .save _, n => 2000 < n
  | .push _, n => n ≤ 2000
  | .unlockRes, n => n = 1
  | _, _ => True

/-- A caller outside its region knows nothing of `q_`. -/
theorem SenderPc.knows_of_outside {p : SenderPc} {n : Nat} (h : p.inside = false) : p.Knows n := by
  cases p <;> trivial

namespace Threads

/-! ## What a step can do -/

/-- What a step of caller `i` can do.

The guards are in the constructors: a step into the region is one that found `qmt_` free, and a push
is one that found room. -/
inductive SenderTakes (s : Threads) (i : Nat) : Threads → Prop where
  | call (pack : String) (hpc : s.senders i = .idle) : SenderTakes s i (s.goto i (.lockQ pack))
  | lockQ (pack : String) (hpc : s.senders i = .lockQ pack) (hfree : s.qmt_.holder = none) :
      SenderTakes s i { s.goto i (.testSize pack) with qmt_ := ⟨some (.sender i)⟩ }
  | full (pack : String) (hpc : s.senders i = .testSize pack) (hlen : 2000 < s.q_.length) :
      SenderTakes s i (s.goto i (.save pack))
  | room (pack : String) (hpc : s.senders i = .testSize pack) (hlen : s.q_.length ≤ 2000) :
      SenderTakes s i (s.goto i (.push pack))
  | save (pack : String) (hpc : s.senders i = .save pack) : SenderTakes s i (s.goto i .testOne)
  | push (pack : String) (hpc : s.senders i = .push pack) :
      SenderTakes s i { s.goto i .testOne with q_ := s.q_ ++ [pack] }
  | alone (hpc : s.senders i = .testOne) (hlen : s.q_.length = 1) :
      SenderTakes s i (s.goto i .unlockRes)
  | behind (hpc : s.senders i = .testOne) (hlen : s.q_.length ≠ 1) :
      SenderTakes s i (s.goto i .unlockQ)
  | unlockRes (hpc : s.senders i = .unlockRes) :
      SenderTakes s i { s.goto i .unlockQ with resmt_ := ⟨none⟩ }
  | unlockQ (hpc : s.senders i = .unlockQ) :
      SenderTakes s i { s.goto i .idle with qmt_ := ⟨none⟩ }

/-- A step of caller `i` is one of these, by the place it is at. -/
theorem senderStep_takes {s s' : Threads} {i : Nat} (h : s.senderStep i = some s') :
    SenderTakes s i s' := by
  unfold senderStep at h
  cases hpc : s.senders i with
  | idle =>
    rw [hpc] at h
    exact absurd h (by simp)
  | lockQ pack =>
    rw [hpc] at h
    obtain ⟨m, hm, rfl⟩ := Option.map_eq_some_iff.mp h
    obtain ⟨hfree, rfl⟩ := Mutex.lock_eq_some.mp hm
    exact .lockQ pack hpc hfree
  -- the two tests of `Send` are the only places where it has two ways to go on
  | testSize pack =>
    rw [hpc] at h
    obtain rfl := Option.some.inj h
    by_cases hlen : s.q_.length > 2000
    · rw [if_pos hlen]
      exact .full pack hpc hlen
    · rw [if_neg hlen]
      exact .room pack hpc (by omega)
  | save pack =>
    rw [hpc] at h
    obtain rfl := Option.some.inj h
    exact .save pack hpc
  | push pack =>
    rw [hpc] at h
    obtain rfl := Option.some.inj h
    exact .push pack hpc
  | testOne =>
    rw [hpc] at h
    obtain rfl := Option.some.inj h
    by_cases hlen : s.q_.length = 1
    · rw [if_pos hlen]
      exact .alone hpc hlen
    · rw [if_neg hlen]
      exact .behind hpc hlen
  | unlockRes =>
    rw [hpc] at h
    obtain rfl := Option.some.inj h
    exact .unlockRes hpc
  | unlockQ =>
    rw [hpc] at h
    obtain rfl := Option.some.inj h
    exact .unlockQ hpc

/-- What a step of `run` can do to the shared data.

The statements of the inner loop outside its region are one constructor, with any values of the
locals: no part of the invariant reads them. -/
inductive RunTakes (s : Threads) : Threads → Prop where
  | lockQ (hpc : s.pc = .lockQ) (hfree : s.qmt_.holder = none) :
      RunTakes s { s with pc := .lockRes, qmt_ := ⟨some .run⟩ }
  | lockRes (hpc : s.pc = .lockRes) (hfree : s.resmt_.holder = none) :
      RunTakes s { s with pc := .testEmpty, resmt_ := ⟨some .run⟩ }
  | findEmpty (hpc : s.pc = .testEmpty) (hq : s.q_ = []) : RunTakes s { s with pc := .sleepUnlockQ }
  | findFull (hpc : s.pc = .testEmpty) (hq : s.q_ ≠ []) : RunTakes s { s with pc := .awakeUnlockQ }
  | sleepUnlockQ (hpc : s.pc = .sleepUnlockQ) : RunTakes s { s with pc := .sleepLock, qmt_ := ⟨none⟩ }
  | wake (hpc : s.pc = .sleepLock) (hfree : s.resmt_.holder = none) :
      RunTakes s { s with pc := .unlockRes, resmt_ := ⟨some .run⟩ }
  | awakeUnlockQ (hpc : s.pc = .awakeUnlockQ) : RunTakes s { s with pc := .unlockRes, qmt_ := ⟨none⟩ }
  | unlockRes (hpc : s.pc = .unlockRes) : RunTakes s { s with pc := .head, resmt_ := ⟨none⟩ }
  | popLock (hpc : s.pc = .popLock) (hfree : s.qmt_.holder = none) :
      RunTakes s { s with pc := .popQ, qmt_ := ⟨some .run⟩ }
  | popQ (hpc : s.pc = .popQ) : RunTakes s { s with pc := .popUnlock, q_ := s.q_.tail }
  | popUnlock (hpc : s.pc = .popUnlock) : RunTakes s { s with pc := .testWrite, qmt_ := ⟨none⟩ }
  /-- a statement that touches neither `q_` nor a mutex -/
  | work (p : RunPc) (ret : Bool) (failed_q : List String) (cnt freq : Nat)
      (hpc : s.pc.working = true) (hp : p.working = true) :
      RunTakes s { s with
        pc := p, ret := ret, failed_q := failed_q
        continue_failed_cnt := cnt, metric_upload_freq := freq }

/-- A step of `run` is one of these, whatever `sendMessage` answers. -/
theorem runStep_takes {s s' : Threads} {ret : Bool} (h : s.runStep ret = some s') :
    RunTakes s s' := by
  -- the statements of the inner loop keep everything but the locals
  have hwork : ∀ (p : RunPc) (ret : Bool) (failed_q : List String) (cnt freq : Nat),
      s.pc.working = true → p.working = true →
      s' = { s with
        pc := p, ret := ret, failed_q := failed_q
        continue_failed_cnt := cnt, metric_upload_freq := freq } → RunTakes s s' := by
    intro p ret failed_q cnt freq hpc hp hs'
    rw [hs']
    exact .work p ret failed_q cnt freq hpc hp
  unfold runStep at h
  cases hpc : s.pc with
  | lockQ =>
    rw [hpc] at h
    obtain ⟨m, hm, rfl⟩ := Option.map_eq_some_iff.mp h
    obtain ⟨hfree, rfl⟩ := Mutex.lock_eq_some.mp hm
    exact .lockQ hpc hfree
  | lockRes =>
    rw [hpc] at h
    obtain ⟨m, hm, rfl⟩ := Option.map_eq_some_iff.mp h
    obtain ⟨hfree, rfl⟩ := Mutex.lock_eq_some.mp hm
    exact .lockRes hpc hfree
  | testEmpty =>
    rw [hpc] at h
    obtain rfl := Option.some.inj h
    by_cases hq : s.q_.length = 0
    · rw [if_pos hq]
      exact .findEmpty hpc (List.length_eq_zero_iff.mp hq)
    · rw [if_neg hq]
      exact .findFull hpc (fun hnil => hq (by rw [hnil, List.length_nil]))
  | sleepUnlockQ =>
    rw [hpc] at h
    obtain rfl := Option.some.inj h
    exact .sleepUnlockQ hpc
  | sleepLock =>
    rw [hpc] at h
    obtain ⟨m, hm, rfl⟩ := Option.map_eq_some_iff.mp h
    obtain ⟨hfree, rfl⟩ := Mutex.lock_eq_some.mp hm
    exact .wake hpc hfree
  | awakeUnlockQ =>
    rw [hpc] at h
    obtain rfl := Option.some.inj h
    exact .awakeUnlockQ hpc
  | unlockRes =>
    rw [hpc] at h
    obtain rfl := Option.some.inj h
    exact .unlockRes hpc
  | popLock =>
    rw [hpc] at h
    obtain ⟨m, hm, rfl⟩ := Option.map_eq_some_iff.mp h
    obtain ⟨hfree, rfl⟩ := Mutex.lock_eq_some.mp hm
    exact .popLock hpc hfree
  | popQ =>
    rw [hpc] at h
    obtain rfl := Option.some.inj h
    exact .popQ hpc
  | popUnlock =>
    rw [hpc] at h
    obtain rfl := Option.some.inj h
    exact .popUnlock hpc
  | head | send | countFailed | pushFailed | retryHead | retrySend | retryPop | resend | testWrite
  | flushHead | flushPop | resetCnt | metric =>
    rw [hpc] at h
    obtain rfl := Option.some.inj h
    apply hwork _ _ _ _ _ (by rw [hpc]; rfl) _ rfl
    first
      | rfl
      | exact apply_ite RunPc.working .. |>.trans (ite_self _)

/-- A new call is a step of the caller too: it comes to `qmt_.lock()`. -/
theorem call_takes {s s' : Threads} {i : Nat} {pack : String}
    (h : s.step (.call i pack) = some s') : SenderTakes s i s' := by
  by_cases hidle : s.senders i = .idle
  · rw [step, if_pos hidle] at h
    obtain rfl := Option.some.inj h
    exact .call pack hidle
  · rw [step, if_neg hidle] at h
    exact absurd h (by simp)

/-! ## The region of `qmt_` -/

/-- The threads between `qmt_.lock()` and `qmt_.unlock()`. -/
def Inside (pc : RunPc) (senders : Nat → SenderPc) : Thread → Prop
  | .run => pc.inside = true
  | .sender i => (senders i).inside = true

/-- `qmt_` is held by whoever is in its region. -/
def Guarded (s : Threads) : Prop := s.qmt_.Guards (Inside s.pc s.senders)

variable {pc pc' : RunPc} {senders : Nat → SenderPc} {i : Nat} {p : SenderPc} {t : Thread}

/-- Moving caller `i` moves nobody else. -/
theorem inside_update_of_ne (h : t ≠ .sender i) :
    Inside pc (Function.update senders i p) t ↔ Inside pc senders t := by
  cases t with
  | run => exact Iff.rfl
  | sender j =>
    have hji : j ≠ i := fun heq => h (by rw [heq])
    show (Function.update senders i p j).inside = true ↔ (senders j).inside = true
    rw [Function.update_of_ne hji]

/-- Caller `i` is inside after its step if its new place is. -/
theorem inside_update_self :
    Inside pc (Function.update senders i p) (.sender i) ↔ p.inside = true := by
  show (Function.update senders i p i).inside = true ↔ p.inside = true
  rw [Function.update_self]

/-- Moving `run` moves nobody else. -/
theorem inside_of_ne_run (h : t ≠ .run) : Inside pc' senders t ↔ Inside pc senders t := by
  cases t with
  | run => exact absurd rfl h
  | sender j => exact Iff.rfl

/-- A statement of a caller that does not call `qmt_`. -/
theorem Guarded.senderStays {s : Threads} (h : s.Guarded) (hp : p.inside = (s.senders i).inside) :
    s.qmt_.Guards (Inside s.pc (Function.update s.senders i p)) := by
  apply h.stay
  intro t
  by_cases ht : t = .sender i
  · subst ht
    rw [inside_update_self, hp]
    exact Iff.rfl
  · exact inside_update_of_ne ht

/-- A step of a caller keeps `qmt_` with whoever is in its region. -/
theorem Guarded.sender {s s' : Threads} (h : s.Guarded) (hstep : SenderTakes s i s') :
    s'.Guarded := by
  cases hstep with
  | lockQ pack hpc hfree =>
    exact h.enter hfree (inside_update_self.mpr rfl) fun t ht => inside_update_of_ne ht
  | unlockQ hpc =>
    have hin : Inside s.pc s.senders (.sender i) := by
      show (s.senders i).inside = true
      rw [hpc]
      rfl
    exact h.leave hin (fun hidle => absurd (inside_update_self.mp hidle) (by decide))
      fun t ht => inside_update_of_ne ht
  | call pack hpc | full pack hpc hlen | room pack hpc hlen | save pack hpc | push pack hpc
  | alone hpc hlen | behind hpc hlen | unlockRes hpc =>
    exact h.senderStays (by rw [hpc]; rfl)

/-- A statement of `run` that does not call `qmt_`. -/
theorem Guarded.runStays {s : Threads} (h : s.Guarded) (hpc : pc'.inside = s.pc.inside) :
    s.qmt_.Guards (Inside pc' s.senders) := by
  apply h.stay
  intro t
  by_cases ht : t = .run
  · subst ht
    show pc'.inside = true ↔ s.pc.inside = true
    rw [hpc]
  · exact inside_of_ne_run ht

/-- So does a step of `run`. -/
theorem Guarded.run {s s' : Threads} (h : s.Guarded) (hstep : RunTakes s s') : s'.Guarded := by
  have hleave {pc' : RunPc} (hpc : s.pc.inside = true) (hpc' : pc'.inside = false) :
      Mutex.Guards ⟨none⟩ (Inside pc' s.senders) := by
    apply h.leave (show Inside s.pc s.senders .run from hpc)
    · show ¬ pc'.inside = true
      rw [hpc']
      decide
    · exact fun t ht => inside_of_ne_run ht
  cases hstep with
  | lockQ hpc hfree | popLock hpc hfree =>
    exact h.enter hfree rfl fun t ht => inside_of_ne_run ht
  | sleepUnlockQ hpc | awakeUnlockQ hpc | popUnlock hpc =>
    exact hleave (by rw [hpc]; rfl) rfl
  | lockRes hpc _ | findEmpty hpc _ | findFull hpc _ | wake hpc _ | unlockRes hpc | popQ hpc =>
    exact h.runStays (by rw [hpc]; rfl)
  | work p ret failed_q cnt freq hpc hp =>
    apply h.runStays
    rw [RunPc.not_inside_of_working hpc]
    exact RunPc.not_inside_of_working hp

/-- No two callers are in the region. -/
theorem Guarded.only_sender {s : Threads} (h : s.Guarded) {j : Nat}
    (hi : (s.senders i).inside = true) (hj : (s.senders j).inside = true) : i = j := by
  have heq : Thread.sender i = .sender j :=
    h.unique (show Inside s.pc s.senders (.sender i) from hi) hj
  exact Thread.sender.inj heq

/-- And no caller is while `run` is. -/
theorem Guarded.run_alone {s : Threads} (h : s.Guarded) (hpc : s.pc.inside = true) (j : Nat) :
    (s.senders j).inside = false := by
  by_contra hj
  have hin : (s.senders j).inside = true := by simpa using hj
  have heq : Thread.run = .sender j :=
    h.unique (show Inside s.pc s.senders .run from hpc) hin
  exact absurd heq (by simp)

/-! ## What a caller has read of `q_` -/

/-- Nobody's knowledge of `q_` is out of date. -/
def UpToDate (s : Threads) : Prop := ∀ i, (s.senders i).Knows s.q_.length

/-- Caller `i` moves, and what it knows at its new place is right. -/
theorem knows_update {s : Threads} (h : s.UpToDate) (hp : p.Knows s.q_.length) (j : Nat) :
    (Function.update s.senders i p j).Knows s.q_.length := by
  by_cases hj : j = i
  · subst hj
    rwa [Function.update_self]
  · rw [Function.update_of_ne hj]
    exact h j

/-- A step of a caller keeps everybody's knowledge right. The caller that pushes is alone in the
region, and the others know nothing. -/
theorem UpToDate.sender {s s' : Threads} (hguard : s.Guarded) (h : s.UpToDate)
    (hstep : SenderTakes s i s') : s'.UpToDate := by
  cases hstep with
  | push pack hpc =>
    -- the others are outside and have not read `q_`
    intro j
    show (Function.update s.senders i .testOne j).Knows _
    by_cases hj : j = i
    · subst hj
      rw [Function.update_self]
      trivial
    · rw [Function.update_of_ne hj]
      apply SenderPc.knows_of_outside
      by_contra hin
      exact hj (hguard.only_sender (by simpa using hin) (by rw [hpc]; rfl))
  | full pack hpc hlen | room pack hpc hlen | alone hpc hlen => exact knows_update h hlen
  | call pack hpc | lockQ pack hpc _ | save pack hpc | behind hpc _ | unlockRes hpc | unlockQ hpc =>
    exact knows_update h trivial

/-- So does a step of `run`, which pops only inside the region, where no caller is. -/
theorem UpToDate.run {s s' : Threads} (hguard : s.Guarded) (h : s.UpToDate)
    (hstep : RunTakes s s') : s'.UpToDate := by
  cases hstep with
  | popQ hpc =>
    intro j
    exact SenderPc.knows_of_outside (hguard.run_alone (by rw [hpc]; rfl) j)
  | lockQ | lockRes | findEmpty | findFull | sleepUnlockQ | wake | awakeUnlockQ | unlockRes | popLock
  | popUnlock | work => exact h

/-! ## When `run` may sleep -/

/-- Caller `i` has pushed onto an empty `q_` and has not freed `resmt_` yet. -/
def Notifying (s : Threads) (i : Nat) : Prop :=
  s.senders i = .testOne ∧ s.q_.length = 1 ∨ s.senders i = .unlockRes

/-- There is something to send, and nobody is about to free `resmt_`. -/
def Awake (s : Threads) : Prop :=
  s.q_ ≠ [] ∧ ∀ i, ¬ s.Notifying i

/-- What is known of `resmt_` and `q_` at each place of `run`.

The place at which `run` waits is the one of interest: `resmt_` may be held there although something
has been pushed, but then a caller is about to free it. -/
def ResKnown (s : Threads) : Prop :=
  match s.pc with
  | .testEmpty => s.resmt_.holder = some .run
  | .sleepUnlockQ => s.resmt_.holder = some .run ∧ s.q_ = []
  | .sleepLock =>
    s.resmt_.holder = some .run ∧ (s.q_ = [] ∨ ∃ i, s.Notifying i) ∨
      s.resmt_.holder = none ∧ s.Awake
  | .awakeUnlockQ | .unlockRes => s.resmt_.holder = some .run ∧ s.Awake
  | _ => s.resmt_.holder = none

/-- A caller that is to free `resmt_` is still in the region of `qmt_`. -/
theorem Notifying.inside {s : Threads} (h : s.Notifying i) : (s.senders i).inside = true := by
  rcases h with ⟨hpc, _⟩ | hpc
  · rw [hpc]
    rfl
  · rw [hpc]
    rfl

/-- A caller that is not the one who moved notifies only if it did before, or `q_` has changed. -/
theorem notifying_of_ne {s s' : Threads} {j : Nat} (hj : s'.senders j = s.senders j)
    (hq : s'.q_ = s.q_) : s'.Notifying j ↔ s.Notifying j := by
  unfold Notifying
  rw [hj, hq]

/-- **A sender does not put an awake system to sleep**: it sees more than one message, and leaves
`resmt_` alone. -/
theorem Awake.sender {s s' : Threads} (h : s.Awake) (hknow : s.UpToDate)
    (hstep : SenderTakes s i s') : s'.Awake ∧ s'.resmt_ = s.resmt_ := by
  obtain ⟨hq, hquiet⟩ := h
  have hstay (p : SenderPc) (hp : ¬ (p = .testOne ∧ s.q_.length = 1 ∨ p = .unlockRes)) (j : Nat) :
      ¬ (s.goto i p).Notifying j := by
    by_cases hj : j = i
    · subst hj
      show ¬ (Function.update s.senders j p j = .testOne ∧ s.q_.length = 1 ∨
        Function.update s.senders j p j = .unlockRes)
      rwa [Function.update_self]
    · have hsame : (s.goto i p).senders j = s.senders j := Function.update_of_ne hj ..
      rw [notifying_of_ne hsame rfl]
      exact hquiet j
  cases hstep with
  | push pack hpc =>
    -- `q_` was not empty, so the caller will not find its message alone
    have hlen : (s.q_ ++ [pack]).length ≠ 1 := by
      have := List.length_pos_iff.mpr hq
      rw [List.length_append, List.length_singleton]
      omega
    refine ⟨⟨by simp, fun j hj => ?_⟩, rfl⟩
    rcases hj with ⟨_, hone⟩ | hpc'
    · exact hlen hone
    · replace hpc' : Function.update s.senders i .testOne j = .unlockRes := hpc'
      by_cases hji : j = i
      · subst hji
        rw [Function.update_self] at hpc'
        exact absurd hpc' (by decide)
      · rw [Function.update_of_ne hji] at hpc'
        exact hquiet j (Or.inr hpc')
  | save pack hpc =>
    have hfull : 2000 < s.q_.length := by
      have := hknow i
      rwa [hpc] at this
    exact ⟨⟨hq, hstay _ (by simp; omega)⟩, rfl⟩
  | alone hpc hlen => exact absurd (Or.inl ⟨hpc, hlen⟩) (hquiet i)
  | unlockRes hpc => exact absurd (Or.inr hpc) (hquiet i)
  | call pack hpc | lockQ pack hpc _ | full pack hpc _ | room pack hpc _ | behind hpc _
  | unlockQ hpc => exact ⟨⟨hq, hstay _ (by simp)⟩, rfl⟩

/-- **A sender wakes a sleeping `run`**: while `resmt_` is held, `q_` is empty or the caller that
filled it is on its way to `resmt_.unlock()`; freeing it leaves the system awake. -/
theorem asleep_sender {s s' : Threads} (hguard : s.Guarded) (hknow : s.UpToDate)
    (hres : s.resmt_.holder = some .run) (h : s.q_ = [] ∨ ∃ j, s.Notifying j)
    (hstep : SenderTakes s i s') :
    s'.resmt_.holder = some .run ∧ (s'.q_ = [] ∨ ∃ j, s'.Notifying j) ∨
      s'.resmt_.holder = none ∧ s'.Awake := by
  -- a caller that has pushed and not freed `resmt_` yet is the one that moves
  have hmover (hin : (s.senders i).inside = true) (hq : s.q_ ≠ []) : s.Notifying i := by
    obtain ⟨j, hj⟩ := h.resolve_left hq
    rwa [hguard.only_sender hin hj.inside]
  have hat (p : SenderPc) : (s.goto i p).senders i = p := Function.update_self ..
  -- the statements that touch neither `q_` nor `resmt_`
  have hquiet (p : SenderPc) (hp : s.Notifying i → (s.goto i p).Notifying i) :
      s.q_ = [] ∨ ∃ j, (s.goto i p).Notifying j := by
    rcases h with hq | ⟨j, hj⟩
    · exact Or.inl hq
    · right
      by_cases hji : j = i
      · subst hji
        exact ⟨j, hp hj⟩
      · have hsame : (s.goto i p).senders j = s.senders j := Function.update_of_ne hji ..
        exact ⟨j, (notifying_of_ne hsame rfl).mpr hj⟩
  cases hstep with
  | call pack hpc | lockQ pack hpc _ | full pack hpc _ | room pack hpc _ | save pack hpc
  | unlockQ hpc =>
    refine Or.inl ⟨hres, hquiet _ fun hi => ?_⟩
    rcases hi with ⟨hone, _⟩ | hunlock
    · exact absurd (hpc.symm.trans hone) (by simp)
    · exact absurd (hpc.symm.trans hunlock) (by simp)
  | push pack hpc =>
    have hq : s.q_ = [] := by
      by_contra hq
      rcases hmover (by rw [hpc]; rfl) hq with ⟨hone, _⟩ | hunlock
      · exact absurd (hpc.symm.trans hone) (by simp)
      · exact absurd (hpc.symm.trans hunlock) (by simp)
    have hlen : (s.q_ ++ [pack]).length = 1 := by
      rw [hq]
      rfl
    exact Or.inl ⟨hres, Or.inr ⟨i, Or.inl ⟨hat _, hlen⟩⟩⟩
  | alone hpc hlen => exact Or.inl ⟨hres, hquiet _ fun _ => Or.inr (hat _)⟩
  | behind hpc hlen =>
    refine Or.inl ⟨hres, hquiet _ fun hi => ?_⟩
    rcases hi with ⟨_, hone⟩ | hunlock
    · exact absurd hone hlen
    · exact absurd (hpc.symm.trans hunlock) (by simp)
  | unlockRes hpc =>
    -- the caller read the size under `qmt_`, which it still holds
    have hlen : s.q_.length = 1 := by
      have := hknow i
      rwa [hpc] at this
    refine Or.inr ⟨rfl, ?_, fun j hj => ?_⟩
    · show s.q_ ≠ []
      intro hnil
      rw [hnil] at hlen
      exact absurd hlen (by decide)
    · by_cases hji : j = i
      · subst hji
        rcases hj with ⟨hone, _⟩ | hunlock
        · exact absurd ((hat .unlockQ).symm.trans hone) (by decide)
        · exact absurd ((hat .unlockQ).symm.trans hunlock) (by decide)
      · have hsame : (s.goto i .unlockQ).senders j = s.senders j := Function.update_of_ne hji ..
        have hj' : s.Notifying j := (notifying_of_ne hsame rfl).mp hj
        exact hji (hguard.only_sender hj'.inside (by rw [hpc]; rfl))

/-- While `run` is in the region, the callers are outside: they touch neither `q_` nor `resmt_`. -/
theorem sender_outside {s s' : Threads} (hguard : s.Guarded) (hpc : s.pc.inside = true)
    (hstep : SenderTakes s i s') : s'.q_ = s.q_ ∧ s'.resmt_ = s.resmt_ := by
  have hout := hguard.run_alone hpc i
  cases hstep with
  | push pack hpc | unlockRes hpc =>
    rw [hpc] at hout
    exact absurd hout (by simp [SenderPc.inside])
  | call | lockQ | full | room | save | alone | behind | unlockQ => exact ⟨rfl, rfl⟩

/-- No caller ever takes `resmt_`. -/
theorem sender_res_free {s s' : Threads} (h : s.resmt_.holder = none)
    (hstep : SenderTakes s i s') : s'.resmt_.holder = none := by
  cases hstep with
  | unlockRes hpc => rfl
  | call | lockQ | full | room | save | push | alone | behind | unlockQ => exact h

/-- A step of a caller keeps it: where the system is awake it stays so, and where it is asleep the
caller that fills `q_` is the one that frees `resmt_`. -/
theorem ResKnown.sender {s s' : Threads} (hguard : s.Guarded) (hknow : s.UpToDate)
    (h : s.ResKnown) (hstep : SenderTakes s i s') : s'.ResKnown := by
  have hpc' : s'.pc = s.pc := by cases hstep <;> rfl
  unfold ResKnown at h ⊢
  rw [hpc']
  cases hpc : s.pc with
  | testEmpty =>
    rw [hpc] at h
    obtain ⟨_, hres⟩ := sender_outside hguard (by rw [hpc]; rfl) hstep
    show s'.resmt_.holder = some .run
    rw [hres]
    exact h
  | sleepUnlockQ =>
    rw [hpc] at h
    obtain ⟨hq, hres⟩ := sender_outside hguard (by rw [hpc]; rfl) hstep
    show s'.resmt_.holder = some .run ∧ s'.q_ = []
    rw [hq, hres]
    exact h
  | sleepLock =>
    rw [hpc] at h
    rcases h with ⟨hres, hsleep⟩ | ⟨hres, hawake⟩
    · exact asleep_sender hguard hknow hres hsleep hstep
    · exact Or.inr ⟨sender_res_free hres hstep, (hawake.sender hknow hstep).1⟩
  | awakeUnlockQ | unlockRes =>
    rw [hpc] at h
    obtain ⟨hawake, hres⟩ := h.2.sender hknow hstep
    show s'.resmt_.holder = some .run ∧ s'.Awake
    rw [hres]
    exact ⟨h.1, hawake⟩
  | lockQ | lockRes | head | send | countFailed | pushFailed | retryHead | retrySend | retryPop
  | resend | popLock | popQ | popUnlock | testWrite | flushHead | flushPop | resetCnt | metric =>
    rw [hpc] at h
    exact sender_res_free h hstep

/-- Outside its two regions `run` leaves `resmt_` free. -/
theorem resKnown_of_working {s : Threads} (h : s.pc.working = true) :
    s.ResKnown ↔ s.resmt_.holder = none := by
  unfold ResKnown
  cases hpc : s.pc <;> first | exact Iff.rfl | exact absurd (hpc ▸ h) (by decide)

/-- A step of `run` keeps it: `resmt_` is taken where `q_` was found empty, and freed by nobody but a
caller. -/
theorem ResKnown.run {s s' : Threads} (hguard : s.Guarded) (h : s.ResKnown)
    (hstep : RunTakes s s') : s'.ResKnown := by
  have hquiet (hpc : s.pc.inside = true) (j : Nat) : ¬ s.Notifying j := by
    intro hj
    have hout := hguard.run_alone hpc j
    rw [hj.inside] at hout
    exact absurd hout (by decide)
  cases hstep with
  | lockQ hpc _ | popLock hpc _ | popQ hpc | popUnlock hpc =>
    rw [ResKnown, hpc] at h
    exact h
  | lockRes hpc _ => exact rfl
  | findEmpty hpc hq =>
    rw [ResKnown, hpc] at h
    exact ⟨h, hq⟩
  | findFull hpc hq =>
    -- `run` holds `qmt_`: no caller is on its way to `resmt_.unlock()`
    rw [ResKnown, hpc] at h
    exact ⟨h, hq, hquiet (by rw [hpc]; rfl)⟩
  | sleepUnlockQ hpc =>
    rw [ResKnown, hpc] at h
    exact Or.inl ⟨h.1, Or.inl h.2⟩
  | wake hpc hfree =>
    rw [ResKnown, hpc] at h
    rcases h with ⟨hres, _⟩ | ⟨_, hawake⟩
    · rw [hfree] at hres
      exact absurd hres (by simp)
    · exact ⟨rfl, hawake⟩
  | awakeUnlockQ hpc =>
    rw [ResKnown, hpc] at h
    exact h
  | unlockRes hpc => exact rfl
  | work p ret failed_q cnt freq hpc hp =>
    exact (resKnown_of_working hp).mpr ((resKnown_of_working hpc).mp h)

/-! ## Every reachable state -/

/-- What holds of the mutexes and of `q_` in every interleaving. -/
structure Inv (s : Threads) : Prop where
  guarded : s.Guarded
  upToDate : s.UpToDate
  resKnown : s.ResKnown

/-- It holds before the first step: both mutexes are free and nobody is in a region. -/
theorem inv_init : Inv init := by
  refine ⟨fun t => ?_, fun i => trivial, rfl⟩
  cases t with
  | run => exact iff_of_false (by decide) (show ¬ RunPc.lockQ.inside = true by decide)
  | sender i => exact iff_of_false (by simp [init]) (show ¬ SenderPc.idle.inside = true by decide)

/-- One step of any thread keeps the invariant.

The three parts are kept one after the other, each with the help of those before. -/
theorem Inv.step {s s' : Threads} {m : Move} (h : Inv s) (hstep : s.step m = some s') : Inv s' := by
  have hsender {i : Nat} (htakes : SenderTakes s i s') : Inv s' :=
    ⟨h.guarded.sender htakes, h.upToDate.sender h.guarded htakes,
      h.resKnown.sender h.guarded h.upToDate htakes⟩
  cases m with
  | call i pack => exact hsender (call_takes hstep)
  | sender i => exact hsender (senderStep_takes hstep)
  | run ret =>
    have hrun := runStep_takes hstep
    exact ⟨h.guarded.run hrun, h.upToDate.run h.guarded hrun, h.resKnown.run h.guarded hrun⟩

/-- So does every interleaving. -/
theorem Inv.steps {s s' : Threads} {ms : List Move} (h : Inv s) (hsteps : s.Steps ms s') :
    Inv s' := by
  refine Trace.invariant ?_ h hsteps
  intro s m s' hs hstep
  exact hs.step hstep

/-- **No lost wake-up**: when `run` waits at its second `resmt_.lock()` with `resmt_` held and no
caller is between `qmt_.lock()` and `qmt_.unlock()`, `q_` is empty.

It is read off `ResKnown` at that place. A caller that is between the two may still be about to
free `resmt_`, which is why it is excluded. -/
theorem no_lost_wakeup {ms : List Move} {s : Threads} (hsteps : init.Steps ms s)
    (hpc : s.pc = .sleepLock) (hheld : s.resmt_.holder ≠ none)
    (hout : ∀ i, (s.senders i).inside = false) : s.q_ = [] := by
  have hres := (inv_init.steps hsteps).resKnown
  rw [ResKnown, hpc] at hres
  rcases hres with ⟨_, hq | ⟨i, hi⟩⟩ | ⟨hfree, _⟩
  · exact hq
  · have hin := hi.inside
    rw [hout i] at hin
    exact absurd hin (by decide)
  · exact absurd hfree hheld

/-- `run` asleep on an empty `q_`, and a caller on its way to `qmt_.lock()`. -/
def asleepOnEmpty : Threads where
  pc := .sleepLock
  resmt_ := ⟨some .run⟩
  senders := Function.update (fun _ => .idle) 0 (.lockQ "pack")

/-- The run that leads there. -/
theorem steps_asleepOnEmpty :
    init.Steps [.run true, .run true, .call 0 "pack", .run true, .run true] asleepOnEmpty :=
  ⟨_, rfl, _, rfl, _, rfl, _, rfl, _, rfl, rfl⟩

/-- There the queue is empty, as it should be. -/
theorem no_lost_wakeup_asleepOnEmpty : asleepOnEmpty.q_ = [] := by
  apply no_lost_wakeup steps_asleepOnEmpty rfl (by decide)
  intro i
  show (Function.update (fun _ => SenderPc.idle) 0 (.lockQ "pack") i).inside = false
  by_cases hi : i = 0
  · rw [hi, Function.update_self]
    rfl
  · rw [Function.update_of_ne hi]
    rfl

end Threads

end EdgeFrame.Flow
