/-
# EdgeFrame.Flow.Accounts -- what becomes of every message

A message that is handed to `SendToFlowServer` is written to the cache by its caller, or
goes through `q_`. There it is sent, and what is refused waits in `failed_q` until it is
written to the cache as well, or dropped when it is refused again. This module keeps the
books of a run, for any number of callers and in every interleaving: every message is
accounted for, the order of each caller and that of the queue is kept, and only a second
refusal drops a message. A second attempt that succeeds takes nothing out of `failed_q`.

The front of `q_` is read without the lock, twice and far apart. That it is the same
message each time, and the one that is popped, is what the invariant is about.

`History` is what a run has done to messages, in its order, and the books (`calledBy`,
`pushed`, `popped`, `attempts`, `leavings`) are read off it. `Accounts` is the invariant:
it equates each book with another one and with what the state still holds. A step changes
both sides by the same messages, and `Accounts.goOn` says so once; the lemmas below it are
the steps, a caller's first and then those of `run`, each with what it hands over.

`Flow.HandOver` speaks of the same queues a round at a time and of a single caller; here a
round is what its statements do, among those of the callers.
-/
import EdgeFrame.Flow.Interleaving
import Mathlib

namespace EdgeFrame.Flow

open EdgeFrame.Lib

/-! ## What a step does to a message -/

/-- What can happen to a message.

The constructors are the moments at which a message changes hands; a statement that reads a queue is
not among them. -/
inductive Handling where
  /-- caller `i` hands it to `SendToFlowServer` -/
  | called (i : Nat) (pack : String)
  /-- its caller writes it to the cache -/
  | saved (i : Nat) (pack : String)
  /-- its caller pushes it to `q_` -/
  | pushed (i : Nat) (pack : String)
  /-- `sendMessage(q_.front())`, and the answer -/
  | sent (pack : String) (ret : Bool)
  /-- `q_.pop()` -/
  | popped (pack : String)
  /-- `sendMessage(failed_q.front())`, and the answer -/
  | resent (pack : String) (ret : Bool)
  /-- `failed_q.pop()` after it was refused again -/
  | dropped (pack : String)
  /-- written to the cache and popped from `failed_q` -/
  | flushed (pack : String)
  deriving DecidableEq, Repr

/-- What a caller holds. -/
@[simp] def SenderPc.hand : SenderPc → List String
  | .lockQ pack | .testSize pack | .save pack | .push pack => [pack]
  | _ => []

/-- `run` is busy with the front of `q_`. -/
@[simp] def RunPc.busy : RunPc → Bool
  | .send | .countFailed | .pushFailed | .retryHead | .retrySend | .retryPop | .resend => true
  | .popLock | .popQ => true
  | _ => false

/-- The front of `q_` has been sent. -/
@[simp] def RunPc.tried : RunPc → Bool
  | .send => false
  | p => p.busy

/-- The front of `q_` was refused, and is not in `failed_q` yet. -/
@[simp] def RunPc.refused : RunPc → Bool
  | .countFailed | .pushFailed => true
  | _ => false

/-- `run` is about to use the front of `failed_q`. -/
@[simp] def RunPc.needsFailed : RunPc → Bool
  | .retrySend | .retryPop | .flushPop => true
  | _ => false

/-- What has happened, in its order. -/
abbrev History := List Handling

namespace Threads

/-- What a move does to messages.

It is read off the place the thread is at before the move, so that a move that cannot be made does
nothing. -/
def handled (s : Threads) : Move → List Handling
  | .call i pack => [.called i pack]
  | .sender i =>
    match s.senders i with
    | .save pack => [.saved i pack]
    | .push pack => [.pushed i pack]
    | _ => []
  | .run ret =>
    match s.pc with
    | .send => (s.q_.take 1).map (.sent · ret)
    | .popQ => (s.q_.take 1).map .popped
    | .retrySend => (s.failed_q.take 1).map (.resent · ret)
    | .retryPop => (s.failed_q.take 1).map .dropped
    | .flushPop => (s.failed_q.take 1).map .flushed
    | _ => []

/-- What is done in a run, as long as its moves can be made. -/
def history (s : Threads) : List Move → History
  | [] => []
  | m :: ms =>
    match s.step m with
    | some s' => s.handled m ++ s'.history ms
    | none => []

/-- The history grows at its end: a run that makes one move more has done one thing more. -/
theorem history_snoc {ms : List Move} {m : Move} : ∀ {s s' s'' : Threads}, s.Steps ms s' →
    s'.step m = some s'' → s.history (ms ++ [m]) = s.history ms ++ s'.handled m := by
  induction ms with
  | nil =>
    rintro s s' s'' rfl hstep
    simp only [List.nil_append, history, hstep, List.append_nil]
  | cons m' ms ih =>
    rintro s s' s'' ⟨s₁, hfirst, hrest⟩ hstep
    simp only [List.cons_append, history, hfirst, ih hrest hstep, List.append_assoc]

end Threads

/-! ## The books -/

namespace History

/-- The messages of a caller, as it hands them over. -/
@[simp] def calledBy (h : History) (i : Nat) : List String :=
  h.filterMap fun
    | .called j pack => if j = i then some pack else none
    | _ => none

/-- The messages of a caller that it has saved or pushed. -/
@[simp] def settledBy (h : History) (i : Nat) : List String :=
  h.filterMap fun
    | .saved j pack | .pushed j pack => if j = i then some pack else none
    | _ => none

/-- The messages that were pushed onto `q_`, in order. -/
@[simp] def pushed (h : History) : List String :=
  h.filterMap fun
    | .pushed _ pack => some pack
    | _ => none

/-- The messages that were popped from it. -/
@[simp] def popped (h : History) : List String :=
  h.filterMap fun
    | .popped pack => some pack
    | _ => none

/-- The first attempts to send a message. -/
@[simp] def attempts (h : History) : List (String × Bool) :=
  h.filterMap fun
    | .sent pack ret => some (pack, ret)
    | _ => none

/-- The further attempts. -/
@[simp] def resends (h : History) : List (String × Bool) :=
  h.filterMap fun
    | .resent pack ret => some (pack, ret)
    | _ => none

/-- The messages that have left `failed_q`, and whether they were written to the cache. -/
@[simp] def leavings (h : History) : List (String × Bool) :=
  h.filterMap fun
    | .flushed pack => some (pack, true)
    | .dropped pack => some (pack, false)
    | _ => none

variable (h h' : History)

/-- Each book of two stretches is that of the first and then that of the second. -/
theorem calledBy_append (i : Nat) : calledBy (h ++ h') i = h.calledBy i ++ h'.calledBy i :=
  List.filterMap_append

theorem settledBy_append (i : Nat) :
    settledBy (h ++ h') i = h.settledBy i ++ h'.settledBy i := List.filterMap_append

theorem pushed_append : pushed (h ++ h') = h.pushed ++ h'.pushed := List.filterMap_append

theorem popped_append : popped (h ++ h') = h.popped ++ h'.popped := List.filterMap_append

theorem attempts_append : attempts (h ++ h') = h.attempts ++ h'.attempts :=
  List.filterMap_append

theorem resends_append : resends (h ++ h') = h.resends ++ h'.resends :=
  List.filterMap_append

theorem leavings_append : leavings (h ++ h') = h.leavings ++ h'.leavings :=
  List.filterMap_append

end History

/-- The messages with this answer. -/
@[simp] def withAnswer (ret : Bool) (l : List (String × Bool)) : List String :=
  (l.filter (·.2 == ret)).map (·.1)

theorem withAnswer_append (ret : Bool) (l l' : List (String × Bool)) :
    withAnswer ret (l ++ l') = withAnswer ret l ++ withAnswer ret l' := by
  rw [withAnswer, List.filter_append, List.map_append]
  rfl

namespace Threads

/-- The books of a run that has come to `s`.

`front` and `failedFront` say that a queue is not empty where `run` is about to read its front; the
other parts equate a book with another one and what the state still holds. -/
structure Accounts (h : History) (s : Threads) : Prop where
  /-- each caller settles its messages in turn -/
  callers : ∀ i, h.calledBy i = h.settledBy i ++ (s.senders i).hand
  /-- the queue gives out what was pushed, in its order -/
  queue : h.pushed = h.popped ++ s.q_
  front : s.pc.busy = true → s.q_ ≠ []
  /-- every message is sent before it is popped, in the same order -/
  tried : h.attempts.map (·.1) = h.popped ++ if s.pc.tried then s.q_.take 1 else []
  /-- what was refused is in `failed_q` until it leaves there, in the same order -/
  refused : withAnswer false h.attempts = h.leavings.map (·.1) ++ s.failed_q ++
    if s.pc.refused then s.q_.take 1 else []
  failedFront : s.pc.needsFailed = true → s.failed_q ≠ []
  /-- only what was refused again is dropped -/
  dropped : withAnswer false h.resends = withAnswer false h.leavings ++
    if s.pc = .retryPop then s.failed_q.take 1 else []

/-- The books of a run that has not begun are empty. -/
theorem accounts_init : Accounts [] init where
  callers _ := rfl
  queue := rfl
  front := fun hno => nomatch hno
  tried := rfl
  refused := rfl
  failedFront := fun hno => nomatch hno
  dropped := rfl

variable {h : History} {s s' : Threads}

/-- **The books go on** if what a step has done agrees with what it has changed.

Each book is an equation between lists; the premises are what the step adds at either side. -/
theorem Accounts.goOn (h' : History) (hbooks : Accounts h s)
    (hcallers : ∀ i, (s.senders i).hand ++ h'.calledBy i = h'.settledBy i ++ (s'.senders i).hand)
    (hqueue : s.q_ ++ h'.pushed = h'.popped ++ s'.q_) (hfront : s'.pc.busy = true → s'.q_ ≠ [])
    (htried : (if s.pc.tried then s.q_.take 1 else []) ++ h'.attempts.map (·.1) =
      h'.popped ++ if s'.pc.tried then s'.q_.take 1 else [])
    (hrefused : s.failed_q ++ (if s.pc.refused then s.q_.take 1 else []) ++
        withAnswer false h'.attempts =
      h'.leavings.map (·.1) ++ s'.failed_q ++ if s'.pc.refused then s'.q_.take 1 else [])
    (hfailed : s'.pc.needsFailed = true → s'.failed_q ≠ [])
    (hdropped : (if s.pc = .retryPop then s.failed_q.take 1 else []) ++ withAnswer false h'.resends =
      withAnswer false h'.leavings ++ if s'.pc = .retryPop then s'.failed_q.take 1 else []) :
    Accounts (h ++ h') s' := by
  constructor
  · intro i
    rw [History.calledBy_append, History.settledBy_append, hbooks.callers, List.append_assoc,
      hcallers, List.append_assoc]
  · rw [History.pushed_append, History.popped_append, hbooks.queue, List.append_assoc, hqueue,
      List.append_assoc]
  · exact hfront
  · rw [History.attempts_append, History.popped_append, List.map_append, hbooks.tried,
      List.append_assoc, htried, List.append_assoc]
  · rw [History.attempts_append, History.leavings_append, withAnswer_append, List.map_append,
      hbooks.refused, List.append_assoc, List.append_assoc, ← List.append_assoc s.failed_q, hrefused,
      List.append_assoc, List.append_assoc, List.append_assoc]
  · exact hfailed
  · rw [History.resends_append, History.leavings_append, withAnswer_append, withAnswer_append,
      hbooks.dropped, List.append_assoc, hdropped, List.append_assoc]

/-! ## The steps of a caller -/

/-- A step of a caller leaves `run` and `failed_q` alone, and `q_` but for its end. -/
structure Aside (s s' : Threads) (pack : List String) : Prop where
  pc : s'.pc = s.pc
  failed_q : s'.failed_q = s.failed_q
  q_ : s'.q_ = s.q_ ++ pack

/-- The books after a step of a caller: those of `run` are untouched, and a message is at the end of
`q_` if one was pushed. -/
theorem Accounts.aside (h' : History) {pack : List String} (hbooks : Accounts h s)
    (hstep : Aside s s' pack)
    (hcallers : ∀ i, (s.senders i).hand ++ h'.calledBy i = h'.settledBy i ++ (s'.senders i).hand)
    (hpushed : h'.pushed = pack) (hpopped : h'.popped = []) (hattempts : h'.attempts = [])
    (hresends : h'.resends = []) (hleavings : h'.leavings = []) : Accounts (h ++ h') s' := by
  obtain ⟨hpc, hfailed, hq⟩ := hstep
  -- the front of `q_` stays where it is
  have hfront : s.pc.busy = true → s'.q_.take 1 = s.q_.take 1 := by
    intro hbusy
    obtain ⟨x, xs, hx⟩ := List.exists_cons_of_ne_nil (hbooks.front hbusy)
    rw [hq, hx]
    rfl
  apply hbooks.goOn h' hcallers
  · rw [hpushed, hpopped, hq, List.nil_append]
  · intro hbusy
    rw [hpc] at hbusy
    rw [hq]
    exact List.append_ne_nil_of_left_ne_nil (hbooks.front hbusy) _
  · rw [hattempts, hpopped, hpc, List.map_nil, List.append_nil, List.nil_append]
    split
    · rename_i htried
      rw [hfront (by revert htried; cases s.pc <;> simp)]
    · rfl
  · rw [hattempts, hleavings, hpc, hfailed, List.map_nil, List.nil_append]
    split
    · rename_i hrefused
      rw [hfront (by revert hrefused; cases s.pc <;> simp)]
      exact List.append_nil _
    · exact List.append_nil _
  · rw [hpc, hfailed]
    exact hbooks.failedFront
  · rw [hresends, hleavings, hpc, hfailed]
    exact List.append_nil _

/-- Caller `i` goes from one place to another, with what it holds in the one hand or the other.

The books of the other callers stay as they are. -/
theorem hand_goto {i : Nat} {p : SenderPc} {calls settled : Nat → List String}
    (hself : (s.senders i).hand ++ calls i = settled i ++ p.hand)
    (hother : ∀ j, j ≠ i → calls j = [] ∧ settled j = []) (j : Nat) :
    (s.senders j).hand ++ calls j = settled j ++ ((s.goto i p).senders j).hand := by
  show _ = settled j ++ (Function.update s.senders i p j).hand
  by_cases hj : j = i
  · subst hj
    rw [Function.update_self]
    exact hself
  · rw [(hother j hj).1, (hother j hj).2, List.append_nil, List.nil_append,
      Function.update_of_ne hj]

/-- A new call takes its message in hand. -/
theorem Accounts.call (hbooks : Accounts h s) {i : Nat} {pack : String}
    (hstep : s.step (.call i pack) = some s') : Accounts (h ++ s.handled (.call i pack)) s' := by
  by_cases hidle : s.senders i = .idle
  · rw [step, if_pos hidle] at hstep
    obtain rfl := Option.some.inj hstep
    have haside : Aside s (s.goto i (.lockQ pack)) [] := ⟨rfl, rfl, (List.append_nil _).symm⟩
    refine hbooks.aside _ haside ?_ rfl rfl rfl rfl rfl
    apply hand_goto
    · simp [hidle, handled]
    · intro j hj
      simp [handled, hj.symm]
  · rw [step, if_neg hidle] at hstep
    cases hstep

/-- A step of a caller saves the message, or pushes it, or keeps it in hand. -/
theorem Accounts.sender (hbooks : Accounts h s) {i : Nat}
    (hstep : s.step (.sender i) = some s') : Accounts (h ++ s.handled (.sender i)) s' := by
  -- a statement that settles nothing keeps the message in the same hand
  have hkeep : ∀ p s', p.hand = (s.senders i).hand → s'.senders = (s.goto i p).senders →
      Aside s s' [] → Accounts (h ++ []) s' := by
    intro p s' hp hsenders haside
    refine hbooks.aside [] haside ?_ rfl rfl rfl rfl rfl
    rw [hsenders]
    apply hand_goto
    · rw [hp]
      exact List.append_nil _
    · exact fun j hj => ⟨rfl, rfl⟩
  have haside : ∀ {qmt_ resmt_ : Mutex Thread} {senders : Nat → SenderPc},
      Aside s { s with qmt_ := qmt_, resmt_ := resmt_, senders := senders } [] :=
    ⟨rfl, rfl, (List.append_nil _).symm⟩
  change s.senderStep i = some s' at hstep
  unfold senderStep at hstep
  cases hpc : s.senders i with
  | idle =>
    rw [hpc] at hstep
    cases hstep
  | lockQ pack =>
    simp only [hpc] at hstep
    obtain ⟨m, -, rfl⟩ := Option.map_eq_some_iff.mp hstep
    simp only [handled, hpc]
    exact hkeep (.testSize pack) _ (by rw [hpc]; rfl) rfl haside
  | testSize pack =>
    simp only [hpc] at hstep
    obtain rfl := Option.some.inj hstep
    simp only [handled, hpc]
    split
    · exact hkeep (.save pack) _ (by rw [hpc]; rfl) rfl haside
    · exact hkeep (.push pack) _ (by rw [hpc]; rfl) rfl haside
  | save pack =>
    simp only [hpc] at hstep
    obtain rfl := Option.some.inj hstep
    simp only [handled, hpc]
    refine hbooks.aside _ haside ?_ rfl rfl rfl rfl rfl
    apply hand_goto
    · simp [hpc]
    · intro j hj
      simp [hj.symm]
  | push pack =>
    simp only [hpc] at hstep
    obtain rfl := Option.some.inj hstep
    simp only [handled, hpc]
    refine hbooks.aside _ ⟨rfl, rfl, rfl⟩ ?_ rfl rfl rfl rfl rfl
    apply hand_goto (s := s)
    · simp [hpc]
    · intro j hj
      simp [hj.symm]
  | testOne =>
    simp only [hpc] at hstep
    obtain rfl := Option.some.inj hstep
    simp only [handled, hpc]
    split
    · exact hkeep .unlockRes _ (by rw [hpc]; rfl) rfl haside
    · exact hkeep .unlockQ _ (by rw [hpc]; rfl) rfl haside
  | unlockRes =>
    simp only [hpc] at hstep
    obtain rfl := Option.some.inj hstep
    simp only [handled, hpc]
    exact hkeep .unlockQ _ (by rw [hpc]; rfl) rfl haside
  | unlockQ =>
    simp only [hpc] at hstep
    obtain rfl := Option.some.inj hstep
    simp only [handled, hpc]
    exact hkeep .idle _ (by rw [hpc]; rfl) rfl haside

/-! ## The steps of `run` -/

/-- A statement of `run` that does nothing to a message. -/
theorem Accounts.passes (hbooks : Accounts h s) (hq : s'.q_ = s.q_)
    (hfailed : s'.failed_q = s.failed_q) (hsenders : s'.senders = s.senders)
    (hfront : s'.pc.busy = true → s.q_ ≠ []) (htried : s'.pc.tried = s.pc.tried)
    (hrefused : s'.pc.refused = s.pc.refused) (hneeds : s'.pc.needsFailed = true → s.failed_q ≠ [])
    (hpc : s.pc ≠ .retryPop) (hpc' : s'.pc ≠ .retryPop) : Accounts (h ++ []) s' := by
  apply hbooks.goOn []
  · intro i
    rw [hsenders]
    exact List.append_nil _
  · rw [hq]
    exact List.append_nil _
  · rwa [hq]
  · rw [htried, hq]
    exact List.append_nil _
  · rw [hrefused, hq, hfailed]
    exact List.append_nil _
  · rwa [hfailed]
  · rw [if_neg hpc, if_neg hpc']
    rfl

/-- **The front of `q_` is sent**, which nobody takes away until it is popped.

`q_` is not empty where it is read, and callers only push at its end (`Aside`), so the message that
is sent is the one that is popped later. -/
theorem Accounts.sends (hbooks : Accounts h s) (hpc : s.pc = .send) (ret : Bool) :
    Accounts (h ++ (s.q_.take 1).map (.sent · ret))
      { s with ret := ret, pc := if ret then .retryHead else .countFailed } := by
  obtain ⟨x, xs, hq⟩ := List.exists_cons_of_ne_nil (hbooks.front (by rw [hpc]; rfl))
  rw [hq]
  apply hbooks.goOn [.sent x ret] <;> cases ret <;> simp [hpc, hq]

/-- What is refused joins `failed_q` at its end. -/
theorem Accounts.pushesFailed (hbooks : Accounts h s) (hpc : s.pc = .pushFailed) :
    Accounts (h ++ []) { s with pc := .popLock, failed_q := s.failed_q ++ s.q_.take 1 } := by
  have hfront : s.q_ ≠ [] := hbooks.front (by rw [hpc]; rfl)
  apply hbooks.goOn [] <;> simp [hpc, hfront]

/-- The front of `failed_q` is sent once more. -/
theorem Accounts.resends (hbooks : Accounts h s) (hpc : s.pc = .retrySend) (ret : Bool) :
    Accounts (h ++ (s.failed_q.take 1).map (.resent · ret))
      { s with ret := ret, pc := if ret then .resend else .retryPop } := by
  have hfront : s.q_ ≠ [] := hbooks.front (by rw [hpc]; rfl)
  obtain ⟨x, xs, hx⟩ := List.exists_cons_of_ne_nil (hbooks.failedFront (by rw [hpc]; rfl))
  rw [hx]
  apply hbooks.goOn [.resent x ret] <;> cases ret <;> simp [hpc, hfront, hx]

/-- What is refused again is dropped.

This is the second branch of the re-send loop, which pops where the first breaks. -/
theorem Accounts.drops (hbooks : Accounts h s) (hpc : s.pc = .retryPop) :
    Accounts (h ++ (s.failed_q.take 1).map .dropped)
      { s with pc := .retryHead, failed_q := s.failed_q.tail } := by
  have hfront : s.q_ ≠ [] := hbooks.front (by rw [hpc]; rfl)
  obtain ⟨x, xs, hx⟩ := List.exists_cons_of_ne_nil (hbooks.failedFront (by rw [hpc]; rfl))
  rw [hx]
  apply hbooks.goOn [.dropped x] <;> simp [hpc, hfront, hx]

/-- What is popped is what has been sent. -/
theorem Accounts.pops (hbooks : Accounts h s) (hpc : s.pc = .popQ) :
    Accounts (h ++ (s.q_.take 1).map .popped) { s with pc := .popUnlock, q_ := s.q_.tail } := by
  obtain ⟨x, xs, hq⟩ := List.exists_cons_of_ne_nil (hbooks.front (by rw [hpc]; rfl))
  rw [hq]
  apply hbooks.goOn [.popped x] <;> simp [hpc, hq]

/-- What has waited through ten failures is written to the cache. -/
theorem Accounts.flushes (hbooks : Accounts h s) (hpc : s.pc = .flushPop) :
    Accounts (h ++ (s.failed_q.take 1).map .flushed)
      { s with pc := .flushHead, failed_q := s.failed_q.tail } := by
  obtain ⟨x, xs, hx⟩ := List.exists_cons_of_ne_nil (hbooks.failedFront (by rw [hpc]; rfl))
  rw [hx]
  apply hbooks.goOn [.flushed x] <;> simp [hpc, hx]

/-- Every statement of `run` keeps the books: those that hand over a message by the lemmas above, the
others by `passes`. -/
theorem Accounts.run (hbooks : Accounts h s) {ret : Bool} (hstep : s.step (.run ret) = some s') :
    Accounts (h ++ s.handled (.run ret)) s' := by
  change s.runStep ret = some s' at hstep
  unfold runStep at hstep
  have hfront := hbooks.front
  cases hpc : s.pc with
  | lockQ | lockRes | sleepLock | popLock =>
    rw [hpc] at hstep hfront
    obtain ⟨m, -, rfl⟩ := Option.map_eq_some_iff.mp hstep
    simp only [handled, hpc]
    apply hbooks.passes <;> simp_all
  | send =>
    rw [hpc] at hstep
    obtain rfl := Option.some.inj hstep
    -- the six statements that do something to a message
    simp only [handled, hpc]
    exact hbooks.sends hpc ret
  | pushFailed =>
    rw [hpc] at hstep
    obtain rfl := Option.some.inj hstep
    simp only [handled, hpc]
    exact hbooks.pushesFailed hpc
  | retrySend =>
    rw [hpc] at hstep
    obtain rfl := Option.some.inj hstep
    simp only [handled, hpc]
    exact hbooks.resends hpc ret
  | retryPop =>
    rw [hpc] at hstep
    obtain rfl := Option.some.inj hstep
    simp only [handled, hpc]
    exact hbooks.drops hpc
  | popQ =>
    rw [hpc] at hstep
    obtain rfl := Option.some.inj hstep
    simp only [handled, hpc]
    exact hbooks.pops hpc
  | flushPop =>
    rw [hpc] at hstep
    obtain rfl := Option.some.inj hstep
    simp only [handled, hpc]
    exact hbooks.flushes hpc
  | sleepUnlockQ | awakeUnlockQ | unlockRes | countFailed | resend | popUnlock | resetCnt | metric =>
    rw [hpc] at hstep hfront
    obtain rfl := Option.some.inj hstep
    simp only [handled, hpc]
    apply hbooks.passes <;> simp_all
  | testEmpty | head | retryHead | testWrite | flushHead =>
    -- a loop is entered only with something in its queue
    rw [hpc] at hstep hfront
    obtain rfl := Option.some.inj hstep
    simp only [handled, hpc]
    split <;> apply hbooks.passes <;> simp_all [List.length_pos_iff]

/-! ## Whole runs -/

/-- The books of every run are in order, by induction on its moves. -/
theorem accounts_steps {ms : List Move} {s : Threads} (hsteps : init.Steps ms s) :
    Accounts (init.history ms) s := by
  refine Trace.history (H := fun ms s => Accounts (init.history ms) s) accounts_init ?_ hsteps
  intro ms s m s' hms hbooks hstep
  rw [history_snoc hms hstep]
  cases m with
  | call i pack => exact hbooks.call hstep
  | sender i => exact hbooks.sender hstep
  | run ret => exact hbooks.run hstep

/-- The messages in `q_` that have not been sent. -/
def untried (s : Threads) : List String := if s.pc.tried then s.q_.tail else s.q_

/-- The messages that were refused and are still with `run`. -/
def waiting (s : Threads) : List String :=
  s.failed_q ++ if s.pc.refused then s.q_.take 1 else []

/-- Every message has one of the two answers. -/
theorem perm_withAnswer (l : List (String × Bool)) :
    (l.map (·.1)).Perm (withAnswer true l ++ withAnswer false l) := by
  have hsplit := List.filter_append_perm (·.2 == true) l
  have hnot : l.filter (fun x => !(x.2 == true)) = l.filter (·.2 == false) := by
    congr 1
    funext x
    cases x.2 <;> rfl
  rw [hnot] at hsplit
  have hmap := hsplit.symm.map (·.1)
  rwa [List.map_append] at hmap

/-- What is pushed is sent in its order. -/
theorem Accounts.pushed_eq (hbooks : Accounts h s) :
    h.pushed = h.attempts.map (·.1) ++ s.untried := by
  rw [hbooks.queue, hbooks.tried, List.append_assoc]
  unfold untried
  split
  · rw [← List.drop_one, List.take_append_drop]
  · rw [List.nil_append]

/-- **Every message is accounted for**, in any interleaving. Every caller saves or pushes its
messages in turn. What is pushed is popped in that order, and sent once before it is. Each pushed
message was delivered then, or was written to the cache, or dropped, or is still with `run`. What is
dropped was refused a second time.

All of it is read off `Accounts`; only the count of the deliveries needs `perm_withAnswer`, which
parts the attempts by their answer. -/
theorem messages_accounted {ms : List Move} {s : Threads} (hsteps : init.Steps ms s) :
    (∀ i, (init.history ms).calledBy i = (init.history ms).settledBy i ++ (s.senders i).hand) ∧
      (init.history ms).pushed = (init.history ms).popped ++ s.q_ ∧
      (init.history ms).pushed = (init.history ms).attempts.map (·.1) ++ s.untried ∧
      (init.history ms).pushed.Perm
        (withAnswer true (init.history ms).attempts ++
          (withAnswer true (init.history ms).leavings ++ withAnswer false (init.history ms).leavings) ++
          s.waiting ++ s.untried) ∧
      withAnswer false (init.history ms).resends =
        withAnswer false (init.history ms).leavings ++
          if s.pc = .retryPop then s.failed_q.take 1 else [] := by
  have hbooks := accounts_steps hsteps
  refine ⟨hbooks.callers, hbooks.queue, hbooks.pushed_eq, ?_, hbooks.dropped⟩
  -- of the first attempts, the refused ones are where `failed_q` has taken them
  have hfirst := perm_withAnswer (init.history ms).attempts
  have hleft := perm_withAnswer (init.history ms).leavings
  rw [hbooks.refused, List.append_assoc, ← waiting] at hfirst
  rw [hbooks.pushed_eq]
  refine List.Perm.append_right _ (hfirst.trans ?_)
  rw [List.append_assoc]
  exact (hleft.append_right _).append_left _

/-- Two messages are queued. The first is refused, the second goes through, and the first is
refused again. -/
def refusedTwice : List Move :=
  .call 0 "a" :: List.replicate 6 (.sender 0) ++ .call 1 "b" :: List.replicate 5 (.sender 1) ++
    List.replicate 14 (.run false) ++ List.replicate 2 (.run true) ++ List.replicate 9 (.run false)

/-- The state in which `refusedTwice` ends. -/
def afterRefusedTwice : Threads := (init.exec refusedTwice).getD init

/-- There `"a"` was pushed, tried, and left `failed_q` unsaved. -/
theorem messages_accounted_refusedTwice :
    withAnswer false (init.history refusedTwice).leavings = ["a"] ∧
      (init.history refusedTwice).pushed = ["a", "b"] ∧
      (init.history refusedTwice).attempts.map (·.1) ++ afterRefusedTwice.untried = ["a", "b"] := by
  have hsteps : init.Steps refusedTwice afterRefusedTwice := steps_iff_exec.mpr rfl
  have hpushed : (init.history refusedTwice).pushed = ["a", "b"] := rfl
  refine ⟨rfl, hpushed, ?_⟩
  rw [← (messages_accounted hsteps).2.2.1]
  exact hpushed

end Threads

end EdgeFrame.Flow
