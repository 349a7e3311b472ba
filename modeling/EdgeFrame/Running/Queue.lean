/-
# EdgeFrame.Running.Queue -- the queues between the processors

`Queue<boost::any>` wraps a lock-free queue of one producer and one consumer, which is
not part of the repository: here it is any queue that keeps the promises of
`BoundedQueue`. `Push` looks at the size before it calls the library, and drops the
message when the queue is full; `Pop` ignores whether the library found anything, so
that an empty queue leaves the caller with the value it had.

The two calls that `Push` makes are separate steps of the thread that pushes, with the
consumer free to pop between them. They are therefore functions of their own.
-/
import EdgeFrame.Lib.Channel
import Mathlib

namespace EdgeFrame.Running

open EdgeFrame.Lib

variable {α : Type} {B : BoundedQueue α}

/-- `Queue<boost::any>`; its constructor gives the library's queue the capacity `cap_`, and never are
there more messages than that. -/
structure Queue (B : BoundedQueue α) where
  cap_ : Nat
  queue_impl_ : B.Impl
  fits : B.capacity queue_impl_ = cap_
  within : (B.contents queue_impl_).length ≤ cap_

namespace Queue

/-- The messages in the queue, the next to be popped first. -/
def items (q : Queue B) : List α := B.contents q.queue_impl_

/-- The constructor. -/
def new (B : BoundedQueue α) (size : Nat) : Queue B where
  cap_ := size
  queue_impl_ := B.new size
  fits := B.capacity_new size
  within := by rw [B.contents_new]; exact Nat.zero_le _

/-- `Size()`. -/
def Size (q : Queue B) : Nat := B.read_available q.queue_impl_

/-- `Empty()`. -/
def Empty (q : Queue B) : Bool := B.empty q.queue_impl_

/-- `Size() >= cap_`, the test at the head of `Push`. -/
def full (q : Queue B) : Bool := decide (q.cap_ ≤ q.Size)

/-- The library's queue has its capacity from the constructor. -/
theorem push_within (q : Queue B) (t : α) :
    (B.contents (B.push q.queue_impl_ t).2).length ≤ q.cap_ := by
  by_cases hroom : (B.contents q.queue_impl_).length < q.cap_
  · rw [(B.push_room _ t (q.fits.symm ▸ hroom)).2, List.length_append]
    exact hroom
  · rw [B.push_full _ t (q.fits.symm ▸ Nat.not_lt.mp hroom)]
    exact q.within

/-- `queue_impl_->push(std::move(t))`, the end of `Push`. -/
def implPush (q : Queue B) (t : α) : Bool × Queue B :=
  ((B.push q.queue_impl_ t).1, {
    cap_ := q.cap_
    queue_impl_ := (B.push q.queue_impl_ t).2
    fits := (B.capacity_push _ t).trans q.fits
    within := q.push_within t })

/-- `Push`, with nobody else at the queue. -/
def Push (q : Queue B) (t : α) : Bool × Queue B :=
  if q.full then (false, q) else q.implPush t

/-- Popping does not make it longer. -/
theorem pop_within (q : Queue B) : (B.contents (B.pop q.queue_impl_).2).length ≤ q.cap_ := by
  have hwithin := q.within
  cases hitems : B.contents q.queue_impl_ with
  | nil =>
    rw [B.pop_nil _ hitems]
    exact hwithin
  | cons x xs =>
    rw [(B.pop_cons _ x xs hitems).2]
    rw [hitems, List.length_cons] at hwithin
    omega

/-- `Pop(t)`: what `t` is afterwards. -/
def Pop (q : Queue B) (t : α) : α × Queue B :=
  ((B.pop q.queue_impl_).1.getD t, {
    cap_ := q.cap_
    queue_impl_ := (B.pop q.queue_impl_).2
    fits := (B.capacity_pop _).trans q.fits
    within := q.pop_within })

/-! ## What the operations do to the messages -/

/-- A new queue is empty. -/
@[simp] theorem items_new (size : Nat) : (new B size).items = [] := B.contents_new size

/-- It has the capacity it was made with. -/
@[simp] theorem cap_new (size : Nat) : (new B size).cap_ = size := rfl

/-- Which stays through a push, -/
@[simp] theorem cap_implPush (q : Queue B) (t : α) : (q.implPush t).2.cap_ = q.cap_ := rfl

/-- and through a pop. -/
@[simp] theorem cap_Pop (q : Queue B) (t : α) : (q.Pop t).2.cap_ = q.cap_ := rfl

/-- There are never more messages than that. -/
theorem length_items_le (q : Queue B) : q.items.length ≤ q.cap_ := q.within

/-- A queue that is not empty has a message. -/
theorem Empty_eq_false {q : Queue B} : q.Empty = false ↔ q.items ≠ [] := by
  rw [Empty, B.empty_eq, ← Bool.not_eq_true, List.isEmpty_iff]
  rfl

/-- A full queue has as many as it may. -/
theorem full_eq_true {q : Queue B} : q.full = true ↔ q.items.length = q.cap_ := by
  have hle := q.length_items_le
  rw [full, Size, B.read_available_eq, decide_eq_true_iff]
  exact ⟨fun h => Nat.le_antisymm hle h, fun h => h.ge⟩

/-- The library takes a message as long as there is room. -/
theorem implPush_room {q : Queue B} (t : α) (h : q.items.length < q.cap_) :
    (q.implPush t).1 = true ∧ (q.implPush t).2.items = q.items ++ [t] :=
  B.push_room _ t (q.fits.symm ▸ h)

/-- `Pop` on a queue that is not empty. -/
theorem Pop_cons {q : Queue B} {x : α} {xs : List α} (t : α) (h : q.items = x :: xs) :
    (q.Pop t).1 = x ∧ (q.Pop t).2.items = xs := by
  obtain ⟨hx, hxs⟩ := B.pop_cons _ x xs h
  refine ⟨?_, hxs⟩
  show (B.pop q.queue_impl_).1.getD t = x
  rw [hx]
  rfl

/-- **`Push`** appends the message, or leaves the full queue as it is. -/
theorem Push_spec (q : Queue B) (t : α) :
    (q.items.length < q.cap_ ∧ (q.Push t).1 = true ∧ (q.Push t).2.items = q.items ++ [t]) ∨
      (q.items.length = q.cap_ ∧ q.Push t = (false, q)) := by
  unfold Push
  cases hfull : q.full with
  | true => exact Or.inr ⟨full_eq_true.mp hfull, rfl⟩
  | false =>
    have hroom : q.items.length < q.cap_ := by
      refine lt_of_le_of_ne q.length_items_le fun heq => ?_
      rw [full_eq_true.mpr heq] at hfull
      cases hfull
    exact Or.inl ⟨hroom, implPush_room t hroom⟩

/-! ## Between a producer and a consumer -/

/-- What holds of a queue between the steps of its producer and its consumer: it has the capacity it
was made with, every message in it is `ok`, the producer only goes on to push when there is room, and
the consumer only goes on to pop when there is something. -/
structure Link (q : Queue B) (size : Nat) (ok : α → Prop) (pushing popping : Prop) : Prop where
  cap : q.cap_ = size
  ok : ∀ x ∈ q.items, ok x
  room : pushing → q.items.length < q.cap_
  some : popping → q.items ≠ []

namespace Link

variable {q : Queue B} {size : Nat} {ok : α → Prop} {pushing pushing' popping popping' : Prop}

theorem new : (Queue.new B size).Link size ok False False := by
  refine ⟨rfl, fun x hx => ?_, False.elim, False.elim⟩
  rw [items_new] at hx
  cases hx

/-- A thread that moves on to something else needs less of the queue. -/
theorem imp (h : q.Link size ok pushing popping) (hpush : pushing' → pushing)
    (hpop : popping' → popping) : q.Link size ok pushing' popping' := ⟨h.cap, h.ok, h.room ∘ hpush, h.some ∘ hpop⟩

/-- The producer has seen room: nobody else adds to the queue. -/
theorem saw_room (h : q.Link size ok pushing popping) (hroom : q.full = false) (pushing' : Prop) :
    q.Link size ok pushing' popping := by
  refine ⟨h.cap, h.ok, fun _ => ?_, h.some⟩
  refine lt_of_le_of_ne q.length_items_le fun heq => ?_
  rw [full_eq_true.mpr heq] at hroom
  cases hroom

/-- The consumer has seen a message: nobody else takes from the queue. -/
theorem saw_some (h : q.Link size ok pushing popping) (hsome : q.Empty = false) (popping' : Prop) :
    q.Link size ok pushing popping' := ⟨h.cap, h.ok, h.room, fun _ => Empty_eq_false.mp hsome⟩

/-- **The push after the test succeeds**, whatever the consumer has done in between. -/
theorem implPush (h : q.Link size ok pushing popping) (hp : pushing) {t : α} (ht : ok t) :
    (q.implPush t).1 = true ∧ (q.implPush t).2.items = q.items ++ [t] ∧
      (q.implPush t).2.Link size ok False popping := by
  obtain ⟨htaken, hitems⟩ := implPush_room t (h.room hp)
  refine ⟨htaken, hitems, h.cap, ?_, False.elim, fun _ => ?_⟩
  · intro x hx
    rw [hitems, List.mem_append, List.mem_singleton] at hx
    rcases hx with hx | rfl
    · exact h.ok x hx
    · exact ht
  · rw [hitems]
    exact List.append_ne_nil_of_right_ne_nil _ (List.cons_ne_nil t [])

/-- **The pop after the test finds a message**, whatever the producer has done in between. -/
theorem Pop (h : q.Link size ok pushing popping) (hp : popping) (t : α) : ∃ x xs, q.items = x :: xs ∧
    ok x ∧ (q.Pop t).1 = x ∧ (q.Pop t).2.items = xs ∧ (q.Pop t).2.Link size ok pushing False := by
  obtain ⟨x, xs, hitems⟩ := List.exists_cons_of_ne_nil (h.some hp)
  obtain ⟨hx, hxs⟩ := Pop_cons t hitems
  refine ⟨x, xs, hitems, h.ok x (by simp [hitems]), hx, hxs, h.cap, ?_, fun hpush => ?_, False.elim⟩
  · intro y hy
    rw [hxs] at hy
    exact h.ok y (by simp [hitems, hy])
  · have hroom := h.room hpush
    rw [hitems, List.length_cons] at hroom
    rw [hxs, cap_Pop]
    omega

end Link

end Queue

end EdgeFrame.Running
