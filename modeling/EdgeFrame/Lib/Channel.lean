/-
# EdgeFrame.Lib.Channel -- bounded queues, and what a chain of them conveys

`BoundedQueue` is what a library of queues promises: its operations, and what each of
them does to the contents. A reader of it never looks inside.

A chain of queues, with a thread between each two of them that holds one item at a time,
takes in a sequence of items and lets some of them out at its other end. `Conveys`
accounts for all that was offered to such a chain, whatever its length: what came out,
what is still inside, in the order in which it will come out, and what was lost on the
way. The rules are one for each thing that can happen to an item.

`Conveys` has two parts. What came out and what is inside is a sublist of what was offered,
so that the order is kept; and together with what was lost it is a permutation of it, so
that nothing is there twice and nothing is forgotten.
-/
import Mathlib.Data.List.Basic
import Mathlib.Data.List.Perm.Basic

namespace EdgeFrame.Lib

open scoped List

/-! ## Bounded queues -/

/-- A queue of a fixed capacity, by its operations and what they do. -/
structure BoundedQueue (α : Type) where
  Impl : Type
  new : Nat → Impl
  push : Impl → α → Bool × Impl
  pop : Impl → Option α × Impl
  read_available : Impl → Nat
  empty : Impl → Bool
  contents : Impl → List α
  capacity : Impl → Nat
  contents_new : ∀ n, contents (new n) = []
  capacity_new : ∀ n, capacity (new n) = n
  read_available_eq : ∀ q, read_available q = (contents q).length
  empty_eq : ∀ q, empty q = (contents q).isEmpty
  push_room : ∀ q x, (contents q).length < capacity q →
    (push q x).1 = true ∧ contents (push q x).2 = contents q ++ [x]
  push_full : ∀ q x, capacity q ≤ (contents q).length → push q x = (false, q)
  capacity_push : ∀ q x, capacity (push q x).2 = capacity q
  pop_nil : ∀ q, contents q = [] → pop q = (none, q)
  pop_cons : ∀ q x xs, contents q = x :: xs → (pop q).1 = some x ∧ contents (pop q).2 = xs
  capacity_pop : ∀ q, capacity (pop q).2 = capacity q

/-- A list with its capacity is a bounded queue. -/
def BoundedQueue.list (α : Type) : BoundedQueue α where
  Impl := List α × Nat
  new n := ([], n)
  push q x := if q.1.length < q.2 then (true, (q.1 ++ [x], q.2)) else (false, q)
  pop q := match q.1 with
    | [] => (none, q)
    | x :: xs => (some x, (xs, q.2))
  read_available q := q.1.length
  empty q := q.1.isEmpty
  contents q := q.1
  capacity q := q.2
  contents_new _ := rfl
  capacity_new _ := rfl
  read_available_eq _ := rfl
  empty_eq _ := rfl
  push_room q x h := by simp [h]
  push_full q x h := if_neg (Nat.not_lt.mpr h)
  capacity_push q x := by split <;> rfl
  pop_nil q h := by simp only [h]
  pop_cons q x xs h := by simp only [h, and_self]
  capacity_pop q := by split <;> rfl

/-! ## What a chain conveys -/

variable {α : Type*}

/-- Of the items `offered` to a chain, `out` came out, `inside` is on its way, the next to come out
first, and `lost` is the rest: what came out or may yet come out does so in the order of the offers. -/
structure Conveys (offered out inside lost : List α) : Prop where
  order : (out ++ inside).Sublist offered
  whole : offered.Perm (out ++ inside ++ lost)

namespace Conveys

variable {offered out inside lost : List α} {x : α}

theorem nil : Conveys ([] : List α) [] [] [] := ⟨List.Sublist.refl _, List.Perm.refl _⟩

/-- An item enters the chain. -/
theorem enter (h : Conveys offered out inside lost) (x : α) :
    Conveys (offered ++ [x]) out (inside ++ [x]) lost where
  order := by
    rw [← List.append_assoc]
    exact h.order.append (List.Sublist.refl [x])
  whole := by
    calc offered ++ [x]
      _ ~ (out ++ inside ++ lost) ++ [x] := h.whole.append_right [x]
      _ ~ (out ++ inside) ++ ([x] ++ lost) := by
        rw [List.append_assoc]
        exact List.perm_append_comm.append_left _
      _ = out ++ (inside ++ [x]) ++ lost := by simp only [List.append_assoc]

/-- The first of the items inside comes out. -/
theorem leave {rest : List α} (h : Conveys offered out (x :: rest) lost) :
    Conveys offered (out ++ [x]) rest lost where
  order := by simpa only [List.append_assoc, List.singleton_append] using h.order
  whole := by simpa only [List.append_assoc, List.singleton_append] using h.whole

/-- An item is lost inside the chain, wherever it has got to. -/
theorem drop (front back : List α) (h : Conveys offered out (front ++ x :: back) lost) :
    Conveys offered out (front ++ back) (lost ++ [x]) where
  order := by
    refine List.Sublist.trans ?_ h.order
    exact (((List.sublist_cons_self x back).append_left front).append_left out)
  whole := by
    refine h.whole.trans ?_
    calc out ++ (front ++ x :: back) ++ lost
      _ = (out ++ front) ++ (x :: (back ++ lost)) := by simp only [List.append_assoc, List.cons_append]
      _ ~ (out ++ front) ++ ((back ++ lost) ++ [x]) :=
        (List.perm_append_singleton x (back ++ lost)).symm.append_left _
      _ = out ++ (front ++ back) ++ (lost ++ [x]) := by simp only [List.append_assoc]

/-- **Two chains in a row are a chain**: what comes out of the first is offered to the second. -/
theorem trans {out' inside' lost' : List α} (h : Conveys offered out inside lost)
    (h' : Conveys out out' inside' lost') :
    Conveys offered out' (inside' ++ inside) (lost' ++ lost) where
  order := by
    refine List.Sublist.trans ?_ h.order
    rw [← List.append_assoc]
    exact h'.order.append_right inside
  whole := by
    calc offered
      _ ~ out ++ inside ++ lost := h.whole
      _ ~ (out' ++ inside' ++ lost') ++ inside ++ lost :=
        (h'.whole.append_right inside).append_right lost
      _ ~ (out' ++ inside') ++ (inside ++ lost') ++ lost := by
        rw [List.append_assoc (out' ++ inside')]
        exact (List.perm_append_comm.append_left _).append_right lost
      _ = out' ++ (inside' ++ inside) ++ (lost' ++ lost) := by simp only [List.append_assoc]

/-- The same chain, of what is made of each item. -/
theorem map {β : Type*} (f : α → β) (h : Conveys offered out inside lost) :
    Conveys (offered.map f) (out.map f) (inside.map f) (lost.map f) where
  order := by
    rw [← List.map_append]
    exact h.order.map f
  whole := by
    rw [← List.map_append, ← List.map_append]
    exact h.whole.map f

theorem out_sublist (h : Conveys offered out inside lost) : out.Sublist offered :=
  (List.sublist_append_left out inside).trans h.order

/-- **Nothing is lost without account, and nothing comes out twice.** -/
theorem length_eq (h : Conveys offered out inside lost) :
    offered.length = out.length + inside.length + lost.length := by
  rw [h.whole.length_eq, List.length_append, List.length_append]

theorem mem_offered (h : Conveys offered out inside lost) {y : α}
    (hy : y ∈ out ∨ y ∈ inside ∨ y ∈ lost) : y ∈ offered := by
  rw [h.whole.mem_iff, List.mem_append, List.mem_append, or_assoc]
  exact hy

end Conveys

end EdgeFrame.Lib
