/-
# EdgeFrame.Lib.EraseLoop -- erasing from a vector while walking through it

The loop `for (i = 0; i < v.size(); i++)` whose body may `v.erase(v.begin() + i)`
and step `i` back. The body decides about one element at a time: it stays, it is
erased, or it is pushed to another vector and erased. `eraseLoop_eq` says what the
loop amounts to: it ends, the vector is filtered, and what was pushed is appended
in the order of the vector. `walk` is the same loop with the index as it is stepped back
and on, and with a record of what it looks at: the elements of the vector, each once.

`lagLoop` steps on before it tests, and tests only the element it has come to: what is
erased is followed by an element that nobody tests. `lagged` is what such a loop leaves.
-/
import Mathlib.Data.List.Basic
import Mathlib.Data.Multiset.Basic
import Mathlib.Data.Multiset.AddSub

namespace EdgeFrame.Lib

variable {α : Type*}

/-- What the body does with the element it looks at. -/
inductive Verdict where
  | keep
  | erase
  /-- push it to the other vector, then erase it -/
  | move
  deriving DecidableEq, Repr

/-- The loop at index `i`, on the vector `v` and the vector `out` that it pushes to; `none` when the
fuel does not last. -/
def eraseLoop (verdict : α → Verdict) : Nat → Nat → List α → List α → Option (List α × List α)
  | 0, _, _, _ => none
  | fuel + 1, i, v, out =>
    match v[i]? with
    | none => some (v, out)
    | some x =>
      match verdict x with
      | .keep => eraseLoop verdict fuel (i + 1) v out
      | .erase => eraseLoop verdict fuel i (v.eraseIdx i) out
      | .move => eraseLoop verdict fuel i (v.eraseIdx i) (out ++ [x])

/-- The loop past a prefix: `done` has been passed, `rest` is ahead. -/
theorem eraseLoop_append (verdict : α → Verdict) (rest : List α) :
    ∀ (fuel : Nat) (done out : List α), rest.length < fuel →
      eraseLoop verdict fuel done.length (done ++ rest) out =
        some (done ++ rest.filter (verdict · = .keep), out ++ rest.filter (verdict · = .move)) := by
  induction rest with
  | nil =>
    intro fuel done out hfuel
    obtain ⟨fuel, rfl⟩ := Nat.exists_eq_succ_of_ne_zero (Nat.ne_of_gt hfuel)
    simp [eraseLoop]
  | cons x rest ih =>
    intro fuel done out hfuel
    obtain ⟨fuel, rfl⟩ := Nat.exists_eq_succ_of_ne_zero (Nat.ne_of_gt (Nat.zero_lt_of_lt hfuel))
    have hrest : rest.length < fuel := by simpa using hfuel
    have hget : (done ++ x :: rest)[done.length]? = some x := by simp
    have herase : (done ++ x :: rest).eraseIdx done.length = done ++ rest := by
      simp [List.eraseIdx_append_of_length_le]
    rw [eraseLoop, hget]
    cases hx : verdict x with
    | keep =>
      have hnext := ih fuel (done ++ [x]) out hrest
      simpa [hx] using hnext
    | erase => simpa [hx, herase] using ih fuel done out hrest
    | move => simpa [hx, herase] using ih fuel done (out ++ [x]) hrest

/-- **The erase loop** ends, and is a filter of the one vector and an append to the other. -/
theorem eraseLoop_eq (verdict : α → Verdict) (v out : List α) :
    eraseLoop verdict (v.length + 1) 0 v out =
      some (v.filter (verdict · = .keep), out ++ v.filter (verdict · = .move)) := by
  simpa using eraseLoop_append verdict v _ [] out (Nat.lt_succ_self _)

/-! ## With a signed index -/

/-- A walk: the vector, the vector that it pushes to, and the elements it has looked at. -/
structure Walk (α : Type*) where
  vec : List α
  out : List α
  seen : List α

/-- The loop with an `int` index: a body that erases steps it back before the `for` steps it on. The
comparison with the unsigned size is also false for a negative index. -/
def walk (verdict : α → Verdict) : Nat → Int → Walk α → Option (Walk α)
  | 0, _, _ => none
  | fuel + 1, i, w =>
    if 0 ≤ i ∧ i < w.vec.length then
      match w.vec[i.toNat]? with
      | none => none
      | some x =>
        match verdict x with
        | .keep => walk verdict fuel (i + 1) { w with seen := w.seen ++ [x] }
        | .erase =>
          walk verdict fuel (i - 1 + 1)
            { w with vec := w.vec.eraseIdx i.toNat, seen := w.seen ++ [x] }
        | .move =>
          walk verdict fuel (i - 1 + 1)
            { vec := w.vec.eraseIdx i.toNat, out := w.out ++ [x], seen := w.seen ++ [x] }
    else some w

/-- The walk past a prefix: `done` has been kept, `rest` is ahead. -/
theorem walk_append (verdict : α → Verdict) (rest : List α) :
    ∀ (fuel : Nat) (done out seen : List α), rest.length < fuel →
      walk verdict fuel done.length ⟨done ++ rest, out, seen⟩ =
        some ⟨done ++ rest.filter (verdict · = .keep), out ++ rest.filter (verdict · = .move),
          seen ++ rest⟩ := by
  induction rest with
  | nil =>
    intro fuel done out seen hfuel
    obtain ⟨fuel, rfl⟩ := Nat.exists_eq_succ_of_ne_zero (Nat.ne_of_gt hfuel)
    simp [walk]
  | cons x rest ih =>
    intro fuel done out seen hfuel
    obtain ⟨fuel, rfl⟩ := Nat.exists_eq_succ_of_ne_zero (Nat.ne_of_gt (Nat.zero_lt_of_lt hfuel))
    have hrest : rest.length < fuel := by simpa using hfuel
    have hin : (0 : Int) ≤ done.length ∧ (done.length : Int) < (done ++ x :: rest).length := by
      rw [List.length_append, List.length_cons]
      omega
    have hget : (done ++ x :: rest)[(done.length : Int).toNat]? = some x := by simp
    have herase : (done ++ x :: rest).eraseIdx done.length = done ++ rest := by
      simp [List.eraseIdx_append_of_length_le]
    have hback : (done.length : Int) - 1 + 1 = done.length := by omega
    rw [walk, if_pos hin, hget]
    cases hx : verdict x with
    | keep => simpa [hx] using ih fuel (done ++ [x]) out (seen ++ [x]) hrest
    | erase => simpa [hx, herase, hback] using ih fuel done out (seen ++ [x]) hrest
    | move => simpa [hx, herase, hback] using ih fuel done (out ++ [x]) (seen ++ [x]) hrest

/-- **The walk** ends, has looked at every element once and in order, and is a stable partition. -/
theorem walk_eq (verdict : α → Verdict) (v out : List α) :
    walk verdict (v.length + 1) 0 ⟨v, out, []⟩ =
      some ⟨v.filter (verdict · = .keep), out ++ v.filter (verdict · = .move), v⟩ := by
  simpa using walk_append verdict v _ [] out [] (Nat.lt_succ_self _)

/-! ## With the test after the step -/

/-- The loop `for (it = begin; it != end;)` whose body may write down the element it is at, steps on,
and then erases the element it has come to if that one is dead. -/
def lagLoop {β : Type*} (dead : α → Bool) (emit : α → Option β) :
    Nat → Nat → List α → List β → Option (List α × List β)
  | 0, _, _, _ => none
  | fuel + 1, it, v, out =>
    match v[it]? with
    | none => some (v, out)
    | some x =>
      match v[it + 1]? with
      | none => lagLoop dead emit fuel (it + 1) v (out ++ (emit x).toList)
      | some y =>
        if dead y then
          lagLoop dead emit fuel (it + 1) (v.eraseIdx (it + 1)) (out ++ (emit x).toList)
        else lagLoop dead emit fuel (it + 1) v (out ++ (emit x).toList)

/-- What the loop leaves: an element is tested when the one before it has been kept. -/
def lagged (dead : α → Bool) : List α → List α
  | [] => []
  | [x] => [x]
  | x :: y :: rest => if dead y then x :: lagged dead rest else x :: lagged dead (y :: rest)

/-- The loop past a prefix. -/
theorem lagLoop_append {β : Type*} (dead : α → Bool) (emit : α → Option β) (rest : List α) :
    ∀ (fuel : Nat) (done : List α) (out : List β), rest.length < fuel →
      lagLoop dead emit fuel done.length (done ++ rest) out =
        some (done ++ lagged dead rest, out ++ (lagged dead rest).filterMap emit) := by
  induction rest using lagged.induct dead with
  | case1 =>
    intro fuel done out hfuel
    obtain ⟨fuel, rfl⟩ := Nat.exists_eq_succ_of_ne_zero (Nat.ne_of_gt hfuel)
    simp [lagLoop, lagged]
  | case2 x =>
    intro fuel done out hfuel
    obtain ⟨fuel, rfl⟩ := Nat.exists_eq_add_of_le' hfuel
    cases hx : emit x <;> simp [lagLoop, lagged, hx]
  -- the next element is dead: it goes, and what follows it is not tested
  | case3 x y rest hy ih =>
    intro fuel done out hfuel
    obtain ⟨fuel, rfl⟩ := Nat.exists_eq_succ_of_ne_zero (Nat.ne_of_gt (Nat.zero_lt_of_lt hfuel))
    simp only [List.length_cons] at hfuel
    have hx : (done ++ x :: y :: rest)[done.length]? = some x := by simp
    have hnext : (done ++ x :: y :: rest)[done.length + 1]? = some y := by simp
    have herase : (done ++ x :: y :: rest).eraseIdx (done.length + 1) = done ++ [x] ++ rest := by
      simp [List.eraseIdx_append_of_length_le]
    rw [lagLoop, hx, hnext]
    simp only [hy, if_true, herase, lagged]
    have hrun := ih fuel (done ++ [x]) (out ++ (emit x).toList) (by omega)
    rw [List.length_append, List.length_singleton] at hrun
    rw [hrun]
    cases hemit : emit x <;> simp [hemit]
  -- the next element stays, and is where the loop goes on
  | case4 x y rest hy ih =>
    intro fuel done out hfuel
    obtain ⟨fuel, rfl⟩ := Nat.exists_eq_succ_of_ne_zero (Nat.ne_of_gt (Nat.zero_lt_of_lt hfuel))
    simp only [List.length_cons] at hfuel
    have hx : (done ++ x :: y :: rest)[done.length]? = some x := by simp
    have hnext : (done ++ x :: y :: rest)[done.length + 1]? = some y := by simp
    have hassoc : done ++ x :: y :: rest = done ++ [x] ++ y :: rest := by simp
    rw [lagLoop, hx, hnext]
    simp only [hy, Bool.false_eq_true, if_false, lagged]
    have hrun := ih fuel (done ++ [x]) (out ++ (emit x).toList) (by simp only [List.length_cons]; omega)
    rw [List.length_append, List.length_singleton] at hrun
    rw [hassoc, hrun]
    cases hemit : emit x <;> simp [hemit]

/-- **The lagging loop** ends; it has written down what it leaves, and nothing else. -/
theorem lagLoop_eq {β : Type*} (dead : α → Bool) (emit : α → Option β) (v : List α) :
    lagLoop dead emit (v.length + 1) 0 v [] =
      some (lagged dead v, (lagged dead v).filterMap emit) := by
  simpa using lagLoop_append dead emit v _ [] [] (Nat.lt_succ_self _)

/-- Nothing is added, and the order is kept. -/
theorem lagged_sublist (dead : α → Bool) (l : List α) : (lagged dead l).Sublist l := by
  induction l using lagged.induct dead with
  | case1 => exact List.Sublist.refl _
  | case2 x => exact List.Sublist.refl _
  | case3 x y rest hy ih =>
    rw [lagged, if_pos hy]
    exact (ih.cons y).cons_cons x
  | case4 x y rest hy ih =>
    rw [lagged, if_neg hy]
    exact ih.cons_cons x

/-- What is not dead is kept, in its order. -/
theorem filter_lagged (dead : α → Bool) (l : List α) :
    (lagged dead l).filter (fun x => !dead x) = l.filter fun x => !dead x := by
  induction l using lagged.induct dead with
  | case1 => rfl
  | case2 x => rfl
  | case3 x y rest hy ih => simp [lagged, hy, List.filter_cons, ih]
  | case4 x y rest hy ih =>
    rw [lagged, if_neg (by simp [hy]), List.filter_cons, ih]
    exact (List.filter_cons (p := fun x => !dead x)).symm

/-- Nothing dead is left exactly when the first element is not dead and no two neighbours are. -/
theorem lagged_clean_iff (dead : α → Bool) (l : List α) :
    (∀ x ∈ lagged dead l, dead x = false) ↔
      l[0]?.any dead = false ∧ ∀ i, ¬ (l[i]?.any dead = true ∧ l[i + 1]?.any dead = true) := by
  induction l using lagged.induct dead with
  | case1 => simp [lagged]
  | case2 x => simp [lagged]
  | case3 x y rest hy ih =>
    rw [lagged, if_pos hy, List.forall_mem_cons, ih]
    constructor
    · rintro ⟨hx, hfirst, hrest⟩
      refine ⟨by simpa using hx, ?_⟩
      intro i
      match i with
      | 0 => simp [hx]
      | 1 => simp [hfirst]
      | i + 2 => simpa using hrest i
    · rintro ⟨hx, hpairs⟩
      refine ⟨by simpa using hx, ?_, fun i => by simpa using hpairs (i + 2)⟩
      -- `y` is dead, so what follows it is not
      simpa [hy] using hpairs 1
  | case4 x y rest hy ih =>
    rw [lagged, if_neg (by simp [hy]), List.forall_mem_cons, ih]
    constructor
    · rintro ⟨hx, -, hrest⟩
      refine ⟨by simpa using hx, ?_⟩
      intro i
      match i with
      | 0 => simp [hx]
      | i + 1 => simpa using hrest i
    · rintro ⟨hx, hpairs⟩
      refine ⟨by simpa using hx, by simpa using hy, fun i => by simpa using hpairs (i + 1)⟩

/-- Every element of the vector gets one of the three verdicts. -/
theorem bag_eq_verdicts (verdict : α → Verdict) (v : List α) :
    (v : Multiset α) = (v.filter (verdict · = .keep) : Multiset α) +
      (v.filter (verdict · = .move) : Multiset α) + (v.filter (verdict · = .erase) : Multiset α) := by
  induction v with
  | nil => rfl
  | cons x v ih =>
    rw [← Multiset.cons_coe, ih]
    cases hx : verdict x <;>
      simp only [List.filter_cons, hx, decide_true, decide_false, reduceCtorEq, if_true,
        Bool.false_eq_true, if_false, ← Multiset.cons_coe, Multiset.cons_add, Multiset.add_cons]

end EdgeFrame.Lib
