/-
# EdgeFrame.Lib.Registry -- names that are bound once

A map that is read with a subscript gains an entry for every key it is asked for; what
it says of any key stays the same. A registry numbers the objects it makes and keeps
the first one under each name: a bound name stays bound to the same object, and no two
names share one. Handles that were looked up by name can then be counted by name.
-/
import Mathlib.Data.List.AList

namespace EdgeFrame.Lib

variable {N V : Type} [DecidableEq N]

/-- A finite map. -/
abbrev Dict (N V : Type) := AList fun _ : N => V

/-- Reading `m[n]` in a map that makes up the entries it lacks: the value, and the map after it. -/
def Dict.subscript [Inhabited V] (m : Dict N V) (n : N) : V × Dict N V :=
  match m.lookup n with
  | some v => (v, m)
  | none => (default, m.insert n default)

/-- What a subscript reads. -/
def Dict.value [Inhabited V] (m : Dict N V) (n : N) : V := (m.lookup n).getD default

theorem Dict.subscript_fst [Inhabited V] (m : Dict N V) (n : N) :
    (m.subscript n).1 = m.value n := by
  unfold Dict.subscript Dict.value
  split <;> simp_all

/-- Reading changes no value. -/
@[simp] theorem Dict.value_subscript [Inhabited V] (m : Dict N V) (n n' : N) :
    (m.subscript n).2.value n' = m.value n' := by
  unfold Dict.subscript
  split
  · rfl
  · rename_i hnone
    unfold Dict.value
    by_cases hn : n' = n
    · rw [hn, AList.lookup_insert, hnone]
      rfl
    · rw [AList.lookup_insert_ne hn]

/-- What is in a map after an insertion. -/
theorem Dict.mem_entries_insert {m : Dict N V} {n : N} {v : V} {e : Sigma fun _ : N => V}
    (h : e ∈ (m.insert n v).entries) : e = ⟨n, v⟩ ∨ e ∈ m.entries := by
  have hlookup := AList.mem_lookup_iff.mpr h
  by_cases hn : e.1 = n
  · rw [hn, AList.lookup_insert] at hlookup
    exact Or.inl (Sigma.ext hn (heq_of_eq (Option.some.inj hlookup).symm))
  · rw [AList.lookup_insert_ne hn] at hlookup
    exact Or.inr (AList.mem_lookup_iff.mp hlookup)

/-! ## Registries -/

/-- Objects under names: made in order, each under at most one name. -/
structure Registry (N : Type) [DecidableEq N] where
  bound : Dict N Nat
  /-- how many objects have been made -/
  made : Nat
  fresh : ∀ n q, bound.lookup n = some q → q < made
  injective : ∀ m n q, bound.lookup m = some q → bound.lookup n = some q → m = n

namespace Registry

/-- What a name stands for. -/
def lookup (R : Registry N) (n : N) : Option Nat := R.bound.lookup n

/-- Nothing is bound. -/
def empty : Registry N where
  bound := ∅
  made := 0
  fresh n q h := absurd h (by simp)
  injective m n q h := absurd h (by simp)

theorem fresh_insert (R : Registry N) (n : N) :
    ∀ m q, (R.bound.insert n R.made).lookup m = some q → q < R.made + 1 := by
  intro m q h
  by_cases hm : m = n
  · rw [hm, AList.lookup_insert] at h
    obtain rfl := Option.some.inj h
    exact Nat.lt_succ_self _
  · rw [AList.lookup_insert_ne hm] at h
    exact Nat.lt_succ_of_lt (R.fresh m q h)

theorem injective_insert (R : Registry N) (n : N) :
    ∀ m m' q, (R.bound.insert n R.made).lookup m = some q →
      (R.bound.insert n R.made).lookup m' = some q → m = m' := by
  have hold : ∀ m, m ≠ n → (R.bound.insert n R.made).lookup m ≠ some R.made := by
    intro m hm h
    rw [AList.lookup_insert_ne hm] at h
    exact Nat.lt_irrefl _ (R.fresh m _ h)
  intro m m' q h h'
  by_cases hm : m = n <;> by_cases hm' : m' = n
  · rw [hm, hm']
  · rw [hm, AList.lookup_insert] at h
    exact absurd (h'.trans h.symm) (hold m' hm')
  · rw [hm', AList.lookup_insert] at h'
    exact absurd (h.trans h'.symm) (hold m hm)
  · rw [AList.lookup_insert_ne hm] at h
    rw [AList.lookup_insert_ne hm'] at h'
    exact R.injective m m' q h h'

/-- Make an object and bind it to the name `n`, unless something is bound to it. -/
def add (R : Registry N) (n : N) : Registry N :=
  if n ∈ R.bound then
    { R with made := R.made + 1, fresh := fun m q h => Nat.lt_succ_of_lt (R.fresh m q h) }
  else ⟨R.bound.insert n R.made, R.made + 1, R.fresh_insert n, R.injective_insert n⟩

/-- Afterwards the name is bound. -/
theorem lookup_add_self (R : Registry N) (n : N) : ∃ q, (R.add n).lookup n = some q := by
  unfold add
  split
  · rename_i hn
    exact Option.isSome_iff_exists.mp (AList.lookup_isSome.mpr hn)
  · exact ⟨R.made, AList.lookup_insert _⟩

/-- And the other names are as they were. -/
theorem lookup_add_ne {R : Registry N} {n m : N} (h : m ≠ n) :
    (R.add n).lookup m = R.lookup m := by
  unfold add
  split
  · rfl
  · exact AList.lookup_insert_ne h

/-- Every binding of `R` is one of `R'`. -/
def Grows (R R' : Registry N) : Prop := ∀ n q, R.lookup n = some q → R'.lookup n = some q

/-- Nothing changes. -/
theorem Grows.refl (R : Registry N) : Grows R R := fun _ _ h => h

/-- One growth after another. -/
theorem Grows.trans {R R' R'' : Registry N} (h : Grows R R') (h' : Grows R' R'') : Grows R R'' :=
  fun n q hq => h' n q (h n q hq)

/-- The first binding stays. -/
theorem grows_add (R : Registry N) (n : N) : Grows R (R.add n) := by
  intro m q h
  by_cases hm : m = n
  · have hmem : n ∈ R.bound :=
      AList.lookup_isSome.mp (Option.isSome_iff_exists.mpr ⟨q, hm ▸ h⟩)
    unfold add
    rw [if_pos hmem]
    exact h
  · rw [lookup_add_ne hm, h]

/-- **Handles count as names**: among handles that were looked up by name, that of a bound name
occurs where its name does. -/
theorem mem_map_lookup {R : Registry N} {n : N} {q : Nat} (h : R.lookup n = some q) {ns : List N} :
    some q ∈ ns.map R.lookup ↔ n ∈ ns := by
  constructor
  · intro hmem
    obtain ⟨m, hm, hlookup⟩ := List.mem_map.mp hmem
    exact R.injective m n q hlookup h ▸ hm
  · intro hmem
    exact h ▸ List.mem_map_of_mem hmem

end Registry

end EdgeFrame.Lib
