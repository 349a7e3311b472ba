/-
# EdgeFrame.Lib.Mutex -- a mutex and who may call it

A `Mutex` records the thread that holds it. `lock` waits while anybody holds it and
`unlock` frees it whoever calls, also when it is free already: this is what an
implementation does with calls that the standard leaves undefined. `Legal` says which
calls the standard defines: a thread unlocks what it holds and does not lock it twice.
-/
import Mathlib.Init

namespace EdgeFrame.Lib

/-- A mutex, by its holder. -/
structure Mutex (T : Type) where
  holder : Option T := none
  deriving DecidableEq, Repr

namespace Mutex

variable {T : Type}

/-- The call returns at once on a free mutex, and waits otherwise. -/
def lock (m : Mutex T) (t : T) : Option (Mutex T) :=
  match m.holder with
  | none => some ⟨some t⟩
  | some _ => none

/-- The mutex is free afterwards, whoever calls. -/
def unlock (_ : Mutex T) : Mutex T := ⟨none⟩

/-- A `lock` that returns found the mutex free, and its caller holds it now. -/
theorem lock_eq_some {m m' : Mutex T} {t : T} :
    m.lock t = some m' ↔ m.holder = none ∧ m' = ⟨some t⟩ := by
  unfold lock
  cases m.holder with
  | none => simp [eq_comm]
  | some u => simp

/-- The two calls. -/
inductive Op where
  | lock
  | unlock
  deriving DecidableEq, Repr

/-- The calls of `t` that are defined. -/
def Legal (m : Mutex T) (t : T) : Op → Prop
  | .lock => m.holder ≠ some t
  | .unlock => m.holder = some t

instance [DecidableEq T] (m : Mutex T) (t : T) (op : Op) : Decidable (m.Legal t op) :=
  match op with
  | .lock => inferInstanceAs (Decidable (m.holder ≠ some t))
  | .unlock => inferInstanceAs (Decidable (m.holder = some t))

/-! ## A mutex around a region -/

/-- The holder of the mutex is whoever is in the region. -/
def Guards (m : Mutex T) (inside : T → Prop) : Prop :=
  ∀ t, m.holder = some t ↔ inside t

variable {m : Mutex T} {inside inside' : T → Prop}

/-- At most one thread is in the region. -/
theorem Guards.unique (h : m.Guards inside) {t u : T} (ht : inside t) (hu : inside u) : t = u := by
  have hholder := (h t).mpr ht
  rw [(h u).mpr hu] at hholder
  exact (Option.some.inj hholder).symm

/-- Nobody is in the region of a free mutex. -/
theorem Guards.not_inside (h : m.Guards inside) (hfree : m.holder = none) (t : T) : ¬ inside t := by
  intro ht
  rw [(h t).mpr ht] at hfree
  exact absurd hfree (by simp)

/-- Steps that neither enter nor leave. -/
theorem Guards.stay (h : m.Guards inside) (hsame : ∀ t, inside' t ↔ inside t) :
    m.Guards inside' :=
  fun t => (h t).trans (hsame t).symm

/-- `t` enters by `lock`. -/
theorem Guards.enter (h : m.Guards inside) (hfree : m.holder = none) {t : T} (ht : inside' t)
    (hother : ∀ u, u ≠ t → (inside' u ↔ inside u)) : Guards ⟨some t⟩ inside' := by
  intro u
  by_cases hu : u = t
  · subst hu
    exact iff_of_true rfl ht
  · refine iff_of_false (fun heq => hu (Option.some.inj heq).symm) fun hin => ?_
    exact h.not_inside hfree u ((hother u hu).mp hin)

/-- `t` leaves by `unlock`. -/
theorem Guards.leave (h : m.Guards inside) {t : T} (hin : inside t) (ht : ¬ inside' t)
    (hother : ∀ u, u ≠ t → (inside' u ↔ inside u)) : Guards ⟨none⟩ inside' := by
  intro u
  refine iff_of_false (by simp) fun hu => ?_
  by_cases heq : u = t
  · exact ht (heq ▸ hu)
  · exact heq (h.unique ((hother u heq).mp hu) hin)

/-- Outside the region a `lock` is legal. -/
theorem Guards.legal_lock (h : m.Guards inside) {t : T} (ht : ¬ inside t) : m.Legal t .lock :=
  fun hholder => ht ((h t).mp hholder)

/-- In the region an `unlock` is legal. -/
theorem Guards.legal_unlock (h : m.Guards inside) {t : T} (ht : inside t) : m.Legal t .unlock :=
  (h t).mpr ht

end Mutex

end EdgeFrame.Lib
