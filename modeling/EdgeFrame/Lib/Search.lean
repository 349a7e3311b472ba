/-
# EdgeFrame.Lib.Search -- searches of a list

Which of two partial functions a search applies makes a difference only at the first
element where one of them has a value. A search for the least element that replaces what it
holds only by something strictly less ends at the foremost of the least.

The two are the shapes of a loop that returns at its first success, and of one that keeps
the best it has seen. For the first, `Coincide` is what must hold at that element: both
have the same value there, or the one that has none finds it later on.
-/
import Mathlib

namespace EdgeFrame.Lib

section

variable {α β : Type*} {f g : α → Option β}

/-- At `a`, with `after` still to come, a search by `f` and one by `g` find the same. -/
def Coincide (f g : α → Option β) (a : α) (after : List α) : Prop :=
  match f a, g a with
  | some v, some w => v = w
  | some v, none => after.findSome? g = some v
  | none, some w => after.findSome? f = some w
  | none, none => True

/-- What is no value of the function is not found. -/
theorem findSome?_ne {v : β} (h : ∀ a, f a ≠ some v) (l : List α) : l.findSome? f ≠ some v := by
  intro hfound
  obtain ⟨a, -, ha⟩ := List.exists_of_findSome?_eq_some hfound
  exact h a ha

/-- Functions that agree on an element coincide there. -/
theorem coincide_of_eq {a : α} (h : f a = g a) (after : List α) : Coincide f g a after := by
  unfold Coincide
  rw [h]
  cases g a <;> trivial

/-- At an element where one of the two has a value, the searches agree when they coincide there. -/
theorem findSome?_cons_eq_iff {a : α} {after : List α} (h : ¬ (f a = none ∧ g a = none)) :
    (a :: after).findSome? f = (a :: after).findSome? g ↔ Coincide f g a after := by
  unfold Coincide
  rw [List.findSome?_cons, List.findSome?_cons]
  cases hf : f a with
  | none =>
    cases hg : g a with
    | none => exact absurd ⟨hf, hg⟩ h
    | some w => rfl
  | some v =>
    cases hg : g a with
    | none => exact eq_comm
    | some w => exact Option.some_inj

/-- **Two searches agree** exactly when they coincide at the first element where one of the two
functions has a value. -/
theorem findSome?_eq_iff {l : List α} : l.findSome? f = l.findSome? g ↔
    ∀ before a after, l = before ++ a :: after → (∀ b ∈ before, f b = none ∧ g b = none) →
      Coincide f g a after := by
  induction l with
  | nil => simp
  | cons x l ih =>
    by_cases hx : f x = none ∧ g x = none
    · rw [List.findSome?_cons_of_isNone (by simp [hx.1]), List.findSome?_cons_of_isNone (by simp [hx.2]),
        ih]
      constructor
      · intro h before a after hsplit hbefore
        rcases List.cons_eq_append_iff.mp hsplit with ⟨rfl, hcons⟩ | ⟨before', rfl, hl⟩
        · obtain ⟨rfl, rfl⟩ := List.cons.inj hcons
          exact coincide_of_eq (hx.1.trans hx.2.symm) _
        · exact h before' a after hl fun b hb => hbefore b (List.mem_cons_of_mem x hb)
      · intro h before a after hsplit hbefore
        refine h (x :: before) a after (by rw [hsplit]; rfl) ?_
        rintro b (_ | ⟨_, hb⟩)
        · exact hx
        · exact hbefore b hb
    · rw [findSome?_cons_eq_iff hx]
      constructor
      · intro h before a after hsplit hbefore
        rcases List.cons_eq_append_iff.mp hsplit with ⟨rfl, hcons⟩ | ⟨before', rfl, -⟩
        · obtain ⟨rfl, rfl⟩ := List.cons.inj hcons
          exact h
        · exact absurd (hbefore x List.mem_cons_self) hx
      · intro h
        exact h [] x l rfl (by simp)

end

/-! ## The foremost of the least elements -/

section

variable {α β : Type*} [LinearOrder β] {f : α → β}

/-- Nothing before `a` is as small as it, and nothing after it is smaller. -/
def Foremost (f : α → β) (l : List α) (a : α) : Prop :=
  ∃ before after, l = before ++ a :: after ∧ (∀ b ∈ before, f a < f b) ∧ ∀ b ∈ after, f a ≤ f b

/-- The first element is the foremost unless a later one is strictly less. -/
theorem foremost_cons {l : List α} {x a : α} : Foremost f (x :: l) a ↔
    (a = x ∧ ∀ b ∈ l, f a ≤ f b) ∨ (f a < f x ∧ Foremost f l a) := by
  constructor
  · rintro ⟨before, after, hsplit, hbefore, hafter⟩
    rcases List.cons_eq_append_iff.mp hsplit with ⟨rfl, hcons⟩ | ⟨before', rfl, hl⟩
    · obtain ⟨rfl, rfl⟩ := List.cons.inj hcons
      exact Or.inl ⟨rfl, hafter⟩
    · obtain ⟨hx, hbefore'⟩ := List.forall_mem_cons.mp hbefore
      exact Or.inr ⟨hx, before', after, hl, hbefore', hafter⟩
  · rintro (⟨rfl, hleast⟩ | ⟨hx, before, after, rfl, hbefore, hafter⟩)
    · exact ⟨[], l, rfl, by simp, hleast⟩
    · exact ⟨x :: before, after, rfl, List.forall_mem_cons.mpr ⟨hx, hbefore⟩, hafter⟩

/-- It is one of them. -/
theorem Foremost.mem {l : List α} {a : α} (h : Foremost f l a) : a ∈ l := by
  obtain ⟨before, after, rfl, -, -⟩ := h
  simp

/-- And none is less. -/
theorem Foremost.le {l : List α} {a b : α} (h : Foremost f l a) (hb : b ∈ l) : f a ≤ f b := by
  obtain ⟨before, after, rfl, hbefore, hafter⟩ := h
  rcases List.mem_append.mp hb with hb | hb
  · exact (hbefore b hb).le
  · rcases List.mem_cons.mp hb with rfl | hb
    · exact le_rfl
    · exact hafter b hb

/-- There is one in every list that is not empty. -/
theorem exists_foremost {l : List α} (h : l ≠ []) : ∃ a, Foremost f l a := by
  induction l with
  | nil => exact absurd rfl h
  | cons x l ih =>
    by_cases hl : l = []
    · exact ⟨x, foremost_cons.mpr (Or.inl ⟨rfl, by simp [hl]⟩)⟩
    · obtain ⟨a, ha⟩ := ih hl
      rcases lt_or_ge (f a) (f x) with hlt | hge
      · exact ⟨a, foremost_cons.mpr (Or.inr ⟨hlt, ha⟩)⟩
      · exact ⟨x, foremost_cons.mpr (Or.inl ⟨rfl, fun b hb => hge.trans (ha.le hb)⟩)⟩

/-- Two foremost elements are one. -/
theorem Foremost.unique {l : List α} {a a' : α} (h : Foremost f l a) (h' : Foremost f l a') :
    a = a' := by
  induction l with
  | nil => exact absurd h.mem (by simp)
  | cons x l ih =>
    rcases foremost_cons.mp h with ⟨rfl, hleast⟩ | ⟨hlt, hl⟩
    · rcases foremost_cons.mp h' with ⟨rfl, -⟩ | ⟨hlt', hl'⟩
      · rfl
      · exact absurd (hleast a' hl'.mem) (not_le.mpr hlt')
    · rcases foremost_cons.mp h' with ⟨rfl, hleast'⟩ | ⟨-, hl'⟩
      · exact absurd (hleast' a hl.mem) (not_le.mpr hlt)
      · exact ih hl hl'

end

end EdgeFrame.Lib
