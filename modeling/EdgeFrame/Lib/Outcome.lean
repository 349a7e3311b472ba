/-
# EdgeFrame.Lib.Outcome -- what a call that can fail ends with

`Ends E p x` says of a call `x` that it returns something with the property `p`, or
fails for a reason in `E`. With an empty `E` it is total correctness, with a full one
partial correctness; in between it names the failures that are left. The rules follow
the calls: one for two calls in a row, one for a loop.
-/
import Mathlib.Init

namespace EdgeFrame.Lib

variable {ε α β : Type} {E : ε → Prop} {p q : α → Prop}

/-- `x` returns something with `p`, or fails for a reason in `E`. -/
def Ends (E : ε → Prop) (p : α → Prop) : Except ε α → Prop
  | .ok a => p a
  | .error e => E e

/-- Two calls in a row. -/
theorem Ends.bind {q : β → Prop} {x : Except ε α} {f : α → Except ε β} (hx : Ends E p x)
    (hf : ∀ a, p a → Ends E q (f a)) : Ends E q (x >>= f) := by
  cases x with
  | error e => exact hx
  | ok a => exact hf a hx

/-- A loop over a list, by what holds before each pass. -/
theorem Ends.foldlM {I : β → Prop} {f : β → α → Except ε β} : ∀ {l : List α} {b : β},
    (∀ b, ∀ a ∈ l, I b → Ends E I (f b a)) → I b → Ends E I (l.foldlM f b) := by
  intro l
  induction l with
  | nil =>
    intro _ _ hb
    exact hb
  | cons a l ih =>
    intro b hstep hb
    rw [List.foldlM_cons]
    refine (hstep b a List.mem_cons_self hb).bind fun b' hb' => ?_
    exact ih (fun b a ha => hstep b a (List.mem_cons_of_mem _ ha)) hb'

/-- What is known of the returned values anyway. -/
theorem Ends.and_ok {x : Except ε α} (hx : Ends E p x) (hq : ∀ a, x = .ok a → q a) :
    Ends E (fun a => p a ∧ q a) x := by
  cases x with
  | error e => exact hx
  | ok a => exact ⟨hx, hq a rfl⟩

theorem Ends.of_ok {x : Except ε α} {a : α} (hx : Ends E p x) (h : x = .ok a) : p a := by
  subst h
  exact hx

/-- Returned, or failed for one of the reasons. -/
theorem Ends.cases {x : Except ε α} (hx : Ends E p x) :
    (∃ a, x = .ok a ∧ p a) ∨ ∃ e, x = .error e ∧ E e := by
  cases x with
  | error e => exact Or.inr ⟨e, rfl, hx⟩
  | ok a => exact Or.inl ⟨a, rfl, hx⟩

/-- Two calls in a row return: the first one returned, and so did the second. -/
theorem exists_of_bind_ok {x : Except ε α} {f : α → Except ε β} {b : β} (h : x >>= f = .ok b) :
    ∃ a, x = .ok a ∧ f a = .ok b := by
  cases x with
  | error e => cases h
  | ok a => exact ⟨a, rfl, h⟩

/-- A call for each element of a list: every result is that of a call. -/
theorem mem_of_mapM_ok {f : α → Except ε β} : ∀ {l : List α} {bs : List β}, l.mapM f = .ok bs →
    ∀ b ∈ bs, ∃ a ∈ l, f a = .ok b := by
  intro l
  induction l with
  | nil =>
    intro bs h b hb
    rw [List.mapM_nil] at h
    obtain rfl : [] = bs := Except.ok.inj h
    exact absurd hb (by simp)
  | cons a l ih =>
    intro bs h b hb
    rw [List.mapM_cons] at h
    obtain ⟨b', ha, h⟩ := exists_of_bind_ok h
    obtain ⟨bs', hl, h⟩ := exists_of_bind_ok h
    obtain rfl : b' :: bs' = bs := Except.ok.inj h
    rcases List.mem_cons.mp hb with rfl | hb
    · exact ⟨a, List.mem_cons_self, ha⟩
    · obtain ⟨x, hx, hfx⟩ := ih hl b hb
      exact ⟨x, List.mem_cons_of_mem _ hx, hfx⟩

/-- A call for each element of a list returns when each of them does. -/
theorem mapM_eq_ok {f : α → Except ε β} {g : α → β} : ∀ {l : List α}, (∀ a ∈ l, f a = .ok (g a)) →
    l.mapM f = .ok (l.map g) := by
  intro l
  induction l with
  | nil =>
    intro _
    rfl
  | cons a l ih =>
    intro h
    rw [List.mapM_cons, h a List.mem_cons_self, ih fun x hx => h x (List.mem_cons_of_mem _ hx)]
    rfl

end EdgeFrame.Lib
