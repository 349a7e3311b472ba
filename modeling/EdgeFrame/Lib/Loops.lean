/-
# EdgeFrame.Lib.Loops -- counted loops

A loop over an index is a fold over a range. Its rule is an invariant that is indexed by
the next index to be looked at: it holds when the loop starts, each pass takes it from
one index to the next one, and it holds of the end of the range when the loop is over.
-/
import Mathlib.Data.List.Range

namespace EdgeFrame.Lib

variable {β : Type*} {f : β → Nat → β} {b : β}

/-- **The rule of a counted loop**, from an index on. -/
theorem foldl_range'_induction {I : Nat → β → Prop} {s n : Nat} (hinit : I s b)
    (hstep : ∀ i b, s ≤ i → i < s + n → I i b → I (i + 1) (f b i)) :
    I (s + n) ((List.range' s n).foldl f b) := by
  induction n with
  | zero => exact hinit
  | succ n ih =>
    rw [List.range'_1_concat, List.foldl_concat]
    have hbefore := ih fun i b hs hi => hstep i b hs (by omega)
    exact hstep (s + n) _ (by omega) (by omega) hbefore

/-- The rule of a loop that starts at zero. -/
theorem foldl_range_induction {I : Nat → β → Prop} {n : Nat} (hinit : I 0 b)
    (hstep : ∀ i b, i < n → I i b → I (i + 1) (f b i)) : I n ((List.range n).foldl f b) := by
  have h := foldl_range'_induction (s := 0) (n := n) hinit
    fun i b _ hi => hstep i b (by omega)
  rw [Nat.zero_add] at h
  rw [List.range_eq_range']
  exact h

/-- The rule of a loop whose passes may fail: under the invariant none of them does. -/
theorem foldlM_range_induction {ε : Type*} {f : β → Nat → Except ε β} {I : Nat → β → Prop} {n : Nat}
    (hinit : I 0 b) (hstep : ∀ i b, i < n → I i b → ∃ b', f b i = .ok b' ∧ I (i + 1) b') :
    ∃ b', (List.range n).foldlM f b = .ok b' ∧ I n b' := by
  induction n with
  | zero => exact ⟨b, rfl, hinit⟩
  | succ n ih =>
    obtain ⟨b', hrun, hb'⟩ := ih fun i b hi => hstep i b (by omega)
    obtain ⟨b'', hlast, hb''⟩ := hstep n b' (by omega) hb'
    refine ⟨b'', ?_, hb''⟩
    rw [List.range_succ, List.foldlM_append, hrun]
    simp [bind, Except.bind, hlast, pure, Except.pure]

end EdgeFrame.Lib
