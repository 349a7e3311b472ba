/-
# EdgeFrame.Lib.Cosine -- the cosine of two vectors

The inner product of two lists and the squared norm of one, as running sums over an
ordered field, and Cauchy and Schwarz for them. The norm is taken with any function that
is a square root of what is not negative; a vector of zeros has the norm zero, and the
quotient is then zero as division by zero is.
-/
import Mathlib.Algebra.BigOperators.Fin
import Mathlib.Algebra.Order.BigOperators.Ring.Finset
import Mathlib.Algebra.Order.Field.Basic
import Mathlib.Tactic.Ring

namespace EdgeFrame.Lib

variable {K : Type} [Field K]

/-- The inner product, summed from the left. -/
def dot (a b : List K) : K := (a.zip b).foldl (fun s p => s + p.1 * p.2) 0

/-- The squared norm, summed from the left. -/
def normSq (a : List K) : K := a.foldl (fun s x => s + x * x) 0

/-- A running sum is a sum over the positions of the list. -/
theorem foldl_add_eq_sum {α : Type} (f : α → K) (l : List α) :
    l.foldl (fun s x => s + f x) 0 = ∑ i : Fin l.length, f (l.get i) := by
  have hsum : l.foldl (fun s x => s + f x) 0 = (l.map f).sum := by
    rw [List.sum_eq_foldl, List.foldl_map]
  rw [hsum, ← Fin.sum_univ_fun_getElem]
  rfl

variable [LinearOrder K] [IsStrictOrderedRing K]

theorem normSq_nonneg (a : List K) : 0 ≤ normSq a := by
  rw [normSq, foldl_add_eq_sum fun x : K => x * x]
  exact Finset.sum_nonneg fun i _ => mul_self_nonneg _

/-- Cauchy and Schwarz. -/
theorem dot_sq_le {a b : List K} (h : a.length = b.length) :
    dot a b ^ 2 ≤ normSq a * normSq b := by
  have hfst : (a.zip b).map Prod.fst = a := List.map_fst_zip h.le
  have hsnd : (a.zip b).map Prod.snd = b := List.map_snd_zip h.ge
  have ha : normSq a = ∑ i : Fin (a.zip b).length, ((a.zip b).get i).1 ^ 2 := by
    calc normSq a = ((a.zip b).map Prod.fst).foldl (fun s x => s + x * x) 0 := by rw [hfst, normSq]
      _ = (a.zip b).foldl (fun s p => s + p.1 ^ 2) 0 := by simp only [List.foldl_map, sq]
      _ = _ := foldl_add_eq_sum (fun p : K × K => p.1 ^ 2) (a.zip b)
  have hb : normSq b = ∑ i : Fin (a.zip b).length, ((a.zip b).get i).2 ^ 2 := by
    calc normSq b = ((a.zip b).map Prod.snd).foldl (fun s x => s + x * x) 0 := by rw [hsnd, normSq]
      _ = (a.zip b).foldl (fun s p => s + p.2 ^ 2) 0 := by simp only [List.foldl_map, sq]
      _ = _ := foldl_add_eq_sum (fun p : K × K => p.2 ^ 2) (a.zip b)
  rw [dot, foldl_add_eq_sum fun p : K × K => p.1 * p.2, ha, hb]
  exact Finset.sum_mul_sq_le_sq_mul_sq Finset.univ _ _

/-- `sqrt` is a square root where there is one. -/
def IsSqrt (sqrt : K → K) : Prop := ∀ x, 0 ≤ x → 0 ≤ sqrt x ∧ sqrt x * sqrt x = x

/-- **A cosine is at most one.** -/
theorem dot_div_le_one {sqrt : K → K} (hsqrt : IsSqrt sqrt) {a b : List K}
    (h : a.length = b.length) : dot a b / (sqrt (normSq a) * sqrt (normSq b)) ≤ 1 := by
  obtain ⟨ha, hasq⟩ := hsqrt _ (normSq_nonneg a)
  obtain ⟨hb, hbsq⟩ := hsqrt _ (normSq_nonneg b)
  have hnorms : 0 ≤ sqrt (normSq a) * sqrt (normSq b) := mul_nonneg ha hb
  refine div_le_one_of_le₀ (le_of_sq_le_sq ?_ hnorms) hnorms
  calc dot a b ^ 2 ≤ normSq a * normSq b := dot_sq_le h
    _ = (sqrt (normSq a) * sqrt (normSq a)) * (sqrt (normSq b) * sqrt (normSq b)) := by
      rw [hasq, hbsq]
    _ = (sqrt (normSq a) * sqrt (normSq b)) ^ 2 := by ring

end EdgeFrame.Lib
