/-
# EdgeFrame.Lib.Duality -- cheap matchings and their certificates

The weight of a matching is the sum of the costs of its pairs. A pair of potentials
that stays below the costs bounds the weight of every matching from below, by the
potentials of the elements it uses; a matching whose pairs are within `ε` of the
potentials comes that close to the bound. Where the potentials are not positive, and
zero where the matching does not go, they also compare the elements that two matchings
use.
-/
import EdgeFrame.Lib.Matching
import Mathlib.Algebra.BigOperators.Group.Finset.Piecewise
import Mathlib.Algebra.Order.BigOperators.Group.Finset
import Mathlib.Algebra.Order.Ring.Defs
import Mathlib.Algebra.BigOperators.Ring.Finset
import Mathlib.Data.Fintype.BigOperators
import Mathlib.Algebra.Order.Field.Basic

namespace EdgeFrame.Lib

open Finset

variable {α β K : Type*} [Fintype α] [Fintype β] [Field K]

open Classical in
/-- The sum of the costs of the pairs in `M`. -/
noncomputable def weight (M : α → β → Prop) (C : α → β → K) : K :=
  ∑ a, ∑ b, if M a b then C a b else 0

theorem weight_add (M : α → β → Prop) (C D : α → β → K) :
    weight M (fun a b => C a b + D a b) = weight M C + weight M D := by
  simp only [weight, ← sum_add_distrib]
  refine sum_congr rfl fun a _ => sum_congr rfl fun b _ => ?_
  split
  · rfl
  · exact (add_zero 0).symm

theorem weight_flip (M : α → β → Prop) (C : α → β → K) :
    weight (fun b a => M a b) (fun b a => C a b) = weight M C := by
  simp only [weight]
  exact sum_comm

variable {M M' : α → β → Prop}

/-- What depends on the left element alone is summed over the left side. -/
theorem IsMatching.weight_left (h : IsMatching M) (u : α → K) :
    weight M (fun a _ => u a) = ∑ a ∈ leftSide M, u a := by
  classical
  rw [weight, leftSide, sum_filter]
  refine sum_congr rfl fun a _ => ?_
  by_cases ha : ∃ b, M a b
  · obtain ⟨b, hb⟩ := ha
    rw [if_pos ⟨b, hb⟩, sum_eq_single b]
    · exact if_pos hb
    · intro b' _ hne
      exact if_neg fun hb' => hne (h.left hb' hb)
    · exact fun hb => absurd (mem_univ b) hb
  · rw [if_neg ha]
    refine sum_eq_zero fun b _ => if_neg fun hb => ha ⟨b, hb⟩

theorem IsMatching.weight_right (h : IsMatching M) (v : β → K) :
    weight M (fun _ b => v b) = ∑ b ∈ rightSide M, v b := by
  rw [← weight_flip, h.flip.weight_left]
  exact sum_congr (by ext b; simp) fun _ _ => rfl

variable [LinearOrder K] [IsStrictOrderedRing K]

theorem weight_mono {C D : α → β → K} (h : ∀ a b, M a b → C a b ≤ D a b) :
    weight M C ≤ weight M D := by
  refine sum_le_sum fun a _ => sum_le_sum fun b _ => ?_
  split
  · rename_i hab
    exact h a b hab
  · exact le_refl 0

/-- **Weak duality, with slack**: `M` is within `ε` of the potentials on each of its pairs, `M'` is
not below them, and `M` uses the cheaper elements; then `M` weighs at most `ε` a pair more. -/
theorem weight_le_of_potentials (hM : IsMatching M) (hM' : IsMatching M') {C : α → β → K} {u : α → K}
    {v : β → K} {ε : K} (hfeasible : ∀ a b, u a + v b ≤ C a b)
    (htight : ∀ a b, M a b → C a b ≤ u a + v b + ε)
    (hsides : ∑ a ∈ leftSide M, u a + ∑ b ∈ rightSide M, v b ≤
      ∑ a ∈ leftSide M', u a + ∑ b ∈ rightSide M', v b) :
    weight M C ≤ weight M' C + (leftSide M).card * ε := by
  have hsum : weight M (fun a b => u a + v b + ε) =
      ∑ a ∈ leftSide M, u a + ∑ b ∈ rightSide M, v b + (leftSide M).card * ε := by
    rw [weight_add M (fun a b => u a + v b) fun _ _ => ε, weight_add M (fun a _ => u a),
      hM.weight_left, hM.weight_right, hM.weight_left fun _ => ε, sum_const, nsmul_eq_mul]
  have hsum' : weight M' (fun a b => u a + v b) =
      ∑ a ∈ leftSide M', u a + ∑ b ∈ rightSide M', v b := by
    rw [weight_add M' (fun a _ => u a), hM'.weight_left, hM'.weight_right]
  calc weight M C ≤ weight M (fun a b => u a + v b + ε) := weight_mono htight
    _ = ∑ a ∈ leftSide M, u a + ∑ b ∈ rightSide M, v b + (leftSide M).card * ε := hsum
    _ ≤ weight M' (fun a b => u a + v b) + (leftSide M).card * ε := by
      rw [hsum']
      exact add_le_add_left hsides _
    _ ≤ weight M' C + (leftSide M).card * ε := by
      exact add_le_add_left (weight_mono fun a b _ => hfeasible a b) _

/-- Potentials that are nowhere positive, and zero outside `s`, are smallest on `s`. -/
theorem sum_le_sum_of_nonpos {s t : Finset α} {u : α → K} (hu : ∀ a, u a ≤ 0)
    (hs : ∀ a, a ∉ s → u a = 0) : ∑ a ∈ s, u a ≤ ∑ a ∈ t, u a := by
  have hall : ∑ a ∈ s, u a = ∑ a, u a :=
    sum_subset (subset_univ s) fun a _ ha => hs a ha
  rw [hall]
  -- adding elements only lowers a sum
  exact sum_le_sum_of_subset_of_nonpos' t.subset_univ fun a _ _ => hu a

end EdgeFrame.Lib
