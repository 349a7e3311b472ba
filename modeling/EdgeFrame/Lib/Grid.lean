/-
# EdgeFrame.Lib.Grid -- cells of a grid over a rectangle

A grid of square cells of side `s` that covers a rectangle has a ceiling of cells on
each axis. Its cells are at least as many as the area of the rectangle takes, and as
many exactly when the padding is smaller than a cell.

The padding is the area of the grid that lies outside the rectangle. Everything is in
whole numbers, with the ceiling of a quotient as `⌈/⌉`; `ceil_natCast_div` brings a ceiling
of a quotient in a field to that form.
-/
import Mathlib.Algebra.Order.Floor.Div
import Mathlib.Data.Rat.Floor
import Mathlib.Tactic

namespace EdgeFrame.Lib

/-- A grid of cells of side `s` has at least the cells that the area takes. -/
theorem ceilDiv_area_le (height width : Nat) {s : Nat} (hs : 0 < s) :
    (height * width) ⌈/⌉ (s * s) ≤ (height ⌈/⌉ s) * (width ⌈/⌉ s) := by
  rw [ceilDiv_le_iff_le_mul (Nat.mul_pos hs hs)]
  calc height * width ≤ (s * (height ⌈/⌉ s)) * (s * (width ⌈/⌉ s)) :=
        Nat.mul_le_mul (le_smul_ceilDiv hs) (le_smul_ceilDiv hs)
    _ = s * s * ((height ⌈/⌉ s) * (width ⌈/⌉ s)) := by ring

/-- The two counts are one exactly when the padding is smaller than a cell. -/
theorem ceilDiv_area_eq_iff (height width : Nat) {s : Nat} (hs : 0 < s) :
    (height * width) ⌈/⌉ (s * s) = (height ⌈/⌉ s) * (width ⌈/⌉ s) ↔
      (height ⌈/⌉ s * s) * (width ⌈/⌉ s * s) < height * width + s * s := by
  have hss : 0 < s * s := Nat.mul_pos hs hs
  have hpad : (height ⌈/⌉ s * s) * (width ⌈/⌉ s * s) =
      s * s * ((height ⌈/⌉ s) * (width ⌈/⌉ s)) := by ring
  have hle := ceilDiv_area_le height width hs
  rw [hpad]
  generalize (height ⌈/⌉ s) * (width ⌈/⌉ s) = cells at hle ⊢
  constructor
  · intro heq
    have hlt : ¬ (height * width) ⌈/⌉ (s * s) + 1 ≤ cells := by omega
    by_contra hfar
    refine hlt (Nat.succ_le_of_lt (lt_of_not_ge fun hge => ?_))
    -- one cell less would do
    have hpos : 0 < cells := by
      rcases Nat.eq_zero_or_pos cells with rfl | hpos
      · omega
      · exact hpos
    have hless : (height * width) ⌈/⌉ (s * s) ≤ cells - 1 := by
      rw [ceilDiv_le_iff_le_mul hss, Nat.mul_sub_one]
      omega
    omega
  · intro hnear
    by_contra hne
    have hless : (height * width) ⌈/⌉ (s * s) ≤ cells - 1 := by omega
    rw [ceilDiv_le_iff_le_mul hss, Nat.mul_sub_one] at hless
    have hcell : s * s ≤ s * s * cells := by
      rcases Nat.eq_zero_or_pos cells with rfl | hpos
      · omega
      · exact Nat.le_mul_of_pos_right _ hpos
    omega

/-- `std::ceil` of a quotient of two whole numbers. -/
theorem ceil_natCast_div {K : Type*} [Field K] [LinearOrder K] [IsStrictOrderedRing K]
    [FloorRing K] (n : Nat) {d : Nat} (hd : 0 < d) :
    ⌈(n : K) / (d : K)⌉ = (n ⌈/⌉ d : Nat) := by
  have hdK : (0 : K) < d := Nat.cast_pos.mpr hd
  apply le_antisymm
  · rw [Int.ceil_le, div_le_iff₀ hdK]
    have hle : n ≤ d * (n ⌈/⌉ d) := le_smul_ceilDiv hd
    rw [mul_comm]
    exact_mod_cast hle
  · have hnonneg : 0 ≤ ⌈(n : K) / (d : K)⌉ := Int.ceil_nonneg (by positivity)
    obtain ⟨c, hc⟩ := Int.eq_ofNat_of_zero_le hnonneg
    rw [hc]
    refine Int.ofNat_le.mpr ((ceilDiv_le_iff_le_mul hd).mpr ?_)
    have hle := Int.le_ceil ((n : K) / (d : K))
    rw [hc, div_le_iff₀ hdK, mul_comm] at hle
    exact_mod_cast hle

end EdgeFrame.Lib
