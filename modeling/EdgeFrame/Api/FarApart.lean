/-
# EdgeFrame.Api.FarApart -- boxes that suppress each other without meeting

The overlap of two boxes is computed as the product of two extents, each of which is
negative when the boxes are apart on its axis. Apart on one axis, the product is
negative and nothing happens; apart on both, it is positive again, and if it is of the
size of the boxes it passes for an intersection.

`overlaps_iff` settles the test for two boxes: `Intersects` or `FarApart`, and never both.
The rest is about which pairs the loops come to test: `suppress_spec` of `Survivors` names
them, by `Alive` and `Reaches`, so that the condition of the law is about the candidates and
does not mention what was suppressed.
-/
import EdgeFrame.Api.LowerScores
import Mathlib

namespace EdgeFrame.Api

variable {K : Type} [Field K] [LinearOrder K]

/-- The pixels of a clipped box. -/
def Clipped.area (b : Clipped K) : K := b.w * b.h

/-- The boxes have pixels in common, and enough of them. -/
structure Intersects (a b : Clipped K) : Prop where
  extentX : 0 < extentX a b
  extentY : 0 < extentY a b
  ratio : nms_threshold_ ≤ extentProduct a b / ratioDenominator a b

/-- The boxes are apart on both axes, and the product of the two gaps is at least three eighths of
their areas together, and at most these areas.

The two bounds are what the threshold 0.6 and the sign of the denominator come to. -/
structure FarApart (a b : Clipped K) : Prop where
  extentX : extentX a b < 0
  extentY : extentY a b < 0
  low : (3 : Nat) * (a.area + b.area) ≤ (8 : Nat) * extentProduct a b
  high : extentProduct a b ≤ a.area + b.area

/-- Boxes that are apart do not intersect. -/
theorem FarApart.not_intersects {a b : Clipped K} (h : FarApart a b) : ¬ Intersects a b := by
  intro hmeet
  exact lt_asymm h.extentX hmeet.extentX

variable [IsStrictOrderedRing K]

/-- The common extent is at most the width. -/
theorem extentX_le (a b : Clipped K) : extentX a b ≤ a.w := by
  have h1 := min_le_left a.x2 b.x2
  have h2 := le_max_left a.x1 b.x1
  unfold extentX Clipped.w
  linarith

/-- Or the height. -/
theorem extentY_le (a b : Clipped K) : extentY a b ≤ a.h := by
  have h1 := min_le_left a.y2 b.y2
  have h2 := le_max_left a.y1 b.y1
  unfold extentY Clipped.h
  linarith

omit [IsStrictOrderedRing K] in
/-- The denominator of the ratio, in areas. -/
theorem ratioDenominator_eq (a b : Clipped K) :
    ratioDenominator a b = a.area + b.area - extentProduct a b := rfl

/-- The threshold 0.6 of the ratio, as a bound on the product. -/
theorem threshold_le_ratio_iff {a b : Clipped K} (h : 0 < ratioDenominator a b) :
    nms_threshold_ ≤ extentProduct a b / ratioDenominator a b ↔
      (3 : Nat) * (a.area + b.area) ≤ (8 : Nat) * extentProduct a b := by
  rw [le_div_iff₀ h, ratioDenominator_eq, nms_threshold_]
  push_cast
  constructor
  · intro hle
    linarith
  · intro hle
    linarith

/-- Boxes that meet have less in common than each of them covers. -/
theorem ratioDenominator_pos {a b : Clipped K} (hb : 0 < b.area) (hx : 0 < extentX a b)
    (hy : 0 < extentY a b) : 0 < ratioDenominator a b := by
  have hprod : extentProduct a b ≤ a.area := by
    unfold extentProduct Clipped.area
    rw [mul_comm]
    exact mul_le_mul (extentX_le a b) (extentY_le a b) hy.le (hx.le.trans (extentX_le a b))
  rw [ratioDenominator_eq]
  linarith

/-- What is suppressed has a positive product, of two extents or of two gaps. -/
theorem extentProduct_pos {a b : Clipped K} (ha : 0 < a.area) (hb : 0 < b.area)
    (hover : overlaps a b = true) : 0 < extentProduct a b := by
  unfold overlaps at hover
  split at hover
  · exact of_decide_eq_true hover
  · have hle : nms_threshold_ ≤ extentProduct a b / ratioDenominator a b :=
      of_decide_eq_true hover
    by_contra hneg
    have hden : 0 < ratioDenominator a b := by
      rw [ratioDenominator_eq]
      linarith [not_lt.mp hneg]
    rw [threshold_le_ratio_iff hden] at hle
    push_cast at hle
    linarith [not_lt.mp hneg]

/-- **The test of hard suppression**, for boxes with an area: it takes boxes that meet, and boxes
that are far apart on both axes.

By the signs of the two extents: both positive, both negative, or the product is not positive. -/
theorem overlaps_iff {a b : Clipped K} (haw : 0 < a.w) (hah : 0 < a.h) (hbw : 0 < b.w)
    (hbh : 0 < b.h) : overlaps a b = true ↔ Intersects a b ∨ FarApart a b := by
  have harea : 0 < a.area := mul_pos haw hah
  have harea' : 0 < b.area := mul_pos hbw hbh
  constructor
  · intro hover
    have hpos := extentProduct_pos harea harea' hover
    unfold overlaps at hover
    rcases pos_and_pos_or_neg_and_neg_of_mul_pos hpos with ⟨hy, hx⟩ | ⟨hy, hx⟩
    -- the boxes meet
    · rw [if_neg (ratioDenominator_pos harea' hx hy).ne'] at hover
      exact Or.inl ⟨hx, hy, of_decide_eq_true hover⟩
    · right
      split at hover
      · -- the areas together are the product: the ratio is infinite
        rename_i hzero
        rw [ratioDenominator_eq] at hzero
        refine ⟨hx, hy, ?_, by linarith⟩
        push_cast
        linarith
      · have hle : nms_threshold_ ≤ extentProduct a b / ratioDenominator a b :=
          of_decide_eq_true hover
        have hquot : 0 < extentProduct a b / ratioDenominator a b := by
          refine lt_of_lt_of_le ?_ hle
          unfold nms_threshold_
          positivity
        have hden : 0 < ratioDenominator a b := (div_pos_iff_of_pos_left hpos).mp hquot
        refine ⟨hx, hy, (threshold_le_ratio_iff hden).mp hle, ?_⟩
        rw [ratioDenominator_eq] at hden
        linarith
  · rintro (hmeets | hfar)
    -- what meets has a positive denominator, and what is far apart has none below zero
    · have hden := ratioDenominator_pos harea' hmeets.extentX hmeets.extentY
      unfold overlaps
      rw [if_neg hden.ne']
      exact decide_eq_true hmeets.ratio
    · have hpos : 0 < extentProduct a b := mul_pos_of_neg_of_neg hfar.extentY hfar.extentX
      unfold overlaps
      split
      · exact decide_eq_true hpos
      · rename_i hzero
        have hden : 0 < ratioDenominator a b := by
          refine lt_of_le_of_ne ?_ (Ne.symm hzero)
          rw [ratioDenominator_eq]
          linarith [hfar.high]
        exact decide_eq_true ((threshold_le_ratio_iff hden).mpr hfar.low)

/-! ## The law -/

variable {D : FaceDetectWithMask K} {cands : List (Candidate K)}

/-- A box that is not too small for an image with pixels has an area. -/
theorem extents_pos (hh : 0 < D.ori_height_) (hw : 0 < D.ori_width_) {b : Clipped K}
    (hlarge : D.tooSmall b = false) : 0 < b.w ∧ 0 < b.h := by
  have hleast : (0 : K) < least_percent_of_edge_ := by
    unfold least_percent_of_edge_
    positivity
  simp only [FaceDetectWithMask.tooSmall, Bool.or_eq_false_iff, decide_eq_false_iff_not,
    not_lt] at hlarge
  exact ⟨(mul_pos hw hleast).trans_le hlarge.2, (mul_pos hh hleast).trans_le hlarge.1⟩

/-- For a candidate that is alive and one it reaches, the test is exact but for boxes far apart. -/
theorem covers_iff (hh : 0 < D.ori_height_) (hw : 0 < D.ori_width_) {i j : Nat} {a b : Candidate K}
    (ha : cands[i]? = some a) (hb : cands[j]? = some b) (halive : Alive D cands i)
    (hreach : Reaches D cands i j) : Covers D cands i j = true ↔
      Intersects (a.clipped D) (b.clipped D) ∨ FarApart (a.clipped D) (b.clipped D) := by
  have hlarge := (alive_iff.mp halive).1
  have hlarge' := hreach.2 j hreach.1 (le_refl j)
  rw [small_eq ha] at hlarge
  rw [small_eq hb] at hlarge'
  obtain ⟨haw, hah⟩ := extents_pos hh hw hlarge
  obtain ⟨hbw, hbh⟩ := extents_pos hh hw hlarge'
  rw [covers_eq ha hb]
  exact overlaps_iff haw hah hbw hbh

/-- **Who suppresses whom**: in hard suppression every candidate is dropped by one that it really
intersects, exactly when no candidate that is alive reaches one that is far apart from it.

The pairs are those of `suppress_spec`; to each of them `covers_iff` applies. -/
theorem suppressed_intersects_iff (exp : K → K) (D : FaceDetectWithMask K)
    (cands : List (Candidate K)) (hhard : D.soft_nms_ = false) (hh : 0 < D.ori_height_)
    (hw : 0 < D.ori_width_) :
    (∀ i j a b, cands[i]? = some a → cands[j]? = some b →
      (i, j) ∈ (suppress exp D cands).suppressed → Intersects (a.clipped D) (b.clipped D)) ↔
    ∀ i j a b, cands[i]? = some a → cands[j]? = some b → Alive D cands i → Reaches D cands i j →
      ¬ FarApart (a.clipped D) (b.clipped D) := by
  have hlog : ∀ {i j : Nat} {a : Candidate K}, cands[i]? = some a →
      ((i, j) ∈ (suppress exp D cands).suppressed ↔ Drops D cands i j) := by
    intro i j a ha
    rw [(suppress_spec exp hhard).log]
    exact and_iff_right (List.getElem?_eq_some_iff.mp ha).1
  refine forall₄_congr fun i j a b => forall₂_congr fun ha hb => ?_
  rw [hlog ha]
  constructor
  · intro h halive hreach hfar
    have hcovers := (covers_iff hh hw ha hb halive hreach).mpr (Or.inr hfar)
    exact hfar.not_intersects (h ⟨halive, hreach, hcovers⟩)
  · rintro h ⟨halive, hreach, hcovers⟩
    rcases (covers_iff hh hw ha hb halive hreach).mp hcovers with hmeets | hfar
    · exact hmeets
    · exact absurd hfar (h halive hreach)

/-- Two boxes of ten by ten pixels, with ten pixels between them on both axes. -/
def upperLeft : Candidate ℚ := ⟨0, 0, 9, 9, 9 / 10, 0⟩

/-- The other one. -/
def lowerRight : Candidate ℚ := ⟨20, 20, 29, 29, 8 / 10, 1⟩

/-- The lower box is suppressed by one it does not meet. -/
theorem diagonal_suppressed :
    (0, 1) ∈ (suppress id squareImage [upperLeft, lowerRight]).suppressed ∧
      extentX (upperLeft.clipped squareImage) (lowerRight.clipped squareImage) < 0 ∧
      extentY (upperLeft.clipped squareImage) (lowerRight.clipped squareImage) < 0 ∧
      keptFaces id squareImage [upperLeft, lowerRight] = [upperLeft] := by
  decide +kernel

/-- So these two do not meet the condition. -/
theorem suppressed_intersects_iff_diagonal :
    ¬ (∀ i j a b, [upperLeft, lowerRight][i]? = some a → [upperLeft, lowerRight][j]? = some b →
      Alive squareImage [upperLeft, lowerRight] i → Reaches squareImage [upperLeft, lowerRight] i j →
        ¬ FarApart (a.clipped squareImage) (b.clipped squareImage)) := by
  rw [← suppressed_intersects_iff id squareImage [upperLeft, lowerRight] rfl (by decide +kernel)
    (by decide +kernel)]
  intro h
  have hmeets := h 0 1 upperLeft lowerRight rfl rfl (by decide +kernel)
  have hapart : extentX (upperLeft.clipped squareImage) (lowerRight.clipped squareImage) < 0 := by
    decide +kernel
  exact lt_asymm hapart hmeets.extentX

end EdgeFrame.Api
