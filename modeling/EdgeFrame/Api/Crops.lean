/-
# EdgeFrame.Api.Crops -- the parts of an image that are scored

`getImage` and `getImageRGB` cut a face out of an image. Both first clamp its rectangle to
the image, leaving out the last row and the last column; the second widens it by 0.6 of
its size on every side. A rectangle that begins in the row or the column that is left out
is clamped to nothing, and OpenCV throws.

The two axes are alike, so that the ends of the widened rectangle are treated once, for an
axis of `n` pixels: the lower end is always an `int` (`toInt_low`), the upper one exactly
when the widened rectangle ends below the end of the `int`s (`toInt_high`), and between them
at least one pixel is left (`ends_of_room`). What OpenCV makes of two points is a
parameter, of which its documentation for points in order is assumed (`SpansCorners`).
-/
import EdgeFrame.Track.Objects
import Mathlib

namespace EdgeFrame.Api

open Track

/-! ## The code -/

/-- `int(value)`: a value whose whole part is no `int` has no defined result. -/
def toInt (value : ℚ) : Option Int :=
  let whole := if 0 ≤ value then ⌊value⌋ else ⌈value⌉
  if -2 ^ 31 ≤ whole ∧ whole < 2 ^ 31 then some whole else none

/-- The rectangle `r` that both functions begin with.

The last row and the last column are left out, since the clamping takes `cols - 1` and `rows - 1` for
the largest coordinates. -/
def clampedRect (image : Mat) (rect : Rect Int) : Rect Int :=
  let x := max 0 rect.x
  let y := max 0 rect.y
  { x := x
    y := y
    width := min (image.cols - 1 - x) rect.width
    height := min (image.rows - 1 - y) rect.height }

/-- `getImage`, up to the rectangle that it passes to `cropAndResize`. -/
def getImage (image : Mat) (rect : Rect Int) : Rect Int := clampedRect image rect

/-- `getImageRGB`, up to the rectangle that it passes to `cropAndResize`; `rectOfPoints` is the
constructor of `cv::Rect` from two points. -/
def getImageRGB (rectOfPoints : Int × Int → Int × Int → Rect Int) (image : Mat) (rect : Rect Int) :
    Option (Rect Int) := do
  let r := clampedRect image rect
  let left ← toInt (r.x - 6 / 10 * r.width)
  let top ← toInt (r.y - 6 / 10 * r.height)
  let right ← toInt (r.x + 16 / 10 * r.width)
  let bottom ← toInt (r.y + 16 / 10 * r.height)
  let ext_x0 := max 0 left
  let ext_y0 := max 0 top
  let ext_x1 := min (image.cols - 1) right
  let ext_y1 := min (image.rows - 1) bottom
  return rectOfPoints (ext_x0, ext_y0) (ext_x1, ext_y1)

/-! ## What a crop should be -/

/-- What OpenCV documents of the constructor, for a first point above and to the left of the
second. -/
def SpansCorners (rectOfPoints : Int × Int → Int × Int → Rect Int) : Prop :=
  ∀ x0 y0 x1 y1, x0 ≤ x1 → y0 ≤ y1 →
    rectOfPoints (x0, y0) (x1, y1) = ⟨x0, y0, x1 - x0, y1 - y0⟩

/-- The rectangle has a pixel of the image in it. -/
def SharesPixel (image : Mat) (rect : Rect Int) : Prop :=
  (∃ x, 0 ≤ x ∧ x < image.cols ∧ rect.x ≤ x ∧ x < rect.x + rect.width) ∧
    ∃ y, 0 ≤ y ∧ y < image.rows ∧ rect.y ≤ y ∧ y < rect.y + rect.height

/-- Not empty, and within the image. -/
structure Cropped (image : Mat) (r : Rect Int) : Prop where
  left : 0 ≤ r.x
  top : 0 ≤ r.y
  width : 0 < r.width
  height : 0 < r.height
  right : r.x + r.width ≤ image.cols
  bottom : r.y + r.height ≤ image.rows

/-- The rectangle begins before the last column and the last row, and widened it still ends at an
`int`.

Both parts are about the rectangle and the image only. -/
structure HasRoom (image : Mat) (rect : Rect Int) : Prop where
  column : max 0 rect.x < image.cols - 1
  row : max 0 rect.y < image.rows - 1
  right : max 0 rect.x + 16 / 10 * min (image.cols - 1 - max 0 rect.x) rect.width < (2 ^ 31 : ℚ)
  bottom : max 0 rect.y + 16 / 10 * min (image.rows - 1 - max 0 rect.y) rect.height < (2 ^ 31 : ℚ)

/-! ## One axis -/

section

variable {n start size : Int}

/-- The whole part of what is not negative. -/
theorem toInt_eq_floor {value : ℚ} (hpos : 0 ≤ value) (hlt : value < 2 ^ 31) :
    toInt value = some ⌊value⌋ := by
  have hfloor : 0 ≤ ⌊value⌋ := Int.floor_nonneg.mpr hpos
  have hbound : ⌊value⌋ < 2 ^ 31 := by
    rw [Int.floor_lt]
    exact_mod_cast hlt
  unfold toInt
  rw [if_pos hpos]
  exact if_pos ⟨by omega, hbound⟩

/-- **The lower end** is an `int`, and does not lie beyond where the clamped rectangle begins. -/
theorem toInt_low (hstart : 0 ≤ start) (hlt : start < 2 ^ 31) (hsize : 0 ≤ size)
    (hsizelt : size < 2 ^ 31) :
    ∃ low, toInt (start - 6 / 10 * size) = some low ∧ max 0 low ≤ start := by
  have hstart' : (0 : ℚ) ≤ start := by exact_mod_cast hstart
  have hlt' : (start : ℚ) < 2 ^ 31 := by exact_mod_cast hlt
  have hsize' : (0 : ℚ) ≤ size := by exact_mod_cast hsize
  have hsizelt' : (size : ℚ) < 2 ^ 31 := by exact_mod_cast hsizelt
  by_cases hpos : (0 : ℚ) ≤ start - 6 / 10 * size
  · refine ⟨_, toInt_eq_floor hpos (by linarith), max_le hstart ?_⟩
    have hfloor : ⌊(start - 6 / 10 * size : ℚ)⌋ ≤ ⌊(start : ℚ)⌋ :=
      Int.floor_le_floor (by linarith)
    rwa [Int.floor_intCast] at hfloor
  · -- a negative end is rounded up
    rw [not_le] at hpos
    have hceil : ⌈(start - 6 / 10 * size : ℚ)⌉ ≤ 0 := Int.ceil_le.mpr (by exact_mod_cast hpos.le)
    have hbound : -2 ^ 31 ≤ ⌈(start - 6 / 10 * size : ℚ)⌉ := by
      have hceil' := Int.le_ceil (start - 6 / 10 * size : ℚ)
      have hrat : (-2 ^ 31 : ℚ) ≤ ⌈(start - 6 / 10 * size : ℚ)⌉ := by linarith
      exact_mod_cast hrat
    refine ⟨_, ?_, max_le hstart (hceil.trans hstart)⟩
    unfold toInt
    rw [if_neg (not_le.mpr hpos)]
    exact if_pos ⟨hbound, by omega⟩

/-- **The upper end** is an `int` exactly when it lies below the end of the `int`s. -/
theorem toInt_high (hstart : 0 ≤ start) (hsize : 0 ≤ size) :
    (∃ high, toInt (start + 16 / 10 * size) = some high) ↔
      (start + 16 / 10 * size : ℚ) < 2 ^ 31 := by
  have hstart' : (0 : ℚ) ≤ start := by exact_mod_cast hstart
  have hsize' : (0 : ℚ) ≤ size := by exact_mod_cast hsize
  have hpos : (0 : ℚ) ≤ start + 16 / 10 * size := by linarith
  constructor
  · rintro ⟨high, h⟩
    unfold toInt at h
    rw [if_pos hpos] at h
    simp only at h
    split at h
    · rename_i hin
      exact_mod_cast Int.floor_lt.mp hin.2
    · cases h
  · intro hlt
    exact ⟨_, toInt_eq_floor hpos hlt⟩

/-- The upper end lies beyond where a rectangle begins that is not empty. -/
theorem lt_of_toInt_high {high : Int} (hstart : 0 ≤ start) (hsize : 0 < size)
    (h : toInt (start + 16 / 10 * size) = some high) : start < high := by
  have hstart' : (0 : ℚ) ≤ start := by exact_mod_cast hstart
  have hsize' : (1 : ℚ) ≤ size := by exact_mod_cast hsize
  have hlt := (toInt_high hstart hsize.le).mp ⟨high, h⟩
  rw [toInt_eq_floor (by linarith) hlt] at h
  obtain rfl := Option.some.inj h
  have hfloor : start + 1 ≤ ⌊(start + 16 / 10 * size : ℚ)⌋ := by
    rw [Int.le_floor]
    push_cast
    linarith
  omega

/-- **The ends of the widened rectangle**, one beyond the other and within `n`. -/
theorem ends_of_room (hn : n < 2 ^ 31) (hstart : 0 ≤ start) (hsize : 0 < size)
    (hfits : start + size ≤ n - 1) {low high : Int}
    (hlow : toInt (start - 6 / 10 * size) = some low)
    (hhigh : toInt (start + 16 / 10 * size) = some high) :
    max 0 low < min (n - 1) high := by
  obtain ⟨low', hlow', hle⟩ :=
    toInt_low hstart (by omega : start < 2 ^ 31) hsize.le (by omega : size < 2 ^ 31)
  obtain rfl : low' = low := Option.some.inj (hlow'.symm.trans hlow)
  exact lt_min (by omega) (hle.trans_lt (lt_of_toInt_high hstart hsize hhigh))

end

/-! ## Both crops -/

section

variable {rectOfPoints : Int × Int → Int × Int → Rect Int} {image : Mat} {rect : Rect Int}

/-- Where the clamped rectangle begins, there is a pixel of the image. -/
theorem SharesPixel.begins (h : SharesPixel image rect) :
    (0 < rect.width ∧ max 0 rect.x ≤ image.cols - 1) ∧
      0 < rect.height ∧ max 0 rect.y ≤ image.rows - 1 := by
  obtain ⟨⟨x, hx⟩, y, hy⟩ := h
  omega

/-- **`getImage`** crops exactly when the rectangle begins before the last column and row. -/
theorem getImage_cropped_iff (h : SharesPixel image rect) :
    Cropped image (getImage image rect) ↔
      max 0 rect.x < image.cols - 1 ∧ max 0 rect.y < image.rows - 1 := by
  obtain ⟨⟨hwidth, hcolumn⟩, hheight, hrow⟩ := h.begins
  unfold getImage clampedRect
  constructor
  · intro hcrop
    have hwide := hcrop.width
    have hhigh := hcrop.height
    dsimp only at hwide hhigh
    omega
  · rintro ⟨hx, hy⟩
    constructor <;> dsimp only <;> omega

/-- `getImageRGB` returns exactly when both upper ends are `int`s. -/
theorem getImageRGB_returns_iff (hints : image.cols < 2 ^ 31 ∧ image.rows < 2 ^ 31)
    (h : Cropped image (clampedRect image rect)) :
    (∃ r, getImageRGB rectOfPoints image rect = some r) ↔
      ((clampedRect image rect).x + 16 / 10 * (clampedRect image rect).width : ℚ) < 2 ^ 31 ∧
        ((clampedRect image rect).y + 16 / 10 * (clampedRect image rect).height : ℚ) < 2 ^ 31 := by
  obtain ⟨left, hleft, -⟩ := toInt_low h.left (by linarith [h.width, h.right, hints.1]) h.width.le
    (by linarith [h.left, h.right, hints.1])
  obtain ⟨top, htop, -⟩ := toInt_low h.top (by linarith [h.height, h.bottom, hints.2]) h.height.le
    (by linarith [h.top, h.bottom, hints.2])
  rw [← toInt_high h.left h.width.le, ← toInt_high h.top h.height.le]
  unfold getImageRGB
  simp only [hleft, htop, Option.bind_eq_bind, Option.bind_some]
  constructor
  · rintro ⟨r, hr⟩
    obtain ⟨right, hright, hr⟩ := Option.bind_eq_some_iff.mp hr
    obtain ⟨bottom, hbottom, -⟩ := Option.bind_eq_some_iff.mp hr
    exact ⟨⟨right, hright⟩, bottom, hbottom⟩
  · rintro ⟨⟨right, hright⟩, bottom, hbottom⟩
    simp only [hright, hbottom, Option.bind_some]
    exact ⟨_, rfl⟩

/-- **`getImageRGB`** crops whenever it returns and `getImage` crops. -/
theorem getImageRGB_cropped (hrect : SpansCorners rectOfPoints)
    (hints : image.cols < 2 ^ 31 ∧ image.rows < 2 ^ 31)
    (h : Cropped image (clampedRect image rect)) {r : Rect Int}
    (hfits : (clampedRect image rect).x + (clampedRect image rect).width ≤ image.cols - 1 ∧
      (clampedRect image rect).y + (clampedRect image rect).height ≤ image.rows - 1)
    (hr : getImageRGB rectOfPoints image rect = some r) : Cropped image r := by
  unfold getImageRGB at hr
  simp only [Option.bind_eq_bind, Option.bind_eq_some_iff] at hr
  obtain ⟨left, hleft, top, htop, right, hright, bottom, hbottom, hr⟩ := hr
  have hx := ends_of_room hints.1 h.left h.width hfits.1 hleft hright
  have hy := ends_of_room hints.2 h.top h.height hfits.2 htop hbottom
  rw [hrect _ _ _ _ hx.le hy.le] at hr
  obtain rfl := Option.some.inj hr
  constructor <;> dsimp only <;> omega

end

/-- **When crops stay inside the image and are never empty**: for a rectangle that has a pixel of the
image in it, both crops do exactly when it begins before the last column and the last row, and
widened ends at an `int`.

The first part of the condition comes from `getImage_cropped_iff`, the second from
`getImageRGB_returns_iff`; where both hold the second crop is `getImageRGB_cropped`. -/
theorem crops_inside_iff (rectOfPoints : Int × Int → Int × Int → Rect Int)
    (hrect : SpansCorners rectOfPoints) (image : Mat) (rect : Rect Int)
    (hints : image.cols < 2 ^ 31 ∧ image.rows < 2 ^ 31) (hshares : SharesPixel image rect) :
    (Cropped image (getImage image rect) ∧
      ∃ r, getImageRGB rectOfPoints image rect = some r ∧ Cropped image r) ↔
        HasRoom image rect := by
  constructor
  · rintro ⟨hcrop, r, hr, -⟩
    obtain ⟨hcolumn, hrow⟩ := (getImage_cropped_iff hshares).mp hcrop
    obtain ⟨hright, hbottom⟩ := (getImageRGB_returns_iff hints hcrop).mp ⟨r, hr⟩
    exact ⟨hcolumn, hrow, hright, hbottom⟩
  · intro hroom
    have hcrop := (getImage_cropped_iff hshares).mpr ⟨hroom.column, hroom.row⟩
    obtain ⟨r, hr⟩ := (@getImageRGB_returns_iff rectOfPoints image rect hints hcrop).mpr
      ⟨hroom.right, hroom.bottom⟩
    refine ⟨hcrop, r, hr, getImageRGB_cropped hrect hints hcrop ?_ hr⟩
    unfold clampedRect
    dsimp only
    omega

/-! ## A face at the border -/

/-- An image of 960x540. -/
def screenshot : Mat := ⟨540, 960, []⟩

/-- **A face that begins in the last column** is clamped to a rectangle without width. -/
theorem last_column_is_left_out : SharesPixel screenshot ⟨959, 100, 80, 80⟩ ∧
    getImage screenshot ⟨959, 100, 80, 80⟩ = ⟨959, 100, 0, 80⟩ ∧
    ¬ Cropped screenshot (getImage screenshot ⟨959, 100, 80, 80⟩) := by
  refine ⟨⟨⟨959, by decide⟩, 100, by decide⟩, by decide, ?_⟩
  intro hcrop
  exact absurd hcrop.width (by decide)

/-- A face that sticks out of the upper left corner. -/
theorem crops_inside_iff_corner :
    Cropped screenshot (getImage screenshot ⟨-10, -10, 80, 80⟩) ∧
      ∃ r, getImageRGB (fun p q => ⟨min p.1 q.1, min p.2 q.2, max p.1 q.1 - min p.1 q.1,
        max p.2 q.2 - min p.2 q.2⟩) screenshot ⟨-10, -10, 80, 80⟩ = some r ∧ Cropped screenshot r := by
  refine (crops_inside_iff _ ?_ screenshot ⟨-10, -10, 80, 80⟩ (by decide) ?_).mpr ?_
  · intro x0 y0 x1 y1 hx hy
    simp [hx, hy]
  · exact ⟨⟨0, by decide⟩, 0, by decide⟩
  · constructor <;> norm_num [screenshot]

end EdgeFrame.Api
