/-
# EdgeFrame.Api.Anchors -- the anchors and the rows they are for

For each stride the anchors cover the input with a grid, whose cells are counted by two
ceilings; the rows of scores are counted by the ceiling of an area. The grid has at
least as many cells, and as many exactly when what it pads the input with is less than
one cell. An anchor is normalised by the height where the decoder takes the width, and
the other way round.

For the first law the loops are counted (`length_strideCells`, `new_spec`), and the two
ceilings are compared with the one by `Lib.Grid`. For the second the cells that the tables
of the source give are listed (`mem_generateCells`), with the stride and the place of each;
for sides that are multiples of 32 no centre is clipped (`centre_mem`), and what remains of
the claim is an equation between the two sides of the input.
-/
import EdgeFrame.Api.FaceDetectWithMask
import EdgeFrame.Lib.Grid
import Mathlib

namespace EdgeFrame.Api

open Lib

variable {K : Type} [Field K] [LinearOrder K] [IsStrictOrderedRing K] [FloorRing K]

/-- A whole number is not truncated. -/
theorem truncate_natCast (n : Nat) : truncate (n : K) = n := by
  unfold truncate
  rw [if_neg (not_lt.mpr (Nat.cast_nonneg n)), Int.floor_natCast]

/-! ## The cells -/

omit [FloorRing K] in
/-- None of these sizes is the -1 that is skipped. -/
theorem filter_sizes {sizes : List K} (hsizes : ∀ m ∈ sizes, 0 < m) :
    sizes.filter (fun size => -1 ≠ size) = sizes := by
  rw [List.filter_eq_self]
  intro m hm
  have hpos := hsizes m hm
  simp only [decide_eq_true_eq]
  linarith

/-- The cells of one stride. -/
theorem mem_strideCells {height width : Nat} {sizes : List K} {s : Nat} (hs : 0 < s)
    (hsizes : ∀ m ∈ sizes, 0 < m) {c : Cell K} : c ∈ strideCells height width sizes (s : K) ↔
      c.step = s ∧ c.x < height ⌈/⌉ s ∧ c.y < width ⌈/⌉ s ∧ c.min_size ∈ sizes := by
  unfold strideCells
  simp only [Int.cast_natCast, ceil_natCast_div _ hs, filter_sizes hsizes, Int.toNat_natCast, List.mem_flatMap,
    List.mem_range, List.mem_map]
  constructor
  · rintro ⟨x, hx, y, hy, m, hm, rfl⟩
    exact ⟨rfl, hx, hy, hm⟩
  · rintro ⟨hstep, hx, hy, hm⟩
    exact ⟨c.x, hx, c.y, hy, c.min_size, hm, by rw [← hstep]⟩

/-- The cells of a stride are the rows times the columns times the sizes. -/
theorem length_strideCells {height width : Nat} {sizes : List K} {s : Nat} (hs : 0 < s)
    (hsizes : ∀ m ∈ sizes, 0 < m) : (strideCells height width sizes (s : K)).length =
      (height ⌈/⌉ s) * (width ⌈/⌉ s) * sizes.length := by
  unfold strideCells
  simp only [Int.cast_natCast, ceil_natCast_div _ hs, filter_sizes hsizes, Int.toNat_natCast, List.length_flatMap,
    List.length_map, List.map_const', List.length_range, List.sum_replicate, smul_eq_mul]
  ring

omit [IsStrictOrderedRing K] in
/-- The cells that the tables of the source give. -/
theorem generateCells_eq (height width : Int) : generateCells (K := K) height width min_s step_a =
    .ok (strideCells height width [((10 : Nat) : K), ((20 : Nat) : K)] ((8 : Nat) : K) ++
      (strideCells height width [((32 : Nat) : K), ((64 : Nat) : K)] ((16 : Nat) : K) ++
        strideCells height width [((128 : Nat) : K), ((256 : Nat) : K)] ((32 : Nat) : K))) := by
  have hlength : (min_s (K := K)).length = 3 ∧ (step_a (K := K)).length = 3 := ⟨rfl, rfl⟩
  unfold generateCells
  rw [hlength.1, hlength.2, if_neg (by decide), if_neg (by decide)]
  simp only [min_s, step_a, List.zip_cons_cons, List.zip_nil_left, List.flatMap_cons,
    List.flatMap_nil, List.append_nil]

omit [FloorRing K] in
/-- The sizes of a table are positive. -/
theorem sizes_pos {a b : Nat} (ha : 0 < a) (hb : 0 < b) : ∀ m ∈ [(a : K), (b : K)], 0 < m := by
  intro m hm
  rcases List.mem_cons.mp hm with rfl | hm
  · exact Nat.cast_pos.mpr ha
  · obtain rfl := List.mem_singleton.mp hm
    exact Nat.cast_pos.mpr hb

/-! ## Rows and anchors -/

/-- The number of anchors for an input of this size. -/
def anchorCount (height width : Nat) : Nat :=
  ((height ⌈/⌉ 8) * (width ⌈/⌉ 8) + (height ⌈/⌉ 16) * (width ⌈/⌉ 16) +
    (height ⌈/⌉ 32) * (width ⌈/⌉ 32)) * 2

/-- The number of rows of scores. -/
def rowCount (height width : Nat) : Nat :=
  ((height * width) ⌈/⌉ 64 + (height * width) ⌈/⌉ 256 + (height * width) ⌈/⌉ 1024) * 2

/-- What the constructor builds for an input of whole numbers. -/
theorem new_spec (height width : Nat) (only_top1 soft_nms : Bool) (ori_height ori_width : K) :
    ∃ D, FaceDetectWithMask.new (height : K) width only_top1 soft_nms ori_height ori_width = .ok D ∧
      D.dim_cls_1 = rowCount height width ∧
      D.priori_anchors_.length = anchorCount height width := by
  unfold FaceDetectWithMask.new prepare_generate_anchor generate_anchors
  simp only [truncate_natCast, generateCells_eq]
  refine ⟨_, rfl, ?_, ?_⟩
  · show (⌈(height : K) * width / (64 : Nat)⌉ + ⌈(height : K) * width / (256 : Nat)⌉ +
      ⌈(height : K) * width / (1024 : Nat)⌉) * 2 = ((rowCount height width : Nat) : Int)
    rw [← Nat.cast_mul, ceil_natCast_div _ (by decide), ceil_natCast_div _ (by decide),
      ceil_natCast_div _ (by decide)]
    unfold rowCount
    push_cast
    ring
  · show (List.map _ _).length = anchorCount height width
    rw [List.length_map, List.length_append, List.length_append,
      length_strideCells (by decide) (sizes_pos (by decide) (by decide)),
      length_strideCells (by decide) (sizes_pos (by decide) (by decide)),
      length_strideCells (by decide) (sizes_pos (by decide) (by decide))]
    unfold anchorCount
    simp only [List.length_cons, List.length_nil]
    ring

/-- **Rows and anchors** are as many exactly when, for each stride, the grid pads the input with less
than one cell.

The three strides are independent: each has at least as many anchors as rows, so that the sums agree
exactly when each pair does. -/
theorem anchor_count_iff (height width : Nat) (only_top1 soft_nms : Bool) (ori_height ori_width : K) :
    ∃ D, FaceDetectWithMask.new (height : K) width only_top1 soft_nms ori_height ori_width = .ok D ∧
      (D.dim_cls_1 = D.priori_anchors_.length ↔ ∀ s ∈ [8, 16, 32],
        (height ⌈/⌉ s * s) * (width ⌈/⌉ s * s) < height * width + s * s) := by
  obtain ⟨D, hok, hrows, hanchors⟩ :=
    new_spec height width only_top1 soft_nms ori_height ori_width
  refine ⟨D, hok, ?_⟩
  have h8 : (height * width) ⌈/⌉ 64 = (height ⌈/⌉ 8) * (width ⌈/⌉ 8) ↔ _ :=
    ceilDiv_area_eq_iff height width (s := 8) (by decide)
  have h16 : (height * width) ⌈/⌉ 256 = (height ⌈/⌉ 16) * (width ⌈/⌉ 16) ↔ _ :=
    ceilDiv_area_eq_iff height width (s := 16) (by decide)
  have h32 : (height * width) ⌈/⌉ 1024 = (height ⌈/⌉ 32) * (width ⌈/⌉ 32) ↔ _ :=
    ceilDiv_area_eq_iff height width (s := 32) (by decide)
  have hle8 : (height * width) ⌈/⌉ 64 ≤ _ := ceilDiv_area_le height width (s := 8) (by decide)
  have hle16 : (height * width) ⌈/⌉ 256 ≤ _ := ceilDiv_area_le height width (s := 16) (by decide)
  have hle32 : (height * width) ⌈/⌉ 1024 ≤ _ := ceilDiv_area_le height width (s := 32) (by decide)
  have hall : (∀ s ∈ [8, 16, 32],
      (height ⌈/⌉ s * s) * (width ⌈/⌉ s * s) < height * width + s * s) ↔
      (height * width) ⌈/⌉ 64 = (height ⌈/⌉ 8) * (width ⌈/⌉ 8) ∧
      (height * width) ⌈/⌉ 256 = (height ⌈/⌉ 16) * (width ⌈/⌉ 16) ∧
      (height * width) ⌈/⌉ 1024 = (height ⌈/⌉ 32) * (width ⌈/⌉ 32) := by
    rw [h8, h16, h32, List.forall_mem_cons, List.forall_mem_cons, List.forall_mem_singleton]
  rw [hall, hrows, hanchors, Nat.cast_inj, rowCount, anchorCount]
  omega

/-- An input of nine by nine pixels: twelve anchors, and scores for eight of them. -/
theorem nine_by_nine_miscounts : ∃ D,
    FaceDetectWithMask.new ((9 : Nat) : ℚ) (9 : Nat) false false 100 100 = .ok D ∧
      D.dim_cls_1 = 8 ∧ D.priori_anchors_.length = 12 := by
  obtain ⟨D, hok, hrows, hanchors⟩ := new_spec (K := ℚ) 9 9 false false 100 100
  exact ⟨D, hok, hrows.trans (by decide), hanchors.trans (by decide)⟩

/-- For the default input they are as many. -/
theorem anchor_count_iff_default : ∃ D,
    FaceDetectWithMask.new ((224 : Nat) : ℚ) (224 : Nat) false false 100 100 = .ok D ∧
      D.dim_cls_1 = D.priori_anchors_.length := by
  obtain ⟨D, hok, hiff⟩ := anchor_count_iff (K := ℚ) 224 224 false false 100 100
  exact ⟨D, hok, hiff.mpr (by decide)⟩

/-! ## Geometry -/

/-- The anchor of a cell as the decoder reads it: its first and third components are multiplied by
the width of the image, the other two by its height. -/
structure Cell.Decoded (height width : Nat) (c : Cell K) (a : Anchor K) : Prop where
  centre_x : a.c0 = (c.y + 1 / (2 : Nat)) * c.step / width
  centre_y : a.c1 = (c.x + 1 / (2 : Nat)) * c.step / height
  width : a.c2 = c.min_size / width
  height : a.c3 = c.min_size / height
  inside_x : 0 < a.c0 ∧ a.c0 < 1
  inside_y : 0 < a.c1 ∧ a.c1 < 1

/-- The centre of a cell lies inside an input that is cut into cells without a rest. -/
theorem centre_mem {size s i : Nat} (hs : 0 < s) (hdvd : s ∣ size) (hi : i < size ⌈/⌉ s) :
    0 < ((i : K) + 1 / (2 : Nat)) * s / size ∧ ((i : K) + 1 / (2 : Nat)) * s / size < 1 := by
  obtain ⟨k, rfl⟩ := hdvd
  have hk : (s * k) ⌈/⌉ s = k := smul_ceilDiv hs k
  rw [hk] at hi
  have hsK : (0 : K) < s := Nat.cast_pos.mpr hs
  have hkpos : 0 < k := by omega
  have hkK : (0 : K) < k := Nat.cast_pos.mpr hkpos
  have hiK : (i : K) + 1 ≤ k := by exact_mod_cast hi
  have hhalf : (1 : K) / (2 : Nat) < 1 := by norm_num
  constructor
  · push_cast
    positivity
  · push_cast at hhalf ⊢
    rw [div_lt_one (mul_pos hsK hkK), mul_comm]
    exact mul_lt_mul_of_pos_left (by linarith) hsK

/-- A cell of the tables of the source: its stride divides 32, and it lies in the grid. -/
theorem mem_generateCells {height width : Nat} {cells : List (Cell K)}
    (hcells : generateCells height width min_s step_a = .ok cells) {c : Cell K} (hc : c ∈ cells) :
    ∃ s : Nat, 0 < s ∧ s ∣ 32 ∧ c.step = s ∧ c.x < height ⌈/⌉ s ∧ c.y < width ⌈/⌉ s := by
  rw [generateCells_eq] at hcells
  obtain rfl := Except.ok.inj hcells
  rcases List.mem_append.mp hc with hc | hc
  · obtain ⟨hstep, hx, hy, -⟩ :=
      (mem_strideCells (by decide) (sizes_pos (by decide) (by decide))).mp hc
    exact ⟨8, by decide, by decide, hstep, hx, hy⟩
  · rcases List.mem_append.mp hc with hc | hc
    · obtain ⟨hstep, hx, hy, -⟩ :=
        (mem_strideCells (by decide) (sizes_pos (by decide) (by decide))).mp hc
      exact ⟨16, by decide, by decide, hstep, hx, hy⟩
    · obtain ⟨hstep, hx, hy, -⟩ :=
        (mem_strideCells (by decide) (sizes_pos (by decide) (by decide))).mp hc
      exact ⟨32, by decide, by decide, hstep, hx, hy⟩

/-- **The geometry of the anchors**: for an input whose sides are multiples of 32, the anchor of
every cell is the one that the decoder expects exactly when the input is square.

From left to right one cell whose width is positive is enough. -/
theorem anchor_geometry_iff (height width : Nat) (hh : 0 < height) (hw : 0 < width)
    (hheight : 32 ∣ height) (hwidth : 32 ∣ width) :
    ∃ cells : List (Cell K), generateCells height width min_s step_a = .ok cells ∧
      prepare_generate_anchor height width = .ok (cells.map (Cell.anchor height width)) ∧
      ((∀ c ∈ cells, c.Decoded height width (c.anchor height width)) ↔ height = width) := by
  have hcells := generateCells_eq (K := K) height width
  refine ⟨_, hcells, ?_, ?_⟩
  · unfold prepare_generate_anchor generate_anchors
    rw [hcells]
    rfl
  · constructor
    · -- the first cell tells the two sides apart
      intro h
      have hfirst : (⟨(8 : Nat), 0, 0, (10 : Nat)⟩ : Cell K) ∈
          strideCells height width [((10 : Nat) : K), ((20 : Nat) : K)] ((8 : Nat) : K) := by
        refine (mem_strideCells (by decide) (sizes_pos (by decide) (by decide))).mpr
          ⟨rfl, ?_, ?_, List.mem_cons_self⟩
        · rw [Nat.pos_iff_ne_zero, Ne, ← Nat.le_zero, ceilDiv_le_iff_le_mul (by decide)]
          omega
        · rw [Nat.pos_iff_ne_zero, Ne, ← Nat.le_zero, ceilDiv_le_iff_le_mul (by decide)]
          omega
      have hsize : ((10 : Nat) : K) / (height : Int) = (10 : Nat) / width :=
        (h _ (List.mem_append_left _ hfirst)).width
      have hne : ((10 : Nat) : K) ≠ 0 := by norm_num
      have hhK : (height : K) ≠ 0 := Nat.cast_ne_zero.mpr hh.ne'
      have hwK : (width : K) ≠ 0 := Nat.cast_ne_zero.mpr hw.ne'
      rw [Int.cast_natCast, div_eq_div_iff hhK hwK] at hsize
      exact_mod_cast (mul_left_cancel₀ hne hsize).symm
    · rintro rfl c hc
      obtain ⟨s, hs, hdvd, hstep, hx, hy⟩ := mem_generateCells hcells hc
      have hcx := centre_mem (K := K) hs (hdvd.trans hheight) hx
      have hcy := centre_mem (K := K) hs (hdvd.trans hheight) hy
      constructor
      · simp [Cell.anchor]
      · simp [Cell.anchor]
      · simp [Cell.anchor]
      · simp [Cell.anchor]
      · simpa [Cell.anchor, hstep] using hcy
      · simpa [Cell.anchor, hstep] using hcx

/-- An input twice as wide as high: the first anchor is as wide as it should be high. -/
theorem wide_input_swaps_anchor : ∃ cells : List (Cell ℚ),
    generateCells (32 : Nat) (64 : Nat) min_s step_a = .ok cells ∧
      ¬ ∀ c ∈ cells, c.Decoded 32 64 (c.anchor (32 : Nat) (64 : Nat)) := by
  have hcells := generateCells_eq (K := ℚ) (32 : Nat) (64 : Nat)
  refine ⟨_, hcells, ?_⟩
  intro h
  have hfirst : (⟨(8 : Nat), 0, 0, (10 : Nat)⟩ : Cell ℚ) ∈
      strideCells (32 : Nat) (64 : Nat) [((10 : Nat) : ℚ), ((20 : Nat) : ℚ)] ((8 : Nat) : ℚ) :=
    (mem_strideCells (by decide) (sizes_pos (by decide) (by decide))).mpr
      ⟨rfl, by decide, by decide, List.mem_cons_self⟩
  have hsize := (h _ (List.mem_append_left _ hfirst)).width
  norm_num [Cell.anchor] at hsize

/-- A square input. -/
theorem anchor_geometry_iff_square : ∃ cells : List (Cell ℚ),
    generateCells (32 : Nat) (32 : Nat) min_s step_a = .ok cells ∧
      ∀ c ∈ cells, c.Decoded 32 32 (c.anchor (32 : Nat) (32 : Nat)) := by
  obtain ⟨cells, hcells, -, hiff⟩ := anchor_geometry_iff (K := ℚ) 32 32 (by decide) (by decide)
    (by decide) (by decide)
  exact ⟨cells, hcells, hiff.mpr rfl⟩

end EdgeFrame.Api
