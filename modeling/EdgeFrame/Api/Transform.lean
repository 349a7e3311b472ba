/-
# EdgeFrame.Api.Transform -- from interleaved to planar

`Detect::input_transform` copies an image of three bytes a pixel into the input of the
network: a pointer runs through the bytes, blue, green and red, and each value goes to
the plane of its colour, red first. The indexes of the storage are written once each,
whatever the height and the width.

The model carries what the statement is about: the list of the indexes that were written,
in order. `Copied` says that after `n` pixels these are the three indexes of each of them,
and that the planes hold their values; `putPixel_copied` is the step, and a row and the image
are folds of it. That the list of all pixels is a permutation of the indexes
(`writtenFor_perm`) is arithmetic of three planes of one size. An index or a
pointer outside its vector is an error, so that a call that returns has used none.
-/
import EdgeFrame.Api.SetJson
import EdgeFrame.Lib.Buffers
import EdgeFrame.Lib.Bytes
import EdgeFrame.Lib.Loops
import Mathlib

namespace EdgeFrame.Api

open Lib
open scoped List

/-- The memory that `input_transform` reads and writes. -/
inductive Storage where
  | image
  | input_data
  deriving DecidableEq, Repr

variable {K : Type}

/-! ## The loops -/

/-- `ProcessFactory::setShape`: the storage `pre_data_` after its `resize`. -/
def setShape [Zero K] (pre_data_ : List K) (input_height input_width : Nat) :
    Except (Fault Storage) (List K) := do
  let size ← int32 (input_height * input_width * 3)
  .ok (pre_data_.take size ++ List.replicate (size - pre_data_.length) 0)

/-- Where the loops are: the storage, the index of `src_ptr` in the image, and for the statements
about it the indexes that have been written. -/
structure Copying (K : Type) where
  input_data : Buffer K
  src_ptr : Nat
  wrote : List Nat

section

variable [Field K] (image : Bytes) (means : Fin 3 → K)

/-- The value of a byte: `(*src_ptr - mean) * 3.921e-3`. -/
def normalized (mean : K) (b : UInt8) : K :=
  ((b.toNat : K) - mean) * ((3921 : Nat) / (1000000 : Nat))

/-- One assignment, and `src_ptr++`. -/
def put (mean : K) (index : Nat) (s : Copying K) : Except (Fault Storage) (Copying K) := do
  let index ← int32 index
  let b ← peek .image (written image) s.src_ptr
  let input_data ← poke .input_data s.input_data index (normalized mean b)
  .ok { input_data, src_ptr := s.src_ptr + 1, wrote := s.wrote ++ [index] }

/-- The body of the inner loop. -/
def putPixel (hw img_w h w : Nat) (s : Copying K) : Except (Fault Storage) (Copying K) := do
  let s ← put image (means 0) (2 * hw + h * img_w + w) s
  let s ← put image (means 1) (1 * hw + h * img_w + w) s
  put image (means 2) (h * img_w + w) s

/-- `Detect::input_transform`. -/
def input_transform (input_data : Buffer K) (img_h img_w : Nat) :
    Except (Fault Storage) (Copying K) := do
  let hw ← int32 (img_h * img_w)
  (List.range img_h).foldlM
    (fun s h => (List.range img_w).foldlM (fun s w => putPixel image means hw img_w h w s) s)
    { input_data, src_ptr := 0, wrote := [] }

end

/-- The initial `means` of a `Detect`. -/
def detectMeans [Field K] : Fin 3 → K := fun _ => (128 : Nat)

/-- An image of three bytes a pixel. -/
structure Picture where
  rows : Nat
  cols : Nat
  data : Bytes

/-- `Detect::preProcess`: `image_h` and `image_w`, and the input of the network; `resize` is OpenCV's,
to a width and a height. -/
def preProcess [Field K] (resize : Picture → Nat → Nat → Picture) (pre_data_ : List K)
    (input_height_ input_width_ : Nat) (image : Picture) :
    Except (Fault Storage) (Nat × Nat × Copying K) := do
  let img := resize image input_width_ input_height_
  let s ← input_transform img.data detectMeans (written pre_data_) input_height_ input_width_
  .ok (image.rows, image.cols, s)

/-! ## The storage -/

/-- `setShape` returns while the number of values is an `int`, and then there is room for them. -/
theorem setShape_spec [Zero K] {held pre_data : List K} {input_height input_width : Nat}
    (h : setShape held input_height input_width = .ok pre_data) :
    pre_data.length = 3 * (input_height * input_width) ∧ 3 * (input_height * input_width) < 2 ^ 31 := by
  unfold setShape int32 at h
  by_cases hsize : input_height * input_width * 3 < 2 ^ 31
  · rw [if_pos hsize] at h
    cases h
    constructor
    · rw [List.length_append, List.length_take, List.length_replicate]
      omega
    · omega
  · rw [if_neg hsize] at h
    cases h

/-- The size is the one of the model of the detector. -/
theorem setShape_size [Zero K] {held pre_data : List K} {input_height input_width : Nat}
    (h : setShape held input_height input_width = .ok pre_data) (D : Detector K) :
    pre_data.length = (D.setShape input_height input_width).pre_data_size := by
  have hsize : ((input_height : Int) * input_width * 3).toNat = input_height * input_width * 3 := by
    exact_mod_cast Int.toNat_natCast (input_height * input_width * 3)
  rw [(setShape_spec h).1, Detector.setShape, hsize]
  exact Nat.mul_comm 3 _

/-! ## The invariant -/

/-- The indexes written for the first `n` pixels, in order. -/
def writtenFor (hw n : Nat) : List Nat :=
  (List.range n).flatMap fun m => [2 * hw + m, hw + m, m]

/-- **All indexes, once each**: after the last pixel every index of the three planes is written. -/
theorem writtenFor_perm (hw : Nat) : (writtenFor hw hw).Perm (List.range (3 * hw)) := by
  have hplanes : List.range (3 * hw) = List.range hw ++
      ((List.range hw).map (hw + ·) ++ (List.range hw).map (2 * hw + ·)) := by
    rw [show 3 * hw = hw + hw + hw by omega, List.range_add, List.range_add, List.append_assoc,
      show hw + hw = 2 * hw by omega]
  have hmap : ∀ f : Nat → Nat, ((List.range hw).flatMap fun m => [f m]) = (List.range hw).map f :=
    fun f => List.flatMap_pure_eq_map f _
  have hred := List.flatMap_append_perm (List.range hw) (fun m => [hw + m]) fun m => [m]
  have hblue := List.flatMap_append_perm (List.range hw) (fun m => [2 * hw + m])
    fun m => [hw + m] ++ [m]
  rw [hmap, List.flatMap_singleton'] at hred
  rw [hmap] at hblue
  rw [hplanes]
  calc writtenFor hw hw
      ~ (List.range hw).map (2 * hw + ·) ++
          (List.range hw).flatMap (fun m => [hw + m] ++ [m]) := hblue.symm
    _ ~ (List.range hw).map (2 * hw + ·) ++ ((List.range hw).map (hw + ·) ++ List.range hw) :=
        hred.symm.append_left _
    _ ~ (List.range hw).map (hw + ·) ++ List.range hw ++ (List.range hw).map (2 * hw + ·) :=
        List.perm_append_comm
    _ ~ List.range hw ++ (List.range hw).map (hw + ·) ++ (List.range hw).map (2 * hw + ·) :=
        List.perm_append_comm.append_right _
    _ ~ _ := by rw [List.append_assoc]

section

variable [Field K] (image : Bytes) (means : Fin 3 → K)

/-- The value that belongs at pixel `m` of plane `p`: byte `2 - p` of the pixel, with its mean. -/
def planeValue (p : Fin 3) (m : Nat) : Option K :=
  (image[3 * m + p.rev]?).map fun b => normalized (means p.rev) b

/-- The first `n` pixels have been copied.

The pointer stands behind them, and what has been written is their indexes, in order. -/
structure Copied (hw n : Nat) (s : Copying K) : Prop where
  length_eq : s.input_data.length = 3 * hw
  src_ptr_eq : s.src_ptr = 3 * n
  wrote_eq : s.wrote = writtenFor hw n
  value_eq : ∀ (p : Fin 3) (m : Nat), m < n →
    s.input_data[p * hw + m]? = some (planeValue image means p m)

variable {image means}

/-- An assignment with its index and its pointer in their ranges.

Outside of them the model stops, so that a call that returns has used none. -/
theorem put_spec {mean : K} {index : Nat} {s : Copying K} {b : UInt8} (hint : index < 2 ^ 31)
    (hindex : index < s.input_data.length) (hb : image[s.src_ptr]? = some b) :
    ∃ s', put image mean index s = .ok s' ∧
      s'.input_data = s.input_data.set index (some (normalized mean b)) ∧
      s'.src_ptr = s.src_ptr + 1 ∧ s'.wrote = s.wrote ++ [index] := by
  have hpeek := peek_written Storage.image [] hb
  rw [List.append_nil] at hpeek
  refine ⟨{ input_data := s.input_data.set index (some (normalized mean b))
            src_ptr := s.src_ptr + 1, wrote := s.wrote ++ [index] }, ?_, rfl, rfl, rfl⟩
  simp only [put, int32, if_pos hint, bind, Except.bind, hpeek, poke, if_pos hindex]

omit [Field K] in
/-- Three assignments, one into each plane: they meet no other pixel, and not each other. -/
theorem getElem?_planes {hw n m : Nat} {l : Buffer K} (hl : l.length = 3 * hw) (hn : n < hw)
    (hm : m < hw) (colour : Fin 3 → Option K) (p : Fin 3) :
    (((l.set (2 * hw + n) (colour 2)).set (hw + n) (colour 1)).set n (colour 0))[p * hw + m]? =
      if m = n then some (colour p) else l[p * hw + m]? := by
  simp only [List.getElem?_set, List.length_set, hl]
  obtain ⟨p, hp⟩ := p
  interval_cases p
  · simp only [Fin.zero_eta, Nat.zero_mul, Nat.zero_add, Fin.isValue]
    split_ifs <;> first | rfl | omega
  · simp only [Fin.mk_one, Nat.one_mul, Fin.isValue]
    split_ifs <;> first | rfl | omega
  · simp only [Fin.reduceFinMk, Fin.isValue]
    split_ifs <;> first | rfl | omega

/-- A byte of a pixel, as the value of its plane. -/
theorem planeValue_eq {p k : Fin 3} {n : Nat} {b : UInt8} (hp : p.rev = k)
    (hb : image[3 * n + k]? = some b) :
    planeValue image means p n = some (normalized (means k) b) := by
  rw [planeValue, hp, hb]
  rfl

/-- **One pixel**: the three assignments write its value into each of the planes.

The pointer has moved on by three, past blue, green and red; the planes are written from the last to
the first. -/
theorem putPixel_copied {hw img_w h w : Nat} {s : Copying K} (himage : image.length = 3 * hw)
    (hfits : 3 * hw < 2 ^ 31) (hn : h * img_w + w < hw)
    (hs : Copied image means hw (h * img_w + w) s) :
    ∃ s', putPixel image means hw img_w h w s = .ok s' ∧
      Copied image means hw (h * img_w + w + 1) s' := by
  rw [putPixel, Nat.one_mul, Nat.add_assoc (2 * hw), Nat.add_assoc hw]
  generalize h * img_w + w = n at hn hs ⊢
  have hlen := hs.length_eq
  have hsrc := hs.src_ptr_eq
  -- the image has three bytes for this pixel
  obtain ⟨blue, hblue⟩ : ∃ b, image[3 * n]? = some b := ⟨_, List.getElem?_eq_getElem (by omega)⟩
  obtain ⟨green, hgreen⟩ : ∃ b, image[3 * n + 1]? = some b :=
    ⟨_, List.getElem?_eq_getElem (by omega)⟩
  obtain ⟨red, hred⟩ : ∃ b, image[3 * n + 2]? = some b := ⟨_, List.getElem?_eq_getElem (by omega)⟩
  -- the three assignments, blue first
  obtain ⟨s₁, hput₁, hdata₁, hptr₁, hwrote₁⟩ : ∃ s₁, put image (means 0) (2 * hw + n) s = .ok s₁ ∧ _ :=
    put_spec (by omega) (by omega) (by rw [hsrc]; exact hblue)
  obtain ⟨s₂, hput₂, hdata₂, hptr₂, hwrote₂⟩ : ∃ s₂, put image (means 1) (hw + n) s₁ = .ok s₂ ∧ _ :=
    put_spec (by omega) (by rw [hdata₁, List.length_set]; omega) (by rw [hptr₁, hsrc]; exact hgreen)
  obtain ⟨s₃, hput₃, hdata₃, hptr₃, hwrote₃⟩ : ∃ s₃, put image (means 2) n s₂ = .ok s₃ ∧ _ :=
    put_spec (by omega) (by rw [hdata₂, hdata₁, List.length_set, List.length_set]; omega)
      (by rw [hptr₂, hptr₁, hsrc]; exact hred)
  have hrun : (do
      let s ← put image (means 0) (2 * hw + n) s
      let s ← put image (means 1) (hw + n) s
      put image (means 2) n s) = .ok s₃ := by
    simp only [bind, Except.bind, hput₁, hput₂, hput₃]
  refine ⟨s₃, hrun, ?_⟩
  -- the index in the image and the index in the planes go in opposite orders
  have hdata : s₃.input_data = ((s.input_data.set (2 * hw + n) (planeValue image means 2 n)).set
      (hw + n) (planeValue image means 1 n)).set n (planeValue image means 0 n) := by
    rw [hdata₃, hdata₂, hdata₁, planeValue_eq (show Fin.rev 2 = 0 from rfl) hblue,
      planeValue_eq (show Fin.rev 1 = 1 from rfl) hgreen,
      planeValue_eq (show Fin.rev 0 = 2 from rfl) hred]
  constructor
  case length_eq =>
    rw [hdata, List.length_set, List.length_set, List.length_set]
    exact hlen
  case src_ptr_eq =>
    rw [hptr₃, hptr₂, hptr₁, hsrc]
    omega
  case wrote_eq =>
    rw [hwrote₃, hwrote₂, hwrote₁, hs.wrote_eq, writtenFor, writtenFor, List.range_succ,
      List.flatMap_append, List.flatMap_singleton, List.append_assoc, List.append_assoc]
    rfl
  case value_eq =>
    intro p m hm
    rw [hdata, getElem?_planes hlen hn (by omega) (fun p => planeValue image means p n) p]
    -- the pixel itself, or one that was copied before
    by_cases hmn : m = n
    · rw [if_pos hmn, hmn]
    · rw [if_neg hmn]
      exact hs.value_eq p m (by omega)

/-! ## The image -/

/-- One row. -/
theorem row_copied {img_h img_w h : Nat} {s : Copying K}
    (himage : image.length = 3 * (img_h * img_w)) (hfits : 3 * (img_h * img_w) < 2 ^ 31)
    (hh : h < img_h) (hs : Copied image means (img_h * img_w) (h * img_w) s) :
    ∃ s', (List.range img_w).foldlM
        (fun s w => putPixel image means (img_h * img_w) img_w h w s) s = .ok s' ∧
      Copied image means (img_h * img_w) ((h + 1) * img_w) s' := by
  have hrow : (h + 1) * img_w ≤ img_h * img_w := Nat.mul_le_mul_right img_w hh
  rw [Nat.succ_mul] at hrow ⊢
  exact foldlM_range_induction (I := fun w s => Copied image means (img_h * img_w) (h * img_w + w) s)
    hs fun w s hw hs => putPixel_copied himage hfits (by omega) hs

/-- **The loops** copy every pixel of an image that has as many as the storage. -/
theorem input_transform_copied {input_data : Buffer K} {img_h img_w : Nat}
    (himage : image.length = 3 * (img_h * img_w)) (hdata : input_data.length = 3 * (img_h * img_w))
    (hfits : 3 * (img_h * img_w) < 2 ^ 31) :
    ∃ s, input_transform image means input_data img_h img_w = .ok s ∧
      Copied image means (img_h * img_w) (img_h * img_w) s := by
  have hinit : Copied image means (img_h * img_w) (0 * img_w) ⟨input_data, 0, []⟩ := by
    constructor
    case length_eq => exact hdata
    case src_ptr_eq => simp
    case wrote_eq => simp [writtenFor]
    case value_eq =>
      intro p m hm
      rw [Nat.zero_mul] at hm
      cases hm
  rw [input_transform, int32, if_pos (by omega)]
  exact foldlM_range_induction (I := fun h s => Copied image means (img_h * img_w) (h * img_w) s)
    hinit fun h s hh hs => row_copied himage hfits hh hs

end

/-- **The transform** of an image of three bytes a pixel into the storage that `setShape` has made
for its height and width returns; it has written every index of the storage once and no other, and at
plane `p`, row `h` and column `w` there is byte `2 - p` of the pixel, less the mean that belongs to
the byte and scaled: blue, green and red become the planes of red, green and blue.

It is `input_transform_copied` after the last pixel, together with `writtenFor_perm`. -/
theorem input_transform_planar [Field K] (image : Bytes) (means : Fin 3 → K) (held pre_data_ : List K)
    (img_h img_w : Nat) (himage : image.length = 3 * (img_h * img_w))
    (hshape : setShape held img_h img_w = .ok pre_data_) :
    ∃ s, input_transform image means (written pre_data_) img_h img_w = .ok s ∧
      s.input_data.length = 3 * (img_h * img_w) ∧
      s.wrote.Perm (List.range (3 * (img_h * img_w))) ∧
      ∀ (p : Fin 3) (h w : Nat), h < img_h → w < img_w →
        ∃ b, image[3 * (h * img_w + w) + p.rev]? = some b ∧
          s.input_data[p * (img_h * img_w) + (h * img_w + w)]? =
            some (some (normalized (means p.rev) b)) := by
  obtain ⟨hsize, hfits⟩ := setShape_spec hshape
  obtain ⟨s, hrun, hcopied⟩ := @input_transform_copied K _ image means _ _ _ himage
    (by rw [length_written]; exact hsize) hfits
  refine ⟨s, hrun, hcopied.length_eq, ?_, ?_⟩
  · rw [hcopied.wrote_eq]
    exact writtenFor_perm _
  · intro p h w hh hw
    have hrow : (h + 1) * img_w ≤ img_h * img_w := Nat.mul_le_mul_right img_w hh
    rw [Nat.succ_mul] at hrow
    have hlt : h * img_w + w < img_h * img_w := by omega
    have hp := p.rev.isLt
    obtain ⟨b, hb⟩ : ∃ b, image[3 * (h * img_w + w) + p.rev]? = some b :=
      ⟨_, List.getElem?_eq_getElem (by omega)⟩
    exact ⟨b, hb, by rw [hcopied.value_eq p _ hlt, planeValue_eq rfl hb]⟩

/-- Two pixels: the six indexes are written once each. -/
theorem input_transform_planar_pair :
    setShape ([] : List ℚ) 1 2 = .ok (List.replicate 6 0) ∧
      ∃ s, input_transform [1, 2, 3, 4, 5, 6] detectMeans (written (List.replicate 6 (0 : ℚ))) 1 2 =
          .ok s ∧ s.wrote.Perm (List.range 6) := by
  have hshape : setShape ([] : List ℚ) 1 2 = .ok (List.replicate 6 0) := rfl
  obtain ⟨s, hrun, _, hwrote, _⟩ :=
    input_transform_planar [1, 2, 3, 4, 5, 6] detectMeans [] _ 1 2 rfl hshape
  exact ⟨hshape, s, hrun, hwrote⟩

/-- A picture of any size is brought into the storage, once it has been resized to its shape. -/
theorem preProcess_returns [Field K] {resize : Picture → Nat → Nat → Picture} {held pre_data_ : List K}
    {input_height_ input_width_ : Nat} (image : Picture)
    (hresize : (resize image input_width_ input_height_).data.length =
      3 * (input_height_ * input_width_))
    (hshape : setShape held input_height_ input_width_ = .ok pre_data_) :
    ∃ s, preProcess resize pre_data_ input_height_ input_width_ image =
        .ok (image.rows, image.cols, s) ∧
      s.wrote.Perm (List.range (3 * (input_height_ * input_width_))) := by
  obtain ⟨hsize, hfits⟩ := setShape_spec hshape
  obtain ⟨s, hrun, hcopied⟩ := @input_transform_copied K _ _ detectMeans _ _ _
    hresize (by rw [length_written]; exact hsize) hfits
  refine ⟨s, ?_, ?_⟩
  · rw [preProcess, hrun]
    rfl
  · rw [hcopied.wrote_eq]
    exact writtenFor_perm _

end EdgeFrame.Api
