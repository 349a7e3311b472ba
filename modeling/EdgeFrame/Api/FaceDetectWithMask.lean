/-
# EdgeFrame.Api.FaceDetectWithMask -- the mask face detector

The constructor lays a grid of anchors over the input for each of three strides, and
`postProcess` turns the four output blobs of the network into faces: it orders the
anchors whose face score is above the threshold in a map, decodes the best of them,
and walks twice nested over the boxes to drop those that are too small or that a
better box suppresses. Arithmetic is exact, `exp` a parameter.

The flags of the dropped boxes are an array of the source; here they are a function of
the index. `Suppression` also records which box dropped which, for the statements about
the loops.
-/
import EdgeFrame.Abort
import EdgeFrame.Lib.FallingMap
import Mathlib

namespace EdgeFrame.Api

open Lib

variable {K : Type}

/-! ## Data -/

/-- An entry of `priori_anchors_`, by its four components. -/
structure Anchor (K : Type) where
  c0 : K
  c1 : K
  c2 : K
  c3 : K
  deriving DecidableEq, Repr

/-- The six numbers of a box in `bboxes_`. -/
structure Candidate (K : Type) where
  x1 : K
  y1 : K
  x2 : K
  y2 : K
  score : K
  dex : Nat
  deriving DecidableEq, Repr

/-- The members of a `Box` that `postProcess` sets. -/
structure MaskBox (K : Type) where
  x0 : K
  y0 : K
  x1 : K
  y1 : K
  score : K
  with_mask : Bool
  points : List (K × K)
  deriving DecidableEq, Repr

/-- The members of a `FaceDetectWithMask`; `dim_cls_1` is `dim_cls[1]`. -/
structure FaceDetectWithMask (K : Type) where
  only_top1_ : Bool
  soft_nms_ : Bool
  input_height_ : Int
  input_width_ : Int
  dim_cls_1 : Int
  priori_anchors_ : List (Anchor K)
  ori_height_ : K
  ori_width_ : K

def kMaxFaceDetNum : Nat := 48

section

variable [Field K]

def score_threshold_ : K := (5 : Nat) / (10 : Nat)

def mask_threshold_ : K := (52 : Nat) / (100 : Nat)

def nms_threshold_ : K := (6 : Nat) / (10 : Nat)

def least_percent_of_edge_ : K := (5 : Nat) / (100 : Nat)

end

/-! ## The anchors -/

/-- What the four loops of `generate_anchors` range over: a stride, a row, a column and a size. -/
structure Cell (K : Type) where
  step : K
  x : Nat
  y : Nat
  min_size : K
  deriving DecidableEq, Repr

section

variable [Field K] [LinearOrder K]

/-- What the body of the loops pushes; `x` is the row, `y` the column. -/
def Cell.anchor (input_height_ input_width_ : Int) (c : Cell K) : Anchor K where
  c0 := (c.y + 1 / (2 : Nat)) * c.step / input_height_
  c1 := (c.x + 1 / (2 : Nat)) * c.step / input_width_
  c2 := c.min_size / input_height_
  c3 := c.min_size / input_width_

variable [FloorRing K]

/-- The loops of `generate_anchors` over the rows, the columns and the sizes, for one stride. -/
def strideCells (input_height_ input_width_ : Int) (min_tmp : List K) (step : K) : List (Cell K) :=
  let x_tmp := ⌈(input_height_ : K) / step⌉
  let y_tmp := ⌈(input_width_ : K) / step⌉
  (List.range x_tmp.toNat).flatMap fun x =>
    (List.range y_tmp.toNat).flatMap fun y =>
      (min_tmp.filter fun size => -1 ≠ size).map fun size => ⟨step, x, y, size⟩

/-- `generate_anchors`, with its `LOG(FATAL)`: the cells in the order of the loops. -/
def generateCells (input_height_ input_width_ : Int) (min_sizes : List (List K)) (steps : List K) :
    Except Abort (List (Cell K)) :=
  if min_sizes.length < 1 ∨ steps.length < 1 then .error .assertion
  else if min_sizes.length ≠ steps.length then .error .assertion
  else .ok ((min_sizes.zip steps).flatMap fun level =>
    strideCells input_height_ input_width_ level.1 level.2)

def generate_anchors (input_height_ input_width_ : Int) (min_sizes : List (List K))
    (steps : List K) : Except Abort (List (Anchor K)) := do
  let cells ← generateCells input_height_ input_width_ min_sizes steps
  return cells.map (Cell.anchor input_height_ input_width_)

/-- The table `min_s` of `prepare_generate_anchor`. -/
def min_s : List (List K) :=
  [[(10 : Nat), (20 : Nat)], [(32 : Nat), (64 : Nat)], [(128 : Nat), (256 : Nat)]]

/-- Its table `step_a`. -/
def step_a : List K := [(8 : Nat), (16 : Nat), (32 : Nat)]

def prepare_generate_anchor (input_height_ input_width_ : Int) : Except Abort (List (Anchor K)) :=
  generate_anchors input_height_ input_width_ min_s step_a

/-- The conversion of a `float` to an `int`. -/
def truncate (x : K) : Int := if x < 0 then ⌈x⌉ else ⌊x⌋

/-- The constructor; the size of the image is not known yet. -/
def FaceDetectWithMask.new (height width : K) (only_top1 soft_nms : Bool) (ori_height ori_width : K) :
    Except Abort (FaceDetectWithMask K) := do
  let input_height_ := truncate height
  let input_width_ := truncate width
  let priori_anchors_ ← prepare_generate_anchor input_height_ input_width_
  let rect_area := height * width
  let feature_size := (⌈rect_area / (64 : Nat)⌉ + ⌈rect_area / (256 : Nat)⌉ +
    ⌈rect_area / (1024 : Nat)⌉) * 2
  return {
    only_top1_ := only_top1
    soft_nms_ := soft_nms
    input_height_ := input_height_
    input_width_ := input_width_
    dim_cls_1 := feature_size
    priori_anchors_ := priori_anchors_
    ori_height_ := ori_height
    ori_width_ := ori_width }

/-- What `preProcess` notes of the image. -/
def FaceDetectWithMask.preProcess (D : FaceDetectWithMask K) (rows cols : Int) :
    FaceDetectWithMask K :=
  { D with ori_height_ := rows, ori_width_ := cols }

end

/-! ## Selection -/

section

variable [Field K] [LinearOrder K]

/-- The score of row `i` for the class "face". -/
def faceScore (cls_point : Nat → K) (i : Nat) : K := cls_point (i * 2 + 1)

/-- `filtered_score_and_dex`, after the loop over the rows; `std::greater` orders it by falling
scores. -/
def filtered_score_and_dex (D : FaceDetectWithMask K) (cls_point : Nat → K) : List (K × Nat) :=
  (List.range D.dim_cls_1.toNat).foldl (fun m i =>
    if score_threshold_ < faceScore cls_point i then insertNew (faceScore cls_point i) i m else m) []

/-- `max_num`, for a map of this size. -/
def FaceDetectWithMask.max_num (D : FaceDetectWithMask K) (size : Nat) : Nat :=
  min (if D.only_top1_ then 1 else size) kMaxFaceDetNum

/-- The scores and the anchors that `postProcess` decodes, in the order of the map. -/
def selected (D : FaceDetectWithMask K) (cls_point : Nat → K) : List (K × Nat) :=
  (filtered_score_and_dex D cls_point).take
    (D.max_num (filtered_score_and_dex D cls_point).length)

/-- The body of the loop that decodes the boxes. -/
def FaceDetectWithMask.decode (D : FaceDetectWithMask K) (exp : K → K) (box_point : Nat → K)
    (score : K) (dex : Nat) (anchor : Anchor K) : Candidate K :=
  let x1 := box_point (dex * 4) * (1 / (10 : Nat)) * anchor.c2 + anchor.c0
  let y1 := box_point (dex * 4 + 1) * (1 / (10 : Nat)) * anchor.c3 + anchor.c1
  let x2 := anchor.c2 * exp (1 / (5 : Nat) * box_point (dex * 4 + 2))
  let y2 := anchor.c3 * exp (1 / (5 : Nat) * box_point (dex * 4 + 3))
  let x1 := x1 - x2 / (2 : Nat)
  let y1 := y1 - y2 / (2 : Nat)
  let x2 := x2 + x1
  let y2 := y2 + y1
  ⟨x1 * D.ori_width_, y1 * D.ori_height_, x2 * D.ori_width_, y2 * D.ori_height_, score, dex⟩

/-- The candidates in `bboxes_`. -/
def candidates (exp : K → K) (D : FaceDetectWithMask K) (box_point cls_point : Nat → K) :
    Except Abort (List (Candidate K)) :=
  (selected D cls_point).mapM fun p =>
    match D.priori_anchors_[p.2]? with
    | none => .error .outOfRange
    | some anchor => .ok (D.decode exp box_point p.1 p.2 anchor)

/-! ## Suppression -/

def clip_label_value (x high : K) : K := if x < 0 then 0 else if high ≤ x then high else x

/-- The corners of a candidate, clipped to the image. -/
structure Clipped (K : Type) where
  x1 : K
  y1 : K
  x2 : K
  y2 : K
  deriving DecidableEq, Repr

def Candidate.clipped (c : Candidate K) (D : FaceDetectWithMask K) : Clipped K where
  x1 := clip_label_value c.x1 D.ori_width_
  y1 := clip_label_value c.y1 D.ori_height_
  x2 := clip_label_value c.x2 D.ori_width_
  y2 := clip_label_value c.y2 D.ori_height_

def Clipped.w (b : Clipped K) : K := b.x2 - b.x1 + 1

def Clipped.h (b : Clipped K) : K := b.y2 - b.y1 + 1

/-- `h1 < ori_height_ * least_percent_of_edge_ || w1 < ori_width_ * least_percent_of_edge_`. -/
def FaceDetectWithMask.tooSmall (D : FaceDetectWithMask K) (b : Clipped K) : Bool :=
  b.h < D.ori_height_ * least_percent_of_edge_ || b.w < D.ori_width_ * least_percent_of_edge_

/-- `ymax - ymin + 1` of two boxes; it is negative when they are apart. -/
def extentY (a b : Clipped K) : K := min a.y2 b.y2 - max a.y1 b.y1 + 1

/-- `xmax - xmin + 1` of two boxes. -/
def extentX (a b : Clipped K) : K := min a.x2 b.x2 - max a.x1 b.x1 + 1

/-- The product `s` of the two extents. -/
def extentProduct (a b : Clipped K) : K := extentY a b * extentX a b

/-- The denominator `s1 + s2 - s`. -/
def ratioDenominator (a b : Clipped K) : K := a.w * a.h + b.w * b.h - extentProduct a b

/-- `ratio >= nms_threshold_`; by a denominator 0 a positive `s` gives an infinite ratio. -/
def overlaps (a b : Clipped K) : Bool :=
  if ratioDenominator a b = 0 then 0 < extentProduct a b
  else nms_threshold_ ≤ extentProduct a b / ratioDenominator a b

/-- `exp(-2 * ratio * ratio)`, which is 0 for an infinite ratio. -/
def decay (exp : K → K) (a b : Clipped K) : K :=
  if ratioDenominator a b = 0 then 0
  else
    let ratio := extentProduct a b / ratioDenominator a b
    exp (-(2 : Nat) * ratio * ratio)

/-- What the two loops write, and the pairs `(i, j)` for which hard suppression has set
`drop_flag[j]`. -/
structure Suppression (K : Type) where
  bboxes_ : List (Candidate K)
  drop_flag : Nat → Bool
  suppressed : List (Nat × Nat)

/-- Set a flag. -/
def Suppression.drop (st : Suppression K) (i : Nat) : Suppression K :=
  { st with drop_flag := Function.update st.drop_flag i true }

/-- The end of the inner loop's body: `a` and `b` are the clipped boxes of the candidates `i` and
`j`, `c` is the candidate `j`. -/
def Suppression.compare (exp : K → K) (D : FaceDetectWithMask K) (i j : Nat) (a b : Clipped K)
    (c : Candidate K) (st : Suppression K) : Suppression K :=
  if D.soft_nms_ then
    let score := c.score * decay exp a b
    let st := { st with bboxes_ := st.bboxes_.set j { c with score := score } }
    if score < score_threshold_ then st.drop j else st
  else if overlaps a b then
    { st.drop j with suppressed := st.suppressed ++ [(i, j)] }
  else st

/-- The body of the inner loop. -/
def innerPass (exp : K → K) (D : FaceDetectWithMask K) (i : Nat) (a : Clipped K)
    (st : Suppression K) (j : Nat) : Suppression K :=
  if st.drop_flag i then st
  else
    match st.bboxes_[j]? with
    | none => st
    | some c =>
      -- the source drops the box it has at hand, not the one that is too small
      if D.tooSmall (c.clipped D) then st.drop i
      else st.compare exp D i j a (c.clipped D) c

/-- The body of the outer loop. -/
def outerPass (exp : K → K) (D : FaceDetectWithMask K) (st : Suppression K) (i : Nat) :
    Suppression K :=
  if st.drop_flag i then st
  else
    match st.bboxes_[i]? with
    | none => st
    | some c =>
      if D.tooSmall (c.clipped D) then st.drop i
      else
        (List.range' (i + 1) (st.bboxes_.length - (i + 1))).foldl
          (innerPass exp D i (c.clipped D)) st

/-- The two loops, on these boxes. -/
def suppress (exp : K → K) (D : FaceDetectWithMask K) (bboxes_ : List (Candidate K)) :
    Suppression K :=
  (List.range bboxes_.length).foldl (outerPass exp D) ⟨bboxes_, fun _ => false, []⟩

/-- The candidates that are not dropped. -/
def survivors (exp : K → K) (D : FaceDetectWithMask K) (bboxes_ : List (Candidate K)) :
    List (Candidate K) :=
  let st := suppress exp D bboxes_
  (List.range bboxes_.length).filterMap fun i => if st.drop_flag i then none else st.bboxes_[i]?

/-! ## Output -/

/-- The body of the loop over the landmarks. -/
def landmark (D : FaceDetectWithMask K) (land_point : Nat → K) (anchor : Anchor K) (dex j : Nat) :
    K × K :=
  let x := land_point (dex * 10 + j * 2) * (1 / (10 : Nat)) * anchor.c2 + anchor.c0
  let y := land_point (dex * 10 + j * 2 + 1) * (1 / (10 : Nat)) * anchor.c3 + anchor.c1
  (clip_label_value (x * D.ori_width_) D.ori_width_,
    clip_label_value (y * D.ori_height_) D.ori_height_)

/-- The box that is pushed for a candidate. -/
def maskBox (D : FaceDetectWithMask K) (land_point mask_point : Nat → K) (c : Candidate K) :
    Except Abort (MaskBox K) :=
  match D.priori_anchors_[c.dex]? with
  | none => .error .outOfRange
  | some anchor => .ok {
      x0 := c.x1
      y0 := c.y1
      x1 := c.x2
      y1 := c.y2
      score := c.score
      with_mask := mask_threshold_ ≤ mask_point (c.dex * 2 + 1)
      points := (List.range 5).map (landmark D land_point anchor c.dex) }

/-- `FaceDetectWithMask::postProcess`: `info` with the faces pushed to it. -/
def FaceDetectWithMask.postProcess (exp : K → K) (D : FaceDetectWithMask K)
    (box_point cls_point land_point mask_point : Nat → K) (info : List (MaskBox K)) :
    Except Abort (List (MaskBox K)) :=
  if (filtered_score_and_dex D cls_point).length < 1 then .ok info
  else do
    let bboxes_ ← candidates exp D box_point cls_point
    let faces ← (survivors exp D bboxes_).mapM (maskBox D land_point mask_point)
    return info ++ faces

end

end EdgeFrame.Api
