/-
# EdgeFrame.Api.SetJson -- configuring the detector

`Detect::setJson` reads a model version and two thresholds, fills in the tables of the
version and pushes its anchors to `priors`. It may be called again. Nothing clears
`priors`, and a version that it does not know makes it return after the thresholds and
the defaults (shape, maps, number of anchors, boxes) have been assigned. So a call does
what it is for when it is the first that names a known version, or when it names an
unknown one and has nothing to assign that is not there already.
-/
import EdgeFrame.Api.Detect
import EdgeFrame.Lib.Runs
import Mathlib

namespace EdgeFrame.Api

open Lib

variable {K : Type}

/-! ## Data -/

/-- What `setJson` reads of its document. -/
structure DetParam (K : Type) where
  det_model_version : String
  det_score_thresh : K
  det_iou_thresh : K
  deriving DecidableEq

/-- The versions that the switch knows. -/
inductive EModelID where
  | e_ped_v3
  | e_monitor_v1
  | e_capture_v2
  | e_huishoubao_v2
  | e_vehicle_v1
  deriving DecidableEq, Repr

/-- `DetectorCommonVmap`, without the names of the model files. -/
def DetectorCommonVmap : List (String × EModelID) :=
  [("PED_V3", .e_ped_v3), ("Monitor_V1", .e_monitor_v1), ("Huishoubao_V2", .e_huishoubao_v2),
    ("Capture_V2", .e_capture_v2), ("Vehicle_V1", .e_vehicle_v1)]

/-- `version_ID`; a name that the map does not have gets an entry with the value 0, which is none of
the enumerators. -/
def DetParam.version_ID (p : DetParam K) : Option EModelID :=
  DetectorCommonVmap.lookup p.det_model_version

/-- The members of a `Detect` that `setJson` assigns; of `pre_data_`, its size. -/
structure Detector (K : Type) extends Detect K where
  num_featuremap : Nat
  model_box_l_name : String
  model_score_l_name : String
  input_width_ : Int
  input_height_ : Int
  pre_data_size : Nat
  featuremap_size : List (List Nat)
  min_boxes : List (List (K × K))
  output_tensor_names_ : List String

/-- The constructor: the members without an initialiser are what the memory holds. -/
def Detector.construct (memory : Detector K) : Detector K :=
  { memory with
    priors := []
    image_h := 0
    image_w := 0
    input_width_ := -1
    input_height_ := -1
    pre_data_size := 0
    featuremap_size := []
    min_boxes := []
    output_tensor_names_ := [] }

/-- `featuremap_size[i][index]`. -/
def Detector.featuremap (D : Detector K) (i index : Nat) : Nat :=
  (D.featuremap_size.getD i []).getD index 0

/-- `setShape`. -/
def Detector.setShape (D : Detector K) (input_height input_width : Int) : Detector K :=
  { D with
    input_height_ := input_height
    input_width_ := input_width
    pre_data_size := (input_height * input_width * 3).toNat }

/-! ## The tables -/

section

variable [Field K]

/-- A box of a table, in ten-thousandths of a pixel. -/
def minBox (width height : Nat) : K × K := ((width : K) / (10000 : Nat), (height : K) / (10000 : Nat))

/-- The initial `min_boxes`. -/
def min_boxes_default : List (List (K × K)) :=
  [[minBox 113135 226275, minBox 142545 285090, minBox 179595 359190, minBox 160000 160000,
      minBox 201585 201585, minBox 253985 253985],
    [minBox 226275 452550, minBox 285090 570175, minBox 359190 718375, minBox 320000 320000,
      minBox 403175 403175, minBox 507970 507970],
    [minBox 452550 905095, minBox 570175 1140350, minBox 718375 1436750, minBox 640000 640000,
      minBox 806350 806350, minBox 1015935 1015935],
    [minBox 905095 1810195, minBox 1140350 2280700, minBox 1436750 2873505, minBox 1280000 1280000,
      minBox 1612700 1612700, minBox 2031875 2031875]]

/-- The boxes of `PED_V3`. -/
def min_boxes_ped_v3 : List (List (K × K)) :=
  [[minBox 105593 214542, minBox 133042 270308, minBox 167622 340565, minBox 149333 151704,
      minBox 188146 191132, minBox 237053 240815],
    [minBox 211190 429084, minBox 266084 540610, minBox 335244 681126, minBox 298667 303407,
      minBox 376297 382270, minBox 474105 481631],
    [minBox 422380 858164, minBox 532163 1081221, minBox 670483 1362252, minBox 597333 606815,
      minBox 752593 764539, minBox 948206 963257],
    [minBox 844755 1716333, minBox 1064327 2162441, minBox 1340967 2724508, minBox 1194667 1213630,
      minBox 1505187 1529079, minBox 1896417 1926519]]

/-- The boxes of `Vehicle_V1`. -/
def min_boxes_vehicle_v1 : List (List (K × K)) :=
  [[minBox 160000 160000],
    [minBox 452550 226270, minBox 570180 285090, minBox 570180 285090, minBox 718380 359190,
      minBox 320000 320000, minBox 403170 403170, minBox 226270 452550, minBox 285090 570180,
      minBox 359190 718380],
    [minBox 905100 452550, minBox 1140350 570180, minBox 1436750 718380, minBox 640000 640000,
      minBox 806350 806350, minBox 1015940 1015940, minBox 452550 905100, minBox 570180 1140350,
      minBox 718380 1436750],
    [minBox 1810190 905100, minBox 2280700 1140350, minBox 2873500 1436750, minBox 1280000 1280000,
      minBox 1612700 1612700, minBox 2031870 2031870, minBox 905100 1810190, minBox 1140350 2280700,
      minBox 1436750 2873500]]

/-- The initial `featuremap_size`. -/
def featuremap_size_default : List (List Nat) := [[56, 28, 14, 7], [32, 16, 8, 4]]

/-- The maps of `Monitor_V1`. -/
def featuremap_size_monitor_v1 : List (List Nat) := [[80, 40, 20, 10], [45, 23, 12, 6]]

/-! ## `setJson` -/

/-- What is assigned before the switch. -/
def assignDefaults (D : Detector K) (p : DetParam K) : Detector K :=
  { D with
    score_threshold := p.det_score_thresh
    iou_threshold := p.det_iou_thresh
    center_variance := (1 : Nat) / (10 : Nat)
    size_variance := (2 : Nat) / (10 : Nat)
    num_featuremap := 4
    model_box_l_name := "cat_blob3"
    model_score_l_name := "softmax_blob1"
    input_width_ := 448
    input_height_ := 256
    num_anchors := 14280
    featuremap_size := featuremap_size_default
    min_boxes := min_boxes_default }

/-- The cases of the switch. -/
def assignVersion (D : Detector K) : EModelID → Detector K
  | .e_ped_v3 => { D with num_of_class := 4, min_boxes := min_boxes_ped_v3 }
  | .e_monitor_v1 =>
    { D with
      input_width_ := 640
      input_height_ := 360
      num_anchors := 28920
      featuremap_size := featuremap_size_monitor_v1
      num_of_class := 2 }
  | .e_capture_v2 => { D with num_of_class := 4 }
  | .e_huishoubao_v2 => { D with num_of_class := 2 }
  | .e_vehicle_v1 =>
    { D with num_anchors := 7084, num_of_class := 2, min_boxes := min_boxes_vehicle_v1 }

variable [LinearOrder K]

/-- What the loops over the feature maps push to `priors`. -/
def generatePriors (D : Detector K) : List (Prior K) :=
  (List.range D.num_featuremap).flatMap fun index =>
    -- `input / shrinkage_size`, where the shrinkage is the input over the map
    let scale_w := (D.input_width_ : K) / (D.input_width_ / D.featuremap 0 index)
    let scale_h := (D.input_height_ : K) / (D.input_height_ / D.featuremap 1 index)
    (List.range (D.featuremap 1 index)).flatMap fun (j : Nat) =>
      (List.range (D.featuremap 0 index)).flatMap fun (i : Nat) =>
        (D.min_boxes.getD index []).map fun box =>
          { x_center := clip (((i : K) + 1 / (2 : Nat)) / scale_w) 1
            y_center := clip (((j : K) + 1 / (2 : Nat)) / scale_h) 1
            w := clip (box.1 / D.input_width_) 1
            h := clip (box.2 / D.input_height_) 1 }

/-- `Detect::setJson`. -/
def setJson (D : Detector K) (p : DetParam K) : Detector K :=
  let D := assignDefaults D p
  match p.version_ID with
  | none => D
  | some version_ID =>
    let D := assignVersion D version_ID
    let D := { D with priors := D.priors ++ generatePriors D }
    let D := D.setShape D.input_height_ D.input_width_
    { D with output_tensor_names_ := [D.model_box_l_name, D.model_score_l_name] }

end

/-! ## The grid of a version -/

/-- One level of a grid: its columns and rows, and the boxes of a cell. -/
structure Level (K : Type) where
  columns : Nat
  rows : Nat
  boxes : List (K × K)

/-- What a version of the model expects. -/
structure Layout (K : Type) where
  input_width : Nat
  input_height : Nat
  levels : List (Level K)
  num_anchors : Nat

section

variable [Field K]

/-- The levels over these maps. -/
def levels (featuremap_size : List (List Nat)) (min_boxes : List (List (K × K))) : List (Level K) :=
  ((featuremap_size.getD 0 []).zip ((featuremap_size.getD 1 []).zip min_boxes)).map fun l =>
    ⟨l.1, l.2.1, l.2.2⟩

/-- The layouts of the five versions. -/
def EModelID.layout : EModelID → Layout K
  | .e_ped_v3 => ⟨448, 256, levels featuremap_size_default min_boxes_ped_v3, 14280⟩
  | .e_monitor_v1 => ⟨640, 360, levels featuremap_size_monitor_v1 min_boxes_default, 28920⟩
  | .e_capture_v2 => ⟨448, 256, levels featuremap_size_default min_boxes_default, 14280⟩
  | .e_huishoubao_v2 => ⟨448, 256, levels featuremap_size_default min_boxes_default, 14280⟩
  | .e_vehicle_v1 => ⟨448, 256, levels featuremap_size_default min_boxes_vehicle_v1, 7084⟩

variable [LinearOrder K]

/-- The anchors of a level: row by row, the boxes of each cell around its centre. -/
def Level.anchors (width height : Nat) (l : Level K) : List (Prior K) :=
  (List.range l.rows).flatMap fun (j : Nat) =>
    (List.range l.columns).flatMap fun (i : Nat) =>
      l.boxes.map fun box =>
        ⟨clip (((i : K) + 1 / (2 : Nat)) / l.columns) 1, clip (((j : K) + 1 / (2 : Nat)) / l.rows) 1,
          clip (box.1 / width) 1, clip (box.2 / height) 1⟩

/-- **The anchor grid** of a version. -/
def anchorGrid (version_ID : EModelID) : List (Prior K) :=
  let layout : Layout K := version_ID.layout
  layout.levels.flatMap (Level.anchors layout.input_width layout.input_height)

end

/-! ## What a call is for -/

/-- Thresholds, shapes, class count and priors are as they were. To the shapes belong the input,
the maps with their number and the boxes of their cells, and the number of anchors: `generateBBox`
runs up to `num_anchors` over `priors`. -/
structure Unchanged (D D' : Detector K) : Prop where
  score_threshold : D'.score_threshold = D.score_threshold
  iou_threshold : D'.iou_threshold = D.iou_threshold
  input_width_ : D'.input_width_ = D.input_width_
  input_height_ : D'.input_height_ = D.input_height_
  num_featuremap : D'.num_featuremap = D.num_featuremap
  featuremap_size : D'.featuremap_size = D.featuremap_size
  min_boxes : D'.min_boxes = D.min_boxes
  num_anchors : D'.num_anchors = D.num_anchors
  num_of_class : D'.num_of_class = D.num_of_class
  priors : D'.priors = D.priors

/-- After a call that names a known version `priors` is its grid, of `num_anchors` anchors; a call
that names an unknown one changes nothing. -/
def Reconfigures [Field K] [LinearOrder K] (D : Detector K) (p : DetParam K) : Prop :=
  match p.version_ID with
  | some version_ID => (setJson D p).priors = anchorGrid version_ID ∧
      (setJson D p).priors.length = (setJson D p).num_anchors
  | none => Unchanged D (setJson D p)

/-- A call that leaves every default where it was assigned: its version has a case in the switch that
sets the number of classes only, or none. -/
def DetParam.KeepsDefaults (p : DetParam K) : Prop :=
  p.version_ID = none ∨ p.version_ID = some .e_capture_v2 ∨ p.version_ID = some .e_huishoubao_v2

/-- The calls before this one leave it nothing to spoil: a known version finds no priors, and an
unknown one finds its thresholds and the defaults in place. -/
inductive WellPlaced (before : List (DetParam K)) (p : DetParam K) : Prop where
  | known (hknown : p.version_ID ≠ none) (hfirst : ∀ q ∈ before, q.version_ID = none)
  | unknown (hunknown : p.version_ID = none) (q : DetParam K) (hlast : before.getLast? = some q)
      (hscore : q.det_score_thresh = p.det_score_thresh)
      (hiou : q.det_iou_thresh = p.det_iou_thresh) (hdefaults : q.KeepsDefaults)

/-! ## What `setJson` does -/

section

variable [Field K] [LinearOrder K] {D : Detector K} {p : DetParam K} {version_ID : EModelID}

/-- An unknown version: the defaults are assigned, and the call returns. -/
theorem setJson_of_unknown (h : p.version_ID = none) : setJson D p = assignDefaults D p := by
  unfold setJson
  rw [h]

/-- A known version: its grid is appended to the priors. -/
theorem setJson_of_known (h : p.version_ID = some version_ID) :
    (setJson D p).priors =
      D.priors ++ generatePriors (assignVersion (assignDefaults D p) version_ID) ∧
      (setJson D p).num_anchors = (version_ID.layout : Layout K).num_anchors := by
  unfold setJson
  rw [h]
  cases version_ID <;> exact ⟨rfl, rfl⟩

/-- The defaults that a call with an unknown version assigns, all in place. -/
structure Detector.HasDefaults (D : Detector K) : Prop where
  input_width_ : D.input_width_ = 448
  input_height_ : D.input_height_ = 256
  num_featuremap : D.num_featuremap = 4
  featuremap_size : D.featuremap_size = featuremap_size_default
  min_boxes : D.min_boxes = min_boxes_default
  num_anchors : D.num_anchors = 14280

omit [LinearOrder K] in
/-- The first box of the table for PED_V3 is narrower than the first default one. -/
theorem min_boxes_ped_v3_ne [CharZero K] : (min_boxes_ped_v3 : List (List (K × K))) ≠ min_boxes_default := by
  intro heq
  have hboxes := congrArg (fun l => (l.getD 0 []).head?) heq
  have hwidth : ((105593 : Nat) : K) / (10000 : Nat) = (113135 : Nat) / (10000 : Nat) :=
    congrArg Prod.fst (Option.some.inj hboxes)
  have hten : ((10000 : Nat) : K) ≠ 0 := Nat.cast_ne_zero.mpr (by decide)
  rw [div_left_inj' hten, Nat.cast_inj] at hwidth
  exact absurd hwidth (by decide)

/-- The thresholds after a call, and whether it has left the defaults: the other versions set a
shape, a table of boxes or a number of anchors of their own. -/
theorem setJson_defaults [CharZero K] : (setJson D p).score_threshold = p.det_score_thresh ∧
    (setJson D p).iou_threshold = p.det_iou_thresh ∧
    ((setJson D p).HasDefaults ↔ p.KeepsDefaults) := by
  unfold setJson DetParam.KeepsDefaults
  cases p.version_ID with
  | none => exact ⟨rfl, rfl, iff_of_true ⟨rfl, rfl, rfl, rfl, rfl, rfl⟩ (by simp)⟩
  | some version_ID =>
    cases version_ID with
    | e_ped_v3 =>
      refine ⟨rfl, rfl, iff_of_false ?_ (by simp)⟩
      exact fun hdefaults => min_boxes_ped_v3_ne hdefaults.min_boxes
    | e_monitor_v1 =>
      refine ⟨rfl, rfl, iff_of_false ?_ (by simp)⟩
      intro hdefaults
      have hwidth : (640 : Int) = 448 := hdefaults.input_width_
      exact absurd hwidth (by decide)
    | e_vehicle_v1 =>
      refine ⟨rfl, rfl, iff_of_false ?_ (by simp)⟩
      intro hdefaults
      have hanchors : 7084 = 14280 := hdefaults.num_anchors
      exact absurd hanchors (by decide)
    | e_capture_v2 | e_huishoubao_v2 =>
      exact ⟨rfl, rfl, iff_of_true ⟨rfl, rfl, rfl, rfl, rfl, rfl⟩ (by simp)⟩

/-- A call with an unknown version changes nothing exactly when it finds what it assigns. -/
theorem unchanged_iff (h : p.version_ID = none) : Unchanged D (setJson D p) ↔
    D.score_threshold = p.det_score_thresh ∧ D.iou_threshold = p.det_iou_thresh ∧ D.HasDefaults := by
  rw [setJson_of_unknown h]
  constructor
  · intro hsame
    exact ⟨hsame.score_threshold.symm, hsame.iou_threshold.symm, hsame.input_width_.symm,
      hsame.input_height_.symm, hsame.num_featuremap.symm, hsame.featuremap_size.symm,
      hsame.min_boxes.symm, hsame.num_anchors.symm⟩
  · rintro ⟨hscore, hiou, hwidth, hheight, hcount, hmaps, hboxes, hanchors⟩
    exact ⟨hscore.symm, hiou.symm, hwidth.symm, hheight.symm, hcount.symm, hmaps.symm, hboxes.symm,
      hanchors.symm, rfl, rfl⟩

end

/-! ## The grid -/

section

variable [Field K] [LinearOrder K]

/-- A level has one anchor for each box of each of its cells. -/
theorem length_anchors (width height : Nat) (l : Level K) :
    (l.anchors width height).length = l.rows * l.columns * l.boxes.length := by
  unfold Level.anchors
  simp only [List.length_flatMap, List.length_map, List.map_const', List.length_range,
    List.sum_replicate, smul_eq_mul]
  ring

/-- The grid of a version has its number of anchors. -/
theorem length_anchorGrid (version_ID : EModelID) :
    (anchorGrid version_ID : List (Prior K)).length = (version_ID.layout : Layout K).num_anchors := by
  unfold anchorGrid
  simp only [List.length_flatMap, length_anchors]
  cases version_ID <;>
    simp [EModelID.layout, levels, featuremap_size_default, featuremap_size_monitor_v1,
      min_boxes_default, min_boxes_ped_v3, min_boxes_vehicle_v1]

/-- No version has an empty grid. -/
theorem anchorGrid_ne_nil (version_ID : EModelID) : (anchorGrid version_ID : List (Prior K)) ≠ [] := by
  rw [← List.length_pos_iff_ne_nil, length_anchorGrid]
  cases version_ID <;> exact Nat.succ_pos _

omit [Field K] [LinearOrder K] in
/-- The levels, by index. -/
theorem levels_eq {n : Nat} {maps : List (List Nat)} {boxes : List (List (K × K))}
    (hcolumns : (maps.getD 0 []).length = n) (hrows : (maps.getD 1 []).length = n)
    (hboxes : boxes.length = n) : levels maps boxes = (List.range n).map fun index =>
      ⟨(maps.getD 0 []).getD index 0, (maps.getD 1 []).getD index 0, boxes.getD index []⟩ := by
  unfold levels
  generalize maps.getD 0 [] = columns at *
  generalize maps.getD 1 [] = rows at *
  apply List.ext_getElem
  · simp [hcolumns, hrows, hboxes]
  · intro index _ hindex
    have hlt : index < n := by simpa using hindex
    simp [hcolumns, hrows, hboxes, hlt]

end

/-- The scale of an axis is the number of cells on it. -/
theorem scale_eq [Field K] {input : K} (h : input ≠ 0) (cells : Nat) :
    input / (input / (cells : K)) = cells := div_div_cancel₀ h

section

variable [Field K] [LinearOrder K]

/-- **The loops push the grid**: level by level, the anchors of the feature maps.

The loops index the tables of the detector, the grid is written by levels; that the two agree is a
matter of each version's tables. -/
theorem generatePriors_eq {D : Detector K} {width height : Nat} (hw : (width : K) ≠ 0)
    (hh : (height : K) ≠ 0) (hwidth : D.input_width_ = width) (hheight : D.input_height_ = height)
    (hcolumns : (D.featuremap_size.getD 0 []).length = D.num_featuremap)
    (hrows : (D.featuremap_size.getD 1 []).length = D.num_featuremap)
    (hboxes : D.min_boxes.length = D.num_featuremap) :
    generatePriors D =
      (levels D.featuremap_size D.min_boxes).flatMap (Level.anchors width height) := by
  unfold generatePriors
  rw [levels_eq hcolumns hrows hboxes, List.flatMap_map]
  simp only [hwidth, hheight, Int.cast_natCast, scale_eq hw, scale_eq hh]
  rfl

/-- **The priors after a call** that names a known version. -/
theorem setJson_priors [IsStrictOrderedRing K] {D : Detector K} {p : DetParam K}
    {version_ID : EModelID} (h : p.version_ID = some version_ID) :
    (setJson D p).priors = D.priors ++ anchorGrid version_ID := by
  have hne : ∀ n : Nat, ((n + 1 : Nat) : K) ≠ 0 := fun n => Nat.cast_ne_zero.mpr n.succ_ne_zero
  rw [(setJson_of_known h).1]
  refine congrArg (D.priors ++ ·) ?_
  cases version_ID with
  | e_monitor_v1 => exact generatePriors_eq (hne 639) (hne 359) rfl rfl rfl rfl rfl
  | _ => exact generatePriors_eq (hne 447) (hne 255) rfl rfl rfl rfl rfl

end

/-! ## Runs -/

section

variable [Field K] [LinearOrder K] [IsStrictOrderedRing K]

/-- The priors are empty as long as no call has named a known version. -/
theorem priors_eq_nil_iff {D : Detector K} (calls : List (DetParam K)) :
    (calls.foldl setJson D).priors = [] ↔ D.priors = [] ∧ ∀ q ∈ calls, q.version_ID = none := by
  induction calls generalizing D with
  | nil => simp
  | cons q calls ih =>
    rw [List.foldl_cons, ih, List.forall_mem_cons, ← and_assoc]
    refine and_congr_left fun _ => ?_
    cases hversion : q.version_ID with
    | none =>
      rw [setJson_of_unknown hversion]
      exact (and_iff_left rfl).symm
    | some version_ID =>
      rw [setJson_priors hversion]
      simp [anchorGrid_ne_nil]

/-- A call for a known version does what it is for exactly when it is the first such call.

Every later call appends to a grid that is there; the priors are then longer than `num_anchors`
says. -/
theorem grid_iff (memory : Detector K) (before : List (DetParam K)) {p : DetParam K}
    {version_ID : EModelID} (hversion : p.version_ID = some version_ID) :
    ((setJson (before.foldl setJson memory.construct) p).priors = anchorGrid version_ID ∧
        (setJson (before.foldl setJson memory.construct) p).priors.length =
          (setJson (before.foldl setJson memory.construct) p).num_anchors) ↔
      ∀ q ∈ before, q.version_ID = none := by
  have hempty := priors_eq_nil_iff (D := memory.construct) before
  have hpriors := setJson_priors (D := before.foldl setJson memory.construct) hversion
  constructor
  · rintro ⟨hgrid, -⟩
    rw [hpriors, List.append_left_eq_self] at hgrid
    exact (hempty.mp hgrid).2
  · intro hfirst
    rw [hempty.mpr ⟨rfl, hfirst⟩, List.nil_append] at hpriors
    refine ⟨hpriors, ?_⟩
    rw [hpriors, length_anchorGrid, (setJson_of_known hversion).2]

/-- A call for an unknown version changes nothing exactly when the call before it has left nothing to
change: the state that it finds is that of the last call alone, but for `priors`.

The three kinds of calls it may follow are those that leave every default where it was assigned. -/
theorem untouched_iff (memory : Detector K) (before : List (DetParam K)) {p : DetParam K}
    (hversion : p.version_ID = none) :
    Unchanged (before.foldl setJson memory.construct)
        (setJson (before.foldl setJson memory.construct) p) ↔
      ∃ q, before.getLast? = some q ∧ q.det_score_thresh = p.det_score_thresh ∧
        q.det_iou_thresh = p.det_iou_thresh ∧ q.KeepsDefaults := by
  rw [unchanged_iff hversion]
  rcases List.eq_nil_or_concat before with rfl | ⟨calls, q, rfl⟩
  · -- a new detector has no shape yet
    refine iff_of_false ?_ ?_
    · rintro ⟨-, -, hdefaults⟩
      cases hdefaults.input_width_
    · rintro ⟨q, hlast, -⟩
      cases hlast
  · rw [List.concat_eq_append, List.foldl_append, List.foldl_cons, List.foldl_nil]
    obtain ⟨hscore, hiou, hdefaults⟩ :=
      setJson_defaults (D := calls.foldl setJson memory.construct) (p := q)
    rw [hscore, hiou, hdefaults, List.getLast?_concat]
    constructor
    · intro h
      exact ⟨q, rfl, h⟩
    · rintro ⟨q', hlast, h⟩
      obtain rfl := Option.some.inj hlast
      exact h

/-- **One call** does what it is for exactly when it is well placed.

The cases are the version: known, by `grid_iff`; unknown, by `untouched_iff`. -/
theorem reconfigures_iff (memory : Detector K) (before : List (DetParam K)) (p : DetParam K) :
    Reconfigures (before.foldl setJson memory.construct) p ↔ WellPlaced before p := by
  unfold Reconfigures
  cases hversion : p.version_ID with
  | some version_ID =>
    refine (grid_iff memory before hversion).trans ?_
    constructor
    · exact .known (by simp [hversion])
    · intro hplaced
      cases hplaced with
      | known _ hfirst => exact hfirst
      | unknown hunknown =>
        rw [hversion] at hunknown
        cases hunknown
  | none =>
    refine (untouched_iff memory before hversion).trans ?_
    constructor
    · rintro ⟨q, hlast, hscore, hiou, hdefaults⟩
      exact .unknown hversion q hlast hscore hiou hdefaults
    · intro hplaced
      cases hplaced with
      | known hknown => exact absurd hversion hknown
      | unknown _ q hlast hscore hiou hdefaults => exact ⟨q, hlast, hscore, hiou, hdefaults⟩

/-- **Reconfiguring a detector**: every call of a sequence does what it is for exactly when each one
that names a known version is the first such call, and each one that names an unknown version has
the thresholds of the call before it, which was for Capture_V2, for Huishoubao_V2 or for an unknown
version. It rests on `setJson_priors` (a known version appends its grid to what is there) and on
`setJson_defaults` (which versions leave the defaults that an unknown one assigns). -/
theorem setJson_reconfigures_iff (memory : Detector K) (calls : List (DetParam K)) :
    EachStep setJson Reconfigures memory.construct calls ↔
      ∀ before p after, calls = before ++ p :: after → WellPlaced before p := by
  rw [eachStep_iff_history]
  simp only [reconfigures_iff]

end

/-! ## Two configurations -/

/-- A detector in memory that was cleared. -/
def cleared : Detector ℚ where
  score_threshold := 0
  iou_threshold := 0
  num_of_class := 0
  num_anchors := 0
  image_h := 0
  image_w := 0
  center_variance := 0
  size_variance := 0
  priors := []
  num_featuremap := 0
  model_box_l_name := ""
  model_score_l_name := ""
  input_width_ := 0
  input_height_ := 0
  pre_data_size := 0
  featuremap_size := []
  min_boxes := []
  output_tensor_names_ := []

/-- A document with both thresholds at a half. -/
def halves (det_model_version : String) : DetParam ℚ := ⟨det_model_version, 1 / 2, 1 / 2⟩

/-- **A second call for a known version** keeps the anchors of the first. -/
theorem second_version_appends : ¬ EachStep setJson Reconfigures cleared.construct
    [halves "PED_V3", halves "Monitor_V1"] := by
  have hped : (halves "PED_V3").version_ID = some .e_ped_v3 := by decide
  have hmonitor : (halves "Monitor_V1").version_ID = some .e_monitor_v1 := by decide
  rintro ⟨-, hsecond, -⟩
  unfold Reconfigures at hsecond
  rw [hmonitor] at hsecond
  have hpriors := hsecond.1
  rw [setJson_priors hmonitor, List.append_left_eq_self, setJson_priors hped] at hpriors
  exact anchorGrid_ne_nil _ (List.append_eq_nil_iff.mp hpriors).2

/-- A known version first, and then one that is not known, with the same thresholds. -/
theorem setJson_reconfigures_iff_once : EachStep setJson Reconfigures cleared.construct
    [halves "Capture_V2", halves "Capture_V3"] := by
  refine (setJson_reconfigures_iff cleared _).mpr ?_
  intro before p after h
  cases before with
  | nil =>
    obtain ⟨rfl, -⟩ := List.cons.inj h
    exact .known (by decide) (by simp)
  | cons q before =>
    obtain ⟨rfl, htail⟩ := List.cons.inj h
    cases before with
    | nil =>
      obtain ⟨rfl, -⟩ := List.cons.inj htail
      exact .unknown (by decide) _ rfl rfl rfl (Or.inr (Or.inl (by decide)))
    | cons q before =>
      obtain ⟨-, hnone⟩ := List.cons.inj htail
      cases (List.append_eq_nil_iff.mp hnone.symm).2

end EdgeFrame.Api
