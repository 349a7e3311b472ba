/-
# EdgeFrame.Api.Inference -- `sdk::detect` from the image to the boxes

`NNSDK::init` configures the detector once and `TengineInf::run` uses it frame by frame:
the image is resized and laid out in `pre_data_`, the engine is given that storage, and what
the network answers is decoded and suppressed. The members outlive the frame, the size of
the last image and the storage among them. No frame sees what another has left there:
whatever frames came before and whatever the network answered to them, the boxes of a
frame are those that a fresh detector of the version would give. The engine is a third
party: its answers are inputs here, and so is whether it answers at all.

The law of a call is `Detects`: nothing is done to an empty image, and otherwise the engine
was given the resized image (`Given`) and the boxes are what the answer is due (`Owed`). It
is put together from the modules before:

  * `setJson` leaves the tables and the anchors of the version (`Api.SetJson`), which is what
    `Ready` asks for, and the storage has the size of the input (`setShape_returns`);
  * `input_transform` writes every index of the storage (`Api.Transform`), so that nothing of
    the last frame is left in it (`Ready.preProcess`);
  * decoding and suppression give what is due (`postProcess_owed`, from `Api.Decoding` and
    `Api.Suppression`), for any order of equal scores.

`Ready` names no image and no answer, and every call keeps it: that is why no frame matters
to the next.
-/
import EdgeFrame.Api.Decoding
import EdgeFrame.Api.Suppression
import EdgeFrame.Api.Transform
import Mathlib

namespace EdgeFrame.Api

open Lib

variable {K : Type}

/-! ## The engine -/

/-- How the SDK can fail. -/
inductive Failure where
  /-- `exit(-1)` -/
  | ended
  /-- `operator[]` behind the end of a vector -/
  | outOfRange
  /-- a blob is read that the engine has not filled -/
  | nullPointer
  | fault (f : Fault Storage)
  | abort (a : Abort)
  deriving DecidableEq, Repr

/-- What `NNSDK::init` asks of the engine: whether it is recent enough, and whether there is a graph
for a format and these files. -/
structure Tengine where
  request_tengine_version : Bool
  create_graph : String → List String → Bool

/-- What the network puts into its output tensors, by name; none if the buffer cannot be set or the
graph does not run. -/
abbrev Answer (K : Type) := Option (String → Nat → K)

/-- The tensor that the engine is given. -/
structure Tensor (K : Type) where
  dims : List Int
  data : Buffer K

/-! ## The detector behind the SDK -/

/-- `TengineInf<Detect>`: the detector and the storage for its input. -/
structure DetImpl (K : Type) where
  processsF_ : Detector K
  pre_data_ : Buffer K

/-- The model files of `DetectorCommonVmap`. -/
def model_files : List (String × List String) :=
  [("PED_V3", ["det_people_v3_up.prototxt", "det_people_v3_up.caffemodel"]),
    ("Monitor_V1", ["det_tdpc_v1_up.prototxt", "det_tdpc_v1_up.caffemodel"]),
    ("Huishoubao_V2", ["ped_hsb_v6_up.prototxt", "ped_hsb_v6_up.caffemodel"]),
    ("Capture_V2", ["det_capture_v2_up.prototxt", "det_capture_v2_up.caffemodel"]),
    ("Vehicle_V1", ["PED_car_inst.wk"])]

/-- The networks that are loaded before the detector. -/
def otherModels : List (List String) :=
  [["face_attr_deploy96.prototxt", "face_attr_deploy96.caffemodel"],
    ["sqeezenet_new.prototxt", "sqeezenet_new.caffemodel"],
    ["faceq200623_v1.prototxt", "faceq200623_v1.caffemodel"],
    ["faceblur200623_v1.prototxt", "faceblur200623_v1.caffemodel"],
    ["face_occ.prototxt", "face_occ.caffemodel"], ["fsanet.prototxt", "fsanet.caffemodel"]]

/-- `TengineInf::init(model_type, files)`; a failed `prerun_graph` is only logged. -/
def createGraph (E : Tengine) (model_type : String) (files : List String) : Except Failure Unit :=
  if E.create_graph model_type files then .ok () else .error .ended

/-- `v[i]`. -/
def subscript {α : Type} (v : List α) (i : Nat) : Except Failure α :=
  match v[i]? with
  | some a => .ok a
  | none => .error .outOfRange

/-- `TengineInf::init(json, model_type, files)` on a new detector. -/
def DetImpl.init [Field K] [LinearOrder K] (E : Tengine) (memory : Detector K) (p : DetParam K)
    (model_type : String) (files : List String) : Except Failure (DetImpl K) := do
  let D := setJson memory.construct p
  -- an unknown version returns before it sets the shape
  let pre_data_ ← match p.version_ID with
    | none => .ok []
    | some _ =>
      (setShape [] D.input_height_.toNat D.input_width_.toNat).mapError Failure.fault
  createGraph E model_type files
  return ⟨D, written pre_data_⟩

/-- `NNSDK::init`, after the JSON has been parsed. -/
def NNSDK.init [Field K] [LinearOrder K] (E : Tengine) (memory : Detector K) (model_path : String)
    (p : DetParam K) : Except Failure (DetImpl K) := do
  let inPath := fun file => model_path ++ "/" ++ file
  if E.request_tengine_version = false then throw .ended
  otherModels.forM fun files => createGraph E "caffe" (files.map inPath)
  -- `operator[]` of the map: a name that is not there gets an entry without files
  let second := (model_files.lookup p.det_model_version).getD []
  let prototxt ← subscript second 0
  let caffemodel ← subscript second 1
  DetImpl.init E memory p "caffe" [inPath prototxt, inPath caffemodel]

section

variable [Field K] (resize : Picture → Nat → Nat → Picture)

/-- `Detect::preProcess`. -/
def DetImpl.preProcess (s : DetImpl K) (image : Picture) : Except Failure (DetImpl K) := do
  let input_height_ := s.processsF_.input_height_.toNat
  let input_width_ := s.processsF_.input_width_.toNat
  let img := resize image input_width_ input_height_
  let copying ← (input_transform img.data detectMeans s.pre_data_ input_height_
    input_width_).mapError Failure.fault
  let D := { s.processsF_ with toDetect := s.processsF_.toDetect.preProcess image.rows image.cols }
  return ⟨D, copying.input_data⟩

omit [Field K] in
/-- `TengineInf::impl`: the input tensor, and the entries of `results`. -/
def DetImpl.impl (s : DetImpl K) (answer : Answer K) : Tensor K × (String → Option (Nat → K)) :=
  let D := s.processsF_
  let names := if D.output_tensor_names_ = [] then ["default"] else D.output_tensor_names_
  (⟨[1, 3, D.input_height_, D.input_width_], s.pre_data_⟩,
    fun name => if name ∈ names then answer.map (· name) else none)

variable [LinearOrder K] (exp : K → K) (S : Sorter K)

/-- `Detect::postProcess` on the map of the blobs: a name that is not there gets a null pointer, and
the loops read the scores first. -/
def Detector.postProcess (D : Detector K) (tensor_data_map : String → Option (Nat → K))
    (output_boxes : List (Box K)) : Except Failure (List (Box K)) :=
  match tensor_data_map D.model_box_l_name, tensor_data_map D.model_score_l_name with
  | some pOutputData_box, some pOutputData_score => do
    let boxes ← (Api.postProcess exp S D.toDetect pOutputData_box pOutputData_score).mapError
      Failure.abort
    return output_boxes ++ boxes
  | _, _ => .error .nullPointer

/-- `TengineInf::run`, with the tensor that the engine was given; an empty image is left alone. -/
def DetImpl.run (s : DetImpl K) (image : Picture) (answer : Answer K) (boxes : List (Box K)) :
    Except Failure (DetImpl K × Option (Tensor K) × List (Box K)) :=
  if image.rows * image.cols = 0 then .ok (s, none, boxes)
  else do
    let s ← s.preProcess resize image
    let (tensor, result) := s.impl answer
    let boxes ← s.processsF_.postProcess exp S result boxes
    return (s, some tensor, boxes)

/-- A call of `sdk::detect` that has returned. -/
structure Detection (K : Type) where
  image : Picture
  answer : Answer K
  tensor : Option (Tensor K)
  boxes : List (Box K)

/-- The call, with the empty vector that `DetectorProcessor::run` hands over. -/
def Detected (s : DetImpl K) (e : Detection K) (s' : DetImpl K) : Prop :=
  s.run resize exp S e.image e.answer [] = .ok (s', e.tensor, e.boxes)

end

/-! ## What a frame is due -/

/-- The classes of a version, the background among them. -/
def EModelID.classes : EModelID → Nat
  | .e_ped_v3 => 4
  | .e_monitor_v1 => 2
  | .e_capture_v2 => 4
  | .e_huishoubao_v2 => 2
  | .e_vehicle_v1 => 2

/-- The files of the model of a version. -/
def EModelID.files : EModelID → List String
  | .e_ped_v3 => ["det_people_v3_up.prototxt", "det_people_v3_up.caffemodel"]
  | .e_monitor_v1 => ["det_tdpc_v1_up.prototxt", "det_tdpc_v1_up.caffemodel"]
  | .e_capture_v2 => ["det_capture_v2_up.prototxt", "det_capture_v2_up.caffemodel"]
  | .e_huishoubao_v2 => ["ped_hsb_v6_up.prototxt", "ped_hsb_v6_up.caffemodel"]
  | .e_vehicle_v1 => ["PED_car_inst.wk"]

section

variable [Field K] [LinearOrder K]

/-- The height and the width of the network's input. -/
def EModelID.height (version_ID : EModelID) : Nat := (version_ID.layout : Layout ℚ).input_height

/-- Its width. -/
def EModelID.width (version_ID : EModelID) : Nat := (version_ID.layout : Layout ℚ).input_width

/-- The detector of a version for an image, as if there had never been another. -/
def detectFor (p : DetParam K) (version_ID : EModelID) (image : Picture) : Detect K where
  score_threshold := p.det_score_thresh
  iou_threshold := p.det_iou_thresh
  num_of_class := version_ID.classes
  num_anchors := (version_ID.layout : Layout K).num_anchors
  image_h := image.rows
  image_w := image.cols
  center_variance := (1 : Nat) / (10 : Nat)
  size_variance := (2 : Nat) / (10 : Nat)
  priors := anchorGrid version_ID

/-- The tensor holds the resized image, plane by plane: red, green and blue. -/
structure Given (resize : Picture → Nat → Nat → Picture) (version_ID : EModelID) (image : Picture)
    (tensor : Tensor K) : Prop where
  dims : tensor.dims = [1, 3, (version_ID.height : Int), (version_ID.width : Int)]
  size : tensor.data.length = 3 * (version_ID.height * version_ID.width)
  value : ∀ (p : Fin 3) (m : Nat), m < version_ID.height * version_ID.width →
    ∃ b, (resize image version_ID.width version_ID.height).data[3 * m + p.rev]? = some b ∧
      tensor.data[p * (version_ID.height * version_ID.width) + m]? =
        some (some (normalized (detectMeans p.rev) b))

/-- The boxes are those that the detector owes to the blobs: class by class, what exact greedy
suppression leaves of the anchors above the threshold, in the image and under its class. -/
structure Owed (exp : K → K) (D : Detect K) (box score : Nat → K) (boxes : List (Box K)) : Prop where
  account : ∃ proposals kept : Nat → List (Box K),
    boxes = (List.range' 1 (D.num_of_class - 1)).flatMap kept ∧
      ∀ c ∈ List.range' 1 (D.num_of_class - 1),
        List.Forall₂ (Decodes exp D box score c)
          (scoredAnchors D score c (List.range D.num_anchors)) (proposals c) ∧
        Suppressed D.iou_threshold c (proposals c) (kept c)
  wellFormed : ∀ b ∈ boxes, b.WellFormed D ∧ 1 ≤ b.class_idx ∧ b.class_idx < D.num_of_class

/-- What a call has done: nothing to an empty image, and otherwise what the image and the answer of
the network are due. -/
inductive Detects (resize : Picture → Nat → Nat → Picture) (exp : K → K) (p : DetParam K)
    (version_ID : EModelID) (e : Detection K) : Prop where
  | empty (himage : e.image.rows * e.image.cols = 0) (htensor : e.tensor = none)
      (hboxes : e.boxes = [])
  | frame (himage : e.image.rows * e.image.cols ≠ 0) (tensor : Tensor K)
      (htensor : e.tensor = some tensor) (hgiven : Given resize version_ID e.image tensor)
      (blobs : String → Nat → K) (hanswer : e.answer = some blobs)
      (hboxes : Owed exp (detectFor p version_ID e.image) (blobs "cat_blob3")
        (blobs "softmax_blob1") e.boxes)

end

/-! ## Decoding and suppression together -/

section

variable [Field K] [LinearOrder K] [IsStrictOrderedRing K] {exp : K → K} {D : Detect K}

/-- Decoding is exact, and so is suppression, class by class: what comes out is what the blobs are
due. -/
theorem postProcess_owed (S : Sorter K) (hexp : ∀ x, 0 < exp x)
    (hpriors : D.priors.length = D.num_anchors)
    (hprior : ∀ prior ∈ D.priors, 0 ≤ prior.w ∧ 0 ≤ prior.h) (hh : 0 ≤ D.image_h)
    (hw : 0 ≤ D.image_w) (box score : Nat → K) :
    ∃ boxes, Api.postProcess exp S D box score = .ok boxes ∧ Owed exp D box score boxes := by
  -- each class has its proposals, one for each anchor above the threshold
  have hclass : ∀ c, ∃ proposals,
      classBoxes exp D box score c (List.range D.num_anchors) = .ok proposals ∧
      List.Forall₂ (Decodes exp D box score c)
        (scoredAnchors D score c (List.range D.num_anchors)) proposals := by
    intro c
    apply classBoxes_decodes
    intro j hj
    rw [hpriors]
    exact List.mem_range.mp hj
  choose proposals hproposals hdecodes using hclass
  have hformed : ∀ c, ∀ b ∈ proposals c, b.WellFormed D := by
    intro c b hb
    obtain ⟨j, -, prior, hj, rfl⟩ := exists_of_forall₂ (hdecodes c) b hb
    exact decodeBox_wellFormed hexp hh hw (hprior prior (List.mem_of_getElem? hj)) j _ c
  -- and of them what greedy suppression leaves
  let kept := fun c => nmsClass D.iou_threshold c (S.sort (proposals c))
  have hsuppressed : ∀ c, Suppressed D.iou_threshold c (proposals c) (kept c) := by
    intro c
    apply suppressed_nmsClass
    intro b hb
    exact ⟨(hformed c b hb).x.2.1, (hformed c b hb).y.2.1⟩
  -- the loops over the classes collect both
  have hgenerate : generateBBox exp D box score =
      .ok ((List.range' 1 (D.num_of_class - 1)).map proposals) :=
    mapM_eq_ok fun c _ => hproposals c
  have hnms : nms S D ((List.range' 1 (D.num_of_class - 1)).map proposals) =
      .ok ((List.range' 1 (D.num_of_class - 1)).flatMap kept) := by
    unfold nms
    rw [mapM_eq_ok (g := kept)]
    · rfl
    · intro c hc
      obtain ⟨hlow, hhigh⟩ := List.mem_range'_1.mp hc
      have hlt : c - 1 < D.num_of_class - 1 := by omega
      rw [List.getElem?_map, List.getElem?_range' hlt, show 1 + 1 * (c - 1) = c by omega]
      rfl
  refine ⟨_, ?_, ⟨proposals, kept, rfl, fun c _ => ⟨hdecodes c, hsuppressed c⟩⟩, ?_⟩
  · rw [Api.postProcess, hgenerate]
    exact hnms
  -- every box is a proposal of its class, and so in the image
  · intro b hb
    obtain ⟨c, hc, hb⟩ := List.mem_flatMap.mp hb
    obtain ⟨hlow, hhigh⟩ := List.mem_range'_1.mp hc
    obtain ⟨a, ha, rfl⟩ := mem_nmsClass hb
    have ha := hformed c a ((S.perm (proposals c)).mem_iff.mp ha)
    refine ⟨⟨ha.x, ha.y, ha.score⟩, ?_, ?_⟩
    · show (1 : Int) ≤ (c : Nat)
      omega
    · show ((c : Nat) : Int) < D.num_of_class
      omega

end

/-! ## The start -/

section

/-- Looking up in a list whose values were mapped. -/
theorem lookup_map {α β γ : Type} [BEq α] (f : β → γ) (a : α) : ∀ l : List (α × β),
    (l.map fun e => (e.1, f e.2)).lookup a = (l.lookup a).map f := by
  intro l
  induction l with
  | nil => rfl
  | cons e l ih =>
    obtain ⟨k, b⟩ := e
    simp only [List.map_cons, List.lookup_cons, ih]
    split <;> rfl

variable [Field K] [LinearOrder K] {p : DetParam K} {version_ID : EModelID}

/-- The detector is set up for a version, whatever image it saw last.

Of the last image only the size is among the members, and it is set anew for every frame. -/
structure Ready (p : DetParam K) (version_ID : EModelID) (s : DetImpl K) : Prop where
  members : ∀ image : Picture,
    s.processsF_.toDetect.preProcess image.rows image.cols = detectFor p version_ID image
  height : s.processsF_.input_height_ = version_ID.height
  width : s.processsF_.input_width_ = version_ID.width
  box : s.processsF_.model_box_l_name = "cat_blob3"
  score : s.processsF_.model_score_l_name = "softmax_blob1"
  names : s.processsF_.output_tensor_names_ = ["cat_blob3", "softmax_blob1"]
  storage : s.pre_data_.length = 3 * (version_ID.height * version_ID.width)

omit [Field K] [LinearOrder K] in
/-- The entry that `NNSDK::init` finds for the files. -/
theorem second_eq (p : DetParam K) :
    (model_files.lookup p.det_model_version).getD [] = (p.version_ID.map EModelID.files).getD [] :=
  congrArg (Option.getD · []) (lookup_map EModelID.files p.det_model_version DetectorCommonVmap)

/-- The size of every input is an `int`. -/
theorem height_mul_width (version_ID : EModelID) :
    3 * (version_ID.height * version_ID.width) < 2 ^ 31 := by
  cases version_ID <;> decide

variable [IsStrictOrderedRing K]

omit [IsStrictOrderedRing K] in
/-- On a known version `setJson` assigns the tables and appends the grid. -/
theorem setJson_known (D : Detector K) (hversion : p.version_ID = some version_ID) :
    setJson D p =
      let D := assignVersion (assignDefaults D p) version_ID
      let D := { D with priors := D.priors ++ generatePriors D }
      let D := D.setShape D.input_height_ D.input_width_
      { D with output_tensor_names_ := [D.model_box_l_name, D.model_score_l_name] } := by
  unfold setJson
  rw [hversion]

/-- `setJson` on a new detector. -/
theorem ready_setJson (memory : Detector K) (hversion : p.version_ID = some version_ID)
    {pre_data_ : Buffer K} (hdata : pre_data_.length = 3 * (version_ID.height * version_ID.width)) :
    Ready p version_ID ⟨setJson memory.construct p, pre_data_⟩ := by
  have hset := setJson_known memory.construct hversion
  constructor
  · intro image
    show { (setJson memory.construct p).toDetect with image_h := image.rows, image_w := image.cols } = _
    -- the priors do not depend on the memory that the constructor has left as it was
    have hpriors : (setJson memory.construct p).toDetect.priors = anchorGrid version_ID :=
      setJson_priors hversion
    rw [detectFor, ← hpriors, hset]
    cases version_ID <;> rfl
  · rw [hset]
    cases version_ID <;> rfl
  · rw [hset]
    cases version_ID <;> rfl
  · rw [hset]
    cases version_ID <;> rfl
  · rw [hset]
    cases version_ID <;> rfl
  · rw [hset]
    cases version_ID <;> rfl
  · exact hdata

omit [LinearOrder K] [IsStrictOrderedRing K] in
/-- The size of the input is an `int`, so the storage can be made. -/
theorem setShape_returns (version_ID : EModelID) :
    ∃ pre_data_ : List K, setShape [] version_ID.height version_ID.width = .ok pre_data_ := by
  have hfits := height_mul_width version_ID
  unfold setShape int32
  rw [if_pos (by omega)]
  exact ⟨_, rfl⟩

/-- On a known version the detector is ready as soon as there is a graph. -/
theorem DetImpl.init_of_known (E : Tengine) (memory : Detector K)
    (hversion : p.version_ID = some version_ID) :
    ∃ s, Ready p version_ID s ∧ ∀ model_type files,
      DetImpl.init E memory p model_type files =
        if E.create_graph model_type files then .ok s else .error .ended := by
  obtain ⟨pre_data_, hshape⟩ := setShape_returns (K := K) version_ID
  have hdata : (written pre_data_).length = 3 * (version_ID.height * version_ID.width) := by
    rw [length_written]
    exact (setShape_spec hshape).1
  have hready := ready_setJson memory hversion hdata
  refine ⟨_, hready, ?_⟩
  intro model_type files
  have hheight : (setJson memory.construct p).input_height_ = version_ID.height := hready.height
  have hwidth : (setJson memory.construct p).input_width_ = version_ID.width := hready.width
  unfold DetImpl.init createGraph
  simp only [hversion, hheight, hwidth, Int.toNat_natCast, hshape]
  split <;> rfl

omit [Field K] [LinearOrder K] [IsStrictOrderedRing K] in
/-- The networks before the detector are loaded as long as the engine takes them. -/
theorem forM_createGraph (E : Tengine) (model_type : String) (inPath : String → String) :
    ∀ models : List (List String),
      (models.forM fun files => createGraph E model_type (files.map inPath)) =
        if ∀ files ∈ models, E.create_graph model_type (files.map inPath) = true then .ok ()
        else .error .ended := by
  intro models
  induction models with
  | nil => rfl
  | cons files models ih =>
    show (do
      createGraph E model_type (files.map inPath)
      models.forM fun files => createGraph E model_type (files.map inPath)) = _
    rw [ih, createGraph]
    simp only [List.forall_mem_cons]
    by_cases hfiles : E.create_graph model_type (files.map inPath) = true
    · rw [if_pos hfiles]
      simp only [hfiles, true_and]
      rfl
    · simp only [hfiles]
      rfl

/-- **The start**: `NNSDK::init` returns if the engine takes all the files and the version is one with
two of them, and only then; the detector is ready. -/
theorem NNSDK.init_spec (E : Tengine) (memory : Detector K) (model_path : String) (p : DetParam K) :
    ((∃ s, NNSDK.init E memory model_path p = .ok s) ↔
      E.request_tengine_version = true ∧
        (∀ files ∈ otherModels, E.create_graph "caffe" (files.map (model_path ++ "/" ++ ·)) = true) ∧
        ∃ version_ID, p.version_ID = some version_ID ∧ version_ID ≠ .e_vehicle_v1 ∧
          E.create_graph "caffe" (version_ID.files.map (model_path ++ "/" ++ ·)) = true) ∧
    ∀ s, NNSDK.init E memory model_path p = .ok s →
      ∃ version_ID, p.version_ID = some version_ID ∧ Ready p version_ID s := by
  have hfail : ∀ {P : Prop} {e : Failure}, NNSDK.init E memory model_path p = .error e → ¬ P →
      ((∃ s, NNSDK.init E memory model_path p = .ok s) ↔ P) ∧
      ∀ s, NNSDK.init E memory model_path p = .ok s →
        ∃ version_ID, p.version_ID = some version_ID ∧ Ready p version_ID s := by
    intro P e he hP
    rw [he]
    exact ⟨iff_of_false (fun ⟨s, hs⟩ => nomatch hs) hP, fun s hs => nomatch hs⟩
  by_cases hengine : E.request_tengine_version = true
  -- in the order of the source: the engine, the other models, then the detector
  swap
  · apply hfail (e := .ended)
    · simp only [NNSDK.init, Bool.not_eq_true _ ▸ hengine]
      rfl
    · exact fun h => hengine h.1
  by_cases hothers : ∀ files ∈ otherModels,
      E.create_graph "caffe" (files.map (model_path ++ "/" ++ ·)) = true
  swap
  · apply hfail (e := .ended)
    · simp only [NNSDK.init, hengine, forM_createGraph, if_neg hothers]
      rfl
    · exact fun h => hothers h.2.1
  have hinit : NNSDK.init E memory model_path p = (do
      let second := (p.version_ID.map EModelID.files).getD []
      let prototxt ← subscript second 0
      let caffemodel ← subscript second 1
      DetImpl.init E memory p "caffe"
        [model_path ++ "/" ++ prototxt, model_path ++ "/" ++ caffemodel]) := by
    simp only [NNSDK.init, hengine, forM_createGraph, if_pos hothers, second_eq]
    rfl
  obtain hversion | ⟨version_ID, hversion⟩ := Option.eq_none_or_eq_some p.version_ID
  · apply hfail (e := .outOfRange)
    · rw [hinit, hversion]
      rfl
    · rintro ⟨-, -, version_ID, hsome, -⟩
      rw [hversion] at hsome
      cases hsome
  obtain ⟨s, hready, hgraph⟩ := DetImpl.init_of_known E memory hversion
  by_cases hvehicle : version_ID = .e_vehicle_v1
  · -- there is one file, and the second is asked for
    apply hfail (e := .outOfRange)
    · rw [hinit, hversion, hvehicle]
      rfl
    · rintro ⟨-, -, version_ID', hsome, hother, -⟩
      rw [hversion] at hsome
      exact hother ((Option.some.inj hsome).symm.trans hvehicle)
  have htwo : NNSDK.init E memory model_path p =
      if E.create_graph "caffe" (version_ID.files.map (model_path ++ "/" ++ ·)) then .ok s
      else .error .ended := by
    rw [hinit, hversion]
    cases version_ID with
    | e_vehicle_v1 => exact absurd rfl hvehicle
    | _ => exact hgraph _ _
  by_cases hfiles : E.create_graph "caffe" (version_ID.files.map (model_path ++ "/" ++ ·)) = true
  · rw [if_pos hfiles] at htwo
    rw [htwo]
    refine ⟨iff_of_true ⟨s, rfl⟩ ⟨hengine, hothers, version_ID, hversion, hvehicle, hfiles⟩, ?_⟩
    intro s' hs'
    obtain rfl := Except.ok.inj hs'
    exact ⟨version_ID, hversion, hready⟩
  · rw [if_neg hfiles] at htwo
    apply hfail htwo
    rintro ⟨-, -, version_ID', hsome, -, hfiles'⟩
    rw [hversion] at hsome
    obtain rfl := Option.some.inj hsome
    exact hfiles hfiles'

end

/-! ## One frame -/

section

variable [Field K] [LinearOrder K] [IsStrictOrderedRing K] {p : DetParam K}
  {version_ID : EModelID} {resize : Picture → Nat → Nat → Picture} {exp : K → K} {S : Sorter K}
  {s : DetImpl K}

omit [IsStrictOrderedRing K] in
/-- The image goes into the storage, and leaves its size behind. -/
theorem Ready.preProcess (h : Ready p version_ID s)
    (hresize : ∀ image w h, (resize image w h).data.length = 3 * (h * w)) (image : Picture) :
    ∃ s', s.preProcess resize image = .ok s' ∧ Ready p version_ID s' ∧
      s'.processsF_.toDetect = detectFor p version_ID image ∧
      Given resize version_ID image (s'.impl none).1 := by
  have hheight : s.processsF_.input_height_.toNat = version_ID.height := by
    rw [h.height]
    exact Int.toNat_natCast _
  have hwidth : s.processsF_.input_width_.toNat = version_ID.width := by
    rw [h.width]
    exact Int.toNat_natCast _
  -- every cell of the storage is written, so nothing of the last image is left
  obtain ⟨copying, hrun, hcopied⟩ := @input_transform_copied K _ _ detectMeans s.pre_data_ _ _
    (hresize image version_ID.width version_ID.height) h.storage (height_mul_width version_ID)
  have hmembers := h.members image
  refine ⟨⟨{ s.processsF_ with
    toDetect := s.processsF_.toDetect.preProcess image.rows image.cols }, copying.input_data⟩,
    ?_, ?_, hmembers, ?_⟩
  · rw [DetImpl.preProcess, hheight, hwidth]
    simp only [hrun]
    rfl
  · refine ⟨fun image' => ?_, h.height, h.width, h.box, h.score, h.names, hcopied.length_eq⟩
    show (s.processsF_.toDetect.preProcess image.rows image.cols).preProcess image'.rows
      image'.cols = _
    rw [← h.members image']
    rfl
  · constructor
    · show [1, 3, s.processsF_.input_height_, s.processsF_.input_width_] = _
      rw [h.height, h.width]
    · exact hcopied.length_eq
    · intro plane m hm
      have hlt : 3 * m + plane.rev <
          (resize image version_ID.width version_ID.height).data.length := by
        rw [hresize]
        have hrev := plane.rev.isLt
        omega
      have hb := List.getElem?_eq_getElem hlt
      refine ⟨_, hb, ?_⟩
      rw [← planeValue_eq rfl hb]
      exact hcopied.value_eq plane m hm

/-- The anchors of a version have a size. -/
theorem anchors_nonneg (version_ID : EModelID) :
    ∀ prior ∈ (anchorGrid version_ID : List (Prior K)), 0 ≤ prior.w ∧ 0 ≤ prior.h := by
  intro prior hprior
  obtain ⟨l, -, hprior⟩ := List.mem_flatMap.mp hprior
  obtain ⟨j, -, hprior⟩ := List.mem_flatMap.mp hprior
  obtain ⟨i, -, hprior⟩ := List.mem_flatMap.mp hprior
  obtain ⟨box, -, rfl⟩ := List.mem_map.mp hprior
  exact ⟨(clip_mem _).1, (clip_mem _).1⟩

omit [IsStrictOrderedRing K] in
/-- The blobs are found under their names, or not at all. -/
theorem Ready.postProcess (h : Ready p version_ID s) (answer : Answer K) :
    s.processsF_.postProcess exp S (s.impl answer).2 [] =
      match answer with
      | none => .error .nullPointer
      | some blobs => (Api.postProcess exp S s.processsF_.toDetect (blobs "cat_blob3")
          (blobs "softmax_blob1")).mapError Failure.abort := by
  simp only [Detector.postProcess, DetImpl.impl, h.names, h.box, h.score]
  cases answer with
  | none => rfl
  | some blobs =>
    show (do
      let boxes ← (Api.postProcess exp S s.processsF_.toDetect (blobs "cat_blob3")
          (blobs "softmax_blob1")).mapError Failure.abort
      return [] ++ boxes) = (Api.postProcess exp S s.processsF_.toDetect (blobs "cat_blob3")
          (blobs "softmax_blob1")).mapError Failure.abort
    generalize Api.postProcess exp S s.processsF_.toDetect _ _ = returned
    cases returned with
    | error e => rfl
    | ok boxes => rfl

/-- **One frame** of a ready detector: it stays ready, and what it does is what the image and the
answer are due. Without an answer it reads the scores behind a null pointer.

The cases are those of the code: an empty image, an engine that fails, an answer. -/
theorem Ready.run (h : Ready p version_ID s) (hexp : ∀ x, 0 < exp x)
    (hresize : ∀ image w h, (resize image w h).data.length = 3 * (h * w)) (image : Picture)
    (answer : Answer K) :
    if image.rows * image.cols ≠ 0 ∧ answer = none then
      s.run resize exp S image answer [] = .error .nullPointer
    else ∃ s' tensor boxes, s.run resize exp S image answer [] = .ok (s', tensor, boxes) ∧
      Ready p version_ID s' ∧ Detects resize exp p version_ID ⟨image, answer, tensor, boxes⟩ := by
  by_cases himage : image.rows * image.cols = 0
  · rw [DetImpl.run, if_pos himage, if_neg fun hno => hno.1 himage]
    exact ⟨s, none, [], rfl, h, .empty himage rfl rfl⟩
  obtain ⟨s', hpre, hready, hmembers, hgiven⟩ := h.preProcess hresize image
  -- an image with pixels passes through the storage to the network
  have hrun : s.run resize exp S image answer [] = (do
      let boxes ← s'.processsF_.postProcess exp S (s'.impl answer).2 []
      return (s', some (s'.impl none).1, boxes)) := by
    rw [DetImpl.run, if_neg himage, hpre]
    rfl
  rw [hrun, hready.postProcess, hmembers]
  cases answer with
  | none =>
    rw [if_pos ⟨himage, rfl⟩]
    rfl
  | some blobs =>
    rw [if_neg fun hno => nomatch hno.2]
    obtain ⟨boxes, hok, howed⟩ := postProcess_owed (D := detectFor p version_ID image) S hexp
      (length_anchorGrid version_ID) (anchors_nonneg version_ID) (Int.natCast_nonneg _)
      (Int.natCast_nonneg _) (blobs "cat_blob3") (blobs "softmax_blob1")
    simp only [hok]
    exact ⟨s', _, boxes, rfl, hready, .frame himage _ rfl hgiven blobs rfl howed⟩

/-- A call that has returned on a ready detector. -/
theorem Ready.detected (h : Ready p version_ID s) (hexp : ∀ x, 0 < exp x)
    (hresize : ∀ image w h, (resize image w h).data.length = 3 * (h * w)) {e : Detection K}
    {s' : DetImpl K} (he : Detected resize exp S s e s') :
    Ready p version_ID s' ∧ Detects resize exp p version_ID e := by
  have hframe := h.run (S := S) hexp hresize e.image e.answer
  split at hframe
  · rw [Detected, hframe] at he
    cases he
  · obtain ⟨s'', tensor, boxes, hok, hready, hdetects⟩ := hframe
    rw [Detected, hok] at he
    obtain ⟨rfl, htensor, hboxes⟩ : s'' = s' ∧ tensor = e.tensor ∧ boxes = e.boxes := by
      simpa using he
    subst htensor hboxes
    exact ⟨hready, hdetects⟩

end

/-! ## Every frame -/

section

variable [Field K] [LinearOrder K] [IsStrictOrderedRing K]

/-- **Detection from the image to the boxes.** Once `NNSDK::init` has returned, for a version that
has two model files, every call of `sdk::detect` in every run does what its own image and the answer
of the network to it are due, whatever the calls before it were; and in every state of a run a call
returns unless the image is not empty and the engine fails.

A detector that is ready stays so (`Ready.run`), so that the theorem about one frame holds of each.
What a frame before has left in the storage is overwritten, by `input_transform_planar`; its size is
set anew; and `priors` and the tables do not change after the start. -/
theorem NNSDK.detects (E : Tengine) (memory : Detector K) (model_path : String) (p : DetParam K)
    (resize : Picture → Nat → Nat → Picture) (exp : K → K) (S : Sorter K)
    (hexp : ∀ x, 0 < exp x)
    (hresize : ∀ image w h, (resize image w h).data.length = 3 * (h * w)) {s₀ s : DetImpl K}
    (hinit : NNSDK.init E memory model_path p = .ok s₀) {es : List (Detection K)}
    (hrun : Trace (Detected resize exp S) s₀ es s) :
    ∃ version_ID, p.version_ID = some version_ID ∧ version_ID ≠ .e_vehicle_v1 ∧
      (∀ e ∈ es, Detects resize exp p version_ID e) ∧
      ∀ image answer, (∃ r, s.run resize exp S image answer [] = .ok r) ↔
        (image.rows * image.cols ≠ 0 → answer ≠ none) := by
  obtain ⟨hreturns, hready⟩ := NNSDK.init_spec E memory model_path p
  obtain ⟨-, -, version_ID, hversion, hvehicle, -⟩ := hreturns.mp ⟨s₀, hinit⟩
  obtain ⟨version_ID', hversion', hstart⟩ := hready s₀ hinit
  obtain rfl : version_ID = version_ID' := Option.some.inj (hversion.symm.trans hversion')
  -- being ready is what one call leaves to the next
  obtain ⟨hs, hall⟩ : Ready p version_ID s ∧ ∀ e ∈ es, Detects resize exp p version_ID e := by
    refine Trace.history (H := fun es s => Ready p version_ID s ∧
      ∀ e ∈ es, Detects resize exp p version_ID e) ⟨hstart, by simp⟩ ?_ hrun
    intro es s e s' _ ih he
    obtain ⟨hs', hdetects⟩ := ih.1.detected hexp hresize he
    refine ⟨hs', ?_⟩
    intro e' he'
    obtain he' | he' := List.mem_append.mp he'
    · exact ih.2 e' he'
    · rw [List.mem_singleton.mp he']
      exact hdetects
  refine ⟨version_ID, hversion, hvehicle, hall, ?_⟩
  intro image answer
  have hframe := hs.run (S := S) hexp hresize image answer
  split at hframe
  · rename_i hfails
    rw [hframe]
    refine iff_of_false (fun ⟨r, hr⟩ => nomatch hr) ?_
    exact fun hanswered => hanswered hfails.1 hfails.2
  · rename_i hreturned
    obtain ⟨s', tensor, boxes, hok, -⟩ := hframe
    exact iff_of_true ⟨_, hok⟩ fun himage hnone => hreturned ⟨himage, hnone⟩

omit [IsStrictOrderedRing K] in
/-- With one anchor above the threshold, of a version that knows one class, its box is all there is. -/
theorem owed_one {exp : K → K} {D : Detect K} {box score : Nat → K}
    {boxes : List (Box K)} (h : Owed exp D box score boxes) (hclasses : D.num_of_class = 2)
    {j : Nat} {prior : Prior K}
    (hscored : scoredAnchors D score 1 (List.range D.num_anchors) = [j])
    (hprior : D.priors[j]? = some prior) :
    boxes = [decodeBox exp D box prior j (anchorScore D score 1 j) 1] := by
  obtain ⟨proposals, kept, rfl, hclass⟩ := h.account
  rw [hclasses] at hclass ⊢
  obtain ⟨hdecodes, hsuppressed⟩ := hclass 1 (List.mem_singleton_self 1)
  rw [hscored] at hdecodes
  obtain ⟨b, rest, hb, hrest, hone⟩ := List.forall₂_cons_left_iff.mp hdecodes
  obtain rfl := List.forall₂_nil_left_iff.mp hrest
  obtain ⟨prior', hprior', rfl⟩ := hb
  obtain rfl := Option.some.inj (hprior'.symm.trans hprior)
  obtain ⟨sources, dropped, hkept, hperm, hcovered⟩ := hsuppressed.account
  rw [hone, List.perm_singleton] at hperm
  have hsources : sources ≠ [] := by
    rintro rfl
    obtain ⟨b, hb, -⟩ := hcovered _ (hperm ▸ List.mem_singleton_self _)
    rw [hkept] at hb
    cases hb
  obtain ⟨a, sources, rfl⟩ := List.exists_cons_of_ne_nil hsources
  obtain ⟨rfl, hrest⟩ := List.cons.inj hperm
  obtain ⟨rfl, -⟩ := List.append_eq_nil_iff.mp hrest
  show kept 1 ++ [] = _
  rw [hkept]
  rfl

/-- An engine that takes every file. -/
def willing : Tengine := ⟨true, fun _ _ => true⟩

/-- A resizing function that paints the image black. -/
def blackened (_ : Picture) (w h : Nat) : Picture := ⟨h, w, List.replicate (3 * (h * w)) 0⟩

/-- It has the size it was asked for. -/
theorem length_blackened (image : Picture) (w h : Nat) :
    (blackened image w h).data.length = 3 * (h * w) := List.length_replicate

/-- The network sees somebody at the first anchor. -/
def firstAnchor (name : String) (n : Nat) : ℚ :=
  if name = "softmax_blob1" ∧ n = 1 then 9 / 10 else 0

/-- The box of the first anchor in an image of 540 rows. -/
def firstBox : Box ℚ := ⟨0, 0, 115881 / 8000, 36753 / 1600, 9 / 10, 1⟩

/-- The detector that monitors, for an image of this size. -/
def watching : Detect ℚ :=
  detectFor (halves "Monitor_V1") .e_monitor_v1 ⟨540, 960, []⟩

/-- No other anchor is above the threshold. -/
theorem firstAnchor_scored (n : Nat) : scoredAnchors watching (firstAnchor "softmax_blob1") 1
    (List.range (n + 1)) = [0] := by
  have hfirst : anchorScore watching (firstAnchor "softmax_blob1") 1 0 = 9 / 10 := rfl
  have hothers : ∀ k, anchorScore watching (firstAnchor "softmax_blob1") 1 (k + 1) = 0 := by
    intro k
    show firstAnchor "softmax_blob1" ((k + 1) * 2 + 1) = 0
    rw [firstAnchor, if_neg (by omega)]
  have hthreshold : watching.score_threshold = 1 / 2 := rfl
  rw [List.range_succ_eq_map, scoredAnchors, List.filter_cons_of_pos,
    List.filter_eq_nil_iff.mpr]
  · intro j hj
    obtain ⟨k, -, rfl⟩ := List.mem_map.mp hj
    rw [hothers, hthreshold]
    norm_num
  · rw [hfirst, hthreshold]
    norm_num

/-- The SDK finds one person. -/
theorem firstAnchor_found (data : Bytes) {s : DetImpl ℚ}
    (h : Ready (halves "Monitor_V1") .e_monitor_v1 s) :
    ∃ s' tensor, s.run blackened (fun _ => 1) Sorter.merge ⟨540, 960, data⟩ (some firstAnchor) [] =
      .ok (s', tensor, [firstBox]) ∧ Ready (halves "Monitor_V1") .e_monitor_v1 s' := by
  have hexp : ∀ x : ℚ, 0 < (fun _ : ℚ => (1 : ℚ)) x := fun _ => one_pos
  have hframe := h.run (S := Sorter.merge) hexp length_blackened ⟨540, 960, data⟩ (some firstAnchor)
  rw [if_neg fun hno => nomatch hno.2] at hframe
  obtain ⟨s', tensor, boxes, hrun, hready, hdetects⟩ := hframe
  refine ⟨s', tensor, ?_, hready⟩
  rw [hrun]
  obtain ⟨hempty, -, -⟩ | ⟨-, -, -, -, blobs, hanswer, howed⟩ := hdetects
  · cases hempty
  obtain rfl := Option.some.inj hanswer
  have hprior : watching.priors[0]? = some ⟨1 / 160, 1 / 90, 22627 / 1280000, 3017 / 48000⟩ := by
    decide +kernel
  obtain rfl := owed_one (D := watching) howed rfl (firstAnchor_scored 28919) hprior
  have hbox : decodeBox (fun _ => 1) watching (firstAnchor "cat_blob3")
      ⟨1 / 160, 1 / 90, 22627 / 1280000, 3017 / 48000⟩ 0
      (anchorScore watching (firstAnchor "softmax_blob1") 1 0) 1 = firstBox := by
    decide +kernel
  exact congrArg (fun b => Except.ok (s', tensor, [b])) hbox

/-- The monitor's version on a frame in which the network sees somebody, and on one that it does not
answer to. -/
theorem NNSDK.detects_monitor : ∃ s₀ s tensor,
    NNSDK.init willing cleared "models" (halves "Monitor_V1") = .ok s₀ ∧
      s₀.run blackened (fun _ => 1) Sorter.merge ⟨540, 960, []⟩ (some firstAnchor) [] =
        .ok (s, tensor, [firstBox]) ∧
      Detects blackened (fun _ => 1) (halves "Monitor_V1") .e_monitor_v1
        ⟨⟨540, 960, []⟩, some firstAnchor, tensor, [firstBox]⟩ ∧
      ¬ ∃ r, s.run blackened (fun _ => 1) Sorter.merge ⟨540, 960, []⟩ none [] = .ok r := by
  have hmonitor : (halves "Monitor_V1").version_ID = some .e_monitor_v1 := by decide
  have hspec := NNSDK.init_spec willing cleared "models" (halves "Monitor_V1")
  obtain ⟨s₀, hinit⟩ := hspec.1.mpr ⟨rfl, fun _ _ => rfl, .e_monitor_v1, hmonitor, by decide, rfl⟩
  obtain ⟨version_ID, hversion, hready⟩ := hspec.2 s₀ hinit
  obtain rfl : .e_monitor_v1 = version_ID := Option.some.inj (hmonitor.symm.trans hversion)
  obtain ⟨s, tensor, hcall, -⟩ := firstAnchor_found [] hready
  let e : Detection ℚ := ⟨⟨540, 960, []⟩, some firstAnchor, tensor, [firstBox]⟩
  have hone : Trace (Detected blackened (fun _ : ℚ => 1) Sorter.merge) s₀ [e] s :=
    ⟨s, hcall, rfl⟩
  obtain ⟨version_ID, hversion, -, hdetects, hnext⟩ := NNSDK.detects willing cleared "models"
    (halves "Monitor_V1") blackened (fun _ => 1) Sorter.merge (fun _ => one_pos) length_blackened
    hinit hone
  obtain rfl : .e_monitor_v1 = version_ID := Option.some.inj (hmonitor.symm.trans hversion)
  refine ⟨s₀, s, tensor, hinit, hcall, hdetects e (by simp), ?_⟩
  rw [hnext]
  exact fun hanswered => hanswered (by decide) rfl

end

end EdgeFrame.Api
