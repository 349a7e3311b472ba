/-
# EdgeFrame.Track.Objects -- people, boxes and the tracker's settings

The data of the tracker. `float` and `double` are the elements of an ordered field,
so that arithmetic is exact; frame ids and timestamps are the machine's 64-bit words
and their differences wrap as the source's do; `int` counters that grow by one a
frame are integers.

A `PersonObject` that is built without a face box has members that its constructor
never assigns. They are not zero: they are whatever the memory held, which the model
receives as an `Unassigned` of its own for every object.
-/
import EdgeFrame.Abort
import Mathlib

namespace EdgeFrame.Track

variable {K : Type}

/-! ## Boxes -/

/-- `cv::Rect_<T>`. -/
structure Rect (α : Type) where
  x : α
  y : α
  width : α
  height : α
  deriving DecidableEq, Repr

/-- `Rect_::area`. -/
def Rect.area {α : Type} [Mul α] (r : Rect α) : α := r.width * r.height

/-- `a & b`: an intersection without extent is the empty rectangle. -/
def Rect.inter [Field K] [LinearOrder K] (a b : Rect K) : Rect K :=
  let x1 := max a.x b.x
  let y1 := max a.y b.y
  let width := min (a.x + a.width) (b.x + b.width) - x1
  let height := min (a.y + a.height) (b.y + b.height) - y1
  if width ≤ 0 ∨ height ≤ 0 then ⟨0, 0, 0, 0⟩ else ⟨x1, y1, width, height⟩

/-- The conversion of a `Rect_<float>` to a `Rect`, each member by `cvRound`. -/
def Rect.round (cvRound : K → Int) (r : Rect K) : Rect Int :=
  ⟨cvRound r.x, cvRound r.y, cvRound r.width, cvRound r.height⟩

/-- Which of the two boxes of an object. -/
inductive BBoxType where
  | face
  | body
  deriving DecidableEq, Repr

/-- A box with its score, and the frame and the time it was seen at. -/
structure BBoxMessage (K : Type) where
  update_timestamp : UInt64
  update_frame_id : UInt64
  score : K
  bbox_rect : Rect K
  deriving DecidableEq

/-- A feature, with the frame and the time it was extracted at. -/
structure FeatureMessage (K : Type) where
  update_timestamp : UInt64
  update_frame_id : UInt64
  tengine_feature : List K
  deriving DecidableEq

/-! ## People -/

/-- Whether an object has been seen often enough. -/
inductive ObjectStatus where
  | unconfirmed
  | confirmed
  deriving DecidableEq, Repr

/-- The members of `PersonObject` that the tracker reads or writes. -/
structure PersonObject (K : Type) where
  id : Int
  is_current_frame_matched_or_new : Bool
  is_previous_frame_body_bbox_area_bigger_than_thresh : Bool
  previous_body_bbox_area_bigger_than_thresh_timestamp : UInt64
  previous_body_bbox_area_bigger_than_thresh_frame_id : UInt64
  duration : UInt64
  is_current_face_detected : Bool
  is_current_body_detected : Bool
  object_status : ObjectStatus
  body_hit_num : Int
  last_updated_face_bbox : BBoxMessage K
  last_updated_body_bbox : BBoxMessage K
  last_updated_body_feature_message : FeatureMessage K
  face_trajectory : List (BBoxMessage K)
  body_trajectory : List (BBoxMessage K)
  feature_messages : List (FeatureMessage K)
  deriving DecidableEq

/-- What a `BBoxMessage` holds before anything is assigned to it; its rectangle has a constructor
and is empty. -/
structure UnassignedBBox (K : Type) where
  update_timestamp : UInt64
  update_frame_id : UInt64
  score : K

/-- What a `PersonObject` holds in the members that have no initialiser. -/
structure Unassigned (K : Type) where
  previous_body_bbox_area_bigger_than_thresh_timestamp : UInt64
  previous_body_bbox_area_bigger_than_thresh_frame_id : UInt64
  last_updated_face_bbox : UnassignedBBox K
  last_updated_body_bbox : UnassignedBBox K
  feature_timestamp : UInt64
  feature_frame_id : UInt64

section

variable [Field K]

/-- The box member of a new object: assigned from the pointer, or left as it was. -/
def assigned (u : UnassignedBBox K) : Option (BBoxMessage K) → BBoxMessage K
  | some bbox => bbox
  | none => ⟨u.update_timestamp, u.update_frame_id, u.score, ⟨0, 0, 0, 0⟩⟩

/-- The trajectory of a new object: the constructor pushes the box twice. -/
def firstTrajectory : Option (BBoxMessage K) → List (BBoxMessage K)
  | some bbox => [bbox, bbox]
  | none => []

/-- The constructor `PersonObject(face_bbox, body_bbox, timestamp, frame_id, p_id)`, a null pointer
being `none`; it does not use the timestamp and the frame id. -/
def PersonObject.new (u : Unassigned K) (face_bbox body_bbox : Option (BBoxMessage K))
    (p_id : Int) : PersonObject K where
  id := p_id
  is_current_frame_matched_or_new := false
  is_previous_frame_body_bbox_area_bigger_than_thresh := false
  previous_body_bbox_area_bigger_than_thresh_timestamp :=
    u.previous_body_bbox_area_bigger_than_thresh_timestamp
  previous_body_bbox_area_bigger_than_thresh_frame_id :=
    u.previous_body_bbox_area_bigger_than_thresh_frame_id
  duration := 0
  is_current_face_detected := face_bbox.isSome
  is_current_body_detected := body_bbox.isSome
  object_status := .unconfirmed
  body_hit_num := 0
  last_updated_face_bbox := assigned u.last_updated_face_bbox face_bbox
  last_updated_body_bbox := assigned u.last_updated_body_bbox body_bbox
  last_updated_body_feature_message := ⟨u.feature_timestamp, u.feature_frame_id, []⟩
  face_trajectory := firstTrajectory face_bbox
  body_trajectory := firstTrajectory body_bbox
  feature_messages := []

end

/-- `last_updated_face_bbox` or `last_updated_body_bbox`. -/
def PersonObject.lastBBox (o : PersonObject K) : BBoxType → BBoxMessage K
  | .face => o.last_updated_face_bbox
  | .body => o.last_updated_body_bbox

/-- `is_current_face_detected` or `is_current_body_detected`. -/
def PersonObject.detected (o : PersonObject K) : BBoxType → Bool
  | .face => o.is_current_face_detected
  | .body => o.is_current_body_detected

/-! ## Settings and the current frame -/

/-- `cv::Mat`. -/
structure Mat where
  rows : Int
  cols : Int
  data : List UInt8

/-- The public members of `Tracker` that configure it, with the values they start with. -/
structure Thresholds (K : Type) [Field K] where
  iou_thresh : K := 45 / 100
  cos_similarity_thresh : K := 5 / 10
  hit_num_thresh : Int := 3
  trajectory_size : Int := 100
  feature_vec_size : Int := 10
  body_bbox_area_bigger_than_thresh_frame_interval : Int := 10
  lost_track_thresh : Int := 10
  expired_to_delete_thresh : Int := 100
  feature_extract_thresh : Int := 2
  bbox_area_extract_feature_thresh : K := 50000 / (960 * 540)
  body_residence_area_thresh : K := 7 / 10 * (50000 / (960 * 540))
  valid_leave_with_reid : Bool := true

/-- The settings of a new `Tracker`. -/
def Thresholds.initial [Field K] : Thresholds K := {}

/-- A configured tracker with the functions it calls in libraries: `sqrt`, OpenCV's `cvRound`, and
the 512 numbers that the network behind `sdk::reid` answers for a crop of a frame. -/
structure Setup (K : Type) [Field K] extends Thresholds K where
  sqrt : K → K
  cvRound : K → Int
  reid : Mat → Rect Int → Fin 512 → K

/-- The settings that `MonitorProcessor::init` changes. -/
def Setup.configure [Field K] (P : Setup K) : Setup K :=
  { P with
    bbox_area_extract_feature_thresh := 1
    iou_thresh := 3 / 10
    valid_leave_with_reid := false }

/-- What `Update` stores about the frame it is called for. -/
structure CurrentFrame where
  p_cur_process_frame_mat_ : Mat
  cur_process_frame_timestamp_ : UInt64
  cur_process_frame_id_ : UInt64

/-- An `int` where the source compares it with an `unsigned long long` or a `size_t`. -/
def asUnsigned (n : Int) : Nat := (n % 2 ^ 64).toNat

/-- `frame_id - message.update_frame_id > thresh`. -/
def olderThan (frame_id : UInt64) (message : BBoxMessage K) (thresh : Int) : Bool :=
  asUnsigned thresh < (frame_id - message.update_frame_id).toNat

/-- `last_updated_body_bbox.bbox_rect.area() / (rows * cols) > thresh`; without pixels the quotient
is infinite or not a number, as floating point has it. -/
def bodyAreaAbove [Field K] [LinearOrder K] (cur : CurrentFrame) (o : PersonObject K) (thresh : K) :
    Bool :=
  let area := o.last_updated_body_bbox.bbox_rect.area
  let pixels := cur.p_cur_process_frame_mat_.rows * cur.p_cur_process_frame_mat_.cols
  if pixels = 0 then 0 < area else thresh < area / pixels

/-- `while (v.size() > limit) v.erase(v.begin())`. -/
def trimFront {α : Type} (limit : Nat) : List α → List α
  | [] => []
  | x :: xs => if limit < (x :: xs).length then trimFront limit xs else x :: xs

/-- What is erased is at the front. -/
theorem trimFront_eq_drop {α : Type} (limit : Nat) :
    ∀ l : List α, trimFront limit l = l.drop (l.length - limit) := by
  intro l
  induction l with
  | nil =>
    simp [trimFront]
  | cons x xs ih =>
    unfold trimFront
    split
    · rename_i h
      have hlen : (x :: xs).length - limit = (xs.length - limit) + 1 := by
        simp only [List.length_cons] at h ⊢
        omega
      rw [ih, hlen, List.drop_succ_cons]
    · rename_i h
      rw [Nat.sub_eq_zero_of_le (Nat.not_lt.mp h), List.drop_zero]

/-- Nothing is added. -/
theorem mem_of_mem_trimFront {α : Type} {limit : Nat} {l : List α} {x : α}
    (h : x ∈ trimFront limit l) : x ∈ l := by
  rw [trimFront_eq_drop] at h
  exact List.mem_of_mem_drop h

end EdgeFrame.Track
