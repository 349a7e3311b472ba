/-
# EdgeFrame.Track.Update -- `Tracker::Update`

The tracker's step, function by function. The vectors that the source passes by
reference are arguments and results here; the erase loops are `eraseLoop` with the
decision of their body. Beside what the source's reference parameters receive, `Result`
carries two records for the statements about it: the calls of
`UpdateMatchedObjectStatus` that were made, and the objects that were added.
-/
import EdgeFrame.Lib.EraseLoop
import EdgeFrame.Track.Match
import Mathlib

namespace EdgeFrame.Track

open Lib

variable {K : Type} [Field K] [LinearOrder K]

/-! ## A matched object -/

/-- One call of `UpdateMatchedObjectStatus`: its two arguments, and the object afterwards. A result
has them in the order in which they were made. -/
structure Attachment (K : Type) where
  object : PersonObject K
  detection : PersonObject K
  updated : PersonObject K

/-- Set `is_current_frame_matched_or_new`. -/
def PersonObject.mark (o : PersonObject K) : PersonObject K :=
  { o with is_current_frame_matched_or_new := true }

/-- Whether a matched object gets another feature, by its count and the frames since the last one. -/
def IsObjectNeedExtractFeature (P : Setup K) (cur : CurrentFrame) (o : PersonObject K) : Bool :=
  o.object_status = .unconfirmed || o.last_updated_body_feature_message.tengine_feature.isEmpty ||
    asUnsigned P.feature_extract_thresh <
      (cur.cur_process_frame_id_ - o.last_updated_body_feature_message.update_frame_id).toNat

/-- The feature of the detection is extracted, if need be, and stored with the object. -/
def storeFeature (P : Setup K) (cur : CurrentFrame) (o d : PersonObject K) :
    Except Abort (PersonObject K × PersonObject K) :=
  if IsObjectNeedExtractFeature P cur o &&
      bodyAreaAbove cur d P.bbox_area_extract_feature_thresh then do
    let d ← extractFeature P cur d
    return ({ o with
      last_updated_body_feature_message := d.last_updated_body_feature_message
      feature_messages := trimFront (asUnsigned P.feature_vec_size)
        (o.feature_messages ++ [d.last_updated_body_feature_message]) }, d)
  else .ok (o, d)

/-- The hit is counted and the body box taken over. -/
def takeBody (P : Setup K) (o : PersonObject K) (body_bbox : BBoxMessage K) : PersonObject K :=
  { o with
    body_hit_num := o.body_hit_num + 1
    object_status := if P.hit_num_thresh < o.body_hit_num + 1 then .confirmed else o.object_status
    is_current_body_detected := true
    last_updated_body_bbox := body_bbox
    body_trajectory := trimFront (asUnsigned P.trajectory_size) (o.body_trajectory ++ [body_bbox]) }

/-- The face box is taken over, if there is one. -/
def takeFace (P : Setup K) (o d : PersonObject K) : PersonObject K :=
  if d.is_current_face_detected then
    { o with
      is_current_face_detected := true
      last_updated_face_bbox := d.last_updated_face_bbox
      face_trajectory := trimFront (asUnsigned P.trajectory_size)
        (o.face_trajectory ++ [d.last_updated_face_bbox]) }
  else { o with is_current_face_detected := false }

/-- `UpdateMatchedObjectStatus`: the tracked object and the detection afterwards. -/
def UpdateMatchedObjectStatus (P : Setup K) (cur : CurrentFrame)
    (tracked_person_object cur_detect_person_object : PersonObject K) :
    Except Abort (PersonObject K × PersonObject K) := do
  let o := tracked_person_object.mark
  let d := cur_detect_person_object.mark
  if d.is_current_body_detected then
    let (o, d) ← storeFeature P cur o d
    return (takeFace P (takeBody P o d.last_updated_body_bbox) d, d)
  else return (takeFace P { o with is_current_body_detected := false } d, d)

/-! ## The loops -/

/-- The loop of `UpdateMatchedTrackedObjects`, which `UpdateMatchedExpiredObjects` starts with. -/
def UpdateMatchedTrackedObjects (P : Setup K) (cur : CurrentFrame) :
    List MatchPair → List (PersonObject K) → List (PersonObject K) →
      Except Abort (List (PersonObject K) × List (PersonObject K) × List (Attachment K))
  | [], ts, ds => .ok (ts, ds, [])
  | p :: match_pairs, ts, ds =>
    match ts[p.i_index]?, ds[p.j_index]? with
    | some o, some d => do
      let (o', d') ← UpdateMatchedObjectStatus P cur o d
      let (ts, ds, done) ← UpdateMatchedTrackedObjects P cur match_pairs
        (ts.set p.i_index o') (ds.set p.j_index d')
      return (ts, ds, ⟨o, d, o'⟩ :: done)
    | _, _ => .error .outOfRange

/-- The body of the second loop of `UpdateMatchedExpiredObjects`. -/
def matchedVerdict (o : PersonObject K) : Verdict :=
  if o.is_current_frame_matched_or_new then .move else .keep

/-- `UpdateMatchedExpiredObjects`: matched objects move to the end of the tracked ones. -/
def UpdateMatchedExpiredObjects (P : Setup K) (cur : CurrentFrame) (match_pairs : List MatchPair)
    (expired_person_objects ds trackedPersonObjects : List (PersonObject K)) : Except Abort
    (List (PersonObject K) × List (PersonObject K) × List (PersonObject K) ×
      List (Attachment K)) := do
  let (expired, ds, done) ← UpdateMatchedTrackedObjects P cur match_pairs expired_person_objects ds
  let (expired, tracked) ← Abort.ofFuel
    (eraseLoop matchedVerdict (expired.length + 1) 0 expired trackedPersonObjects)
  return (tracked, expired, ds, done)

/-- Both the face box and the body box are more than `thresh` frames old. -/
def bothOlderThan (frame_id : UInt64) (o : PersonObject K) (thresh : Int) : Bool :=
  olderThan frame_id o.last_updated_face_bbox thresh &&
    olderThan frame_id o.last_updated_body_bbox thresh

/-- The body of the loop of `UpdateUnMatchedTrackedObjectsStatus`. -/
def trackedVerdict (P : Setup K) (frame_id : UInt64) (o : PersonObject K) : Verdict :=
  if o.is_current_frame_matched_or_new then .keep
  else if o.object_status = .unconfirmed then .erase
  else if bothOlderThan frame_id o P.lost_track_thresh then
    if o.object_status = .confirmed then .move else .erase
  else .keep

/-- `UpdateUnMatchedTrackedObjectsStatus`: the tracked and the expired objects afterwards. -/
def UpdateUnMatchedTrackedObjectsStatus (P : Setup K) (frame_id : UInt64)
    (trackedPersonObjects expiredPersonObjects : List (PersonObject K)) :
    Except Abort (List (PersonObject K) × List (PersonObject K)) :=
  Abort.ofFuel (eraseLoop (trackedVerdict P frame_id) (trackedPersonObjects.length + 1) 0
    trackedPersonObjects expiredPersonObjects)

/-- Whether somebody who is deleted is reported: the trajectory has fifteen boxes, and, where that is
asked for, a feature is stored. -/
def CheckValidLeave (P : Setup K) (o : PersonObject K) : Bool :=
  if P.valid_leave_with_reid then !(o.body_trajectory.length < 15 || o.feature_messages.isEmpty)
  else 15 ≤ o.body_trajectory.length

/-- The body of the loop of `UpdateUnMatchedExpiredObjectsStatus`. -/
def expiredVerdict (P : Setup K) (frame_id : UInt64) (o : PersonObject K) : Verdict :=
  if bothOlderThan frame_id o P.expired_to_delete_thresh then
    if CheckValidLeave P o then .move else .erase
  else .keep

/-- `UpdateUnMatchedExpiredObjectsStatus`: the expired objects and the valid leaves afterwards. -/
def UpdateUnMatchedExpiredObjectsStatus (P : Setup K) (frame_id : UInt64)
    (expiredPersonObjects valid_leave_objects : List (PersonObject K)) :
    Except Abort (List (PersonObject K) × List (PersonObject K)) :=
  Abort.ofFuel (eraseLoop (expiredVerdict P frame_id) (expiredPersonObjects.length + 1) 0
    expiredPersonObjects valid_leave_objects)

/-- An `unsigned long long` stored in an `int`. -/
def asInt (n : UInt64) : Int := (n.toNat : Int).bmod (2 ^ 32)

/-- `AddUnMatchedCurDetectedObjects`: the detections afterwards, the objects that were pushed, and
the next id. -/
def AddUnMatchedCurDetectedObjects :
    List (PersonObject K) → UInt64 → List (PersonObject K) × List (PersonObject K) × UInt64
  | [], global_id => ([], [], global_id)
  | d :: ds, global_id =>
    if d.is_current_frame_matched_or_new then
      let (ds, created, next) := AddUnMatchedCurDetectedObjects ds global_id
      (d :: ds, created, next)
    else
      let d := { d.mark with id := asInt global_id }
      let (ds, created, next) := AddUnMatchedCurDetectedObjects ds (global_id + 1)
      (d :: ds, d :: created, next)

/-- The body of the loop of `AccumulateDuration`. -/
def accumulate (P : Setup K) (cur : CurrentFrame) (o : PersonObject K) : PersonObject K :=
  if o.is_current_frame_matched_or_new && o.is_current_body_detected &&
      bodyAreaAbove cur o P.body_residence_area_thresh then
    { o with
      duration :=
        if o.is_previous_frame_body_bbox_area_bigger_than_thresh &&
            (cur.cur_process_frame_id_ -
              o.previous_body_bbox_area_bigger_than_thresh_frame_id).toNat <
              asUnsigned P.body_bbox_area_bigger_than_thresh_frame_interval then
          o.duration + (cur.cur_process_frame_timestamp_ -
            o.previous_body_bbox_area_bigger_than_thresh_timestamp)
        else o.duration
      is_previous_frame_body_bbox_area_bigger_than_thresh := true
      previous_body_bbox_area_bigger_than_thresh_timestamp := cur.cur_process_frame_timestamp_
      previous_body_bbox_area_bigger_than_thresh_frame_id := cur.cur_process_frame_id_ }
  else o

/-- `AccumulateDuration` over the tracked objects. -/
def AccumulateDuration (P : Setup K) (cur : CurrentFrame) (ts : List (PersonObject K)) :
    List (PersonObject K) :=
  ts.map (accumulate P cur)

/-! ## The step -/

/-- The state that `Update` keeps between its calls. -/
structure Tracker (K : Type) where
  trackedPersonObjects : List (PersonObject K)
  expiredPersonObjects : List (PersonObject K)
  global_id : UInt64

/-- A new `Tracker`. -/
def Tracker.init : Tracker K := ⟨[], [], 0⟩

/-- The arguments of `Update`. -/
structure Input (K : Type) where
  frame : Mat
  timestamp : UInt64
  frame_id : UInt64
  cur_detected_person_objects : List (PersonObject K)

/-- The members of the tracker that a call sets first. -/
def Input.current (inp : Input K) : CurrentFrame := ⟨inp.frame, inp.timestamp, inp.frame_id⟩

/-- The state after a call, what it has pushed to its reference parameters, and the two records. -/
structure Result (K : Type) where
  tracker : Tracker K
  cur_detected_person_objects : List (PersonObject K)
  tracked_iou_not_matched_objects : List (PersonObject K)
  expired_objects : List (PersonObject K)
  valid_leave_objects : List (PersonObject K)
  attached : List (Attachment K)
  created : List (PersonObject K)

/-- The loop over the tracked objects that starts a frame. -/
def startFrame (o : PersonObject K) : PersonObject K :=
  { o with
    is_current_frame_matched_or_new := false
    is_current_body_detected := false
    is_current_face_detected := false }

/-- `Tracker::Update`. -/
def Update (P : Setup K) (s : Tracker K) (inp : Input K) : Except Abort (Result K) :=
  let cur := inp.current
  let dets := inp.cur_detected_person_objects
  if dets.any (·.is_current_frame_matched_or_new) then .error .assertion
  else do
    let tracked := s.trackedPersonObjects.map startFrame
    let match_pairs ← IOUMatch P tracked dets .body
    let (tracked, dets, byIou) ← UpdateMatchedTrackedObjects P cur match_pairs tracked dets
    let notMatched := tracked.filter fun o => !o.is_current_frame_matched_or_new
    let (match_pairs, dets) ← FeatureMatch P cur tracked dets .body
    let (tracked, dets, byFeature) ← UpdateMatchedTrackedObjects P cur match_pairs tracked dets
    let (tracked, expired) ← UpdateUnMatchedTrackedObjectsStatus P inp.frame_id tracked
      s.expiredPersonObjects
    let (match_pairs, dets) ← FeatureMatch P cur expired dets .body
    let (tracked, expired, dets, byExpired) ←
      UpdateMatchedExpiredObjects P cur match_pairs expired dets tracked
    let (expired, leaves) ← UpdateUnMatchedExpiredObjectsStatus P inp.frame_id expired []
    let (dets, created, global_id) := AddUnMatchedCurDetectedObjects dets s.global_id
    let tracked := AccumulateDuration P cur (tracked ++ created)
    return {
      tracker := ⟨tracked, expired, global_id⟩
      cur_detected_person_objects := dets
      tracked_iou_not_matched_objects := notMatched
      expired_objects := expired
      valid_leave_objects := leaves
      attached := byIou ++ byFeature ++ byExpired
      created := created }

end EdgeFrame.Track
