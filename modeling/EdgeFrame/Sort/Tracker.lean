/-
# EdgeFrame.Sort.Tracker -- the SORT tracker

`SORT::update` predicts the box of every tracker and erases those it expects outside the
image, assigns the detections to the predicted boxes, corrects the paired trackers and
starts new ones, and at last reports trackers and removes the dead. The Kalman filter is
OpenCV's: it is a parameter, with states of any type, and with it the boxes it predicts.
-/
import EdgeFrame.Lib.EraseLoop
import EdgeFrame.Track.Match
import Mathlib

namespace EdgeFrame.Sort

open Lib Assign
open Track (Rect GetIOU)

variable {K F : Type}

/-! ## KalmanTracker -/

/-- `cv::KalmanFilter`, with the conversions between its vectors and boxes. -/
structure Filter (K F : Type) where
  init_kf : Rect K → F
  predict : F → F × Rect K
  correct : F → Rect K → F

/-- `KalmanTracker`. -/
structure KalmanTracker (K F : Type) where
  kf : F
  lastRect : Rect K
  m_time_since_update : Int
  m_hits : Int
  m_hit_streak : Int
  m_age : Int
  m_id : Int
  m_history : List (Rect K)

section

variable (filter : Filter K F)

/-- The constructor, which leaves `lastRect` empty. -/
def KalmanTracker.new [Zero K] (initRect : Rect K) (kf_count : Int) : KalmanTracker K F where
  kf := filter.init_kf initRect
  lastRect := ⟨0, 0, 0, 0⟩
  m_time_since_update := 0
  m_hits := 0
  m_hit_streak := 0
  m_age := 0
  m_id := kf_count
  m_history := []

/-- `KalmanTracker::predict`. -/
def KalmanTracker.predict (t : KalmanTracker K F) : KalmanTracker K F × Rect K :=
  let (kf, predictBox) := filter.predict t.kf
  ({ t with
    kf
    m_age := t.m_age + 1
    m_hit_streak := if t.m_time_since_update > 0 then 0 else t.m_hit_streak
    m_time_since_update := t.m_time_since_update + 1
    m_history := t.m_history ++ [predictBox] }, predictBox)

/-- `KalmanTracker::update`. -/
def KalmanTracker.update (t : KalmanTracker K F) (stateMat : Rect K) : KalmanTracker K F :=
  { t with
    kf := filter.correct t.kf stateMat
    lastRect := stateMat
    m_time_since_update := 0
    m_history := []
    m_hits := t.m_hits + 1
    m_hit_streak := t.m_hit_streak + 1 }

end

/-! ## SORT -/

/-- The members of `Box` that `update` writes. -/
structure Box (K : Type) where
  rect : Rect K
  id : Int

/-- What a `SORT` keeps between its calls, and the static `KalmanTracker::kf_count`. -/
structure SORT (K F : Type) where
  frame_count : Int
  max_age : Int
  min_hits : Int
  iouThreshold : K
  trackers : List (KalmanTracker K F)
  kf_count : Int

/-- The constructor. -/
def SORT.new [Field K] (max_age : Int) : SORT K F where
  frame_count := 0
  max_age := max_age
  min_hits := 5
  iouThreshold := (3 : Nat) / (10 : Nat)
  trackers := []
  kf_count := 0

section

variable [Field K] [LinearOrder K] (filter : Filter K F)

/-- New trackers for these detections, one after the other, and the next id. -/
def startTrackers : List (Rect K) → Int → List (KalmanTracker K F) × Int
  | [], kf_count => ([], kf_count)
  | rect :: rects, kf_count =>
    let (trackers, next) := startTrackers rects (kf_count + 1)
    (KalmanTracker.new filter rect kf_count :: trackers, next)

/-- The test on a predicted box. -/
def inImage (pBox : Rect K) : Bool := 0 ≤ pBox.x && 0 ≤ pBox.y

/-- The prediction loop: the trackers that are not erased, and their predicted boxes. -/
def predictLoop : List (KalmanTracker K F) → List (KalmanTracker K F) × List (Rect K)
  | [] => ([], [])
  | t :: ts =>
    let (t, pBox) := t.predict filter
    let (trackers, predictedBoxes) := predictLoop ts
    if inImage pBox then (t :: trackers, pBox :: predictedBoxes) else (trackers, predictedBoxes)

/-! ## The association -/

/-- An entry of `iouMatrix`; nothing reads it outside the matrix. -/
def iouAt (predictedBoxes dets : List (Rect K)) (i j : Nat) : K :=
  match predictedBoxes[i]?, dets[j]? with
  | some b, some d => 1 - GetIOU b d
  | _, _ => 0

/-- `HungAlgo.Solve(iouMatrix, assignment)`, which asks row 0 of the matrix for its size. -/
def solveRows (predictedBoxes dets : List (Rect K)) : Except Abort (List (Option Nat)) :=
  if predictedBoxes.isEmpty then .error .outOfRange
  else do
    let (_, assignment) ← Solve fun (i : Fin predictedBoxes.length) (j : Fin dets.length) =>
      iouAt predictedBoxes dets i j
    return List.ofFn fun i => (assignment i).map Fin.val

/-- `std::set<int>::insert`, into a set that is kept in order. -/
def setInsert (n : Nat) : List Nat → List Nat
  | [] => [n]
  | m :: s => if n < m then n :: m :: s else if n = m then m :: s else m :: setInsert n s

/-- `matchedPairs` and `unmatchedDetections`. -/
structure Matching where
  matchedPairs : List (Nat × Nat)
  unmatchedDetections : List Nat

/-- The detections without a row, where there are more of them than rows. -/
def unassigned (trkNum detNum : Nat) (assignment : List (Option Nat)) : List Nat :=
  if trkNum < detNum then (List.range detNum).filter fun n => !assignment.contains (some n) else []

/-- One row of the loop that filters out pairs with a low IOU. -/
def filterLow (iouThreshold : K) (predictedBoxes dets : List (Rect K))
    (assignment : List (Option Nat)) (m : Matching) (i : Nat) : Matching :=
  match assignment[i]? with
  | some (some j) =>
    if 1 - iouAt predictedBoxes dets i j < iouThreshold then
      { m with unmatchedDetections := setInsert j m.unmatchedDetections }
    else { m with matchedPairs := m.matchedPairs ++ [(i, j)] }
  | _ => m

/-- Detections are associated to predicted boxes. -/
def associate (iouThreshold : K) (predictedBoxes dets : List (Rect K)) : Except Abort Matching := do
  let assignment ← solveRows predictedBoxes dets
  return (List.range predictedBoxes.length).foldl
    (filterLow iouThreshold predictedBoxes dets assignment)
    ⟨[], unassigned predictedBoxes.length dets.length assignment⟩

/-! ## The trackers after it -/

/-- The loop over `matchedPairs`. -/
def updateMatched (dets : List (Rect K)) :
    List (Nat × Nat) → List (KalmanTracker K F) → Except Abort (List (KalmanTracker K F))
  | [], ts => .ok ts
  | (trkIdx, detIdx) :: matchedPairs, ts =>
    match ts[trkIdx]?, dets[detIdx]? with
    | some t, some rect => updateMatched dets matchedPairs (ts.set trkIdx (t.update filter rect))
    | _, _ => .error .outOfRange

/-- The detections that new trackers are created for. -/
def unmatchedRects (dets : List (Rect K)) : List Nat → Except Abort (List (Rect K))
  | [] => .ok []
  | umd :: unmatchedDetections =>
    match dets[umd]? with
    | none => .error .outOfRange
    | some rect => do
      let rects ← unmatchedRects dets unmatchedDetections
      return rect :: rects

/-- `update` from the prediction to the new trackers. -/
def associated (s : SORT K F) (dets : List (Rect K)) : Except Abort (SORT K F) := do
  let (trackers, predictedBoxes) := predictLoop filter s.trackers
  let m ← associate s.iouThreshold predictedBoxes dets
  let trackers ← updateMatched filter dets m.matchedPairs trackers
  let rects ← unmatchedRects dets m.unmatchedDetections
  let (created, kf_count) := startTrackers filter rects s.kf_count
  return { s with trackers := trackers ++ created, kf_count }

/-- The tracker is dead. -/
def SORT.dead (s : SORT K F) (t : KalmanTracker K F) : Bool := t.m_time_since_update > s.max_age

/-- What is reported of a tracker. -/
def SORT.report (s : SORT K F) (t : KalmanTracker K F) : Option (Box K) :=
  if t.m_time_since_update < 1 ∧ (t.m_hit_streak ≥ s.min_hits ∨ s.frame_count ≤ s.min_hits) then
    some ⟨t.lastRect, t.m_id + 1⟩
  else none

/-- `frame_count++`. -/
def SORT.count (s : SORT K F) : SORT K F := { s with frame_count := s.frame_count + 1 }

/-- The loop that reports trackers and removes dead ones. -/
def SORT.output (s : SORT K F) : Except Abort (SORT K F × List (Box K)) := do
  let (trackers, frameTrackingResult) ← Abort.ofFuel
    (lagLoop s.dead s.report (s.trackers.length + 1) 0 s.trackers [])
  return ({ s with trackers }, frameTrackingResult)

/-- `SORT::update`, on the boxes of the detections. -/
def SORT.update (s : SORT K F) (detFrameData : List (Rect K)) :
    Except Abort (SORT K F × List (Box K)) :=
  if s.trackers.isEmpty then
    let (trackers, kf_count) := startTrackers filter detFrameData s.kf_count
    .ok ({ s.count with trackers, kf_count }, [])
  else do
    let s ← associated filter s.count detFrameData
    s.output

end

end EdgeFrame.Sort
