/-
# EdgeFrame.Monitor.Timers -- the two timers of `DetectorProcessor::run`

Every frame that is detected on may also push two events for the operators: an image of
the camera, and the metrics of the model, each when its interval has passed since the
last one. The intervals are of camera time, which is read from the wall clock. The image
timer starts anew when the clock has been set back; the metric timer does not, and stays
silent until the clock has caught up.

The timers are set with a push only, so each holds the time of the last event that was
pushed for it (`Tied`): a timer that is in time has not been silent for longer than its
interval.
-/
import EdgeFrame.Lib.Runs
import Mathlib

namespace EdgeFrame.Monitor

open Lib

/-- `WHALE_ALGO_MODEL_METRIC_INTERVAL`, in milliseconds. -/
def WHALE_ALGO_MODEL_METRIC_INTERVAL : Int := 600000

/-- The two actions of which `run` pushes events. -/
inductive MetricAction where
  | kImageStatusMonitor
  | kAlgoModelMonitor
  deriving DecidableEq, Repr

/-- What `run` pushes. -/
structure LoggerEvent where
  camera_sn : String
  camera_time : Int
  action : MetricAction
  deriving DecidableEq, Repr

/-- What `run` reads of a frame for its timers; `empty` is `cvImage.empty()`. -/
structure WhaleFrame where
  camera_sn : String
  camera_time : Int
  empty : Bool
  deriving DecidableEq, Repr

/-- The members of `DetectorProcessor` that its timers use. -/
structure DetectorProcessor where
  last_image_monitor_time_ : Int
  last_model_metric_monitor_time_ : Int
  image_monitor_interval : Int
  deriving DecidableEq, Repr

/-- The end of `DetectorProcessor::init`; `image_monitor_interval_in` is what the configuration
says, in minutes, or 0. -/
def DetectorProcessor.init (getCurrentTime : Int) (image_monitor_interval_in : ℚ) :
    DetectorProcessor where
  last_image_monitor_time_ := getCurrentTime
  last_model_metric_monitor_time_ := getCurrentTime
  image_monitor_interval := ⌊max image_monitor_interval_in (1 / 100) * 60 * 1000⌋

/-- The image monitor. -/
def DetectorProcessor.imageMonitor (p : DetectorProcessor) (frame : WhaleFrame) :
    DetectorProcessor × List LoggerEvent :=
  let diff := frame.camera_time - p.last_image_monitor_time_
  if p.image_monitor_interval < diff ∨ diff < 0 then
    ({ p with last_image_monitor_time_ := frame.camera_time },
      [⟨frame.camera_sn, frame.camera_time, .kImageStatusMonitor⟩])
  else (p, [])

/-- The model metric. -/
def DetectorProcessor.modelMetric (p : DetectorProcessor) (frame : WhaleFrame) :
    DetectorProcessor × List LoggerEvent :=
  if WHALE_ALGO_MODEL_METRIC_INTERVAL < frame.camera_time - p.last_model_metric_monitor_time_ then
    ({ p with last_model_metric_monitor_time_ := frame.camera_time },
      [⟨frame.camera_sn, frame.camera_time, .kAlgoModelMonitor⟩])
  else (p, [])

/-- The pass of `DetectorProcessor::run` for one frame: the processor afterwards, and the events that
were pushed. -/
def DetectorProcessor.process (p : DetectorProcessor) (frame : WhaleFrame) :
    DetectorProcessor × List LoggerEvent :=
  if frame.empty then (p, [])
  else
    let image := p.imageMonitor frame
    let metric := image.1.modelMetric frame
    (metric.1, image.2 ++ metric.2)

/-- The processor after a frame. -/
def DetectorProcessor.next (p : DetectorProcessor) (frame : WhaleFrame) : DetectorProcessor :=
  (p.process frame).1

/-- Neither timer is ahead of the camera, nor behind it by more than its interval. -/
structure InTime (p : DetectorProcessor) (t : Int) : Prop where
  image : 0 ≤ t - p.last_image_monitor_time_ ∧
    t - p.last_image_monitor_time_ ≤ p.image_monitor_interval
  metric : 0 ≤ t - p.last_model_metric_monitor_time_ ∧
    t - p.last_model_metric_monitor_time_ ≤ WHALE_ALGO_MODEL_METRIC_INTERVAL

/-! ## What has been pushed -/

/-- A processor with the events it has pushed since `init`. -/
structure Monitoring where
  processor : DetectorProcessor
  pushed : List LoggerEvent

/-- Nothing has been pushed. -/
def Monitoring.init (getCurrentTime : Int) (image_monitor_interval_in : ℚ) : Monitoring :=
  ⟨.init getCurrentTime image_monitor_interval_in, []⟩

/-- A frame pushes its events behind those before. -/
def Monitoring.next (m : Monitoring) (frame : WhaleFrame) : Monitoring :=
  ⟨m.processor.next frame, m.pushed ++ (m.processor.process frame).2⟩

/-- The camera time of the last event with this action; that of the start, if there is none. -/
def lastPush (start : Int) (action : MetricAction) (pushed : List LoggerEvent) : Int :=
  ((pushed.filter (·.action = action)).getLast?.map (·.camera_time)).getD start

/-- The last event of either action is not ahead of the camera, nor older than its interval. -/
structure Heard (start : Int) (m : Monitoring) (t : Int) : Prop where
  image : 0 ≤ t - lastPush start .kImageStatusMonitor m.pushed ∧
    t - lastPush start .kImageStatusMonitor m.pushed ≤ m.processor.image_monitor_interval
  metric : 0 ≤ t - lastPush start .kAlgoModelMonitor m.pushed ∧
    t - lastPush start .kAlgoModelMonitor m.pushed ≤ WHALE_ALGO_MODEL_METRIC_INTERVAL

/-- Each timer holds the time of the last event of its action. -/
structure Tied (start : Int) (m : Monitoring) : Prop where
  image : m.processor.last_image_monitor_time_ = lastPush start .kImageStatusMonitor m.pushed
  metric : m.processor.last_model_metric_monitor_time_ =
    lastPush start .kAlgoModelMonitor m.pushed

section

variable {start : Int} {action : MetricAction} {pushed es : List LoggerEvent}

/-- Events of another action change nothing. -/
theorem lastPush_append_other (h : ∀ e ∈ es, e.action ≠ action) :
    lastPush start action (pushed ++ es) = lastPush start action pushed := by
  have hnone : es.filter (·.action = action) = [] := by
    rw [List.filter_eq_nil_iff]
    intro e he
    simpa using h e he
  rw [lastPush, List.filter_append, hnone, List.append_nil]
  rfl

/-- An event of this action is the last one. -/
theorem lastPush_concat {e : LoggerEvent} (h : e.action = action) :
    lastPush start action (pushed ++ [e]) = e.camera_time := by
  have hone : [e].filter (·.action = action) = [e] := by simp [h]
  rw [lastPush, List.filter_append, hone, List.getLast?_concat]
  rfl

/-- Where the timers are tied, to be in time is to have been heard. -/
theorem Tied.heard_iff {m : Monitoring} (h : Tied start m) {t : Int} :
    Heard start m t ↔ InTime m.processor t := by
  constructor
  · rintro ⟨himage, hmetric⟩
    rw [← h.image] at himage
    rw [← h.metric] at hmetric
    exact ⟨himage, hmetric⟩
  · rintro ⟨himage, hmetric⟩
    rw [h.image] at himage
    rw [h.metric] at hmetric
    exact ⟨himage, hmetric⟩

end

/-! ## One frame -/

variable {p : DetectorProcessor} {frame : WhaleFrame}

/-- The image monitor sets its timer and nothing else. -/
theorem imageMonitor_spec : (p.imageMonitor frame).1 = { p with
    last_image_monitor_time_ := (p.imageMonitor frame).1.last_image_monitor_time_ } := by
  unfold DetectorProcessor.imageMonitor
  dsimp only
  split <;> rfl

/-- The model metric sets its own. -/
theorem modelMetric_spec : (p.modelMetric frame).1 = { p with
    last_model_metric_monitor_time_ := (p.modelMetric frame).1.last_model_metric_monitor_time_ } := by
  unfold DetectorProcessor.modelMetric
  split <;> rfl

/-- The image timer is set with a push only, and to the time of what is pushed. -/
theorem imageMonitor_pushes (frame : WhaleFrame) (start : Int) (pushed : List LoggerEvent)
    (h : p.last_image_monitor_time_ = lastPush start .kImageStatusMonitor pushed) :
    (p.imageMonitor frame).1.last_image_monitor_time_ =
        lastPush start .kImageStatusMonitor (pushed ++ (p.imageMonitor frame).2) ∧
      ∀ e ∈ (p.imageMonitor frame).2, e.action = .kImageStatusMonitor := by
  unfold DetectorProcessor.imageMonitor
  dsimp only
  split
  · have hlast : lastPush start .kImageStatusMonitor
        (pushed ++ [⟨frame.camera_sn, frame.camera_time, .kImageStatusMonitor⟩]) = frame.camera_time :=
      lastPush_concat rfl
    exact ⟨hlast.symm, by simp⟩
  · exact ⟨by rw [List.append_nil, h], by simp⟩

/-- So is the metric timer. -/
theorem modelMetric_pushes (frame : WhaleFrame) (start : Int) (pushed : List LoggerEvent)
    (h : p.last_model_metric_monitor_time_ = lastPush start .kAlgoModelMonitor pushed) :
    (p.modelMetric frame).1.last_model_metric_monitor_time_ =
        lastPush start .kAlgoModelMonitor (pushed ++ (p.modelMetric frame).2) ∧
      ∀ e ∈ (p.modelMetric frame).2, e.action = .kAlgoModelMonitor := by
  unfold DetectorProcessor.modelMetric
  split
  · have hlast : lastPush start .kAlgoModelMonitor
        (pushed ++ [⟨frame.camera_sn, frame.camera_time, .kAlgoModelMonitor⟩]) = frame.camera_time :=
      lastPush_concat rfl
    exact ⟨hlast.symm, by simp⟩
  · exact ⟨by rw [List.append_nil, h], by simp⟩

/-- **A frame leaves the timers tied**: the events of the one action do not count for the other. -/
theorem Tied.next {start : Int} {m : Monitoring} (h : Tied start m) (frame : WhaleFrame) :
    Tied start (m.next frame) := by
  unfold Monitoring.next DetectorProcessor.next DetectorProcessor.process
  split
  · rw [List.append_nil]
    exact h
  · obtain ⟨himage, himages⟩ := imageMonitor_pushes frame start m.pushed h.image
    have hlast : (m.processor.imageMonitor frame).1.last_model_metric_monitor_time_ =
        lastPush start .kAlgoModelMonitor (m.pushed ++ (m.processor.imageMonitor frame).2) := by
      rw [lastPush_append_other fun e he => by rw [himages e he]; decide, imageMonitor_spec]
      exact h.metric
    obtain ⟨hmetric, hmetrics⟩ := modelMetric_pushes frame start _ hlast
    dsimp only
    rw [← List.append_assoc]
    constructor
    · rw [lastPush_append_other fun e he => by rw [hmetrics e he]; decide, modelMetric_spec]
      exact himage
    · exact hmetric

/-- **The image timer** is in time after every frame. -/
theorem imageMonitor_in_time (h : 0 ≤ p.image_monitor_interval) :
    0 ≤ frame.camera_time - (p.imageMonitor frame).1.last_image_monitor_time_ ∧
      frame.camera_time - (p.imageMonitor frame).1.last_image_monitor_time_ ≤
        p.image_monitor_interval := by
  unfold DetectorProcessor.imageMonitor
  dsimp only
  split
  · exact ⟨by simp, by simpa using h⟩
  · rename_i hquiet
    rw [not_or, not_lt, not_lt] at hquiet
    exact ⟨hquiet.2, hquiet.1⟩

/-- **The metric timer** is in time after a frame exactly when it was not ahead of it before. -/
theorem modelMetric_in_time_iff :
    (0 ≤ frame.camera_time - (p.modelMetric frame).1.last_model_metric_monitor_time_ ∧
      frame.camera_time - (p.modelMetric frame).1.last_model_metric_monitor_time_ ≤
        WHALE_ALGO_MODEL_METRIC_INTERVAL) ↔
      p.last_model_metric_monitor_time_ ≤ frame.camera_time := by
  unfold DetectorProcessor.modelMetric
  split
  · rename_i hdue
    dsimp only
    rw [WHALE_ALGO_MODEL_METRIC_INTERVAL] at hdue ⊢
    omega
  · rename_i hquiet
    rw [not_lt] at hquiet
    rw [and_iff_left hquiet, sub_nonneg]

/-- The interval stays. -/
theorem next_interval : (p.next frame).image_monitor_interval = p.image_monitor_interval := by
  unfold DetectorProcessor.next DetectorProcessor.process
  split
  · rfl
  · dsimp only
    rw [modelMetric_spec, imageMonitor_spec]

/-- **A frame leaves the timers in time** exactly when the metric timer was not ahead of it. -/
theorem next_in_time_iff (h : 0 ≤ p.image_monitor_interval) (hframe : frame.empty = false) :
    InTime (p.next frame) frame.camera_time ↔
      p.last_model_metric_monitor_time_ ≤ frame.camera_time := by
  have hnext : p.next frame = ((p.imageMonitor frame).1.modelMetric frame).1 := by
    unfold DetectorProcessor.next DetectorProcessor.process
    rw [hframe]
    rfl
  have hmetric := @modelMetric_in_time_iff (p.imageMonitor frame).1 frame
  have hlast : (p.imageMonitor frame).1.last_model_metric_monitor_time_ =
      p.last_model_metric_monitor_time_ := by rw [imageMonitor_spec]
  rw [hlast] at hmetric
  rw [hnext, ← hmetric]
  constructor
  · exact InTime.metric
  · intro hin
    refine ⟨?_, hin⟩
    have himage := @imageMonitor_in_time p frame h
    rw [modelMetric_spec, imageMonitor_spec]
    exact himage

/-! ## Runs -/

/-- The interval of the image monitor is not negative. -/
theorem init_interval (getCurrentTime : Int) (image_monitor_interval_in : ℚ) :
    0 ≤ (DetectorProcessor.init getCurrentTime image_monitor_interval_in).image_monitor_interval := by
  have hmax : (0 : ℚ) ≤ max image_monitor_interval_in (1 / 100) :=
    le_max_of_le_right (by norm_num)
  exact Int.floor_nonneg.mpr (by positivity)

/-- **Monitoring survives clock steps** exactly in the runs in which no frame is older than the last
model metric: after every other frame both timers are in time, and the last event of either action is
no older than its interval. One step decides it (`next_in_time_iff`), since the timers stay tied to what
is pushed and the interval stays what it is. -/
theorem timers_in_time_iff (getCurrentTime : Int) (image_monitor_interval_in : ℚ)
    (frames : List WhaleFrame) :
    EachStep Monitoring.next
        (fun m frame => frame.empty = false →
          InTime (m.next frame).processor frame.camera_time ∧
            Heard getCurrentTime (m.next frame) frame.camera_time)
        (Monitoring.init getCurrentTime image_monitor_interval_in) frames ↔
      EachStep Monitoring.next
        (fun m frame => frame.empty = false →
          m.processor.last_model_metric_monitor_time_ ≤ frame.camera_time)
        (Monitoring.init getCurrentTime image_monitor_interval_in) frames := by
  refine eachStep_iff_of_invariant
    (I := fun m => 0 ≤ m.processor.image_monitor_interval ∧ Tied getCurrentTime m) ?_ ?_
    ⟨init_interval _ _, rfl, rfl⟩
  · rintro m frame ⟨hinterval, htied⟩ -
    refine ⟨?_, htied.next frame⟩
    rw [Monitoring.next, next_interval]
    exact hinterval
  · rintro m frame ⟨hinterval, htied⟩
    refine forall_congr' fun hframe => ?_
    rw [(htied.next frame).heard_iff, and_self]
    exact next_in_time_iff hinterval hframe

/-- **The clock is set back** by an hour: the image timer starts anew, and the metric timer is an
hour ahead of the camera. -/
theorem hour_back_silences_metric :
    let p := (DetectorProcessor.init 7200000 10).next ⟨"camera", 3600000, false⟩
    p.last_image_monitor_time_ = 3600000 ∧ p.last_model_metric_monitor_time_ = 7200000 ∧
      ¬ EachStep DetectorProcessor.next
        (fun p frame => frame.empty = false → InTime (p.next frame) frame.camera_time)
        (DetectorProcessor.init 7200000 10) [⟨"camera", 3600000, false⟩] := by
  refine ⟨by decide +kernel, by decide +kernel, ?_⟩
  rintro ⟨hin, -⟩
  have hmetric := (hin rfl).metric.1
  revert hmetric
  decide +kernel

end EdgeFrame.Monitor
