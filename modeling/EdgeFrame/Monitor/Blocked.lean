/-
# EdgeFrame.Monitor.Blocked -- monitoring without re-identification

`MonitorProcessor::init` sets `bbox_area_extract_feature_thresh` to 1.0 to keep the
tracker from running `sdk::reid`. It does so for every frame the detector has decoded:
the detector clips its boxes to the image, so that no box is larger than the image,
and the two tests of the tracker are strict.

The calls of `sdk::reid` are counted beside `Update` (`updateReids`), pass by pass. That none is
missed is `Update_withReid` of `Track.Reids`: an update that is counted as one without calls
does the same whatever `sdk::reid` would answer. Here the count is shown to be zero, from an
invariant of the run, which is that nobody has a feature (`featureless_run`).
-/
import EdgeFrame.Monitor.Processor
import EdgeFrame.Track.Reids
import Mathlib

namespace EdgeFrame.Monitor

open Api Lib Track

variable {K : Type} [Field K] [LinearOrder K]

/-- The boxes of the message are what the detector made of its frame: a frame of positive size, and
some output of the network, decoded with some `exp`. -/
structure Decoded (c : Call K) : Prop where
  rows : 0 < c.msg.cvImage.rows
  cols : 0 < c.msg.cvImage.cols
  boxes : ∃ (exp : K → K) (S : Sorter K) (D : Detect K) (output_boxes out_score : Nat → K),
    postProcess exp S (D.preProcess c.msg.cvImage.rows c.msg.cvImage.cols) output_boxes out_score =
      .ok c.msg.object_boxes

variable [IsStrictOrderedRing K]

/-- A box inside an image is not larger than the image. -/
theorem area_le {D : Detect K} {b : Box K} (h : b.Inside D) :
    (b.x1 - b.x0) * (b.y1 - b.y0) ≤ D.image_w * D.image_h := by
  have hwidth : |b.x1 - b.x0| ≤ D.image_w := by
    rw [abs_le]
    constructor
    · linarith [h.x0.2, h.x1.1]
    · linarith [h.x0.1, h.x1.2]
  have hheight : |b.y1 - b.y0| ≤ D.image_h := by
    rw [abs_le]
    constructor
    · linarith [h.y0.2, h.y1.1]
    · linarith [h.y0.1, h.y1.2]
  calc (b.x1 - b.x0) * (b.y1 - b.y0)
      ≤ |(b.x1 - b.x0) * (b.y1 - b.y0)| := le_abs_self _
    _ = |b.x1 - b.x0| * |b.y1 - b.y0| := abs_mul _ _
    _ ≤ D.image_w * D.image_h :=
      mul_le_mul hwidth hheight (abs_nonneg _) ((abs_nonneg _).trans hwidth)

/-- **A decoded detection is blocked** at the threshold 1.0, and comes without a feature.

The area of a decoded box is at most that of the image (`area_le`), and the test asks for more than
once that area. -/
theorem Decoded.blocked {P : Setup K} {c : Call K} (h : Decoded c) :
    ∀ d ∈ c.input.cur_detected_person_objects,
      Blocked P.configure c.input.current d ∧ Featureless d := by
  intro d hd
  obtain ⟨u, box, hbox, _, rfl⟩ := mem_CvtDetToPed hd
  refine ⟨?_, rfl⟩
  obtain ⟨exp, S, D, output_boxes, out_score, hdecoded⟩ := h.boxes
  have hinside := postProcess_inside h.rows.le h.cols.le hdecoded box hbox
  have hpixels : c.msg.cvImage.rows * c.msg.cvImage.cols ≠ 0 :=
    mul_ne_zero h.rows.ne' h.cols.ne'
  have hpos : (0 : K) < ((c.msg.cvImage.rows * c.msg.cvImage.cols : Int) : K) :=
    Int.cast_pos.mpr (mul_pos h.rows h.cols)
  have harea : (box.x1 - box.x0) * (box.y1 - box.y0) ≤
      ((c.msg.cvImage.rows * c.msg.cvImage.cols : Int) : K) := by
    refine (area_le hinside).trans (le_of_eq ?_)
    show (c.msg.cvImage.cols : K) * (c.msg.cvImage.rows : K) = _
    push_cast
    ring
  have hratio : (box.x1 - box.x0) * (box.y1 - box.y0) /
      ((c.msg.cvImage.rows * c.msg.cvImage.cols : Int) : K) ≤ 1 := (div_le_one hpos).mpr harea
  show bodyAreaAbove c.input.current _ 1 = false
  unfold bodyAreaAbove
  simp only [Call.input, Input.current, hpixels, if_false]
  exact decide_eq_false (not_lt.mpr hratio)

/-- Nobody in a run of decoded frames has a feature.

By induction on the run: where no detection passes the area test, an update extracts nothing. -/
theorem featureless_run {P : Setup K} {turns : List (Turn K)} {s : Tracker K}
    (hrun : Run P.configure Tracker.init turns s)
    (hdecoded : ∀ t ∈ turns, ∃ c, Decoded c ∧ t.input = c.input) :
    ∀ o ∈ everyone s, Featureless o := by
  refine Trace.history_of_forall (H := fun _ s => ∀ o ∈ everyone s, Featureless o) ?_ ?_ hrun
    hdecoded
  · intro o ho
    exact absurd ho (by simp [everyone, Tracker.init])
  · intro turns s t s' _ hs hdecoded hupdate
    obtain ⟨c, hc, hinput⟩ := hdecoded
    obtain ⟨hok, rfl⟩ := hupdate
    apply (Update_of_blocked hs ?_).2 t.result hok
    rw [hinput]
    exact hc.blocked

/-- **Monitoring never runs re-identification**: in a tracker configured by `MonitorProcessor::init`,
after any run over decoded frames nobody has a feature, and the call of `Update` for the next decoded
frame comes to `sdk::reid` neither in `FeatureMatch` nor in `UpdateMatchedObjectStatus`.

A pass comes to `sdk::reid` only for a detection that passes the area test, which `Decoded.blocked`
excludes. -/
theorem monitor_blocks_reid {P : Setup K} {turns : List (Turn K)} {s : Tracker K}
    (hrun : Run P.configure Tracker.init turns s)
    (hdecoded : ∀ t ∈ turns, ∃ c, Decoded c ∧ t.input = c.input) :
    (∀ o ∈ everyone s, o.feature_messages = []) ∧
      ∀ c, Decoded c → updateReids P.configure s c.input = 0 := by
  have hnone := featureless_run hrun hdecoded
  exact ⟨hnone, fun c hc => (Update_of_blocked hnone hc.blocked).1⟩

/-! ## Someone who fills the image -/

/-- A detector with one anchor, in the middle of the image and as large as the image. -/
def closeUp : Detect ℚ where
  score_threshold := 1 / 2
  iou_threshold := 1 / 2
  num_of_class := 2
  num_anchors := 1
  image_h := 0
  image_w := 0
  center_variance := 1 / 10
  size_variance := 1 / 5
  priors := [⟨1 / 2, 1 / 2, 1, 1⟩]

/-- The frame in which that anchor fires, and twice as large as it is. -/
def closeUpCall (frame_id : UInt64) : Call ℚ where
  msg := ⟨"camera", 0, frame_id, ⟨540, 960, []⟩, [⟨0, 0, 960, 540, 9 / 10, 1⟩]⟩
  memory _ := ⟨0, 0, ⟨0, 0, 0⟩, ⟨0, 0, 0⟩, 0, 0⟩

/-- The box is what the detector makes of this answer. -/
theorem decoded_closeUpCall (frame_id : UInt64) : Decoded (closeUpCall frame_id) := by
  have hrows : (0 : Int) < 540 := by decide
  have hcols : (0 : Int) < 960 := by decide
  refine ⟨hrows, hcols, fun _ => 2, Sorter.merge, closeUp, fun _ => 0,
    fun n => if n = 1 then 9 / 10 else 0, ?_⟩
  have hproposals : generateBBox (fun _ => 2) (closeUp.preProcess 540 960) (fun _ => 0)
      (fun n => if n = 1 then 9 / 10 else 0) = .ok [[⟨0, 0, 960, 540, 9 / 10, 1⟩]] := by
    decide +kernel
  -- there is nothing to sort
  have hsort : (Sorter.merge : Sorter ℚ).sort [⟨0, 0, 960, 540, 9 / 10, 1⟩] =
      [⟨0, 0, 960, 540, 9 / 10, 1⟩] := List.perm_singleton.mp (Sorter.merge.perm _)
  have hkept : nms Sorter.merge (closeUp.preProcess 540 960) [[⟨0, 0, 960, 540, 9 / 10, 1⟩]] =
      .ok (nmsClass (1 / 2) 1 (Sorter.merge.sort [⟨0, 0, 960, 540, 9 / 10, 1⟩]) ++ []) := rfl
  rw [hsort] at hkept
  show (generateBBox _ (closeUp.preProcess 540 960) _ _ >>= _) = _
  rw [hproposals]
  refine hkept.trans ?_
  show _ = Except.ok [(⟨0, 0, 960, 540, 9 / 10, 1⟩ : Box ℚ)]
  decide +kernel

/-- Someone who fills the image is tracked, and the costly model stays idle. -/
theorem monitor_blocks_reid_closeUp : ∃ turns s, Run scene.configure Tracker.init turns s ∧
    s.trackedPersonObjects.length = 1 ∧ (∀ o ∈ everyone s, o.feature_messages = []) ∧
    updateReids scene.configure s (closeUpCall 2).input = 0 := by
  obtain ⟨⟨turns, s⟩, hplay, hcheck⟩ := Abort.of_returns
    (x := play scene.configure Tracker.init [(closeUpCall 1).input])
    (p := fun r => decide (r.2.trackedPersonObjects.length = 1)) (by decide +kernel)
  have hdecoded : ∀ t ∈ turns, ∃ c, Decoded c ∧ t.input = c.input := by
    intro t ht
    have hinput : t.input ∈ [(closeUpCall 1).input] :=
      play_inputs hplay ▸ List.mem_map_of_mem ht
    exact ⟨closeUpCall 1, decoded_closeUpCall 1, List.mem_singleton.mp hinput⟩
  obtain ⟨hnone, hidle⟩ := monitor_blocks_reid (play_run hplay) hdecoded
  exact ⟨turns, s, play_run hplay, of_decide_eq_true hcheck, hnone,
    hidle (closeUpCall 2) (decoded_closeUpCall 2)⟩

end EdgeFrame.Monitor
