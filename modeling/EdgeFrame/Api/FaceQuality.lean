/-
# EdgeFrame.Api.FaceQuality -- the gate for faces

`sdk::score` runs four networks on a face, one after the other, and stops at the first
whose output is below its threshold. The stages talk to each other through one
`FaceQuality`: -1 in a field means that it has not been filled, and a score below -1
that the face has been rejected. The same post-processing serves the first two
networks, and tells them apart by whether `blur` is still near -1.

That this works is the argument here. The output that has passed the first threshold is
positive, so that `blur` is far from -1 when the second network comes
(`not_unfilled`, `score_of_not_blur`). The sentinels of the stages are different numbers
below -1, and a face that passes has at least the weighted thresholds, so that the score
alone tells which stage has rejected it (`sentinel_injective`, `sentinel_lt`,
`acceptance_pos`).
-/
import Mathlib

namespace EdgeFrame.Api

variable {K : Type}

/-- The members of a `FaceQuality` that the stages fill. -/
structure FaceQuality (K : Type) where
  yaw : K
  pitch : K
  roll : K
  occlude : K
  blur : K
  rscore : K
  score : K
  deriving DecidableEq

/-- What the four networks put out for a face. -/
structure FaceOutputs (K : Type) where
  blur : K
  rscore : K
  occlude_data : Nat → K
  pose_data : Nat → K

/-- The stages of the gate. -/
inductive Stage where
  | blur
  | rscore
  | occlusion
  | pose
  deriving DecidableEq, Repr

variable [Field K]

/-- The constructor of `FaceQuality`. -/
def FaceQuality.new : FaceQuality K where
  yaw := -(1000 : Nat)
  pitch := -(1000 : Nat)
  roll := -(1000 : Nat)
  occlude := -1
  blur := -1
  rscore := -1
  score := -1

/-! ## The thresholds, with and without `__BUILD_FACEDOOR__` -/

/-- The threshold of the first network. -/
def blur_thresh (facedoor : Bool) : K :=
  if facedoor then (45 : Nat) / (100 : Nat) else (65 : Nat) / (100 : Nat)

/-- That of the second. -/
def rscore_thresh : K := (63 : Nat) / (100 : Nat)

/-- That of the third, on the part of the face that is seen. -/
def occ_thresh : K := (75 : Nat) / (100 : Nat)

/-- That of the last. -/
def facepose_thresh (facedoor : Bool) : K :=
  if facedoor then (8 : Nat) / (10 : Nat) else (7 : Nat) / (10 : Nat)

variable [LinearOrder K]

/-! ## The stages -/

/-- `fabs(field + 1) < 0.001`. -/
def unfilled (field : K) : Prop := |field + 1| < 1 / (1000 : Nat)

instance (field : K) : Decidable (unfilled field) := inferInstanceAs (Decidable (_ < _))

/-- `FaceScore::postProcess`. -/
def FaceScore.postProcess (facedoor : Bool) (data : K) (quality : FaceQuality K) : FaceQuality K :=
  if unfilled quality.blur then
    if data < blur_thresh facedoor then { quality with blur := data, score := -(2 : Nat) }
    else { quality with blur := data }
  else if unfilled quality.rscore then
    if data < rscore_thresh then { quality with rscore := data, score := -(3 : Nat) }
    else { quality with rscore := data }
  else quality

/-- `not_occ_num`: of the twenty points, those that are not occluded. -/
def not_occ_num (occlude_data : Nat → K) : Nat :=
  (List.range' 8 20).countP fun i => occlude_data (i * 3 + 2) < 1 / (2 : Nat)

/-- `FaceScoreOcc::postProcess`. -/
def FaceScoreOcc.postProcess (occlude_data : Nat → K) (quality : FaceQuality K) : FaceQuality K :=
  let occlude := (not_occ_num occlude_data : K) / (20 : Nat)
  if occlude < occ_thresh then { quality with occlude := occlude, score := -(4 : Nat) }
  else { quality with occlude := occlude, score := occlude }

/-- `pose_score`. -/
def poseScore (exp : K → K) (pose_data : Nat → K) : K :=
  1 - (exp (|pose_data 0| / (30 : Nat)) + exp (|pose_data 1| / (30 : Nat)) +
    exp (|pose_data 2| / (40 : Nat)) - (3 : Nat)) * ((2 : Nat) / (10 : Nat))

/-- `FaceScorePose::postProcess`. -/
def FaceScorePose.postProcess (facedoor : Bool) (exp : K → K) (pose_data : Nat → K)
    (quality : FaceQuality K) : FaceQuality K :=
  let quality :=
    { quality with yaw := pose_data 0, pitch := pose_data 1, roll := pose_data 2 }
  let pose_score := poseScore exp pose_data
  if pose_score < facepose_thresh facedoor then { quality with score := -(5 : Nat) }
  else
    { quality with
      score := quality.rscore * ((4 : Nat) / (10 : Nat)) + pose_score * ((4 : Nat) / (10 : Nat)) +
        quality.occlude * ((2 : Nat) / (10 : Nat)) }

/-- `sdk::score`. -/
def score (facedoor : Bool) (exp : K → K) (outputs : FaceOutputs K) (image_score : FaceQuality K) :
    FaceQuality K :=
  let image_score := FaceScore.postProcess facedoor outputs.blur image_score
  if image_score.score < -1 then image_score
  else
    let image_score := FaceScore.postProcess facedoor outputs.rscore image_score
    if image_score.score < -1 then image_score
    else
      let image_score := FaceScoreOcc.postProcess outputs.occlude_data image_score
      if image_score.score < -1 then image_score
      else FaceScorePose.postProcess facedoor exp outputs.pose_data image_score

/-! ## The gate -/

/-- The score that a stage rejects with. -/
def Stage.sentinel : Stage → K
  | .blur => -(2 : Nat)
  | .rscore => -(3 : Nat)
  | .occlusion => -(4 : Nat)
  | .pose => -(5 : Nat)

/-- The output of a stage is below its threshold. -/
def Stage.Fails (facedoor : Bool) (exp : K → K) (outputs : FaceOutputs K) : Stage → Prop
  | .blur => outputs.blur < blur_thresh facedoor
  | .rscore => outputs.rscore < rscore_thresh
  | .occlusion => (not_occ_num outputs.occlude_data : K) / (20 : Nat) < occ_thresh
  | .pose => poseScore exp outputs.pose_data < facepose_thresh facedoor

/-- The stages that come before. -/
def Stage.earlier : Stage → List Stage
  | .blur => []
  | .rscore => [.blur]
  | .occlusion => [.blur, .rscore]
  | .pose => [.blur, .rscore, .occlusion]

/-- The first stage to fail. -/
def Stage.FailsFirst (facedoor : Bool) (exp : K → K) (outputs : FaceOutputs K) (stage : Stage) :
    Prop :=
  stage.Fails facedoor exp outputs ∧ ∀ s ∈ stage.earlier, ¬ s.Fails facedoor exp outputs

/-- The field that a stage fills, or for the last one the three. -/
def Stage.Initial (quality : FaceQuality K) : Stage → Prop
  | .blur => quality.blur = FaceQuality.new.blur
  | .rscore => quality.rscore = FaceQuality.new.rscore
  | .occlusion => quality.occlude = FaceQuality.new.occlude
  | .pose => quality.yaw = FaceQuality.new.yaw ∧ quality.pitch = FaceQuality.new.pitch ∧
      quality.roll = FaceQuality.new.roll

/-- The score from which a face is accepted. -/
def acceptance (facedoor : Bool) : K :=
  (4 : Nat) / (10 : Nat) * rscore_thresh + (4 : Nat) / (10 : Nat) * facepose_thresh facedoor +
    (2 : Nat) / (10 : Nat) * occ_thresh

variable [IsStrictOrderedRing K] {facedoor : Bool} {exp : K → K} {outputs : FaceOutputs K}

/-! ## The stages in order -/

/-- Of two stages one comes first. -/
theorem Stage.earlier_total {s s' : Stage} (h : s ≠ s') : s ∈ s'.earlier ∨ s' ∈ s.earlier := by
  revert h
  cases s <;> cases s' <;> decide

omit [IsStrictOrderedRing K] in
/-- There is one first stage to fail. -/
theorem Stage.FailsFirst.unique {s s' : Stage} (h : s.FailsFirst facedoor exp outputs)
    (h' : s'.FailsFirst facedoor exp outputs) : s = s' := by
  by_contra hne
  rcases Stage.earlier_total hne with hbefore | hbefore
  · exact h'.2 s hbefore h.1
  · exact h.2 s' hbefore h'.1

omit [IsStrictOrderedRing K] in
/-- Some stage is the first to fail, or none fails. -/
theorem failsFirst_or_passes (facedoor : Bool) (exp : K → K) (outputs : FaceOutputs K) :
    (∃ stage : Stage, stage.FailsFirst facedoor exp outputs) ∨
      ∀ stage : Stage, ¬ stage.Fails facedoor exp outputs := by
  by_cases hblur : Stage.blur.Fails facedoor exp outputs
  · exact Or.inl ⟨.blur, hblur, by simp [Stage.earlier]⟩
  by_cases hrscore : Stage.rscore.Fails facedoor exp outputs
  · exact Or.inl ⟨.rscore, hrscore, by simp [Stage.earlier, hblur]⟩
  by_cases hocclusion : Stage.occlusion.Fails facedoor exp outputs
  · exact Or.inl ⟨.occlusion, hocclusion, by simp [Stage.earlier, hblur, hrscore]⟩
  by_cases hpose : Stage.pose.Fails facedoor exp outputs
  · exact Or.inl ⟨.pose, hpose, by simp [Stage.earlier, hblur, hrscore, hocclusion]⟩
  · right
    rintro (_ | _ | _ | _)
    exacts [hblur, hrscore, hocclusion, hpose]

/-- Each stage has a sentinel of its own. -/
theorem sentinel_injective {s s' : Stage} (h : (s.sentinel : K) = s'.sentinel) : s = s' := by
  cases s <;> cases s' <;> first | rfl | (norm_num [Stage.sentinel] at h)

/-- The sentinels are below -1, which only means that a field has not been filled. -/
theorem sentinel_lt (s : Stage) : (s.sentinel : K) < -1 := by
  cases s <;> norm_num [Stage.sentinel]

/-! ## The thresholds -/

/-- What passes the first threshold is positive. -/
theorem blur_thresh_pos (facedoor : Bool) : (0 : K) < blur_thresh facedoor := by
  cases facedoor <;> norm_num [blur_thresh]

/-- And what passes the third. -/
theorem occ_thresh_pos : (0 : K) < occ_thresh := by
  norm_num [occ_thresh]

/-- A face is accepted with a positive score. -/
theorem acceptance_pos (facedoor : Bool) : (0 : K) < acceptance facedoor := by
  cases facedoor <;> norm_num [acceptance, rscore_thresh, facepose_thresh, occ_thresh]

/-! ## The field that is near -1 -/

/-- A new `FaceQuality` has not been filled. -/
theorem unfilled_new : unfilled (FaceQuality.new : FaceQuality K).blur := by
  unfold unfilled FaceQuality.new
  norm_num

/-- What is not negative is far from -1. -/
theorem not_unfilled {x : K} (h : 0 ≤ x) : ¬ unfilled x := by
  unfold unfilled
  have hsmall : (1 : K) / (1000 : Nat) ≤ 1 := by norm_num
  rw [abs_of_nonneg (by linarith), not_lt]
  linarith

/-! ## The four passes -/

/-- A blurred face. -/
theorem score_of_blur (h : Stage.blur.Fails facedoor exp outputs) :
    score facedoor exp outputs FaceQuality.new =
      { FaceQuality.new with blur := outputs.blur, score := -(2 : Nat) } := by
  have hblur : outputs.blur < blur_thresh facedoor := h
  unfold score FaceScore.postProcess
  rw [if_pos unfilled_new, if_pos hblur]
  exact if_pos (sentinel_lt .blur)

/-- A face that is not blurred goes to the same post-processing again, which now fills `rscore`. -/
theorem score_of_not_blur (h : ¬ Stage.blur.Fails facedoor exp outputs) :
    score facedoor exp outputs FaceQuality.new =
      if outputs.rscore < rscore_thresh then
        { FaceQuality.new with
          blur := outputs.blur, rscore := outputs.rscore, score := -(3 : Nat) }
      else
        let image_score := FaceScoreOcc.postProcess outputs.occlude_data
          { FaceQuality.new with blur := outputs.blur, rscore := outputs.rscore }
        if image_score.score < -1 then image_score
        else FaceScorePose.postProcess facedoor exp outputs.pose_data image_score := by
  have hblur : ¬ outputs.blur < blur_thresh facedoor := h
  have hfilled : ¬ unfilled outputs.blur :=
    not_unfilled ((blur_thresh_pos facedoor).le.trans (not_lt.mp hblur))
  have hgoOn : ¬ (FaceQuality.new : FaceQuality K).score < -1 := lt_irrefl _
  have hfirst : FaceScore.postProcess facedoor outputs.blur FaceQuality.new =
      { FaceQuality.new with blur := outputs.blur } := by
    unfold FaceScore.postProcess
    rw [if_pos unfilled_new, if_neg hblur]
  have hsecond : FaceScore.postProcess facedoor outputs.rscore
      { FaceQuality.new with blur := outputs.blur } =
        if outputs.rscore < rscore_thresh then
          { FaceQuality.new with
            blur := outputs.blur, rscore := outputs.rscore, score := -(3 : Nat) }
        else { FaceQuality.new with blur := outputs.blur, rscore := outputs.rscore } := by
    unfold FaceScore.postProcess
    rw [if_neg hfilled]
    exact if_pos unfilled_new
  simp only [score, hfirst, hsecond, if_neg hgoOn]
  by_cases hrscore : outputs.rscore < rscore_thresh
  · simp only [if_pos hrscore]
    exact if_pos (sentinel_lt .rscore)
  · simp only [if_neg hrscore, if_neg hgoOn]

/-- Past the threshold of `occlude` the gate goes on to the pose. -/
theorem score_of_three (hblur : ¬ Stage.blur.Fails facedoor exp outputs)
    (hrscore : ¬ Stage.rscore.Fails facedoor exp outputs)
    (hocclusion : ¬ Stage.occlusion.Fails facedoor exp outputs) :
    score facedoor exp outputs FaceQuality.new =
      FaceScorePose.postProcess facedoor exp outputs.pose_data
        { FaceQuality.new with
          blur := outputs.blur, rscore := outputs.rscore
          occlude := (not_occ_num outputs.occlude_data : K) / (20 : Nat)
          score := (not_occ_num outputs.occlude_data : K) / (20 : Nat) } := by
  have hr : ¬ outputs.rscore < rscore_thresh := hrscore
  have ho : ¬ (not_occ_num outputs.occlude_data : K) / (20 : Nat) < occ_thresh := hocclusion
  have hgoOn : ¬ (not_occ_num outputs.occlude_data : K) / (20 : Nat) < -1 := by
    have hpos := (occ_thresh_pos (K := K)).trans_le (not_lt.mp ho)
    linarith
  rw [score_of_not_blur hblur]
  simp only [if_neg hr, FaceScoreOcc.postProcess, if_neg ho, if_neg hgoOn]

/-- **A rejected face** has the score of the first stage to fail, and the stages after it have not
been run.

The cases are the stages; the two that go through the same post-processing are told apart by
`blur`. -/
theorem rejected {stage : Stage} (h : stage.FailsFirst facedoor exp outputs) :
    (score facedoor exp outputs FaceQuality.new).score = stage.sentinel ∧
      ∀ later : Stage, stage ∈ later.earlier →
        later.Initial (score facedoor exp outputs FaceQuality.new) := by
  obtain ⟨hfails, hpassed⟩ := h
  cases stage with
  | blur =>
    rw [score_of_blur hfails]
    refine ⟨rfl, ?_⟩
    -- the stages after the first have not been run
    rintro (_ | _ | _ | _) hlater
    · cases hlater
    · rfl
    · rfl
    · exact ⟨rfl, rfl, rfl⟩
  -- from here on `blur` is filled, so that the second network fills `rscore`
  | rscore =>
    have hr : outputs.rscore < rscore_thresh := hfails
    rw [score_of_not_blur (hpassed .blur (by simp [Stage.earlier])), if_pos hr]
    refine ⟨rfl, ?_⟩
    rintro (_ | _ | _ | _) hlater
    · cases hlater
    · simp [Stage.earlier] at hlater
    · rfl
    · exact ⟨rfl, rfl, rfl⟩
  | occlusion =>
    have hr : ¬ outputs.rscore < rscore_thresh := hpassed .rscore (by simp [Stage.earlier])
    have ho : (not_occ_num outputs.occlude_data : K) / (20 : Nat) < occ_thresh := hfails
    rw [score_of_not_blur (hpassed .blur (by simp [Stage.earlier])), if_neg hr]
    have hreject : -((4 : Nat) : K) < -1 := sentinel_lt .occlusion
    simp only [FaceScoreOcc.postProcess, if_pos ho, if_pos hreject]
    refine ⟨rfl, ?_⟩
    rintro (_ | _ | _ | _) hlater
    · cases hlater
    · simp [Stage.earlier] at hlater
    · simp [Stage.earlier] at hlater
    · exact ⟨rfl, rfl, rfl⟩
  | pose =>
    have hp : poseScore exp outputs.pose_data < facepose_thresh facedoor := hfails
    rw [score_of_three (hpassed .blur (by simp [Stage.earlier]))
      (hpassed .rscore (by simp [Stage.earlier])) (hpassed .occlusion (by simp [Stage.earlier]))]
    simp only [FaceScorePose.postProcess, if_pos hp]
    refine ⟨rfl, ?_⟩
    rintro (_ | _ | _ | _) hlater <;> simp [Stage.earlier] at hlater

/-- **A face that passes** all four stages scores at least the weighted thresholds. -/
theorem accepted (h : ∀ stage : Stage, ¬ stage.Fails facedoor exp outputs) :
    acceptance facedoor ≤ (score facedoor exp outputs FaceQuality.new).score := by
  have hr : rscore_thresh ≤ outputs.rscore := not_lt.mp (h .rscore)
  have ho : occ_thresh ≤ (not_occ_num outputs.occlude_data : K) / (20 : Nat) :=
    not_lt.mp (h .occlusion)
  have hp : ¬ poseScore exp outputs.pose_data < facepose_thresh facedoor := h .pose
  have hp' : facepose_thresh facedoor ≤ poseScore exp outputs.pose_data := not_lt.mp hp
  have hweight : (0 : K) ≤ (4 : Nat) / (10 : Nat) := by positivity
  have hweight' : (0 : K) ≤ (2 : Nat) / (10 : Nat) := by positivity
  rw [score_of_three (h .blur) (h .rscore) (h .occlusion)]
  simp only [FaceScorePose.postProcess, if_neg hp]
  have hfirst := mul_le_mul_of_nonneg_left hr hweight
  have hsecond := mul_le_mul_of_nonneg_left hp' hweight
  have hthird := mul_le_mul_of_nonneg_left ho hweight'
  unfold acceptance
  rw [mul_comm outputs.rscore, mul_comm (poseScore exp outputs.pose_data),
    mul_comm ((not_occ_num outputs.occlude_data : K) / (20 : Nat))]
  exact add_le_add (add_le_add hfirst hsecond) hthird

/-- **The gate for faces**: the score of a new `FaceQuality` is that of a stage exactly when this
stage is the first to fail, and then the stages after it have left their fields as they were;
otherwise the score is at least the weighted thresholds, far from the scores of the stages.

It is `rejected` or `accepted`, whichever `failsFirst_or_passes` gives; that a score is the sentinel
of one stage only makes it an equivalence. -/
theorem score_gate (facedoor : Bool) (exp : K → K) (outputs : FaceOutputs K) :
    (∀ stage : Stage,
      ((score facedoor exp outputs FaceQuality.new).score = stage.sentinel ↔
        stage.FailsFirst facedoor exp outputs) ∧
      (stage.FailsFirst facedoor exp outputs → ∀ later : Stage, stage ∈ later.earlier →
        later.Initial (score facedoor exp outputs FaceQuality.new))) ∧
    ((∀ stage : Stage, ¬ stage.FailsFirst facedoor exp outputs) →
      acceptance facedoor ≤ (score facedoor exp outputs FaceQuality.new).score) ∧
    ∀ stage : Stage, (stage.sentinel : K) < acceptance facedoor := by
  have hapart : ∀ stage : Stage, (stage.sentinel : K) < acceptance facedoor := fun stage =>
    (sentinel_lt stage).trans (by linarith [acceptance_pos (K := K) facedoor])
  refine ⟨fun stage => ⟨⟨fun hscore => ?_, fun h => (rejected h).1⟩, fun h => (rejected h).2⟩,
    fun hpass => ?_, hapart⟩
  · rcases failsFirst_or_passes facedoor exp outputs with ⟨first, hfirst⟩ | hpass
    · have hsame : (stage.sentinel : K) = first.sentinel := hscore.symm.trans (rejected hfirst).1
      rwa [sentinel_injective hsame]
    · have hlow := accepted hpass
      rw [hscore] at hlow
      exact absurd (hapart stage) (not_lt.mpr hlow)
  · rcases failsFirst_or_passes facedoor exp outputs with ⟨first, hfirst⟩ | hall
    · exact absurd hfirst (hpass first)
    · exact accepted hall

/-- A sharp face whose second network puts out the very value that marks an unfilled field. -/
def sentinelOutput : FaceOutputs ℚ where
  blur := 9 / 10
  rscore := -1
  occlude_data := fun _ => 0
  pose_data := fun _ => 0

/-- The face is rejected for its `rscore`, and neither occlusion nor pose is filled. -/
theorem score_gate_sentinel_output :
    (score false (fun x => 1 + x) sentinelOutput FaceQuality.new).score = Stage.rscore.sentinel ∧
      ∀ later : Stage, Stage.rscore ∈ later.earlier →
        later.Initial (score false (fun x => 1 + x) sentinelOutput FaceQuality.new) := by
  have hgate := (score_gate false (fun x : ℚ => 1 + x) sentinelOutput).1 .rscore
  have hfirst : Stage.rscore.FailsFirst false (fun x : ℚ => 1 + x) sentinelOutput := by
    refine ⟨by norm_num [Stage.Fails, sentinelOutput, rscore_thresh], ?_⟩
    intro s hs
    obtain rfl : s = .blur := by simpa [Stage.earlier] using hs
    norm_num [Stage.Fails, sentinelOutput, blur_thresh]
  exact ⟨hgate.1.mpr hfirst, hgate.2 hfirst⟩

end EdgeFrame.Api
