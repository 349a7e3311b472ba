/-
# EdgeFrame.Capture.UsbLoader -- the frame ids of the USB camera loader

`UsbDeviceLoaderProcessor::run` counts the frames it captures in `frame_id_` and
pushes each frame with its count to the detector queue. When a read fails it calls
`reopenCamera`, which retries until a camera answers and then sets `frame_id_`
back to 0. The two functions share nothing else that the pushed ids depend on, so
the model is the pair of loops over the outcomes of the capture calls.

`frame_id_` is an `int64_t`; no run comes near its end, and the model counts in `Int`.
-/
import Mathlib

namespace EdgeFrame.Capture

/-- What one pass through the loop of `reopenCamera` finds. -/
structure Attempt where
  /-- `findCamera()` -/
  cam_id : Int
  /-- `capture_->isOpened()` after `open(cam_id)` -/
  isOpened : Bool
  /-- `capture_->read(frame)` -/
  read : Bool
  deriving DecidableEq, Repr

/-- The members of the loader that the two loops share. -/
structure UsbLoader where
  is_ready_ : Bool := false
  frame_id_ : Int := 0
  deriving DecidableEq, Repr

/-- `reopenCamera`: the three tests of the loop, each of which goes on to the next attempt.
`none` while the attempts so far have not ended the loop. -/
def reopenCamera : List Attempt → UsbLoader → Option UsbLoader
  | [], _ => none
  | a :: attempts, s =>
    let s := { s with is_ready_ := false }
    if a.cam_id < 0 then reopenCamera attempts s
    else if !a.isOpened then reopenCamera attempts s
    else if !a.read then reopenCamera attempts s
    else some { s with frame_id_ := 0 }

/-- The outcome of `capture_->read` at the head of `run`'s loop; after a failed read, with the
attempts that the call of `reopenCamera` makes. -/
inductive Outcome where
  | frame
  | lost (attempts : List Attempt)
  deriving DecidableEq, Repr

/-- The frame ids `run` pushes to the detector queue, in order. -/
def run : List Outcome → UsbLoader → List Int
  | [], _ => []
  | .frame :: os, s =>
    let s := { s with frame_id_ := s.frame_id_ + 1 }
    s.frame_id_ :: run os { s with is_ready_ := true }
  | .lost attempts :: os, s =>
    match reopenCamera attempts s with
    | some s => run os s
    | none => []

/-! ## Reopening -/

/-- An attempt that ends `reopenCamera`. -/
def Attempt.succeeds (a : Attempt) : Bool := 0 ≤ a.cam_id && a.isOpened && a.read

/-- `reopenCamera` ends with the first attempt that succeeds and forgets the count, however many
retries came before. -/
theorem reopenCamera_eq (attempts : List Attempt) (s : UsbLoader) :
    reopenCamera attempts s =
      if attempts.any Attempt.succeeds then some ⟨false, 0⟩ else none := by
  induction attempts generalizing s with
  | nil => rfl
  | cons a attempts ih =>
    obtain ⟨cam_id, isOpened, read⟩ := a
    simp only [reopenCamera, List.any_cons, ih, Attempt.succeeds]
    by_cases hid : cam_id < 0
    · simp [hid, Int.not_le.mpr hid]
    · cases isOpened <;> cases read <;> simp [hid, Int.not_lt.mp hid]

/-- The outcome does not leave `run` inside `reopenCamera` for good. -/
def Outcome.returns : Outcome → Bool
  | .frame => true
  | .lost attempts => attempts.any Attempt.succeeds

/-- The outcomes that `run` gets to see: all up to a camera that never comes back. -/
def reached (os : List Outcome) : List Outcome := os.takeWhile Outcome.returns

/-- No frame follows a lost camera. -/
def NoFrameAfterLost (os : List Outcome) : Prop :=
  ∀ pre attempts post, reached os = pre ++ .lost attempts :: post → .frame ∉ post

/-- **One session**: the camera is never lost and found again between two frames. -/
def OneSession (os : List Outcome) : Prop :=
  ∀ pre attempts post, reached os = pre ++ .lost attempts :: post → .frame ∈ pre → .frame ∉ post

theorem reached_frame (os : List Outcome) : reached (.frame :: os) = .frame :: reached os := rfl

theorem noFrameAfterLost_frame {os : List Outcome} :
    NoFrameAfterLost (.frame :: os) ↔ NoFrameAfterLost os := by
  constructor
  · intro h pre attempts post heq
    exact h (.frame :: pre) attempts post (by rw [reached_frame, heq]; rfl)
  · intro h pre attempts post heq
    rw [reached_frame] at heq
    cases pre with
    | nil => cases heq
    | cons o pre =>
      obtain ⟨-, heq⟩ := List.cons.inj heq
      exact h pre attempts post heq

theorem oneSession_frame {os : List Outcome} :
    OneSession (.frame :: os) ↔ NoFrameAfterLost os := by
  constructor
  · intro h pre attempts post heq
    exact h (.frame :: pre) attempts post (by rw [reached_frame, heq]; rfl) List.mem_cons_self
  · intro h pre attempts post heq _
    exact noFrameAfterLost_frame.mpr h pre attempts post heq

/-- A lost camera before the first frame does no harm. -/
theorem oneSession_lost {attempts : List Attempt} {os : List Outcome}
    (hret : (Outcome.lost attempts).returns = true) :
    OneSession (.lost attempts :: os) ↔ OneSession os := by
  have hreached : reached (.lost attempts :: os) = .lost attempts :: reached os := by
    simp [reached, hret]
  constructor
  · intro h pre attempts' post heq hmem
    exact h (.lost attempts :: pre) attempts' post (by rw [hreached, heq]; rfl)
      (List.mem_cons_of_mem _ hmem)
  · intro h pre attempts' post heq hmem
    rw [hreached] at heq
    cases pre with
    | nil => cases hmem
    | cons o pre =>
      obtain ⟨ho, htail⟩ := List.cons.inj heq
      rcases List.mem_cons.mp hmem with hmem | hmem
      · rw [← ho] at hmem
        cases hmem
      · exact h pre attempts' post htail hmem

/-! ## The pushed ids -/

/-- Without a frame after a lost camera the ids count on from where they stand. -/
theorem run_increasing_of_noFrameAfterLost {os : List Outcome} (h : NoFrameAfterLost os)
    (s : UsbLoader) :
    (run os s).Pairwise (· < ·) ∧ ∀ x ∈ run os s, s.frame_id_ < x := by
  induction os generalizing s with
  | nil => simp [run]
  | cons o os ih =>
    cases o with
    | frame =>
      obtain ⟨hpair, hgt⟩ := ih (noFrameAfterLost_frame.mp h) ⟨true, s.frame_id_ + 1⟩
      simp only [run, List.pairwise_cons, List.forall_mem_cons]
      refine ⟨⟨hgt, hpair⟩, by omega, fun x hx => ?_⟩
      have hx' : s.frame_id_ + 1 < x := hgt x hx
      omega
    | lost attempts =>
      -- the camera is lost: no frame comes any more, so nothing is pushed
      suffices hnone : run (.lost attempts :: os) s = [] by simp [hnone]
      simp only [run, reopenCamera_eq]
      cases hret : attempts.any Attempt.succeeds with
      | false => simp
      | true =>
        have hpost : .frame ∉ reached os := by
          refine h [] attempts (reached os) ?_
          simp [reached, Outcome.returns, hret]
        simp only [if_true]
        clear ih h
        generalize (⟨false, 0⟩ : UsbLoader) = s'
        induction os generalizing s' with
        | nil => rfl
        | cons o os ih =>
          cases o with
          | frame => exact absurd (by rw [reached_frame]; exact List.mem_cons_self) hpost
          | lost attempts' =>
            simp only [run, reopenCamera_eq]
            cases hret' : attempts'.any Attempt.succeeds with
            | false => simp
            | true =>
              simp only [if_true]
              refine ih (fun hmem => hpost ?_) _
              simp [reached, Outcome.returns, hret'] at hmem ⊢
              exact hmem

/-- A frame is pushed with an id above the count. -/
theorem one_mem_run_of_frame_mem {os : List Outcome} (hmem : .frame ∈ reached os) :
    (1 : Int) ∈ run os ⟨false, 0⟩ := by
  induction os with
  | nil => cases hmem
  | cons o os ih =>
    cases o with
    | frame => simp [run]
    | lost attempts =>
      cases hret : attempts.any Attempt.succeeds with
      | false => simp [reached, Outcome.returns, hret] at hmem
      | true =>
        simp only [run, reopenCamera_eq, hret, if_true]
        apply ih
        simpa [reached, Outcome.returns, hret] using hmem

/-- After a reopened camera the ids start again at 1. -/
theorem one_mem_run_of_reopen {os : List Outcome} (h : ¬ NoFrameAfterLost os) (s : UsbLoader) :
    (1 : Int) ∈ run os s := by
  induction os generalizing s with
  | nil =>
    refine absurd ?_ h
    intro pre attempts post heq
    simp [reached] at heq
  | cons o os ih =>
    cases o with
    | frame =>
      rw [noFrameAfterLost_frame] at h
      exact List.mem_cons_of_mem _ (ih h _)
    | lost attempts =>
      cases hret : attempts.any Attempt.succeeds with
      | false =>
        refine absurd ?_ h
        intro pre attempts' post heq
        simp [reached, Outcome.returns, hret] at heq
      | true =>
        simp only [run, reopenCamera_eq, hret, if_true]
        apply one_mem_run_of_frame_mem
        by_contra hno
        apply h
        intro pre attempts' post heq hmem
        simp only [reached, List.takeWhile_cons, Outcome.returns, hret, if_true] at heq
        cases pre with
        | nil =>
          obtain ⟨-, rfl⟩ := List.cons.inj heq
          exact hno hmem
        | cons o pre =>
          obtain ⟨-, heq⟩ := List.cons.inj heq
          apply hno
          rw [reached, heq]
          exact List.mem_append_right _ (List.mem_cons_of_mem _ hmem)

/-- **Exactly when the pushed frame ids increase**: over every sequence of reads, lost cameras and
retries, the ids are strictly increasing if and only if the camera is never lost and reopened between
two frames.

Up to a loss the ids count up, and a frame after a camera was found again brings the id one back
(`one_mem_run_of_reopen`), which is above no id pushed before it. -/
theorem run_increasing_iff (os : List Outcome) :
    (run os {}).Pairwise (· < ·) ↔ OneSession os := by
  -- the count only has to be known not to be negative
  suffices h : ∀ s : UsbLoader, 0 ≤ s.frame_id_ →
      ((run os s).Pairwise (· < ·) ↔ OneSession os) from h {} le_rfl
  intro s hs
  induction os generalizing s with
  | nil => exact iff_of_true List.Pairwise.nil (by intro pre attempts post heq; simp [reached] at heq)
  | cons o os ih =>
    cases o with
    | frame =>
      rw [oneSession_frame]
      constructor
      · intro hpair
        by_contra hno
        have hone := one_mem_run_of_reopen hno ⟨true, s.frame_id_ + 1⟩
        have hlt := (List.pairwise_cons.mp hpair).1 1 hone
        simp only at hlt
        omega
      · intro hno
        exact (run_increasing_of_noFrameAfterLost (noFrameAfterLost_frame.mpr hno) s).1
    | lost attempts =>
      cases hret : attempts.any Attempt.succeeds with
      | false =>
        refine iff_of_true (by simp [run, reopenCamera_eq, hret]) ?_
        intro pre attempts' post heq
        simp [reached, Outcome.returns, hret] at heq
      | true =>
        rw [oneSession_lost hret]
        simp only [run, reopenCamera_eq, hret, if_true]
        exact ih _ le_rfl

/-- Three frames, a camera found again at the first attempt, one more frame. -/
def reconnect : List Outcome := [.frame, .frame, .frame, .lost [⟨0, true, true⟩], .frame]

/-- **A reconnect turns the count back**: the frame after it is pushed with id 1, and to a tracker
that last saw a person in frame 3 that frame is more than any threshold away. -/
theorem reconnect_repeats_frame_ids :
    run reconnect {} = [1, 2, 3, 1] ∧ ¬ (run reconnect {}).Pairwise (· < ·) ∧
      (1 : UInt64) - 3 > 2 ^ 31 := by
  decide

end EdgeFrame.Capture
