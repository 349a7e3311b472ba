/-
# EdgeFrame.Running.Loaders -- the three loaders

Each loader reads images in a loop and pushes every one as a frame with its number. They
differ in when they count, in how they know that a read has failed, and in what they do
then: the two cameras are reopened, which goes on until it succeeds, and the local video
goes on with the next file and ends the service after the last one.

A loader is given by one pass of its loop up to the push. What the camera, the clock and
the file system answer comes from outside.
-/
import EdgeFrame.Capture.UsbLoader
import EdgeFrame.Track.Objects
import Mathlib

namespace EdgeFrame.Running

open EdgeFrame.Capture EdgeFrame.Track

/-! ## Frames -/

/-- `BaseFrame`, which is what `WhaleFrame` stands for. -/
structure WhaleFrame where
  camera_time : Int64
  cvImage : Mat
  camera_sn : String
  frame_id : UInt64

/-- `cv::Mat::empty()`. -/
def emptyImage (m : Mat) : Bool := m.rows = 0 || m.cols = 0 || m.data.isEmpty

/-- What a loader is told from outside in one step. -/
structure Answer where
  /-- what `capture_->read` returns -/
  ret : Bool
  /-- and the image it leaves -/
  image : Mat
  /-- the clock, in `setCurrentTime` -/
  now : Int64
  /-- one attempt to open the camera again -/
  attempt : Attempt
  /-- `capture_->isOpened()` in `loadVideo` -/
  isOpened : Bool

/-! ## Loaders -/

/-- What the pass of a loader comes to, with its members afterwards. -/
inductive Pass (σ : Type) where
  /-- the image is pushed under this number -/
  | push (frame_id : Int) (m : σ)
  /-- `continue` -/
  | again (m : σ)
  /-- `reopenCamera()`, then `continue` -/
  | reopen (m : σ)
  /-- the system is told to quit -/
  | quit
  /-- a `CHECK` fails, and the process is gone -/
  | fatal

/-- A loader: its members, one pass of `run` up to the push, and one pass of the loop of
`reopenCamera`, with no value if it has to try again. -/
structure Loader where
  Members : Type
  pass : Answer → Members → Pass Members
  retry : Answer → Members → Option Members

/-! ### `RtspLoaderProcessor` -/

/-- The member of `RtspLoaderProcessor` that its frames depend on. -/
structure RtspLoader where
  frame_id_ : Int := 0
  deriving DecidableEq, Repr

/-- `RtspLoaderProcessor::run` counts before it reads. -/
def RtspLoader.pass (a : Answer) (m : RtspLoader) : Pass RtspLoader :=
  let m := { m with frame_id_ := m.frame_id_ + 1 }
  if emptyImage a.image then .reopen m else .push m.frame_id_ m

/-- The stream is opened again. -/
def RtspLoader.retry (a : Answer) (m : RtspLoader) : Option RtspLoader :=
  if !a.attempt.isOpened then none
  else if !a.attempt.read then none
  else some m

def rtsp : Loader := ⟨RtspLoader, RtspLoader.pass, RtspLoader.retry⟩

/-! ### `UsbDeviceLoaderProcessor` -/

/-- `UsbDeviceLoaderProcessor::run` looks at what `read` returns and not at the image. -/
def usbPass (a : Answer) (m : UsbLoader) : Pass UsbLoader :=
  if !a.ret then .reopen m
  else
    let m := { m with frame_id_ := m.frame_id_ + 1 }
    .push m.frame_id_ { m with is_ready_ := true }

def usb : Loader := ⟨UsbLoader, usbPass, fun a m => reopenCamera [a.attempt] m⟩

/-! ### `LocalVideoLoaderProcessor` -/

/-- The members of `LocalVideoLoaderProcessor` that its frames depend on. -/
structure LocalVideoLoader where
  local_video_file_ : String
  localVideoList_ : List String
  frame_id_ : Int := 0
  deriving DecidableEq, Repr

/-- `loadVideo` takes the last file of the list; no value when there is none, where it returns -1. -/
def LocalVideoLoader.loadVideo (m : LocalVideoLoader) : Option LocalVideoLoader :=
  match m.localVideoList_.getLast? with
  | some file => some { m with
      local_video_file_ := file
      localVideoList_ := m.localVideoList_.dropLast }
  | none => none

/-- `LocalVideoLoaderProcessor::run` counts the images it reads; without one it goes on to the next
file. -/
def LocalVideoLoader.pass (a : Answer) (m : LocalVideoLoader) : Pass LocalVideoLoader :=
  if emptyImage a.image then
    match m.loadVideo with
    | some m => if a.isOpened then .again m else .fatal
    | none => .quit
  else
    let m := { m with frame_id_ := m.frame_id_ + 1 }
    .push m.frame_id_ m

/-- The local video is never reopened. -/
def localVideo : Loader := ⟨LocalVideoLoader, LocalVideoLoader.pass, fun _ _ => none⟩

/-! ## Counting -/

/-- The loader numbers its frames upwards, from where `count` stands, and counts at most one for
each pass. -/
structure Loader.Counts (L : Loader) (count : L.Members → Int) : Prop where
  push : ∀ {a m id m'}, L.pass a m = .push id m' → id = count m + 1 ∧ count m' = id
  again : ∀ {a m m'}, L.pass a m = .again m' → count m ≤ count m' ∧ count m' ≤ count m + 1
  reopen : ∀ {a m m'}, L.pass a m = .reopen m' → count m ≤ count m' ∧ count m' ≤ count m + 1
  retry : ∀ {a m m'}, L.retry a m = some m' → count m' = count m

/-- The stream loader numbers its frames upwards. -/
theorem rtsp_counts : rtsp.Counts RtspLoader.frame_id_ where
  push := by
    intro a m id m' h
    simp only [rtsp, RtspLoader.pass] at h
    split at h
    · cases h
    · cases h
      exact ⟨rfl, rfl⟩
  again := by
    intro a m m' h
    simp only [rtsp, RtspLoader.pass] at h
    split at h <;> cases h
  reopen := by
    intro a m m' h
    simp only [rtsp, RtspLoader.pass] at h
    split at h
    · cases h
      exact ⟨by show m.frame_id_ ≤ m.frame_id_ + 1; omega, le_refl _⟩
    · cases h
  retry := by
    intro a m m' h
    simp only [rtsp, RtspLoader.retry] at h
    split at h
    · cases h
    split at h
    · cases h
    · cases h
      rfl

/-- The stream loader looks at its images. -/
theorem rtsp_looks {a : Answer} {m m' : RtspLoader} {id : Int} (h : rtsp.pass a m = .push id m') :
    emptyImage a.image = false := by
  simp only [rtsp, RtspLoader.pass] at h
  split at h
  · cases h
  · rename_i himage
    exact Bool.eq_false_iff.mpr himage

/-- And so does the loader of local videos. -/
theorem localVideo_looks {a : Answer} {m m' : LocalVideoLoader} {id : Int}
    (h : localVideo.pass a m = .push id m') : emptyImage a.image = false := by
  simp only [localVideo, LocalVideoLoader.pass] at h
  split at h
  · split at h
    · split at h <;> cases h
    · cases h
  · rename_i himage
    exact Bool.eq_false_iff.mpr himage

/-- The next file of a local video goes on with the count. -/
theorem loadVideo_frame_id {m m' : LocalVideoLoader} (h : m.loadVideo = some m') :
    m'.frame_id_ = m.frame_id_ := by
  unfold LocalVideoLoader.loadVideo at h
  split at h
  · cases h
    rfl
  · cases h

/-- So does the loader of local videos. -/
theorem localVideo_counts : localVideo.Counts LocalVideoLoader.frame_id_ where
  push := by
    intro a m id m' h
    simp only [localVideo, LocalVideoLoader.pass] at h
    split at h
    · split at h
      · split at h <;> cases h
      · cases h
    · cases h
      exact ⟨rfl, rfl⟩
  again := by
    intro a m m' h
    simp only [localVideo, LocalVideoLoader.pass] at h
    split at h
    · split at h
      · rename_i m₁ hload
        split at h
        · cases h
          rw [loadVideo_frame_id hload]
          omega
        · cases h
      · cases h
    · cases h
  reopen := by
    intro a m m' h
    simp only [localVideo, LocalVideoLoader.pass] at h
    split at h
    · split at h
      · split at h <;> cases h
      · cases h
    · cases h
  retry := by
    intro a m m' h
    cases h

/-- **The USB camera does not count on**: after it has been reopened it starts from 0 again. -/
theorem usb_retry {a : Answer} {m : UsbLoader} :
    usb.retry a m = if a.attempt.succeeds then some ⟨false, 0⟩ else none := by
  show reopenCamera [a.attempt] m = _
  rw [reopenCamera_eq, List.any_cons, List.any_nil, Bool.or_false]
  rfl

end EdgeFrame.Running
