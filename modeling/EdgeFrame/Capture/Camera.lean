/-
# EdgeFrame.Capture.Camera -- finding a camera

`infoCamera` opens a device and asks its driver what it is: whether it captures video, how
many inputs it has, and then, in three nested loops, for every pixel format, frame size and
frame interval. Every loop ends with the first request that fails. `findCamera` scans /dev
for a device that answers all of it, and `reopenCamera` scans until there is one.

What the system calls return is arbitrary: a list of replies, one for each call that has one.
A function that has not returned before its replies run out has no result.
-/
import EdgeFrame.Lib.Bytes
import Mathlib

namespace EdgeFrame.Capture

open Lib

/-! ## System calls -/

/-- What `open` or `ioctl` returns, and the fields of its argument that are read afterwards. -/
structure Reply where
  ret : Int
  capabilities : UInt32 := 0
  pixelformat : UInt32 := 0
  width : UInt32 := 0
  height : UInt32 := 0
  deriving DecidableEq, Repr

/-- The requests, with the fields of their arguments that are set. -/
inductive Request where
  | queryCap
  | enumInput (index : Nat)
  | enumFmt (index : Nat)
  | enumFrameSizes (index : Nat) (pixel_format : UInt32)
  | enumFrameIntervals (index : Nat) (pixel_format width height : UInt32)
  deriving DecidableEq, Repr

/-- The system calls that were made; `open` with the descriptor that it returned. -/
inductive SysCall where
  | open (devName : Bytes) (fd : Int)
  | ioctl (fd : Int) (request : Request)
  | close (fd : Int)
  deriving DecidableEq, Repr

def V4L2_CAP_VIDEO_CAPTURE : UInt32 := 1

/-- An unsigned width or height in an `int`. -/
def asInt (n : UInt32) : Int := n.toInt32.toInt

/-! ## `infoCamera` -/

/-- The loop over the inputs of the device: `inpNum`, the calls made and the replies left. -/
def countInputs (fd : Int) : List Reply → Nat → Nat → List SysCall →
    Option (Nat × List SysCall × List Reply)
  | [], _, _, _ => none
  | r :: replies, i, inpNum, calls =>
    let calls := calls ++ [.ioctl fd (.enumInput i)]
    if r.ret < 0 then some (inpNum, calls, replies)
    else countInputs fd replies (i + 1) (inpNum + 1) calls

/-- At the head of which of the three nested loops the code is, with the variables of the loops. -/
inductive Loop where
  | formats (i : Nat)
  | sizes (i : Nat) (pixelformat : UInt32) (j : Nat)
  | intervals (i : Nat) (pixelformat : UInt32) (j : Nat) (width height : UInt32) (k : Nat)
  deriving DecidableEq, Repr

/-- The request at the head of the loop. -/
def Loop.request : Loop → Request
  | .formats i => .enumFmt i
  | .sizes _ pixelformat j => .enumFrameSizes j pixelformat
  | .intervals _ pixelformat _ width height k => .enumFrameIntervals k pixelformat width height

/-- After `break`: on to the next turn of the loop around this one, if there is one. -/
def Loop.leave : Loop → Option Loop
  | .formats _ => none
  | .sizes i _ _ => some (.formats (i + 1))
  | .intervals i pixelformat j _ _ _ => some (.sizes i pixelformat (j + 1))

/-- After a request that did not fail: into the loop inside this one, or its next turn. -/
def Loop.enter (r : Reply) : Loop → Loop
  | .formats i => .sizes i r.pixelformat 0
  | .sizes i pixelformat j => .intervals i pixelformat j r.width r.height 0
  | .intervals i pixelformat j width height k => .intervals i pixelformat j width height (k + 1)

/-- What the loops count, push to `suppered_resolution_vec_` and call. -/
structure Found where
  fmtdNum : Nat := 0
  frmsizeNum : Nat := 0
  framivalNum : Nat := 0
  resolutions : List (Int × Int) := []
  calls : List SysCall
  deriving DecidableEq, Repr

def Found.count (s : Found) (r : Reply) : Loop → Found
  | .formats _ => { s with fmtdNum := s.fmtdNum + 1 }
  | .sizes _ _ _ =>
    { s with
      frmsizeNum := s.frmsizeNum + 1
      resolutions := s.resolutions ++ [(asInt r.width, asInt r.height)] }
  | .intervals .. => { s with framivalNum := s.framivalNum + 1 }

def Found.call (s : Found) (c : SysCall) : Found := { s with calls := s.calls ++ [c] }

/-- The three nested loops. -/
def enumerate (fd : Int) : List Reply → Loop → Found → Option (Found × List Reply)
  | [], _, _ => none
  | r :: replies, loop, s =>
    let s := s.call (.ioctl fd loop.request)
    if r.ret < 0 then
      match loop.leave with
      | none => some (s, replies)
      | some loop => enumerate fd replies loop s
    else enumerate fd replies (loop.enter r) (s.count r loop)

/-- A call of `infoCamera`: what it returned, pushed to `suppered_resolution_vec_` and called. -/
structure Answer where
  accepted : Bool
  resolutions : List (Int × Int) := []
  calls : List SysCall := []
  deriving DecidableEq, Repr

/-- The end of `infoCamera`, for a device that captures video. -/
def infoInputs (fd : Int) (replies : List Reply) (calls : List SysCall) :
    Option (Answer × List Reply) := do
  let (inpNum, calls, replies) ← countInputs fd replies 0 0 calls
  if inpNum = 0 then return ({ accepted := false, calls := calls }, replies)
  let (s, replies) ← enumerate fd replies (.formats 0) { calls := calls }
  let s := s.call (.close fd)
  return ({ accepted := 0 < s.fmtdNum && 0 < s.frmsizeNum && 0 < s.framivalNum
            resolutions := s.resolutions
            calls := s.calls }, replies)

/-- `UsbDeviceLoaderProcessor::infoCamera`. -/
def infoCamera (devName : Bytes) (replies : List Reply) : Option (Answer × List Reply) :=
  if devName.isEmpty then some ({ accepted := false }, replies)
  else
    match replies with
    | [] => none
    | opened :: replies =>
      let fd := opened.ret
      let calls := [.open devName fd]
      if fd < 0 then some ({ accepted := false, calls := calls }, replies)
      else
        match replies with
        | [] => none
        | cap :: replies =>
          let calls := calls ++ [.ioctl fd .queryCap]
          if cap.ret < 0 then
            some ({ accepted := false, calls := calls ++ [.close fd] }, replies)
          else if cap.capabilities &&& V4L2_CAP_VIDEO_CAPTURE = 0 then
            some ({ accepted := false, calls := calls ++ [.close fd] }, replies)
          else infoInputs fd replies calls

/-- The returns of `infoCamera`, with what holds on each. -/
inductive Returns (devName : Bytes) : List Reply → Answer → List Reply → Prop where
  | unnamed {replies : List Reply} (hname : devName.isEmpty = true) :
      Returns devName replies { accepted := false } replies
  | unopened {opened : Reply} {replies : List Reply} (hname : devName.isEmpty = false)
      (hopen : opened.ret < 0) :
      Returns devName (opened :: replies)
        { accepted := false, calls := [.open devName opened.ret] } replies
  | refused {opened cap : Reply} {replies : List Reply} (hname : devName.isEmpty = false)
      (hopen : 0 ≤ opened.ret)
      (hrefused : cap.ret < 0 ∨ cap.capabilities &&& V4L2_CAP_VIDEO_CAPTURE = 0) :
      Returns devName (opened :: cap :: replies)
        { accepted := false
          calls := [.open devName opened.ret, .ioctl opened.ret .queryCap, .close opened.ret] }
        replies
  | inputless {opened cap : Reply} {replies rest : List Reply} {calls : List SysCall}
      (hname : devName.isEmpty = false) (hopen : 0 ≤ opened.ret) (hcap : 0 ≤ cap.ret)
      (hvideo : cap.capabilities &&& V4L2_CAP_VIDEO_CAPTURE ≠ 0)
      (hinputs : countInputs opened.ret replies 0 0
        [.open devName opened.ret, .ioctl opened.ret .queryCap] = some (0, calls, rest)) :
      Returns devName (opened :: cap :: replies) { accepted := false, calls := calls } rest
  | enumerated {opened cap : Reply} {replies replies' rest : List Reply} {inpNum : Nat}
      {calls : List SysCall} {s : Found}
      (hname : devName.isEmpty = false) (hopen : 0 ≤ opened.ret) (hcap : 0 ≤ cap.ret)
      (hvideo : cap.capabilities &&& V4L2_CAP_VIDEO_CAPTURE ≠ 0)
      (hinputs : countInputs opened.ret replies 0 0
        [.open devName opened.ret, .ioctl opened.ret .queryCap] = some (inpNum, calls, replies'))
      (hsome : inpNum ≠ 0)
      (henumerate : enumerate opened.ret replies' (.formats 0) { calls := calls } =
        some (s, rest)) :
      Returns devName (opened :: cap :: replies)
        { accepted := 0 < s.fmtdNum && 0 < s.frmsizeNum && 0 < s.framivalNum
          resolutions := s.resolutions
          calls := s.calls ++ [.close opened.ret] } rest

/-- **What a call of `infoCamera` can do.** -/
theorem infoCamera_returns {devName : Bytes} {replies rest : List Reply} {answer : Answer}
    (h : infoCamera devName replies = some (answer, rest)) :
    Returns devName replies answer rest := by
  unfold infoCamera at h
  -- the returns of the function, one after the other
  split at h
  · rename_i hname
    cases h
    exact .unnamed hname
  rename_i hname
  rw [Bool.not_eq_true] at hname
  split at h
  · cases h
  rename_i opened replies
  dsimp only at h
  split at h
  · rename_i hopen
    cases h
    exact .unopened hname hopen
  rename_i hopen
  rw [not_lt] at hopen
  split at h
  · cases h
  rename_i cap replies
  split at h
  · rename_i hcap
    cases h
    exact .refused hname hopen (Or.inl hcap)
  rename_i hcap
  rw [not_lt] at hcap
  split at h
  · rename_i hvideo
    cases h
    exact .refused hname hopen (Or.inr hvideo)
  rename_i hvideo
  unfold infoInputs at h
  obtain ⟨⟨inpNum, calls, replies'⟩, hinputs, h⟩ := Option.bind_eq_some_iff.mp h
  dsimp only at h
  split at h
  · rename_i hzero
    cases h
    rw [hzero] at hinputs
    exact .inputless hname hopen hcap hvideo hinputs
  -- past all of them the device is enumerated
  · rename_i hsome
    obtain ⟨⟨s, replies''⟩, henumerate, h⟩ := Option.bind_eq_some_iff.mp h
    cases h
    exact .enumerated hname hopen hcap hvideo hinputs hsome henumerate

/-! ## `findCamera` -/

/-- `fnmatch("video*", d_name, FNM_PATHNAME | FNM_PERIOD) == 0`. -/
def isVideo (d_name : Bytes) : Bool :=
  d_name.take 5 == str "video" && (d_name.drop 5).all fun b => b != 47

/-- `d_name[5] - '0'`, where a `char` may or may not be signed; behind the last byte of a name
there is a zero. -/
def videoOf (signed : Bool) (d_name : Bytes) : Int :=
  let c := d_name.getD 5 0
  (if signed then c.toInt8.toInt else c.toNat) - 48

/-- `"/dev/video" + std::to_string(video)`. -/
def devicePath (video : Int) : Bytes := str "/dev/video" ++ str (toString video)

section

variable {σ : Type}

/-- The loop over the entries of /dev, with what `infoCamera` does to the state and returns. -/
def scanEntries (infoCamera : σ → Bytes → Option (Bool × σ)) (signed : Bool) :
    σ → List Bytes → Option (Int × σ)
  | s, [] => some (-1, s)
  | s, d_name :: entries =>
    if isVideo d_name then
      let video := videoOf signed d_name
      match infoCamera s (devicePath video) with
      | none => none
      | some (true, s) => some (video, s)
      | some (false, s) => scanEntries infoCamera signed s entries
    else scanEntries infoCamera signed s entries

/-- `UsbDeviceLoaderProcessor::findCamera`; `none` is a /dev that does not open. -/
def findCamera (infoCamera : σ → Bytes → Option (Bool × σ)) (signed : Bool) (s : σ) :
    Option (List Bytes) → Option (Int × σ)
  | none => some (-1, s)
  | some entries => scanEntries infoCamera signed s entries

end

/-! ## Scans -/

/-- A call of `infoCamera`, with the replies that were still to come. -/
structure Probe where
  devName : Bytes
  replies : List Reply
  answer : Answer
  deriving DecidableEq, Repr

/-- The member that `infoCamera` fills, the replies that are still to come, and the calls so far. -/
structure Scanner where
  suppered_resolution_vec_ : List (Int × Int) := []
  replies : List Reply
  probes : List Probe := []
  deriving DecidableEq, Repr

/-- `infoCamera` as a method. -/
def Scanner.infoCamera (s : Scanner) (devName : Bytes) : Option (Bool × Scanner) := do
  let (answer, replies) ← Capture.infoCamera devName s.replies
  return (answer.accepted,
    { suppered_resolution_vec_ := s.suppered_resolution_vec_ ++ answer.resolutions
      replies := replies
      probes := s.probes ++ [⟨devName, s.replies, answer⟩] })

/-- A call of `findCamera` that returned: what it found in /dev, what it returned and which devices
it asked. -/
structure Scan where
  listing : Option (List Bytes)
  cam_id : Int
  probes : List Probe

/-- The scan led from one state to the other. -/
def Scans (signed : Bool) (s : Scanner) (scan : Scan) (s' : Scanner) : Prop :=
  findCamera Scanner.infoCamera signed s scan.listing = some (scan.cam_id, s') ∧
    s'.probes = s.probes ++ scan.probes

/-! ## What a scan keeps -/

/-- What a call of `infoCamera` keeps, a scan keeps. -/
theorem scanEntries_keeps {σ : Type} {infoCamera : σ → Bytes → Option (Bool × σ)} {signed : Bool}
    {I : σ → Prop} (hkeeps : ∀ s devName b s', I s → infoCamera s devName = some (b, s') → I s')
    {entries : List Bytes} : ∀ {s s' : σ} {n : Int}, I s →
      scanEntries infoCamera signed s entries = some (n, s') → I s' := by
  induction entries with
  | nil =>
    intro s s' n hs h
    cases h
    exact hs
  | cons d_name entries ih =>
    intro s s' n hs h
    unfold scanEntries at h
    dsimp only at h
    split at h
    · split at h
      · cases h
      · rename_i hasked
        cases h
        exact hkeeps _ _ _ _ hs hasked
      · rename_i hasked
        exact ih (hkeeps _ _ _ _ hs hasked) h
    · exact ih hs h

theorem findCamera_keeps {σ : Type} {infoCamera : σ → Bytes → Option (Bool × σ)} {signed : Bool}
    {I : σ → Prop} (hkeeps : ∀ s devName b s', I s → infoCamera s devName = some (b, s') → I s')
    {listing : Option (List Bytes)} {s s' : σ} {n : Int} (hs : I s)
    (h : findCamera infoCamera signed s listing = some (n, s')) : I s' := by
  cases listing with
  | none =>
    cases h
    exact hs
  | some entries => exact scanEntries_keeps hkeeps hs h

end EdgeFrame.Capture
