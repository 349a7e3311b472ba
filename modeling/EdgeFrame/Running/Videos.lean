/-
# EdgeFrame.Running.Videos -- the service plays local videos

`LocalVideoLoaderProcessor` is started with the name of a video or of a directory. Of a
directory it takes the files whose name contains `.mp4`, sorted, and works through the
list from its end; when a file shows no more image the next one is opened, and after the
last one the service is told to quit. The videos stand for what `cv::VideoCapture` reads of
them: which images, and whether a file can be opened at all.

`Player` puts the service together with what is left to read of the open file, so that
what the loader is told is no longer arbitrary. Its runs are runs of the service
(`Steps.service`). The invariant is `Playing`: what has been captured and what is still to be
shown are, together, all there was at the start. A step of the loader moves the first
image of the second part to the first part, or goes on to the next file; nobody else
touches either of them.
-/
import EdgeFrame.Pipeline.Wiring
import EdgeFrame.Running.Delivery
import Mathlib

namespace EdgeFrame.Running

open EdgeFrame.Lib EdgeFrame.Track
open EdgeFrame.Capture (Attempt)
open EdgeFrame.Pipeline (found)

/-! ## The files -/

/-- What the name of a video contains. -/
def VIDEOFORMAT : String := ".mp4"

/-- An entry of a directory. -/
structure Entry where
  filename : String
  is_directory : Bool
  deriving DecidableEq, Repr

/-- What is on the disk: the entries of a directory, in some order, and the images of a video that can
be opened. -/
structure Disk where
  entries : String → List Entry
  images : String → Option (List Mat)

/-- `SysPublicTool::getFiles` for the directory `_path`, which has these entries. -/
def getFiles (entries : List Entry) (_path format : String) : List String :=
  let v := entries.insertionSort fun a b => a.filename ≤ b.filename
  (v.filter fun i => !i.is_directory && found i.filename format).map fun i =>
    _path ++ "/" ++ i.filename

/-- The list that `init` makes: one file, or the files of the directory. -/
def localVideoList (disk : Disk) (local_video_file_ : String) : List String :=
  if found local_video_file_ VIDEOFORMAT then [local_video_file_]
  else getFiles (disk.entries local_video_file_) local_video_file_ VIDEOFORMAT

/-- `LocalVideoLoaderProcessor::init`: the members, and what there is to read of the first file. There is
no value if there is no video, or the first one cannot be opened, where the process ends. -/
def LocalVideoLoader.init (disk : Disk) (local_video_file_ : String) :
    Option (LocalVideoLoader × List Mat) := do
  let m ← LocalVideoLoader.loadVideo ⟨local_video_file_, localVideoList disk local_video_file_, 0⟩
  let tape ← disk.images m.local_video_file_
  return (m, tape)

/-! ## A service that plays them -/

/-- A file shows its images up to the first empty one. -/
def shown (tape : List Mat) : List Mat := tape.takeWhile fun image => !emptyImage image

/-- What a file shows. -/
def Disk.shown (disk : Disk) (file : String) : List Mat :=
  Running.shown ((disk.images file).getD [])

variable {K : Type} [Field K]

/-- A service with a loader of local videos. -/
def videoConfig (camera_sns : String) (P : Setup K) (monitor_interval : Int) : Config K :=
  ⟨localVideo, camera_sns, P, monitor_interval⟩

variable {B : BoundedQueue (Any K)} {camera_sns : String} {P : Setup K} {monitor_interval : Int}

variable (B camera_sns P monitor_interval) in
/-- The service, and what is left to read of the open file. `frames` is bookkeeping: what the loader has
captured so far. -/
structure Player where
  service : Service B (videoConfig camera_sns P monitor_interval)
  tape : List Mat
  frames : List WhaleFrame := []

namespace Player

/-- The members of the loader. -/
def members (p : Player B camera_sns P monitor_interval) : LocalVideoLoader := p.service.members

/-- What the loader is told: the next image, or an empty one, and whether the next file opens. -/
def answer (disk : Disk) (p : Player B camera_sns P monitor_interval) (a : Answer) : Answer :=
  { a with
    image := p.tape.headD ⟨0, 0, []⟩
    isOpened := p.members.loadVideo.any fun m => (disk.images m.local_video_file_).isSome }

/-- What is left to read after the loader has read. -/
def rest (disk : Disk) (p : Player B camera_sns P monitor_interval) : List Mat :=
  if emptyImage (p.tape.headD ⟨0, 0, []⟩) then
    match p.members.loadVideo with
    | some m => (disk.images m.local_video_file_).getD []
    | none => []
  else p.tape.tail

variable [LinearOrder K]

/-- A step of the service, in which the loader is told what the disk says. -/
def step (disk : Disk) (p : Player B camera_sns P monitor_interval) :
    Service.Move K → Option (Player B camera_sns P monitor_interval)
  | .loader a => do
    let (service, reports) ← p.service.loaderStep (p.answer disk a)
    let tape := match p.service.loaderPc with
      | .read => p.rest disk
      | _ => p.tape
    return ⟨service, tape, p.frames ++ reports.flatMap Report.made⟩
  | m => do
    let (service, reports) ← p.service.step m
    return ⟨service, p.tape, p.frames ++ reports.flatMap Report.made⟩

/-- The state that these moves lead to, if each can be made in its turn. -/
def exec (disk : Disk) (p : Player B camera_sns P monitor_interval) (ms : List (Service.Move K)) :
    Option (Player B camera_sns P monitor_interval) :=
  ms.foldlM (fun p m => p.step disk m) p

/-- Some interleaving leads from `p` to `p'`. -/
abbrev Steps (disk : Disk) : Player B camera_sns P monitor_interval → List (Service.Move K) →
    Player B camera_sns P monitor_interval → Prop :=
  Trace fun p m p' => p.step disk m = some p'

/-- The service starts with these members, and this to read. -/
def init (B : BoundedQueue (Any K)) (camera_sns : String) (P : Setup K) (monitor_interval : Int)
    (size : Nat) (timers : Monitor.DetectorProcessor) (start : LocalVideoLoader × List Mat) :
    Player B camera_sns P monitor_interval where
  service := .init B (videoConfig camera_sns P monitor_interval) size start.1 timers
  tape := start.2

/-! ## What is still to be shown -/

/-- The images that the loader has still to capture: the rest of the open file, then the files of the
list from its end. -/
def toShow (disk : Disk) (p : Player B camera_sns P monitor_interval) : List Mat :=
  shown p.tape ++ p.members.localVideoList_.reverse.flatMap disk.shown

end Player

/-- An empty image ends a file. -/
theorem shown_of_empty {tape : List Mat} (h : emptyImage (tape.headD ⟨0, 0, []⟩) = true) :
    shown tape = [] := by
  cases tape with
  | nil => rfl
  | cons image tape =>
    have himage : emptyImage image = true := h
    simp [shown, himage]

/-- Any other is shown, and then the rest. -/
theorem shown_of_image {tape : List Mat} (h : emptyImage (tape.headD ⟨0, 0, []⟩) = false) :
    shown tape = tape.headD ⟨0, 0, []⟩ :: shown tape.tail := by
  cases tape with
  | nil => cases h
  | cons image tape =>
    have himage : emptyImage image = false := h
    simp [shown, himage]

/-- `loadVideo` takes the file that is shown next. -/
theorem loadVideo_shows (disk : Disk) {m m' : LocalVideoLoader} (h : m.loadVideo = some m') :
    m.localVideoList_.reverse.flatMap disk.shown =
      disk.shown m'.local_video_file_ ++ m'.localVideoList_.reverse.flatMap disk.shown := by
  unfold LocalVideoLoader.loadVideo at h
  split at h
  · rename_i file hfile
    cases h
    obtain ⟨files, hlist⟩ := List.getLast?_eq_some_iff.mp hfile
    simp [hlist]
  · cases h

/-- There is no file to load when none is on the list. -/
theorem loadVideo_none {m : LocalVideoLoader} (h : m.loadVideo = none) : m.localVideoList_ = [] := by
  unfold LocalVideoLoader.loadVideo at h
  split at h
  · cases h
  · rename_i hnone
    exact List.getLast?_eq_none_iff.mp hnone

/-! ## Runs -/

namespace Player

variable [LinearOrder K] {disk : Disk} {p p' : Player B camera_sns P monitor_interval}
  {total : List Mat} {ms : List (Service.Move K)} {size : Nat} {timers : Monitor.DetectorProcessor}

/-- What holds after the moves `ms`, of a service that has `total` to show: what is captured and what
is still to be shown are all of it, in its order, and if nobody else stops it the service goes on
until nothing is left.

The last part is about the end: only the loader and a signal stop the service, and the loader does
when nothing is left. -/
structure Playing (disk : Disk) (total : List Mat) (ms : List (Service.Move K))
    (p : Player B camera_sns P monitor_interval) : Prop where
  images : p.frames.map (·.cvImage) ++ p.toShow disk = total
  numbers : p.frames.map (·.frame_id) =
    (List.range p.frames.length).map fun i : Nat => UInt64.ofInt ((i : Int) + 1)
  count : p.members.frame_id_ = p.frames.length
  done : .stopAll ∉ ms → (p.service.sys_quit = true ∨ p.service.loaderPc = .quit) →
    p.toShow disk = []

omit [LinearOrder K] in
/-- A move that the loader has no part in. -/
theorem Playing.other (h : Playing disk total ms p) {m : Service.Move K}
    {service : Service B (videoConfig camera_sns P monitor_interval)}
    (hmembers : service.members = p.service.members)
    (hpc : service.loaderPc = p.service.loaderPc)
    (hquit : service.sys_quit = p.service.sys_quit ∨ m = .stopAll) :
    Playing disk total (ms ++ [m]) ⟨service, p.tape, p.frames⟩ := by
  have hsame : (⟨service, p.tape, p.frames⟩ : Player B camera_sns P monitor_interval).toShow disk =
      p.toShow disk := by
    show shown p.tape ++ (service.members : LocalVideoLoader).localVideoList_.reverse.flatMap _ = _
    rw [hmembers]
    rfl
  constructor
  · show p.frames.map (·.cvImage) ++ _ = total
    rw [hsame]
    exact h.images
  · exact h.numbers
  · show (service.members : LocalVideoLoader).frame_id_ = _
    rw [hmembers]
    exact h.count
  · intro hstop hend
    rw [hsame]
    apply h.done fun hmem => hstop (List.mem_append_left _ hmem)
    obtain hquit | hm := hquit
    · rw [← hquit, ← hpc]
      exact hend
    · exact absurd (List.mem_append_right ms (List.mem_singleton.mpr hm.symm)) hstop

omit [LinearOrder K] in
/-- A statement of the loader that neither reads nor quits. -/
theorem Playing.quiet (h : Playing disk total ms p) {a : Answer}
    {service : Service B (videoConfig camera_sns P monitor_interval)}
    (hmembers : service.members = p.service.members) (hpc : service.loaderPc ≠ .quit)
    (hquit : service.sys_quit = true → p.service.sys_quit = true ∨ p.service.loaderPc = .quit) :
    Playing disk total (ms ++ [.loader a]) ⟨service, p.tape, p.frames⟩ := by
  have hsame : (⟨service, p.tape, p.frames⟩ : Player B camera_sns P monitor_interval).toShow disk =
      p.toShow disk := by
    show shown p.tape ++ (service.members : LocalVideoLoader).localVideoList_.reverse.flatMap _ = _
    rw [hmembers]
    rfl
  constructor
  · show p.frames.map (·.cvImage) ++ _ = total
    rw [hsame]
    exact h.images
  · exact h.numbers
  · show (service.members : LocalVideoLoader).frame_id_ = _
    rw [hmembers]
    exact h.count
  · intro hstop hend
    rw [hsame]
    apply h.done fun hmem => hstop (List.mem_append_left _ hmem)
    obtain hend | hend := hend
    · exact hquit hend
    · exact absurd hend hpc

omit [LinearOrder K] in
/-- An image of the open file. -/
theorem Playing.image (h : Playing disk total ms p) {a : Answer}
    {service : Service B (videoConfig camera_sns P monitor_interval)}
    (himage : emptyImage (p.tape.headD ⟨0, 0, []⟩) = false)
    (hmembers : service.members =
      ({ p.members with frame_id_ := p.members.frame_id_ + 1 } : LocalVideoLoader))
    (hpc : service.loaderPc ≠ .quit) (hquit : service.sys_quit = p.service.sys_quit)
    {frame : WhaleFrame} (hshown : frame.cvImage = p.tape.headD ⟨0, 0, []⟩)
    (hnumber : frame.frame_id = UInt64.ofInt (p.members.frame_id_ + 1)) :
    Playing disk total (ms ++ [.loader a]) ⟨service, p.tape.tail, p.frames ++ [frame]⟩ := by
  have hnext : p.toShow disk = frame.cvImage ::
      (⟨service, p.tape.tail, p.frames ++ [frame]⟩ :
        Player B camera_sns P monitor_interval).toShow disk := by
    show shown p.tape ++ _ = frame.cvImage :: (shown p.tape.tail ++
      (service.members : LocalVideoLoader).localVideoList_.reverse.flatMap disk.shown)
    rw [shown_of_image himage, hshown, hmembers]
    rfl
  constructor
  · show (p.frames ++ [frame]).map (·.cvImage) ++ _ = total
    rw [List.map_append, List.append_assoc, ← h.images, hnext]
    rfl
  · show (p.frames ++ [frame]).map (·.frame_id) = _
    rw [List.map_append, h.numbers, List.length_append]
    show _ = (List.range (p.frames.length + 1)).map _
    rw [List.range_succ, List.map_append]
    show _ ++ [frame.frame_id] = _
    rw [hnumber, h.count]
    rfl
  · show (service.members : LocalVideoLoader).frame_id_ = _
    rw [hmembers]
    show p.members.frame_id_ + 1 = _
    rw [h.count]
    simp
  · intro hstop hend
    -- nobody has stopped the service, or nothing would be left to show
    have hold : p.toShow disk = [] := by
      apply h.done fun hmem => hstop (List.mem_append_left _ hmem)
      obtain hend | hend := hend
      · exact Or.inl (hquit ▸ hend)
      · exact absurd hend hpc
    rw [hnext] at hold
    cases hold

omit [LinearOrder K] in
/-- The end of a file: the next one is opened, or nothing is left.

A file that cannot be opened shows nothing, as one without images. -/
theorem Playing.fileEnd (h : Playing disk total ms p) {a : Answer}
    {service : Service B (videoConfig camera_sns P monitor_interval)} {tape : List Mat}
    (hsame : (⟨service, tape, p.frames⟩ : Player B camera_sns P monitor_interval).toShow disk =
      p.toShow disk)
    (hcount : (service.members : LocalVideoLoader).frame_id_ = p.members.frame_id_)
    (hpc : service.loaderPc = .quit → p.toShow disk = [])
    (hquit : service.sys_quit = p.service.sys_quit) :
    Playing disk total (ms ++ [.loader a]) ⟨service, tape, p.frames⟩ := by
  constructor
  · show p.frames.map (·.cvImage) ++ _ = total
    rw [hsame]
    exact h.images
  · exact h.numbers
  · exact hcount.trans h.count
  · intro hstop hend
    rw [hsame]
    obtain hend | hend := hend
    · apply h.done fun hmem => hstop (List.mem_append_left _ hmem)
      exact Or.inl (hquit ▸ hend)
    · exact hpc hend

omit [LinearOrder K] in
/-- What the loader reads. -/
theorem Playing.read (h : Playing disk total ms p) {a : Answer}
    {service : Service B (videoConfig camera_sns P monitor_interval)} {reports : List (Report K)}
    (hread : p.service.read (p.answer disk a) = some (service, reports)) :
    Playing disk total (ms ++ [.loader a])
      ⟨service, p.rest disk, p.frames ++ reports.flatMap Report.made⟩ := by
  have hpass : (videoConfig camera_sns P monitor_interval).L.pass (p.answer disk a)
      p.service.members = LocalVideoLoader.pass (p.answer disk a) p.members := rfl
  simp only [Service.read, hpass, LocalVideoLoader.pass] at hread
  have hanswer : (p.answer disk a).image = p.tape.headD ⟨0, 0, []⟩ := rfl
  rw [hanswer] at hread
  cases himage : emptyImage (p.tape.headD ⟨0, 0, []⟩) with
  | false =>
    simp only [himage, Bool.false_eq_true, if_false] at hread
    obtain ⟨hservice, rfl⟩ := Prod.mk.inj (Option.some.inj hread)
    -- an image makes a frame under the next number
    have hrest : p.rest disk = p.tape.tail := by
      rw [rest, himage]
      rfl
    rw [hrest]
    apply h.image himage
    · rw [← hservice]
    · rw [← hservice]
      exact LoaderPc.noConfusion
    · rw [← hservice]
    · rfl
    · rfl
  | true =>
    simp only [himage, if_true] at hread
    cases hload : p.members.loadVideo with
    | none =>
      simp only [hload] at hread
      obtain ⟨hservice, rfl⟩ := Prod.mk.inj (Option.some.inj hread)
      have hrest : p.rest disk = [] := by
        rw [rest, himage, hload]
        rfl
      -- the list is empty, and the source sets the flag
      have hnothing : p.toShow disk = [] := by
        rw [toShow, shown_of_empty himage, loadVideo_none hload]
        rfl
      have hframes : p.frames ++ ([] : List (Report K)).flatMap Report.made = p.frames :=
        List.append_nil _
      rw [hrest, hframes]
      apply h.fileEnd
      · rw [hnothing, ← hservice]
        show shown [] ++ p.members.localVideoList_.reverse.flatMap disk.shown = []
        rw [loadVideo_none hload]
        rfl
      · rw [← hservice]
        rfl
      · exact fun _ => hnothing
      · rw [← hservice]
    | some m =>
      have hopens : (p.answer disk a).isOpened = (disk.images m.local_video_file_).isSome := by
        show (p.members.loadVideo.any fun m => (disk.images m.local_video_file_).isSome) = _
        rw [hload]
        rfl
      simp only [hload, hopens] at hread
      cases himages : disk.images m.local_video_file_ with
      | none =>
        -- the `CHECK` of `loadVideo` ends the process
        simp only [himages, Option.isSome_none, Bool.false_eq_true, if_false] at hread
        cases hread
      | some tape =>
        simp only [himages, Option.isSome_some, if_true] at hread
        obtain ⟨hservice, rfl⟩ := Prod.mk.inj (Option.some.inj hread)
        have hrest : p.rest disk = tape := by
          -- the next file starts at its first image
          rw [rest, himage, hload]
          show (disk.images m.local_video_file_).getD [] = tape
          rw [himages]
          rfl
        have hframes : p.frames ++ ([] : List (Report K)).flatMap Report.made = p.frames :=
          List.append_nil _
        rw [hrest, hframes]
        apply h.fileEnd
        · rw [toShow, toShow, shown_of_empty himage, loadVideo_shows disk hload, ← hservice]
          show shown tape ++ m.localVideoList_.reverse.flatMap disk.shown = _
          rw [List.nil_append, Disk.shown, himages]
          rfl
        · rw [← hservice]
          exact loadVideo_frame_id hload
        · rw [← hservice]
          exact fun hpc => LoaderPc.noConfusion hpc
        · rw [← hservice]

omit [LinearOrder K] in
/-- **A statement of the loader.**

The cases are the places of the loader; only the one that reads is of interest. -/
theorem Playing.loader (h : Playing disk total ms p) {a : Answer}
    {service : Service B (videoConfig camera_sns P monitor_interval)} {reports : List (Report K)}
    (hstep : p.service.loaderStep (p.answer disk a) = some (service, reports)) :
    Playing disk total (ms ++ [.loader a])
      ⟨service, match p.service.loaderPc with
        | .read => p.rest disk
        | _ => p.tape, p.frames ++ reports.flatMap Report.made⟩ := by
  have hnone : ∀ {reports : List (Report K)}, reports.flatMap Report.made = [] →
      p.frames ++ reports.flatMap Report.made = p.frames := by
    intro reports hmade
    rw [hmade, List.append_nil]
  cases hpc : p.service.loaderPc with
  | read =>
    simp only [Service.loaderStep, hpc] at hstep
    exact h.read hstep
  | head =>
    simp only [Service.loaderStep, hpc] at hstep
    obtain ⟨rfl, rfl⟩ := Prod.mk.inj (Option.some.inj hstep)
    rw [hnone rfl]
    apply h.quiet
    · rfl
    · show (if p.service.sys_quit = true then LoaderPc.ended else .read) ≠ .quit
      split <;> simp
    · exact fun hquit => Or.inl hquit
  | reopen =>
    simp only [Service.loaderStep, hpc] at hstep
    obtain ⟨rfl, rfl⟩ := Prod.mk.inj (Option.some.inj hstep)
    rw [hnone rfl]
    exact h.quiet rfl (by simp [hpc]) fun hquit => Or.inl hquit
  | size f =>
    simp only [Service.loaderStep, hpc] at hstep
    split at hstep
    · obtain ⟨rfl, rfl⟩ := Prod.mk.inj (Option.some.inj hstep)
      rw [hnone rfl]
      exact h.quiet rfl (by simp) fun hquit => Or.inl hquit
    · obtain ⟨rfl, rfl⟩ := Prod.mk.inj (Option.some.inj hstep)
      rw [hnone rfl]
      exact h.quiet rfl (by simp) fun hquit => Or.inl hquit
  | push f =>
    simp only [Service.loaderStep, hpc] at hstep
    obtain ⟨rfl, rfl⟩ := Prod.mk.inj (Option.some.inj hstep)
    rw [hnone (by split <;> rfl)]
    exact h.quiet rfl (by simp) fun hquit => Or.inl hquit
  | quit =>
    -- the flag is set after the last file
    simp only [Service.loaderStep, hpc] at hstep
    obtain ⟨rfl, rfl⟩ := Prod.mk.inj (Option.some.inj hstep)
    rw [hnone rfl]
    exact h.quiet rfl (by simp) fun _ => Or.inr hpc
  | ended =>
    simp only [Service.loaderStep, hpc] at hstep
    cases hstep

omit [LinearOrder K] in
/-- What the detector does is nothing to the loader, -/
theorem detector_loader {s s' : Service B (videoConfig camera_sns P monitor_interval)}
    {object_boxes : List (Api.Box K)} {reports : List (Report K)}
    (h : s.detectorStep object_boxes = some (s', reports)) :
    s'.members = s.members ∧ s'.loaderPc = s.loaderPc ∧ s'.sys_quit = s.sys_quit ∧
      reports.flatMap Report.made = [] := by
  cases hpc : s.detectorPc <;> simp only [Service.detectorStep, hpc] at h
  case pop =>
    simp only [Service.detectorPop, Option.some.injEq] at h
    split at h
    · cases h
      exact ⟨rfl, rfl, rfl, rfl⟩
    · split at h <;> cases h <;> exact ⟨rfl, rfl, rfl, rfl⟩
  case size d => split at h <;> cases h <;> exact ⟨rfl, rfl, rfl, rfl⟩
  case push d =>
    cases h
    refine ⟨rfl, rfl, rfl, ?_⟩
    split <;> rfl
  case ended => cases h
  all_goals
    cases h
    exact ⟨rfl, rfl, rfl, rfl⟩

/-- nor what the monitor does. -/
theorem monitor_loader {s s' : Service B (videoConfig camera_sns P monitor_interval)}
    {memory : Nat → Unassigned K} {reports : List (Report K)}
    (h : s.monitorStep memory = some (s', reports)) :
    s'.members = s.members ∧ s'.loaderPc = s.loaderPc ∧ s'.sys_quit = s.sys_quit ∧
      reports.flatMap Report.made = [] := by
  cases hpc : s.monitorPc <;> simp only [Service.monitorStep, hpc] at h
  case pop =>
    simp only [Service.monitorPop, Option.some.injEq] at h
    split at h <;> cases h <;> exact ⟨rfl, rfl, rfl, rfl⟩
  case handle d =>
    simp only [Service.handleStep, Option.some.injEq] at h
    split at h <;> cases h <;> exact ⟨rfl, rfl, rfl, rfl⟩
  case ended => cases h
  all_goals
    cases h
    exact ⟨rfl, rfl, rfl, rfl⟩

/-- **One step.** -/
theorem Playing.step (h : Playing disk total ms p) {m : Service.Move K}
    (hstep : p.step disk m = some p') :
    Playing disk total (ms ++ [m]) p' := by
  cases m with
  | loader a =>
    obtain ⟨⟨service, reports⟩, hservice, hp'⟩ := Option.bind_eq_some_iff.mp hstep
    obtain rfl := Option.some.inj hp'
    exact h.loader hservice
  | detector object_boxes =>
    obtain ⟨⟨service, reports⟩, hservice, hp'⟩ := Option.bind_eq_some_iff.mp hstep
    obtain rfl := Option.some.inj hp'
    obtain ⟨hmembers, hpc, hquit, hmade⟩ := detector_loader hservice
    rw [hmade, List.append_nil]
    exact h.other hmembers hpc (Or.inl hquit)
  | monitor memory =>
    obtain ⟨⟨service, reports⟩, hservice, hp'⟩ := Option.bind_eq_some_iff.mp hstep
    obtain rfl := Option.some.inj hp'
    obtain ⟨hmembers, hpc, hquit, hmade⟩ := monitor_loader hservice
    rw [hmade, List.append_nil]
    exact h.other hmembers hpc (Or.inl hquit)
  | stopAll =>
    obtain rfl := Option.some.inj hstep
    show Playing disk total _ ⟨_, p.tape, p.frames ++ []⟩
    rw [List.append_nil]
    exact h.other rfl rfl (Or.inr rfl)

/-- It holds after every run, whatever the interleaving. -/
theorem Steps.playing {start : LocalVideoLoader × List Mat} (hcount : start.1.frame_id_ = 0)
    (h : Steps disk (init B camera_sns P monitor_interval size timers start) ms p) :
    Playing disk (shown start.2 ++ start.1.localVideoList_.reverse.flatMap disk.shown) ms p := by
  apply Trace.history (H := fun ms p =>
    Playing disk (shown start.2 ++ start.1.localVideoList_.reverse.flatMap disk.shown) ms p) _ _ h
  · constructor
    · rfl
    · rfl
    · exact hcount
    · rintro - (hquit | hpc)
      · cases hquit
      · cases hpc
  · intro ms p m p' _ hplaying hstep
    exact hplaying.step hstep

/-- The runs are runs of the service, which captures these frames. -/
theorem Steps.service {start : LocalVideoLoader × List Mat}
    (h : Steps disk (init B camera_sns P monitor_interval size timers start) ms p) :
    ∃ es, (Service.init B (videoConfig camera_sns P monitor_interval) size start.1 timers).Steps es
      p.service ∧ Service.captured es = p.frames := by
  apply Trace.history (H := fun _ p => ∃ es,
    (Service.init B (videoConfig camera_sns P monitor_interval) size start.1 timers).Steps es
      p.service ∧ Service.captured es = p.frames) _ _ h
  · exact ⟨[], rfl, rfl⟩
  · rintro ms p m p' - ⟨es, hes, hframes⟩ hstep
    have hsnoc : ∀ (m' : Service.Move K) service (reports : List (Report K)),
        p.service.step m' = some (service, reports) →
        p'.service = service → p'.frames = p.frames ++ reports.flatMap Report.made →
        ∃ es, (Service.init B (videoConfig camera_sns P monitor_interval) size start.1 timers).Steps es
          p'.service ∧ Service.captured es = p'.frames := by
      intro m' service reports hservice hp hf
      refine ⟨es ++ [(m', reports)], trace_snoc.mpr ⟨p.service, hes, hp ▸ hservice⟩, ?_⟩
      rw [Service.captured, Service.collect_snoc, hf, ← hframes]
      rfl
    cases m with
    | loader a =>
      obtain ⟨⟨service, reports⟩, hservice, hp'⟩ := Option.bind_eq_some_iff.mp hstep
      obtain rfl := Option.some.inj hp'
      exact hsnoc (.loader (p.answer disk a)) service reports hservice rfl rfl
    | detector object_boxes =>
      obtain ⟨⟨service, reports⟩, hservice, hp'⟩ := Option.bind_eq_some_iff.mp hstep
      obtain rfl := Option.some.inj hp'
      exact hsnoc (.detector object_boxes) service reports hservice rfl rfl
    | monitor memory =>
      obtain ⟨⟨service, reports⟩, hservice, hp'⟩ := Option.bind_eq_some_iff.mp hstep
      obtain rfl := Option.some.inj hp'
      exact hsnoc (.monitor memory) service reports hservice rfl rfl
    | stopAll =>
      obtain rfl := Option.some.inj hstep
      exact hsnoc .stopAll _ [] rfl rfl rfl

/-- The files that are played, the first one first. -/
def playlist (disk : Disk) (local_video_file_ : String) : List String :=
  (localVideoList disk local_video_file_).reverse

omit [Field K] [LinearOrder K] in
/-- The first file is open after `init`, and the others are on the list.

The file that `init` opens is taken from the end of the list, as all others are. -/
theorem init_shows {local_video_file_ : String} {start : LocalVideoLoader × List Mat}
    (h : LocalVideoLoader.init disk local_video_file_ = some start) :
    start.1.frame_id_ = 0 ∧ shown start.2 ++ start.1.localVideoList_.reverse.flatMap disk.shown =
      (playlist disk local_video_file_).flatMap disk.shown := by
  obtain ⟨m, hload, h⟩ := Option.bind_eq_some_iff.mp h
  obtain ⟨tape, htape, h⟩ := Option.bind_eq_some_iff.mp h
  obtain rfl := Option.some.inj h
  refine ⟨loadVideo_frame_id hload, ?_⟩
  rw [playlist, loadVideo_shows disk hload, Disk.shown, htape]
  rfl

/-- The videos in a directory. -/
def Entry.video (i : Entry) : Bool := !i.is_directory && found i.filename VIDEOFORMAT

omit [Field K] [LinearOrder K] in
/-- Of a directory every video is played, once, the one with the last name first. -/
theorem playlist_directory {_path : String} (h : found _path VIDEOFORMAT = false) :
    ∃ files : List Entry, playlist disk _path = files.map (fun i => _path ++ "/" ++ i.filename) ∧
      files.Perm ((disk.entries _path).filter Entry.video) ∧
      files.Pairwise fun i j => j.filename ≤ i.filename := by
  refine ⟨(((disk.entries _path).insertionSort fun a b => a.filename ≤ b.filename).filter
    Entry.video).reverse, ?_, ?_, ?_⟩
  · rw [playlist, localVideoList, h, List.map_reverse]
    rfl
  · apply (List.reverse_perm _).trans
    exact (List.perm_insertionSort _ _).filter _
  · rw [List.pairwise_reverse]
    exact (List.pairwise_insertionSort _ _).filter _

/-- **The service plays its videos**: whatever the interleaving, the images that it captures are
those of its files, one file after the other in falling order of their names and none twice, and
their frames are numbered from 1 without a gap; and unless somebody stops it, it has captured all of
them when it comes to quit.

It is `Playing` at the end of the run; the order of the files is that of the sorted list, from its
end. -/
theorem Steps.plays {local_video_file_ : String} {start : LocalVideoLoader × List Mat}
    (hinit : LocalVideoLoader.init disk local_video_file_ = some start)
    (h : Steps disk (init B camera_sns P monitor_interval size timers start) ms p) :
    (∃ es, (Service.init B (videoConfig camera_sns P monitor_interval) size start.1 timers).Steps es
      p.service ∧ Service.captured es = p.frames) ∧
    (p.frames.map (·.cvImage) <+: (playlist disk local_video_file_).flatMap disk.shown) ∧
    p.frames.map (·.frame_id) =
      (List.range p.frames.length).map (fun i : Nat => UInt64.ofInt ((i : Int) + 1)) ∧
    (.stopAll ∉ ms → p.service.sys_quit = true →
      p.frames.map (·.cvImage) = (playlist disk local_video_file_).flatMap disk.shown) ∧
    (found local_video_file_ VIDEOFORMAT = false → ∃ files : List Entry,
      playlist disk local_video_file_ = files.map (fun i => local_video_file_ ++ "/" ++ i.filename) ∧
      files.Perm ((disk.entries local_video_file_).filter Entry.video) ∧
      files.Pairwise fun i j => j.filename ≤ i.filename) := by
  obtain ⟨hcount, hshows⟩ := init_shows hinit
  have hplaying := h.playing hcount
  rw [hshows] at hplaying
  refine ⟨h.service, ⟨_, hplaying.images⟩, hplaying.numbers, ?_, playlist_directory⟩
  intro hstop hquit
  rw [← hplaying.images, hplaying.done hstop (Or.inl hquit), List.append_nil]

/-- A directory with two videos, of two images and of one. -/
def twoVideos : Disk where
  entries _ := [⟨"b.mp4", false⟩, ⟨"notes.txt", false⟩, ⟨"a.mp4", false⟩, ⟨"old.mp4", true⟩]
  images
    | "videos/a.mp4" => some [⟨1, 1, [1]⟩, ⟨1, 1, [2]⟩]
    | "videos/b.mp4" => some [⟨1, 1, [3]⟩]
    | _ => none

/-- The moves of the loader alone, to its end. -/
def playedThrough : List (Service.Move ℚ) := List.replicate 17 (.loader Service.image)

/-- All three images are captured before the service comes to its end. -/
theorem Steps.plays_twoVideos : ∃ start, LocalVideoLoader.init twoVideos "videos" = some start ∧
    ∃ p : Player (.list _) "camera" scene 1,
      Steps twoVideos (init (.list _) "camera" scene 1 10 (.init 0 0) start) playedThrough p ∧
      p.service.sys_quit = true ∧
      p.frames.map (·.cvImage) = (playlist twoVideos "videos").flatMap twoVideos.shown := by
  have hstart : LocalVideoLoader.init twoVideos "videos" =
      some (⟨"videos/b.mp4", ["videos/a.mp4"], 0⟩, [⟨1, 1, [3]⟩]) := by
    have hload : LocalVideoLoader.loadVideo ⟨"videos", localVideoList twoVideos "videos", 0⟩ =
        some ⟨"videos/b.mp4", ["videos/a.mp4"], 0⟩ := by
      decide +kernel
    rw [LocalVideoLoader.init, hload]
    rfl
  have hexec : ((init (.list _) "camera" scene 1 10 (.init 0 0)
      (⟨"videos/b.mp4", ["videos/a.mp4"], 0⟩, [⟨1, 1, [3]⟩])).exec twoVideos playedThrough).any
      (fun p => p.service.sys_quit) = true := by
    decide +kernel
  obtain ⟨p, hp, hquit⟩ := (Option.any_eq_true _ _).mp hexec
  have hsteps := Trace.of_foldlM hp
  refine ⟨_, hstart, p, hsteps, hquit, ?_⟩
  apply (Steps.plays hstart hsteps).2.2.2.1 _ hquit
  intro hstop
  cases (List.mem_replicate.mp hstop).2

end Player

end EdgeFrame.Running
