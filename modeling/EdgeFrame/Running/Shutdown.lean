/-
# EdgeFrame.Running.Shutdown -- how the service comes to its end

`sys_quit` is set by a signal, or by the loader of local videos after its last file, and
never cleared. Each thread looks at it at the head of its loop, so that it finishes what
it is at and ends. Only a loader whose camera is away does not look: it tries to open the
camera until it is back.

What is left to do is a number for each place of each thread (`left`, `toCapture`,
`toDetect`, `toHandle`), large enough for the longest way from there to the end. `Ending`
says that a step lowers the first by what the step counts for, and the others by what
it reports; a failed attempt to open the camera counts for nothing. The bound on a run is
then a sum of differences (`Steps.bounded`), for any interleaving. That a thread can go on
is another matter (`Going`): no step of the three waits for anybody else.
-/
import EdgeFrame.Running.Events
import Mathlib

namespace EdgeFrame.Running

open EdgeFrame.Lib EdgeFrame.Track
open EdgeFrame.Api (Box)
open EdgeFrame.Monitor (WhaleData Round)

variable {K : Type}

/-! ## What is left to do -/

/-- The steps that the loader still takes, apart from attempts to open the camera that fail. -/
def LoaderPc.left : LoaderPc → Nat
  | .ended => 0
  | .head => 1
  | .quit => 1
  | .push _ => 2
  | .reopen => 2
  | .size _ => 3
  | .read => 4

/-- The steps that the detector still takes. -/
def DetectorPc.left : DetectorPc K → Nat
  | .ended => 0
  | .head => 1
  | .push _ => 2
  | .size _ => 3
  | .detect _ => 4
  | .pop => 5
  | .empty => 6

/-- The steps that the monitor still takes. -/
def MonitorPc.left : MonitorPc K → Nat
  | .ended => 0
  | .head => 1
  | .handle _ => 2
  | .pop => 3
  | .empty => 4

/-- The frames that the loader still captures. -/
def LoaderPc.toCapture : LoaderPc → Nat
  | .read => 1
  | _ => 0

/-- The frames that the detector still detects on. -/
def DetectorPc.toDetect : DetectorPc K → Nat
  | .empty => 1
  | .pop => 1
  | .detect _ => 1
  | _ => 0

/-- The messages that the monitor still handles. -/
def MonitorPc.toHandle : MonitorPc K → Nat
  | .empty => 1
  | .pop => 1
  | .handle _ => 1
  | _ => 0

namespace Service

variable [Field K] {B : BoundedQueue (Any K)} {C : Config K} {size : Nat} {s s' : Service B C}
  {rs : List (Report K)} {es : List (Move K × List (Report K))}

/-- A step that brings the service nearer to its end: not another signal, and not an attempt to open
the camera that fails. -/
def effort : Move K × List (Report K) → Nat
  | (.stopAll, _) => 0
  | (_, [.waiting]) => 0
  | _ => 1

/-- The steps that the three threads still take. -/
def left (s : Service B C) : Nat := s.loaderPc.left + s.detectorPc.left + s.monitorPc.left

omit [Field K] in
/-- A step counts for one at most. -/
theorem effort_le_one (e : Move K × List (Report K)) : effort e ≤ 1 := by
  unfold effort
  split <;> omega

/-- What a step does to the service once it has been told to quit.

The steps of one thread leave what the others have to do as it is. -/
structure Ending (s : Service B C) (e : Move K × List (Report K)) (s' : Service B C) : Prop where
  sys_quit : s'.sys_quit = true
  left : effort e + s'.left ≤ s.left
  toCapture : (e.2.flatMap Report.made).length + s'.loaderPc.toCapture ≤ s.loaderPc.toCapture
  toDetect : (e.2.flatMap Report.data).length + s'.detectorPc.toDetect ≤ s.detectorPc.toDetect
  toHandle : (e.2.flatMap Report.round).length + s'.monitorPc.toHandle ≤ s.monitorPc.toHandle

/-- A step of the loader that takes it on to `pc`, and reports no more than what it captures. -/
theorem Ending.of_loader {a : Answer} (hquit : s'.sys_quit = true)
    (hdetector : s'.detectorPc = s.detectorPc) (hmonitor : s'.monitorPc = s.monitorPc)
    (hleft : effort (.loader a, rs) + s'.loaderPc.left ≤ s.loaderPc.left)
    (hcapture : (rs.flatMap Report.made).length + s'.loaderPc.toCapture ≤ s.loaderPc.toCapture)
    (hdata : rs.flatMap Report.data = []) (hround : rs.flatMap Report.round = []) :
    Ending s (.loader a, rs) s' where
  sys_quit := hquit
  left := by
    unfold Service.left
    rw [hdetector, hmonitor]
    omega
  toCapture := hcapture
  toDetect := by rw [hdetector, hdata, List.length_nil, Nat.zero_add]
  toHandle := by rw [hmonitor, hround, List.length_nil, Nat.zero_add]

/-- Every step of the loader. -/
theorem Ending.loader (hquit : s.sys_quit = true) {a : Answer} (h : s.loaderStep a = some (s', rs)) :
    Ending s (.loader a, rs) s' := by
  cases hpc : s.loaderPc <;> simp only [loaderStep, hpc, read] at h
  -- at the head the thread sees the flag and goes to its end
  case head =>
    rw [hquit] at h
    cases h
    exact .of_loader rfl rfl rfl (by simp [hpc, LoaderPc.left, effort])
      (by simp [hpc, LoaderPc.toCapture]) rfl rfl
  case read =>
    split at h
    case h_5 => cases h
    all_goals
      cases h
      exact .of_loader hquit rfl rfl (by simp [hpc, LoaderPc.left, effort])
        (by simp [hpc, LoaderPc.toCapture, Report.made]) rfl rfl
  case reopen =>
    split at h
    all_goals
      cases h
      exact .of_loader hquit rfl rfl (by simp [hpc, LoaderPc.left, effort])
        (by simp [hpc, LoaderPc.toCapture, Report.made]) rfl rfl
  case size f =>
    split at h
    all_goals
      cases h
      exact .of_loader hquit rfl rfl (by simp [hpc, LoaderPc.left, effort])
        (by simp [hpc, LoaderPc.toCapture, Report.made]) rfl rfl
  -- a push that is refused drops the frame
  case push f =>
    cases h
    refine .of_loader hquit rfl rfl ?_ ?_ ?_ ?_
    · split <;> simp [hpc, LoaderPc.left, effort]
    · split <;> simp [hpc, LoaderPc.toCapture, Report.made]
    · split <;> rfl
    · split <;> rfl
  case quit =>
    cases h
    exact .of_loader rfl rfl rfl (by simp [hpc, LoaderPc.left, effort])
      (by simp [hpc, LoaderPc.toCapture]) rfl rfl
  case ended => cases h

/-- A step of the detector that takes it on to `pc`. -/
theorem Ending.of_detector {object_boxes : List (Box K)} (hquit : s'.sys_quit = true)
    (hloader : s'.loaderPc = s.loaderPc) (hmonitor : s'.monitorPc = s.monitorPc)
    (hleft : 1 + s'.detectorPc.left ≤ s.detectorPc.left) (hmade : rs.flatMap Report.made = [])
    (hdetect : (rs.flatMap Report.data).length + s'.detectorPc.toDetect ≤ s.detectorPc.toDetect)
    (hround : rs.flatMap Report.round = []) : Ending s (.detector object_boxes, rs) s' where
  sys_quit := hquit
  left := by
    have heffort : effort (.detector object_boxes, rs) ≤ 1 := effort_le_one _
    unfold Service.left
    rw [hloader, hmonitor]
    omega
  toCapture := by rw [hloader, hmade, List.length_nil, Nat.zero_add]
  toDetect := hdetect
  toHandle := by rw [hmonitor, hround, List.length_nil, Nat.zero_add]

/-- Every step of the detector. -/
theorem Ending.detector (hquit : s.sys_quit = true) {object_boxes : List (Box K)}
    (h : s.detectorStep object_boxes = some (s', rs)) : Ending s (.detector object_boxes, rs) s' := by
  cases hpc : s.detectorPc <;> simp only [detectorStep, hpc] at h
  -- at the head the thread sees the flag, which stays up
  case head =>
    rw [hquit] at h
    cases h
    exact .of_detector rfl rfl rfl (by simp [hpc, DetectorPc.left]) rfl
      (by simp [hpc, DetectorPc.toDetect]) rfl
  case empty =>
    cases h
    refine .of_detector hquit rfl rfl ?_ rfl ?_ rfl
    · split <;> simp [hpc, DetectorPc.left]
    · split <;> simp [hpc, DetectorPc.toDetect]
  case pop =>
    simp only [detectorPop, Option.some.injEq] at h
    split at h
    · cases h
      exact .of_detector hquit rfl rfl (by simp [hpc, DetectorPc.left]) rfl
        (by simp [hpc, DetectorPc.toDetect, Report.data]) rfl
    · split at h
      all_goals
        cases h
        exact .of_detector hquit rfl rfl (by simp [hpc, DetectorPc.left]) rfl
          (by simp [hpc, DetectorPc.toDetect, Report.data]) rfl
  case detect f =>
    cases h
    exact .of_detector hquit rfl rfl (by simp [hpc, DetectorPc.left]) rfl
      (by simp [hpc, DetectorPc.toDetect, Report.data]) rfl
  case size d =>
    split at h
    all_goals
      cases h
      exact .of_detector hquit rfl rfl (by simp [hpc, DetectorPc.left]) rfl
        (by simp [hpc, DetectorPc.toDetect, Report.data]) rfl
  -- a push that is refused drops what it carries
  case push d =>
    cases h
    refine .of_detector hquit rfl rfl (by simp [hpc, DetectorPc.left]) ?_ ?_ ?_
    · split <;> rfl
    · split <;> simp [hpc, DetectorPc.toDetect, Report.data]
    · split <;> rfl
  case ended => cases h

variable [LinearOrder K]

omit [LinearOrder K] in
/-- A step of the monitor that takes it on to `pc`. -/
theorem Ending.of_monitor {memory : Nat → Unassigned K} (hquit : s'.sys_quit = true)
    (hloader : s'.loaderPc = s.loaderPc) (hdetector : s'.detectorPc = s.detectorPc)
    (hleft : 1 + s'.monitorPc.left ≤ s.monitorPc.left) (hmade : rs.flatMap Report.made = [])
    (hdata : rs.flatMap Report.data = [])
    (hhandle : (rs.flatMap Report.round).length + s'.monitorPc.toHandle ≤ s.monitorPc.toHandle) :
    Ending s (.monitor memory, rs) s' where
  sys_quit := hquit
  left := by
    have heffort : effort (.monitor memory, rs) ≤ 1 := effort_le_one _
    unfold Service.left
    rw [hloader, hdetector]
    omega
  toCapture := by rw [hloader, hmade, List.length_nil, Nat.zero_add]
  toDetect := by rw [hdetector, hdata, List.length_nil, Nat.zero_add]
  toHandle := hhandle

/-- Every step of the monitor. -/
theorem Ending.monitor (hquit : s.sys_quit = true) {memory : Nat → Unassigned K}
    (h : s.monitorStep memory = some (s', rs)) : Ending s (.monitor memory, rs) s' := by
  cases hpc : s.monitorPc <;> simp only [monitorStep, hpc] at h
  case head =>
    rw [hquit] at h
    cases h
    exact .of_monitor rfl rfl rfl (by simp [hpc, MonitorPc.left]) rfl rfl
      (by simp [hpc, MonitorPc.toHandle])
  case empty =>
    cases h
    refine .of_monitor hquit rfl rfl ?_ rfl rfl ?_
    · split <;> simp [hpc, MonitorPc.left]
    · split <;> simp [hpc, MonitorPc.toHandle]
  case pop =>
    simp only [monitorPop, Option.some.injEq] at h
    split at h
    all_goals
      cases h
      exact .of_monitor hquit rfl rfl (by simp [hpc, MonitorPc.left]) rfl rfl
        (by simp [hpc, MonitorPc.toHandle, Report.round])
  case handle d =>
    simp only [handleStep, Option.some.injEq] at h
    split at h
    all_goals
      cases h
      exact .of_monitor hquit rfl rfl (by simp [hpc, MonitorPc.left]) rfl rfl
        (by simp [hpc, MonitorPc.toHandle, Report.round])
  case ended => cases h

/-- **One step towards the end.**

By the thread that takes it; another signal changes nothing. -/
theorem Step.ending {e : Move K × List (Report K)} (hquit : s.sys_quit = true) (h : s.Step e s') :
    Ending s e s' := by
  obtain ⟨m, rs⟩ := e
  cases m with
  | loader a => exact .loader hquit h
  | detector object_boxes => exact .detector hquit h
  | monitor memory => exact .monitor hquit h
  | stopAll =>
    cases h
    exact ⟨rfl, (Nat.zero_add _).le, (Nat.zero_add _).le, (Nat.zero_add _).le, (Nat.zero_add _).le⟩

/-! ## The end -/

omit [Field K] [LinearOrder K] in
/-- What a run reports is counted step by step. -/
theorem length_collect {β : Type} (f : Report K → List β) (es : List (Move K × List (Report K))) :
    (collect f es).length = (es.map fun e => (e.2.flatMap f).length).sum := by
  rw [collect, List.length_flatMap]

/-- A rule for what a run after `sys_quit` still brings.

What is left at a state is a potential: if no step brings more than it takes from it, no run does. -/
theorem Steps.bounded (potential : Service B C → Nat) {cost : Move K × List (Report K) → Nat}
    (hstep : ∀ {s s' : Service B C} {e}, Ending s e s' → cost e + potential s' ≤ potential s)
    (hquit : s.sys_quit = true) (h : s.Steps es s') :
    (es.map cost).sum + potential s' ≤ potential s := by
  refine Trace.potential (I := fun s : Service B C => s.sys_quit = true) ?_ hquit h
  intro s e s' hquit he
  have hending := Step.ending hquit he
  exact ⟨hending.sys_quit, hstep hending⟩

/-- The detector and the monitor can go on until they are at their ends, and so can the loader, unless
the process is gone. -/
structure Going (s : Service B C) : Prop where
  loader : s.loaderPc ≠ .ended → ∀ a, C.L.pass a s.members = .fatal ∨
    ∃ rs s', s.Step (.loader a, rs) s'
  detector : s.detectorPc ≠ .ended → ∀ object_boxes, ∃ rs s', s.Step (.detector object_boxes, rs) s'
  monitor : s.monitorPc ≠ .ended → ∀ memory, ∃ rs s', s.Step (.monitor memory, rs) s'

/-- The three threads can always go on. -/
theorem going (s : Service B C) : s.Going where
  loader := by
    intro hended a
    cases hpass : C.L.pass a s.members with
    | fatal => exact Or.inl rfl
    | _ =>
      refine Or.inr ?_
      cases hpc : s.loaderPc with
      | ended => exact absurd hpc hended
      | read => simp [Service.Step, step, loaderStep, hpc, read, hpass]
      | reopen =>
        cases hretry : C.L.retry a s.members <;>
          simp [Service.Step, step, loaderStep, hpc, hretry]
      | size f =>
        cases hfull : s.detectQueue.full <;> simp [Service.Step, step, loaderStep, hpc, hfull]
      | _ => simp [Service.Step, step, loaderStep, hpc]
  detector := by
    intro hended object_boxes
    cases hpc : s.detectorPc with
    | ended => exact absurd hpc hended
    | size d =>
      cases hfull : s.monitorQueue.full <;> simp [Service.Step, step, detectorStep, hpc, hfull]
    | _ => exact ⟨_, _, by simp only [Service.Step, step, detectorStep, hpc]; rfl⟩
  monitor := by
    intro hended memory
    cases hpc : s.monitorPc with
    | ended => exact absurd hpc hended
    | _ => exact ⟨_, _, by simp only [Service.Step, step, monitorStep, hpc]; rfl⟩

omit [LinearOrder K] in
/-- Wherever the threads are, this is what they have to do at most. -/
theorem left_le (s : Service B C) : s.left ≤ 14 ∧ s.loaderPc.toCapture ≤ 1 ∧
    s.detectorPc.toDetect ≤ 1 ∧ s.monitorPc.toHandle ≤ 1 := by
  have hloader : s.loaderPc.left ≤ 4 ∧ s.loaderPc.toCapture ≤ 1 := by
    cases s.loaderPc <;> simp [LoaderPc.left, LoaderPc.toCapture]
  have hdetector : s.detectorPc.left ≤ 6 ∧ s.detectorPc.toDetect ≤ 1 := by
    cases s.detectorPc <;> simp [DetectorPc.left, DetectorPc.toDetect]
  have hmonitor : s.monitorPc.left ≤ 4 ∧ s.monitorPc.toHandle ≤ 1 := by
    cases s.monitorPc <;> simp [MonitorPc.left, MonitorPc.toHandle]
  refine ⟨?_, hloader.2, hdetector.2, hmonitor.2⟩
  unfold left
  omega

/-- **Shutdown.** Once the service has been told to quit it stays so, and in whatever order its
threads go on: at most one more frame is captured, one detected on and one message handled; the
threads take at most fourteen more steps between them, not counting the attempts to open a camera
that stays away; and until a thread is at its end it can always take its next step, if the process is
still there.

It is `Step.ending` summed up by `Steps.bounded`, once for the steps and once for each kind of
report, from what `left_le` gives them at the start. -/
theorem Steps.shuts_down (hquit : s.sys_quit = true) (h : s.Steps es s') :
    s'.sys_quit = true ∧ (captured es).length ≤ 1 ∧ (detected es).length ≤ 1 ∧
      (rounds es).length ≤ 1 ∧ (es.map effort).sum + s'.left ≤ 14 ∧ s'.Going := by
  obtain ⟨hleft, hcapture, hdetect, hhandle⟩ := s.left_le
  have hflag : s'.sys_quit = true :=
    Trace.invariant (I := fun s : Service B C => s.sys_quit = true)
      (fun _ _ _ hquit he => (Step.ending hquit he).sys_quit) hquit h
  have hsteps := Steps.bounded left (fun h => h.left) hquit h
  have hcaptured := Steps.bounded (fun s => s.loaderPc.toCapture)
    (fun h => h.toCapture) hquit h
  have hdetected := Steps.bounded (fun s => s.detectorPc.toDetect)
    (fun h => h.toDetect) hquit h
  have hhandled := Steps.bounded (fun s => s.monitorPc.toHandle)
    (fun h => h.toHandle) hquit h
  rw [← length_collect] at hcaptured hdetected hhandled
  exact ⟨hflag, (Nat.le_add_right ..).trans (hcaptured.trans hcapture),
    (Nat.le_add_right ..).trans (hdetected.trans hdetect),
    (Nat.le_add_right ..).trans (hhandled.trans hhandle), hsteps.trans hleft, s'.going⟩

/-- A signal comes while the loader is about to read: that frame is still pushed. -/
theorem Steps.shuts_down_lastFrame : ∃ s : Service (.list _) oneCamera, ∃ es s',
    s.sys_quit = true ∧ s.Steps es s' ∧ (captured es).length = 1 ∧
    (es.map effort).sum + s'.left ≤ 14 ∧ s'.Going := by
  obtain ⟨⟨es₁, s⟩, hexec₁, hcheck⟩ : ∃ r, (init (.list _) oneCamera 10 (⟨0⟩ : RtspLoader)
      (.init 0 0)).exec [.loader image, .stopAll] = some r ∧
      (decide (r.2.sys_quit = true) && (r.2.exec (List.replicate 4 (.loader image))).any fun r' =>
        decide ((captured r'.1).length = 1)) = true :=
    (Option.any_eq_true _ _).mp (by decide +kernel)
  rw [Bool.and_eq_true, decide_eq_true_eq] at hcheck
  obtain ⟨hquit, hcheck⟩ := hcheck
  obtain ⟨⟨es, s'⟩, hexec, hcaptured⟩ := (Option.any_eq_true _ _).mp hcheck
  obtain ⟨-, -, -, -, hsteps, hgoing⟩ := Steps.shuts_down hquit (exec_steps hexec)
  exact ⟨s, es, s', hquit, exec_steps hexec, of_decide_eq_true hcaptured, hsteps, hgoing⟩

end Service

end EdgeFrame.Running
