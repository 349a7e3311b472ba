/-
# EdgeFrame.Running.Vision -- from the image to the event

The detector thread of the service calls `sdk::detect` on each frame, with the members that
its calls before have left. Here the service runs with the SDK in place of the boxes that
`Running.Threads` takes from outside: what is left outside is the answer of the network. A
run of both is a run of the service, and what the SDK does in it is a run of the SDK, so
that the laws of the two hold together: what an event shows are points of boxes that the
answer of the network to the very frame of the event has earned.

`Step.parts` takes a step apart, into the step of the service and the call of the SDK, if
there is one. From it come the two projections of a run, `Steps.service` and
`Steps.detections_due`, by which the theorems of `Running.Events` and of `Api.Inference` apply.
`DetectedBy` ties the two together again: the data that the service hands on come from this
call, in the order of the calls. The rest is geometry: a foot point of a box in the image
is in the image, or one row below it, once it is rounded (`footPoint_inside`).
-/
import EdgeFrame.Api.Inference
import EdgeFrame.Running.Events
import Mathlib

namespace EdgeFrame.Running

open EdgeFrame.Lib EdgeFrame.Track
open EdgeFrame.Api (Box Picture Sorter DetParam Detector DetImpl Detection Detected Detects
  EModelID Ready Tengine)
open EdgeFrame.Monitor (WhaleData Round Rounds MonitorEvent CrowdInfo Contents cls_ped
  ConvertBoxToBBoxMessage xGround yGround)

variable {K : Type}

/-- The image of a frame, as the SDK reads it. -/
def picture (m : Mat) : Picture := ⟨m.rows.toNat, m.cols.toNat, m.data⟩

variable [Field K] {B : BoundedQueue (Any K)} {C : Config K}

/-- The service, and the detector behind `sdk::detect`. -/
structure Vision (B : BoundedQueue (Any K)) (C : Config K) where
  service : Service B C
  nnsdk : DetImpl K

namespace Vision

/-- One step, with what it is told from outside. -/
inductive Move (K : Type) where
  | loader (answer : Answer)
  | detector (answer : Api.Answer K)
  | monitor (memory : Nat → Unassigned K)
  | stopAll

/-- A step that was taken: what it reports, and the call of `sdk::detect` that it made. -/
structure Act (K : Type) where
  move : Move K
  reports : List (Report K)
  calls : List (Detection K)

/-- The step of the service alone, which is told the boxes. -/
def Act.onService (e : Act K) : Service.Move K × List (Report K) :=
  (match e.move with
    | .loader answer => .loader answer
    | .detector _ => .detector (e.calls.flatMap (·.boxes))
    | .monitor memory => .monitor memory
    | .stopAll => .stopAll, e.reports)

section

variable [LinearOrder K] (resize : Picture → Nat → Nat → Picture) (exp : K → K) (S : Sorter K)

/-- The next statement of the detector, which calls `sdk::detect` on the frame it holds. -/
def detectorStep (s : Vision B C) (answer : Api.Answer K) :
    Option (Vision B C × List (Report K) × List (Detection K)) :=
  match s.service.detectorPc with
  | .detect f =>
    match s.nnsdk.run resize exp S (picture f.cvImage) answer [] with
    | .ok (nnsdk, tensor, boxes) =>
      (s.service.detectorStep boxes).map fun (service, reports) =>
        (⟨service, nnsdk⟩, reports, [⟨picture f.cvImage, answer, tensor, boxes⟩])
    -- the process is gone
    | .error _ => none
  | _ =>
    (s.service.detectorStep []).map fun (service, reports) => (⟨service, s.nnsdk⟩, reports, [])

/-- A step that leaves the SDK alone. -/
def besides (s : Vision B C) (move : Service.Move K) :
    Option (Vision B C × List (Report K) × List (Detection K)) :=
  (s.service.step move).map fun (service, reports) => (⟨service, s.nnsdk⟩, reports, [])

/-- One step of one thread. -/
def step (s : Vision B C) : Move K → Option (Vision B C × List (Report K) × List (Detection K))
  | .loader answer => s.besides (.loader answer)
  | .detector answer => s.detectorStep resize exp S answer
  | .monitor memory => s.besides (.monitor memory)
  | .stopAll => s.besides .stopAll

/-- The step that was taken, with what it was told and what it has done. -/
def Step (s : Vision B C) (e : Act K) (s' : Vision B C) : Prop :=
  s.step resize exp S e.move = some (s', e.reports, e.calls)

/-- Some interleaving leads from `s` to `s'`. -/
abbrev Steps (s : Vision B C) (es : List (Act K)) (s' : Vision B C) : Prop :=
  Trace (Step resize exp S) s es s'

end

/-- The threads enter their loops, with the detector that `NNSDK::init` has set up. -/
def init (B : BoundedQueue (Any K)) (C : Config K) (size : Nat) (m : C.L.Members)
    (timers : Monitor.DetectorProcessor) (nnsdk : DetImpl K) : Vision B C :=
  ⟨.init B C size m timers, nnsdk⟩

/-! ## What a run has done -/

/-- The steps of the service. -/
def served (es : List (Act K)) : List (Service.Move K × List (Report K)) := es.map Act.onService

/-- The calls of `sdk::detect`. -/
def calls (es : List (Act K)) : List (Detection K) := es.flatMap (·.calls)

/-- The calls of `handle` that returned. -/
def rounds (es : List (Act K)) : List (Round K) := Service.rounds (served es)

omit [Field K] in
/-- One more step makes its calls after those before. -/
theorem calls_snoc (es : List (Act K)) (e : Act K) : calls (es ++ [e]) = calls es ++ e.calls := by
  rw [calls, List.flatMap_append]
  exact congrArg (calls es ++ ·) (List.append_nil _)

omit [Field K] in
/-- One more step of the service. -/
theorem served_snoc (es : List (Act K)) (e : Act K) :
    served (es ++ [e]) = served es ++ [e.onService] := List.map_append

end Vision

/-! ## The two parts of a step -/

/-- Data are made where the detector holds a frame, of this frame and the boxes it is told. -/
theorem Service.Step.data [LinearOrder K] {s s' : Service B C}
    {e : Service.Move K × List (Report K)} (h : s.Step e s') :
    e.2.flatMap Report.data = [] ∨ ∃ boxes f, e.1 = .detector boxes ∧ s.detectorPc = .detect f ∧
      e.2.flatMap Report.data = [makeData boxes f] := by
  obtain ⟨m, rs⟩ := e
  cases m with
  | stopAll =>
    cases h
    exact Or.inl rfl
  -- the loader reports what becomes of frames, and no data
  | loader answer =>
    apply Or.inl
    change s.loaderStep answer = some (s', rs) at h
    cases hpc : s.loaderPc <;> simp only [Service.loaderStep, Service.read, hpc] at h
    case head | quit => cases h; rfl
    case ended => cases h
    case push f =>
      cases h
      dsimp only
      split <;> rfl
    all_goals split at h <;> cases h <;> rfl
  -- nor does the monitor, which reports what becomes of them
  | monitor memory =>
    apply Or.inl
    change s.monitorStep memory = some (s', rs) at h
    cases hpc : s.monitorPc <;> simp only [Service.monitorStep, hpc] at h
    case head | empty => cases h; rfl
    case ended => cases h
    case pop =>
      simp only [Service.monitorPop, Option.some.injEq] at h
      split at h <;> cases h <;> rfl
    case handle d =>
      simp only [Service.handleStep, Option.some.injEq] at h
      split at h <;> cases h <;> rfl
  | detector boxes =>
    change s.detectorStep boxes = some (s', rs) at h
    cases hpc : s.detectorPc <;> simp only [Service.detectorStep, hpc] at h
    -- only here data are made
    case detect f =>
      cases h
      exact Or.inr ⟨boxes, f, rfl, rfl, rfl⟩
    case head | empty => cases h; exact Or.inl rfl
    case ended => cases h
    case pop =>
      simp only [Service.detectorPop, Option.some.injEq] at h
      split at h
      · cases h
        exact Or.inl rfl
      · split at h <;> cases h <;> exact Or.inl rfl
    case size d => split at h <;> cases h <;> exact Or.inl rfl
    case push d =>
      cases h
      dsimp only
      split <;> exact Or.inl rfl

namespace Vision

section

variable [LinearOrder K] {resize : Picture → Nat → Nat → Picture} {exp : K → K} {S : Sorter K}
  {s s' : Vision B C} {e : Act K} {es : List (Act K)}

/-- What a step does to the SDK: nothing, or one call for the frame that the detector holds. -/
inductive Calls (resize : Picture → Nat → Nat → Picture) (exp : K → K) (S : Sorter K)
    (s : Vision B C) (e : Act K) (s' : Vision B C) : Prop where
  | none (hcalls : e.calls = []) (hsame : s'.nnsdk = s.nnsdk)
      (hdata : e.onService.2.flatMap Report.data = [])
  | one (f : WhaleFrame) (call : Detection K) (hcalls : e.calls = [call])
      (himage : call.image = picture f.cvImage)
      (hdata : e.onService.2.flatMap Report.data = [makeData call.boxes f])
      (hcall : Detected resize exp S s.nnsdk call s'.nnsdk)

/-- **A step of both** is a step of the service, and a call of the SDK where the service detects. -/
theorem Step.parts (h : s.Step resize exp S e s') :
    s.service.Step e.onService s'.service ∧ Calls resize exp S s e s' := by
  -- what is no step of the detector leaves the SDK alone, and makes no data
  have hbesides : ∀ move, e.onService.1 = move → (∀ boxes, move ≠ .detector boxes) →
      s.besides move = some (s', e.reports, e.calls) →
      s.service.Step e.onService s'.service ∧ Calls resize exp S s e s' := by
    intro move hmove hother hstep
    obtain ⟨⟨service, reports⟩, hservice, hs'⟩ := Option.map_eq_some_iff.mp hstep
    simp only [Prod.mk.injEq] at hs'
    obtain ⟨rfl, hreports, hcalls⟩ := hs'
    have hstep : s.service.Step e.onService service := by
      show s.service.step e.onService.1 = some (service, e.reports)
      rw [hmove, hservice, hreports]
    refine ⟨hstep, .none hcalls.symm rfl ?_⟩
    obtain hdata | ⟨boxes, -, hboxes, -⟩ := hstep.data
    · exact hdata
    · exact absurd (hmove.symm.trans hboxes) (hother boxes)
  obtain ⟨move, reports, calls⟩ := e
  cases move with
  | loader answer => exact hbesides (.loader answer) rfl (fun _ hno => nomatch hno) h
  | monitor memory => exact hbesides (.monitor memory) rfl (fun _ hno => nomatch hno) h
  | stopAll => exact hbesides .stopAll rfl (fun _ hno => nomatch hno) h
  | detector answer =>
    change s.detectorStep resize exp S answer = some (s', reports, calls) at h
    unfold detectorStep at h
    split at h
    -- it holds a frame: the service is told what the SDK finds on it
    · rename_i f hpc
      split at h
      · rename_i nnsdk tensor boxes hrun
        obtain ⟨⟨service, reports'⟩, hservice, hs'⟩ := Option.map_eq_some_iff.mp h
        simp only [Prod.mk.injEq] at hs'
        obtain ⟨rfl, rfl, rfl⟩ := hs'
        have hstep : s.service.Step (.detector boxes, reports') service := hservice
        have honService : Act.onService ⟨.detector answer, reports',
            [⟨picture f.cvImage, answer, tensor, boxes⟩]⟩ = (.detector boxes, reports') := by
          show (Service.Move.detector (boxes ++ []), reports') = _
          rw [List.append_nil]
        rw [honService]
        refine ⟨hstep, .one f _ rfl rfl ?_ hrun⟩
        rw [honService]
        rw [Service.detectorStep, hpc] at hservice
        cases hservice
        rfl
      · cases h
    · rename_i hpc
      obtain ⟨⟨service, reports'⟩, hservice, hs'⟩ := Option.map_eq_some_iff.mp h
      simp only [Prod.mk.injEq] at hs'
      obtain ⟨rfl, rfl, rfl⟩ := hs'
      have hstep : s.service.Step (.detector [], reports') service := hservice
      refine ⟨hstep, .none rfl rfl ?_⟩
      obtain hdata | ⟨-, f, -, hpc', -⟩ := hstep.data
      · exact hdata
      · exact absurd hpc' (hpc f)

/-- **A run of both is a run of the service.** -/
theorem Steps.service (h : s.Steps resize exp S es s') :
    s.service.Steps (served es) s'.service :=
  Trace.project Vision.service Act.onService (fun _ _ _ hstep => hstep.parts.1) h

/-! ## What is detected on a frame -/

/-- The data come from this call. -/
def DetectedBy (call : Detection K) (d : WhaleData K) : Prop :=
  call.image = picture d.cvImage ∧ call.boxes = d.object_boxes

variable [IsStrictOrderedRing K] {p : DetParam K} {version_ID : EModelID} {size : Nat}
  {m : C.L.Members} {timers : Monitor.DetectorProcessor} {nnsdk : DetImpl K}

/-- **Every detection is due.** The SDK stays ready, each of its calls does what its image and the
answer to it are due, and what is detected comes from these calls, one after the other.

By induction on the run, with `Ready.detected` for each call. -/
theorem Steps.detections_due (hexp : ∀ x, 0 < exp x)
    (hresize : ∀ image w h, (resize image w h).data.length = 3 * (h * w))
    (hready : Ready p version_ID nnsdk)
    (h : (init B C size m timers nnsdk).Steps resize exp S es s) :
    Ready p version_ID s.nnsdk ∧ (∀ call ∈ calls es, Detects resize exp p version_ID call) ∧
      List.Forall₂ DetectedBy (calls es) (Service.detected (served es)) := by
  refine Trace.history (H := fun es (s : Vision B C) => Ready p version_ID s.nnsdk ∧
    (∀ call ∈ calls es, Detects resize exp p version_ID call) ∧
      List.Forall₂ DetectedBy (calls es) (Service.detected (served es))) ?_ ?_ h
  · exact ⟨hready, fun call hcall => absurd hcall (by simp [calls]), .nil⟩
  intro es s e s' _ ⟨hs, hdue, hmade⟩ hstep
  rw [calls_snoc, served_snoc, Service.detected, Service.collect_snoc]
  -- either nothing is detected, or one call gives the boxes of one message
  obtain ⟨hcalls, hsame, hdata⟩ | ⟨f, call, hcalls, himage, hdata, hcall⟩ := hstep.parts.2
  · rw [hcalls, hsame, hdata, List.append_nil, List.append_nil]
    exact ⟨hs, hdue, hmade⟩
  · obtain ⟨hs', hdetects⟩ := hs.detected hexp hresize hcall
    rw [hcalls, hdata]
    refine ⟨hs', ?_, List.rel_append hmade (.cons ⟨himage, rfl⟩ .nil)⟩
    intro call' hcall'
    obtain hcall' | hcall' := List.mem_append.mp hcall'
    · exact hdue call' hcall'
    · rw [List.mem_singleton.mp hcall']
      exact hdetects

end

/-! ## The points of an event -/

section

variable [LinearOrder K] [IsStrictOrderedRing K]

/-- `cvRound` goes to a nearest integer. -/
def Nearest (cvRound : K → Int) : Prop := ∀ v, |(cvRound v : K) - v| ≤ 1 / (2 : Nat)

/-- A rounded value is within one half. -/
theorem Nearest.within {cvRound : K → Int} (h : Nearest cvRound) (v : K) :
    v - 1 / 2 ≤ cvRound v ∧ cvRound v ≤ v + 1 / 2 := by
  have hv := abs_le.mp (h v)
  rw [Nat.cast_ofNat] at hv
  constructor
  · linarith [hv.1]
  · linarith [hv.2]

/-- What is not negative is not rounded below zero. -/
theorem Nearest.nonneg {cvRound : K → Int} (h : Nearest cvRound) {v : K} (hv : 0 ≤ v) :
    0 ≤ cvRound v := by
  have hlow : (-1 : K) < cvRound v := by linarith [(h.within v).1]
  have hlow : (-1 : Int) < cvRound v := by exact_mod_cast hlow
  omega

/-- The point on the ground of a box. -/
def footPoint (cvRound : K → Int) (box : Box K) : Int × Int :=
  (cvRound box.x0 + (cvRound (box.x1 - box.x0)).tdiv 2,
    cvRound box.y0 + cvRound (box.y1 - box.y0))

/-- The foot point of a box in an image is in the image, or one row below it. -/
theorem footPoint_inside {cvRound : K → Int} (h : Nearest cvRound) {D : Api.Detect K} {box : Box K}
    (hbox : box.WellFormed D) :
    (0 ≤ (footPoint cvRound box).1 ∧ (footPoint cvRound box).1 ≤ D.image_w) ∧
      0 ≤ (footPoint cvRound box).2 ∧ (footPoint cvRound box).2 ≤ D.image_h + 1 := by
  obtain ⟨hx₀, hx, hx₁⟩ := hbox.x
  obtain ⟨hy₀, hy, hy₁⟩ := hbox.y
  have hleft := h.nonneg hx₀
  have hwidth := h.nonneg (sub_nonneg.mpr hx)
  have htop := h.nonneg hy₀
  have hheight := h.nonneg (sub_nonneg.mpr hy)
  have hhalf := Int.tdiv_eq_ediv_of_nonneg (b := 2) hwidth
  -- two roundings of half a pixel each: the sum may leave the image by one row, the
  -- half of the width may not
  have hright : 2 * cvRound box.x0 + cvRound (box.x1 - box.x0) < 2 * D.image_w + 2 := by
    have hbound : (2 * cvRound box.x0 + cvRound (box.x1 - box.x0) : K) < 2 * D.image_w + 2 := by
      linarith [(h.within box.x0).2, (h.within (box.x1 - box.x0)).2]
    exact_mod_cast hbound
  have hbottom : cvRound box.y0 + cvRound (box.y1 - box.y0) ≤ D.image_h + 1 := by
    have hbound : (cvRound box.y0 + cvRound (box.y1 - box.y0) : K) ≤ D.image_h + 1 := by
      linarith [(h.within box.y0).2, (h.within (box.y1 - box.y0)).2]
    exact_mod_cast hbound
  simp only [footPoint]
  omega

/-- Half a row and half a row, each rounded up, in an image of one row. -/
example : footPoint round (⟨0, 1 / 2, 0, 1, 9 / 10, cls_ped⟩ : Box ℚ) = (0, 2) := by decide +kernel

variable {P : Setup K} {t : Round K}

/-- What an event shows of a frame that `sdk::detect` was called on. In the image is a point with
coordinates from 0 to `cols` and from 0 to `rows + 1`: a foot point may lie on the right edge, and the
sum of two rounded halves one row below the lower edge. -/
structure Sees (P : Setup K) (call : Detection K) (t : Round K) (e : MonitorEvent) : Prop where
  cameraSn : e.cameraSn = t.call.msg.camera_sn
  timeStamp : e.timeStamp = t.call.msg.camera_time
  contents : Contents P t e
  /-- the points that the handler posts are those of boxes of the call, and in its image -/
  points : ∀ shop_id value, e.handler shop_id = .ok (some value) → ∀ info ∈ value.Crowd,
    ∃ box ∈ call.boxes, box.class_idx = cls_ped ∧ (info.x, info.y) = footPoint P.cvRound box ∧
      (0 ≤ info.x ∧ info.x ≤ call.image.cols) ∧ 0 ≤ info.y ∧ info.y ≤ call.image.rows + 1

omit [LinearOrder K] [IsStrictOrderedRing K] in
/-- The points are those of boxes of the message. -/
theorem crowd_points {e : MonitorEvent} (h : Contents P t e) {shop_id : String}
    {value : Monitor.MonitorValue} (hvalue : e.handler shop_id = .ok (some value)) {info : CrowdInfo}
    (hinfo : info ∈ value.Crowd) : ∃ box ∈ t.call.msg.object_boxes, box.class_idx = cls_ped ∧
      (info.x, info.y) = footPoint P.cvRound box := by
  obtain ⟨crowd, hhandler, hcrowd⟩ := h.people shop_id
  obtain rfl : _ = value := Option.some.inj (Except.ok.inj (hhandler.symm.trans hvalue))
  have hmem : info ∈ (crowd : Multiset CrowdInfo) := hinfo
  rw [hcrowd] at hmem
  obtain ⟨a, ha, rfl⟩ := Multiset.mem_map.mp hmem
  obtain ⟨box, hbox, hped, hmessage⟩ := h.boxes a (List.mem_filter.mp ha).1
  refine ⟨box, hbox, hped, ?_⟩
  simp only [xGround, yGround, hmessage]
  rfl

/-- An event about a message shows the boxes of the call that the message comes from. -/
theorem event_sees {call : Detection K} {e : MonitorEvent} {resize : Picture → Nat → Nat → Picture}
    {exp : K → K} {p : DetParam K} {version_ID : EModelID} (hround : Nearest P.cvRound)
    (hdetects : Detects resize exp p version_ID call) (hby : DetectedBy call t.call.msg)
    (hsn : e.cameraSn = t.call.msg.camera_sn) (htime : e.timeStamp = t.call.msg.camera_time)
    (hcontents : Contents P t e) : Sees P call t e := by
  refine ⟨hsn, htime, hcontents, ?_⟩
  intro shop_id value hvalue info hinfo
  obtain ⟨box, hbox, hped, hpoint⟩ := crowd_points hcontents hvalue hinfo
  rw [← hby.2] at hbox
  refine ⟨box, hbox, hped, hpoint, ?_⟩
  -- on an empty image there are no boxes to show
  obtain ⟨-, -, hnone⟩ | ⟨-, tensor, -, -, blobs, -, howed⟩ := hdetects
  · rw [hnone] at hbox
    cases hbox
  · have hinside := footPoint_inside hround (howed.wellFormed box hbox).1
    rw [← hpoint] at hinside
    exact hinside

end

section

variable [LinearOrder K] [IsStrictOrderedRing K] {resize : Picture → Nat → Nat → Picture}
  {exp : K → K} {S : Sorter K} {p : DetParam K} {size : Nat} {m : C.L.Members}
  {timers : Monitor.DetectorProcessor} {nnsdk : DetImpl K} {s : Vision B C} {es : List (Act K)}

/-- **From the image to the event.** In every run of the service with the SDK that `NNSDK::init` has
set up, and with fewer than 2^31 people: every message that is handled is made of a frame that the
loader captured and of what one call of `sdk::detect` owes to the image of this very frame and to what
the network answered to it; and every event it brings carries the serial number and the time of this
frame, shows exactly the confirmed people that a box of this call was matched to, and shows them at
the foot points of such boxes, in the image (its right and lower edge included) or one row below.

It joins the laws of the layers: the service hands on whole messages (`Service.Steps`), the calls in it
are a run of the SDK (`Steps.detections_due`), and an event shows who was matched in its round
(`Contents`). -/
theorem Steps.sees (E : Tengine) (memory : Detector K) (model_path : String)
    (hinit : Api.NNSDK.init E memory model_path p = .ok nnsdk) (hexp : ∀ x, 0 < exp x)
    (hresize : ∀ image w h, (resize image w h).data.length = 3 * (h * w))
    (hround : Nearest C.P.cvRound) (h : (init B C size m timers nnsdk).Steps resize exp S es s)
    (hbound : createdCount ((rounds es).map Round.turn) < 2 ^ 31) :
    ∃ version_ID, p.version_ID = some version_ID ∧ ∀ t ∈ rounds es,
      frameOf t.call.msg ∈ Service.captured (served es) ∧ ∃ call ∈ calls es,
        DetectedBy call t.call.msg ∧ Detects resize exp p version_ID call ∧
          ∀ e ∈ t.pushed, Sees C.P call t e := by
  obtain ⟨version_ID, hversion, hready⟩ := (Api.NNSDK.init_spec E memory model_path p).2 nnsdk hinit
  obtain ⟨-, hdue, hmade⟩ := Steps.detections_due hexp hresize hready h
  refine ⟨version_ID, hversion, ?_⟩
  intro t ht
  obtain ⟨hcaptured, hdetected⟩ := Service.Steps.round_made h.service ht
  -- the queues keep the data of a frame together with its boxes
  obtain ⟨call, hcall, hby⟩ := exists_of_forall₂ hmade _ hdetected
  refine ⟨hcaptured, call, hcall, hby, hdue call hcall, ?_⟩
  intro e he
  obtain ⟨hsn, htime, hcontents⟩ := Service.Steps.round_contents h.service hbound ht he
  exact Vision.event_sees hround (hdue call hcall) hby hsn htime hcontents

end

/-! ## Somebody in front of the camera -/

section

variable [LinearOrder K] {resize : Picture → Nat → Nat → Picture} {exp : K → K} {S : Sorter K}
  {p : DetParam K} {version_ID : EModelID} {size : Nat} {m : C.L.Members}
  {timers : Monitor.DetectorProcessor} {nnsdk : DetImpl K}

omit [LinearOrder K] in
/-- The boxes only count where the detector holds a frame. -/
theorem detectorStep_boxes {s : Service B C} (hpc : ∀ f, s.detectorPc ≠ .detect f)
    (boxes : List (Box K)) : s.detectorStep boxes = s.detectorStep [] := by
  unfold Service.detectorStep
  split
  case h_4 f hdetect => exact absurd hdetect (hpc f)
  all_goals rfl

omit [Field K] [LinearOrder K] in
/-- What the service reports does not depend on what it was told. -/
theorem collect_of_reports {β : Type} (f : Report K → List β)
    {es es' : List (Service.Move K × List (Report K))} (h : es.map Prod.snd = es'.map Prod.snd) :
    Service.collect f es = Service.collect f es' := by
  have hreports : ∀ es : List (Service.Move K × List (Report K)),
      Service.collect f es = (es.map Prod.snd).flatMap (·.flatMap f) := by
    intro es
    rw [List.flatMap_map]
    rfl
  rw [hreports, hreports, h]

/-- A run of the service in which the detector is told what the SDK finds is one of both. -/
theorem Steps.lift {answer : Api.Answer K} {boxes : List (Box K)} {good : WhaleFrame → Prop}
    (hfinds : ∀ f, good f → ∀ nnsdk, Ready p version_ID nnsdk → ∃ nnsdk' tensor,
      nnsdk.run resize exp S (picture f.cvImage) answer [] = .ok (nnsdk', tensor, boxes) ∧
        Ready p version_ID nnsdk')
    (hready : Ready p version_ID nnsdk) {es : List (Service.Move K × List (Report K))}
    {s : Service B C} (h : (Service.init B C size m timers).Steps es s)
    (hgood : ∀ f ∈ Service.captured es, good f)
    (htold : ∀ e ∈ es, ∀ object_boxes, e.1 = .detector object_boxes → object_boxes = boxes) :
    ∃ acts nnsdk', (init B C size m timers nnsdk).Steps resize exp S acts ⟨s, nnsdk'⟩ ∧
      Ready p version_ID nnsdk' ∧ (served acts).map Prod.snd = es.map Prod.snd := by
  revert hgood htold
  refine Trace.history (H := fun es s => (∀ f ∈ Service.captured es, good f) →
    (∀ e ∈ es, ∀ object_boxes, e.1 = .detector object_boxes → object_boxes = boxes) →
    ∃ acts nnsdk', (init B C size m timers nnsdk).Steps resize exp S acts ⟨s, nnsdk'⟩ ∧
      Ready p version_ID nnsdk' ∧ (served acts).map Prod.snd = es.map Prod.snd) ?_ ?_ h
  · intro _ _
    exact ⟨[], nnsdk, rfl, hready, rfl⟩
  intro es s e s' hes ih hstep hgood htold
  rw [Service.captured, Service.collect_append] at hgood
  obtain ⟨acts, nnsdk', hacts, hready', hserved⟩ :=
    ih (fun f hf => hgood f (List.mem_append_left _ hf))
      fun e' he' => htold e' (List.mem_append_left _ he')
  -- one more step, whatever it does to the SDK
  have hnext : ∀ (act : Act K) nnsdk'', Step resize exp S ⟨s, nnsdk'⟩ act ⟨s', nnsdk''⟩ →
      Ready p version_ID nnsdk'' → act.reports = e.2 →
      ∃ acts nnsdk', (init B C size m timers nnsdk).Steps resize exp S acts ⟨s', nnsdk'⟩ ∧
        Ready p version_ID nnsdk' ∧ (served acts).map Prod.snd = (es ++ [e]).map Prod.snd := by
    intro act nnsdk'' hact hready'' hreports
    refine ⟨acts ++ [act], nnsdk'', trace_snoc.mpr ⟨_, hacts, hact⟩, hready'', ?_⟩
    rw [served_snoc, List.map_append, List.map_append, hserved]
    exact congrArg (es.map Prod.snd ++ [·]) hreports
  have hbesides : ∀ move, e.1 = move →
      besides ⟨s, nnsdk'⟩ move = some ((⟨s', nnsdk'⟩ : Vision B C), e.2, []) := by
    rintro _ rfl
    rw [besides, show s.step e.1 = some (s', e.2) from hstep]
    rfl
  obtain ⟨move, reports⟩ := e
  cases move with
  | loader a => exact hnext ⟨.loader a, reports, []⟩ nnsdk' (hbesides _ rfl) hready' rfl
  | monitor memory =>
    exact hnext ⟨.monitor memory, reports, []⟩ nnsdk' (hbesides _ rfl) hready' rfl
  | stopAll => exact hnext ⟨.stopAll, reports, []⟩ nnsdk' (hbesides _ rfl) hready' rfl
  | detector object_boxes =>
    obtain rfl := htold _ (List.mem_append_right _ (List.mem_singleton_self _)) object_boxes rfl
    have hservice : s.detectorStep object_boxes = some (s', reports) := hstep
    by_cases hpc : ∃ f, s.detectorPc = .detect f
    · obtain ⟨f, hpc⟩ := hpc
      -- the frame that the detector holds was captured
      have hinside : f ∈ s.framesInside := by
        rw [Service.framesInside, hpc]
        exact List.mem_cons_self
      have hcaptured := (Service.Steps.account hes).2.frames.mem_offered (Or.inr (Or.inl hinside))
      obtain ⟨nnsdk'', tensor, hrun, hready''⟩ :=
        hfinds f (hgood f (List.mem_append_left _ hcaptured)) nnsdk' hready'
      refine hnext ⟨.detector answer, reports,
        [⟨picture f.cvImage, answer, tensor, object_boxes⟩]⟩ nnsdk'' ?_ hready'' rfl
      show detectorStep resize exp S ⟨s, nnsdk'⟩ answer = _
      simp only [detectorStep, hpc, hrun, hservice]
      rfl
    · have hpc : ∀ f, s.detectorPc ≠ .detect f := fun f hf => hpc ⟨f, hf⟩
      refine hnext ⟨.detector answer, reports, []⟩ nnsdk' ?_ hready' rfl
      show detectorStep resize exp S ⟨s, nnsdk'⟩ answer = _
      unfold detectorStep
      split
      · rename_i f hdetect
        exact absurd hdetect (hpc f)
      · rw [← detectorStep_boxes hpc object_boxes, hservice]
        rfl

end

/-- The SDK finds the person at the first anchor in a frame of this size. -/
theorem firstAnchor_found {f : WhaleFrame} (hf : f.cvImage.rows = 540 ∧ f.cvImage.cols = 960)
    {nnsdk : DetImpl ℚ} (h : Ready (Api.halves "Monitor_V1") .e_monitor_v1 nnsdk) :
    ∃ nnsdk' tensor, nnsdk.run Api.blackened (fun _ => 1) Sorter.merge (picture f.cvImage)
      (some Api.firstAnchor) [] = .ok (nnsdk', tensor, [Api.firstBox]) ∧
        Ready (Api.halves "Monitor_V1") .e_monitor_v1 nnsdk' := by
  have himage : picture f.cvImage = ⟨540, 960, f.cvImage.data⟩ := by
    rw [picture, hf.1, hf.2]
    rfl
  rw [himage]
  exact Api.firstAnchor_found _ h

/-- One frame from the camera to the monitor. -/
def oneLook : List (Service.Move ℚ) :=
  List.replicate 4 (.loader Service.image) ++ List.replicate 6 (.detector [Api.firstBox]) ++
    List.replicate 4 (.monitor fun _ => ⟨0, 0, ⟨0, 0, 0⟩, ⟨0, 0, 0⟩, 0, 0⟩)

/-- The detector is told this box, whenever it is told anything. -/
def toldFirstBox : Service.Move ℚ → Bool
  | .detector object_boxes => object_boxes = [Api.firstBox]
  | _ => true

/-- Somebody stands in five frames: the fifth brings an event with one point, seven pixels from the
left and at the feet. -/
theorem Steps.sees_fiveRounds : ∃ nnsdk acts, ∃ s : Vision (.list _) Service.oneCamera,
    Api.NNSDK.init Api.willing Api.cleared "models" (Api.halves "Monitor_V1") = .ok nnsdk ∧
      (init (.list _) Service.oneCamera 10 (⟨0⟩ : RtspLoader) (.init 0 0) nnsdk).Steps Api.blackened
        (fun _ => 1) Sorter.merge acts s ∧
      ∃ t ∈ rounds acts, ∃ e ∈ t.pushed, ∃ call ∈ calls acts, e.id = [0] ∧ e.x_axis = [7] ∧
        e.y_axis = [23] ∧ Sees scene call t e := by
  have hmonitor : (Api.halves "Monitor_V1").version_ID = some .e_monitor_v1 := by decide
  have hspec := Api.NNSDK.init_spec Api.willing Api.cleared "models" (Api.halves "Monitor_V1")
  obtain ⟨nnsdk, hinit⟩ := hspec.1.mpr ⟨rfl, fun _ _ => rfl, .e_monitor_v1, hmonitor, by decide, rfl⟩
  obtain ⟨version_ID, hversion, hready⟩ := hspec.2 nnsdk hinit
  obtain rfl : .e_monitor_v1 = version_ID := Option.some.inj (hmonitor.symm.trans hversion)
  obtain ⟨⟨es, s⟩, hexec, hcheck⟩ : ∃ r, (Service.init (.list _) Service.oneCamera 10
      (⟨0⟩ : RtspLoader) (.init 0 0)).exec (oneLook ++ oneLook ++ oneLook ++ oneLook ++ oneLook) =
        some r ∧
      ((Service.captured r.1).all fun f => decide (f.cvImage.rows = 540 ∧ f.cvImage.cols = 960)) &&
        (r.1.all fun e => toldFirstBox e.1) &&
        decide (createdCount ((Service.rounds r.1).map Round.turn) = 1) &&
        ((Service.rounds r.1).any fun t => t.pushed.any fun e =>
          decide (e.id = [0] ∧ e.x_axis = [7] ∧ e.y_axis = [23])) = true :=
    (Option.any_eq_true _ _).mp (by decide +kernel)
  simp only [Bool.and_eq_true, List.all_eq_true, List.any_eq_true, decide_eq_true_eq] at hcheck
  obtain ⟨⟨⟨hgood, htold⟩, hcount⟩, t, ht, e, he, hid, hx, hy⟩ := hcheck
  obtain ⟨acts, nnsdk', hacts, -, hserved⟩ := Steps.lift (fun f hf _ hs => firstAnchor_found hf hs)
    hready (Service.exec_steps hexec) hgood (by
      intro e he object_boxes hmove
      have htold := htold e he
      rw [hmove] at htold
      exact of_decide_eq_true htold)
  have hrounds : rounds acts = Service.rounds es := collect_of_reports _ hserved
  have hbound : createdCount ((rounds acts).map Round.turn) < 2 ^ 31 := by
    rw [hrounds, hcount]
    decide
  have hround : Nearest Service.oneCamera.P.cvRound := by
    intro v
    rw [abs_sub_comm, Nat.cast_ofNat]
    exact abs_sub_round v
  obtain ⟨_, -, hsees⟩ := Steps.sees Api.willing Api.cleared "models" hinit (fun _ => one_pos)
    Api.length_blackened hround hacts hbound
  rw [← hrounds] at ht
  obtain ⟨-, call, hcall, -, -, hevents⟩ := hsees t ht
  exact ⟨nnsdk, acts, _, hinit, hacts, t, ht, e, he, call, hcall, hid, hx, hy, hevents e he⟩

end Vision

end EdgeFrame.Running
