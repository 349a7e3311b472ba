/-
# EdgeFrame.Monitor.Processor -- `MonitorProcessor` and its events

`handle` turns the boxes of a frame into detections, has the tracker update itself, and
every `monitor_interval` frames pushes an event with the ground points of the confirmed
people in the frame. The vectors `x_`, `y_` and `id_` that `monitor` fills are members
of the processor. `init` switches the visualisation off, so that it has no part here.
-/
import EdgeFrame.Api.Detect
import EdgeFrame.Track.Conservation
import EdgeFrame.Track.History
import Mathlib

namespace EdgeFrame.Monitor

open Api Lib Track

variable {K : Type}

/-! ## Messages -/

/-- `WhaleData`, with what the processor reads of its frame. -/
structure WhaleData (K : Type) where
  camera_sn : String
  camera_time : Int64
  frame_id : UInt64
  cvImage : Mat
  object_boxes : List (Box K)

/-- A call of `handle`; `memory i` is where the object for the box `i` is constructed. -/
structure Call (K : Type) where
  msg : WhaleData K
  memory : Nat → Unassigned K

/-- `cls_id_map["cls_ped"]`. -/
def cls_ped : Int := 1

/-- What an event carries from the processor to the handler. -/
structure MonitorEvent where
  cameraSn : String
  x_axis : List Int
  y_axis : List Int
  id : List Int
  timeStamp : Int64
  deriving DecidableEq, Repr

/-! ## The handler of an event -/

/-- `crowd_info_map`. -/
structure CrowdInfo where
  x : Int
  y : Int
  id : Int
  deriving DecidableEq, Repr

/-- `monitorValue`. -/
structure MonitorValue where
  shop_id : String
  camera_sn : String
  timestamp : Int64
  Crowd : List CrowdInfo
  deriving DecidableEq, Repr

/-- The loop of `handler`, from the index `i` on: its bound is the size of `x_axis` only. -/
def crowdInfo (y_axis id : List Int) : List Int → Nat → Except Abort (List CrowdInfo)
  | [], _ => .ok []
  | x :: xs, i =>
    match y_axis[i]?, id[i]? with
    | some y, some id' => do
      let crowd_info_vec ← crowdInfo y_axis id xs (i + 1)
      return ⟨x, y, id'⟩ :: crowd_info_vec
    | _, _ => .error .outOfRange

/-- `MonitorEvent::handler`: the value that is posted, if any. -/
def MonitorEvent.handler (e : MonitorEvent) (shop_id : String) :
    Except Abort (Option MonitorValue) :=
  if !e.x_axis.isEmpty && !e.y_axis.isEmpty && !e.id.isEmpty then do
    let crowd_info_vec ← crowdInfo e.y_axis e.id e.x_axis 0
    return some ⟨shop_id, e.cameraSn, e.timeStamp, crowd_info_vec⟩
  else .ok none

/-! ## The processor -/

/-- The members of `MonitorProcessor` that change. -/
structure MonitorProcessor (K : Type) where
  tracker_ : Tracker K
  x_ : List Int
  y_ : List Int
  id_ : List Int
  cur_interval_cnt_ : Int

/-- The processor after its tracker has been updated, and the frame counted. -/
def MonitorProcessor.counted (p : MonitorProcessor K) (s : Tracker K) : MonitorProcessor K :=
  { p with tracker_ := s, cur_interval_cnt_ := p.cur_interval_cnt_ + 1 }

/-- The processor after `init`. -/
def MonitorProcessor.init : MonitorProcessor K := ⟨Tracker.init, [], [], [], 0⟩

variable [Field K]

/-- `ConvertBoxToBBoxMessage`: the corners of the box become a rectangle. -/
def ConvertBoxToBBoxMessage (object_box : Box K) (update_timestamp update_frame_id : UInt64) :
    BBoxMessage K :=
  ⟨update_timestamp, update_frame_id, object_box.score, ⟨object_box.x0, object_box.y0,
    object_box.x1 - object_box.x0, object_box.y1 - object_box.y0⟩⟩

/-- The loop of `CvtDetToPed`, from the index `i` on. -/
def CvtDetToPed (memory : Nat → Unassigned K) (timestamp frame_id : UInt64) :
    List (Box K) → Nat → List (PersonObject K)
  | [], _ => []
  | box :: det_boxes, i =>
    if box.class_idx = cls_ped then
      PersonObject.new (memory i) none (some (ConvertBoxToBBoxMessage box timestamp frame_id)) (-1) ::
        CvtDetToPed memory timestamp frame_id det_boxes (i + 1)
    else CvtDetToPed memory timestamp frame_id det_boxes (i + 1)

/-- What `handle` calls `Update` with. -/
def Call.input (c : Call K) : Input K where
  frame := c.msg.cvImage
  timestamp := c.msg.camera_time.toUInt64
  frame_id := c.msg.frame_id
  cur_detected_person_objects :=
    CvtDetToPed c.memory c.msg.camera_time.toUInt64 c.msg.frame_id c.msg.object_boxes 0

/-- `x_ground`. -/
def xGround (P : Setup K) (o : PersonObject K) : Int :=
  let body_rect := o.last_updated_body_bbox.bbox_rect.round P.cvRound
  body_rect.x + body_rect.width.tdiv 2

/-- `y_ground`. -/
def yGround (P : Setup K) (o : PersonObject K) : Int :=
  let body_rect := o.last_updated_body_bbox.bbox_rect.round P.cvRound
  body_rect.y + body_rect.height

/-- The condition in the loop of `monitor`. -/
def shown (o : PersonObject K) : Bool :=
  o.object_status = .confirmed && o.is_current_body_detected

/-- The body of the loop of `monitor`. -/
def observe (P : Setup K) (p : MonitorProcessor K) (o : PersonObject K) : MonitorProcessor K :=
  if shown o then
    { p with
      x_ := p.x_ ++ [xGround P o]
      y_ := p.y_ ++ [yGround P o]
      id_ := p.id_ ++ [o.id] }
  else p

/-- `MonitorProcessor::monitor`, with what it pushes to the output queue. -/
def monitor (P : Setup K) (camera_sn : String) (camera_time : Int64)
    (ped_tracked : List (PersonObject K)) (p : MonitorProcessor K) :
    MonitorProcessor K × List MonitorEvent :=
  let p := ped_tracked.foldl (observe P) p
  if 0 < p.x_.length then
    ({ p with x_ := [], y_ := [], id_ := [] }, [⟨camera_sn, p.x_, p.y_, p.id_, camera_time⟩])
  else (p, [])

variable [LinearOrder K]

/-- `MonitorProcessor::handle`: the result of the update, the events pushed, and the processor
afterwards. -/
def handle (P : Setup K) (monitor_interval : Int) (p : MonitorProcessor K) (c : Call K) :
    Except Abort (Result K × List MonitorEvent × MonitorProcessor K) := do
  let r ← Update P p.tracker_ c.input
  let p := p.counted r.tracker
  if monitor_interval = 0 then .error .divisionByZero
  else if p.cur_interval_cnt_.tmod monitor_interval = 0 then
    let (p, events) :=
      monitor P c.msg.camera_sn c.msg.camera_time p.tracker_.trackedPersonObjects p
    return (r, events, { p with cur_interval_cnt_ := 0 })
  else return (r, [], p)

/-! ## Runs -/

/-- A call of `handle` that has returned. -/
structure Round (K : Type) where
  call : Call K
  result : Result K
  pushed : List MonitorEvent

/-- The turn of the tracker in a round. -/
def Round.turn (t : Round K) : Turn K := ⟨t.call.input, t.result⟩

/-- One call of `handle`. -/
def Handles (P : Setup K) (monitor_interval : Int) (p : MonitorProcessor K) (t : Round K)
    (p' : MonitorProcessor K) : Prop :=
  handle P monitor_interval p t.call = .ok (t.result, t.pushed, p')

/-- A run of the processor. -/
def Rounds (P : Setup K) (monitor_interval : Int) :
    MonitorProcessor K → List (Round K) → MonitorProcessor K → Prop :=
  Trace (Handles P monitor_interval)

/-- The run that hands these messages to the processor. -/
def feed (P : Setup K) (monitor_interval : Int) : MonitorProcessor K → List (Call K) →
    Except Abort (List (Round K) × MonitorProcessor K)
  | p, [] => .ok ([], p)
  | p, c :: calls => do
    let (r, events, p) ← handle P monitor_interval p c
    let (rounds, p) ← feed P monitor_interval p calls
    return (⟨c, r, events⟩ :: rounds, p)

/-- What is handed over in turn makes a run. -/
theorem feed_rounds {P : Setup K} {monitor_interval : Int} : ∀ {calls : List (Call K)}
    {p p' : MonitorProcessor K} {rounds : List (Round K)},
    feed P monitor_interval p calls = .ok (rounds, p') → Rounds P monitor_interval p rounds p' := by
  intro calls
  induction calls with
  | nil =>
    intro _ _ _ h
    cases h
    rfl
  | cons c calls ih =>
    intro p p' rounds h
    obtain ⟨⟨r, events, p₁⟩, hhandle, h⟩ := Abort.bind_eq_ok h
    obtain ⟨⟨rounds', p₂⟩, hrest, h⟩ := Abort.bind_eq_ok h
    cases h
    exact ⟨p₁, hhandle, ih hrest⟩

/-! ## What the functions do -/

section

variable {P : Setup K} {monitor_interval : Int}

omit [LinearOrder K] in
/-- A detection is built from a box of the message. -/
theorem mem_CvtDetToPed {memory : Nat → Unassigned K} {timestamp frame_id : UInt64}
    {det_boxes : List (Box K)} : ∀ {i : Nat} {d : PersonObject K},
    d ∈ CvtDetToPed memory timestamp frame_id det_boxes i →
    ∃ u, ∃ box ∈ det_boxes, box.class_idx = cls_ped ∧
      d = PersonObject.new u none (some (ConvertBoxToBBoxMessage box timestamp frame_id)) (-1) := by
  induction det_boxes with
  | nil =>
    intro i d hd
    cases hd
  | cons box det_boxes ih =>
    intro i d hd
    unfold CvtDetToPed at hd
    split at hd
    · rename_i hped
      rcases List.mem_cons.mp hd with rfl | hd
      · exact ⟨memory i, box, List.mem_cons_self, hped, rfl⟩
      · obtain ⟨u, box', hbox', h⟩ := ih hd
        exact ⟨u, box', List.mem_cons_of_mem _ hbox', h⟩
    · obtain ⟨u, box', hbox', h⟩ := ih hd
      exact ⟨u, box', List.mem_cons_of_mem _ hbox', h⟩

omit [LinearOrder K] in
/-- The loop of `monitor` appends to its vectors in step. -/
theorem foldl_observe (os : List (PersonObject K)) : ∀ p : MonitorProcessor K,
    os.foldl (observe P) p = { p with
      x_ := p.x_ ++ (os.filter shown).map (xGround P)
      y_ := p.y_ ++ (os.filter shown).map (yGround P)
      id_ := p.id_ ++ (os.filter shown).map (·.id) } := by
  induction os with
  | nil =>
    intro p
    simp
  | cons o os ih =>
    intro p
    rw [List.foldl_cons, ih, observe]
    cases ho : shown o with
    | true => simp [List.filter_cons_of_pos ho]
    | false => simp [List.filter_cons_of_neg (Bool.eq_false_iff.mp ho)]

/-- Nothing is left in the vectors. -/
structure MonitorProcessor.Cleared (p : MonitorProcessor K) : Prop where
  x_ : p.x_ = []
  y_ : p.y_ = []
  id_ : p.id_ = []

/-- The event for these objects. -/
def eventOf (P : Setup K) (c : Call K) (os : List (PersonObject K)) : MonitorEvent :=
  ⟨c.msg.camera_sn, os.map (xGround P), os.map (yGround P), os.map (·.id), c.msg.camera_time⟩

omit [LinearOrder K] in
/-- **`monitor`** on empty vectors leaves them empty, and pushes an event for the shown objects, if
there are any. -/
theorem monitor_spec (c : Call K) (os : List (PersonObject K)) {p : MonitorProcessor K}
    (hp : p.Cleared) : monitor P c.msg.camera_sn c.msg.camera_time os p =
      (p, if os.filter shown = [] then [] else [eventOf P c (os.filter shown)]) := by
  obtain ⟨tracker_, x_, y_, id_, cur_interval_cnt_⟩ := p
  obtain ⟨hx, hy, hid⟩ := hp
  simp only at hx hy hid
  subst hx hy hid
  unfold monitor
  rw [foldl_observe]
  cases hshown : os.filter shown with
  | nil => simp
  | cons o rest => simp [eventOf]

omit [LinearOrder K] in
/-- `monitor` leaves the tracker alone. -/
theorem monitor_tracker {camera_sn : String} {camera_time : Int64} {os : List (PersonObject K)}
    {p : MonitorProcessor K} :
    (monitor P camera_sn camera_time os p).1.tracker_ = p.tracker_ := by
  unfold monitor
  simp only [foldl_observe]
  split <;> rfl

/-- What a call of `handle` that returns has done: the update, and `monitor` if it is time. -/
theorem Handles.cases {p p' : MonitorProcessor K} {t : Round K}
    (h : Handles P monitor_interval p t p') :
    Update P p.tracker_ t.call.input = .ok t.result ∧
      ((t.pushed = [] ∧ p' = p.counted t.result.tracker) ∨
        ∃ m, monitor P t.call.msg.camera_sn t.call.msg.camera_time
          t.result.tracker.trackedPersonObjects (p.counted t.result.tracker) = (m, t.pushed) ∧
          p' = { m with cur_interval_cnt_ := 0 }) := by
  unfold Handles handle at h
  obtain ⟨r, hr, h⟩ := Abort.bind_eq_ok h
  simp only at h
  split at h
  · cases h
  split at h
  · obtain ⟨rfl, hpushed, rfl⟩ : r = t.result ∧ _ = t.pushed ∧ _ = p' := by
      simpa only [pure, Except.pure, Except.ok.injEq, Prod.mk.injEq] using h
    exact ⟨hr, Or.inr ⟨_, Prod.ext rfl hpushed, rfl⟩⟩
  · obtain ⟨rfl, hpushed, rfl⟩ : r = t.result ∧ _ = t.pushed ∧ _ = p' := by
      simpa only [pure, Except.pure, Except.ok.injEq, Prod.mk.injEq] using h
    exact ⟨hr, Or.inl ⟨hpushed.symm, rfl⟩⟩

/-- **One call of `handle` is a turn of the tracker.** -/
theorem Handles.updates {p p' : MonitorProcessor K} {t : Round K}
    (h : Handles P monitor_interval p t p') : Updates P p.tracker_ t.turn p'.tracker_ := by
  obtain ⟨hupdate, ⟨-, rfl⟩ | ⟨m, hmonitor, rfl⟩⟩ := h.cases
  · exact ⟨hupdate, rfl⟩
  · refine ⟨hupdate, ?_⟩
    have htracker := congrArg (·.1.tracker_) hmonitor
    exact htracker.symm.trans monitor_tracker

/-- **One call of `handle`** leaves the vectors empty, and what it pushes, if anything, is the event
for the shown objects. -/
theorem Handles.pushes {p p' : MonitorProcessor K} {t : Round K} (hp : p.Cleared)
    (h : Handles P monitor_interval p t p') : p'.Cleared ∧ ∀ e ∈ t.pushed,
      p'.tracker_.trackedPersonObjects.filter shown ≠ [] ∧
        e = eventOf P t.call (p'.tracker_.trackedPersonObjects.filter shown) := by
  have hcounted : (p.counted t.result.tracker).Cleared := ⟨hp.x_, hp.y_, hp.id_⟩
  obtain ⟨-, ⟨hpushed, rfl⟩ | ⟨m, hmonitor, rfl⟩⟩ := h.cases
  · refine ⟨hcounted, fun e he => ?_⟩
    rw [hpushed] at he
    cases he
  · rw [monitor_spec t.call _ hcounted, Prod.mk.injEq] at hmonitor
    obtain ⟨rfl, hpushed⟩ := hmonitor
    refine ⟨⟨hp.x_, hp.y_, hp.id_⟩, fun e he => ?_⟩
    rw [← hpushed] at he
    split at he
    · cases he
    · rename_i hsome
      exact ⟨hsome, List.mem_singleton.mp he⟩

/-- **A run of the processor is a run of its tracker.** -/
theorem Rounds.run {rounds : List (Round K)} {p p' : MonitorProcessor K}
    (h : Rounds P monitor_interval p rounds p') :
    Run P p.tracker_ (rounds.map Round.turn) p'.tracker_ :=
  Trace.project MonitorProcessor.tracker_ Round.turn (fun _ _ _ ht => Handles.updates ht) h

/-- Between two calls the vectors are empty. -/
theorem Rounds.cleared {rounds : List (Round K)} {p p' : MonitorProcessor K} (hp : p.Cleared)
    (h : Rounds P monitor_interval p rounds p') : p'.Cleared :=
  Trace.invariant (I := MonitorProcessor.Cleared) (fun _ _ _ hp ht => (Handles.pushes hp ht).1) hp h

end

end EdgeFrame.Monitor
