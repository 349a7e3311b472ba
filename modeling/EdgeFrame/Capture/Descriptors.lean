/-
# EdgeFrame.Capture.Descriptors -- the descriptors that `infoCamera` opens

`infoCamera` closes the device on every return but one: a device that captures video and
has no input is left open. `findCamera` asks such a device again with every scan, and
`reopenCamera` scans until it finds a camera, so the descriptors add up.

The model records the system calls of a probe, and `events` reads from them what becomes of
the table of descriptors. The loops in the middle open and close nothing
(`countInputs_spec`, `enumerate_events`), so that a call is an `open`, possibly a `close`,
and requests in between (`infoCamera_events`). `noInput` is a condition on the replies of the
device, of any number: it does not mention what the function makes of them. The count over a
run is one of its probes, each of which is a call of `infoCamera` (`genuine_of_trace`).
-/
import EdgeFrame.Capture.Camera
import EdgeFrame.Lib.Runs
import Mathlib

namespace EdgeFrame.Capture

open Lib

/-! ## Open descriptors -/

/-- What a system call does to the table of descriptors. -/
inductive Event where
  | opened (fd : Int)
  | closed (fd : Int)
  deriving DecidableEq, Repr

/-- A request has none; an `open` that fails has none either. -/
def SysCall.event : SysCall → Option Event
  | .open _ fd => if 0 ≤ fd then some (.opened fd) else none
  | .ioctl _ _ => none
  | .close fd => some (.closed fd)

/-- The events of some calls, in order. -/
def events (calls : List SysCall) : List Event := calls.filterMap SysCall.event

/-- Nothing was opened, or one descriptor that was then closed, once. -/
def Released (calls : List SysCall) : Prop :=
  events calls = [] ∨ ∃ fd, events calls = [.opened fd, .closed fd]

/-- The descriptors that are open after an event. -/
def Event.next (held : List Int) : Event → List Int
  | .opened fd => fd :: held
  | .closed fd => held.erase fd

/-- The descriptors that are open after these calls. -/
def held (calls : List SysCall) : List Int := (events calls).foldl Event.next []

/-- The device opens, says what it is, captures video, and fails the first request for an input. -/
def noInput (devName : Bytes) : List Reply → Bool
  | opened :: cap :: inp :: _ => !devName.isEmpty && decide (0 ≤ opened.ret) &&
      decide (0 ≤ cap.ret) && cap.capabilities &&& V4L2_CAP_VIDEO_CAPTURE != 0 &&
      decide (inp.ret < 0)
  | _ => false

/-- The replies of such a device. -/
theorem noInput_iff {devName : Bytes} {replies : List Reply} : noInput devName replies = true ↔
    devName.isEmpty = false ∧ ∃ opened cap inp rest, replies = opened :: cap :: inp :: rest ∧
      0 ≤ opened.ret ∧ 0 ≤ cap.ret ∧ cap.capabilities &&& V4L2_CAP_VIDEO_CAPTURE ≠ 0 ∧
      inp.ret < 0 := by
  unfold noInput
  split
  · simp [and_assoc]
  · rename_i hshort
    refine iff_of_false (by simp) ?_
    rintro ⟨-, opened, cap, inp, rest, hcons, -⟩
    exact hshort _ _ _ _ hcons

/-! ## The loops -/

/-- A request more is no event. -/
theorem events_snoc_ioctl (calls : List SysCall) (fd : Int) (request : Request) :
    events (calls ++ [.ioctl fd request]) = events calls := by
  simp [events, SysCall.event]

/-- A `close` is one. -/
theorem events_snoc_close (calls : List SysCall) (fd : Int) :
    events (calls ++ [.close fd]) = events calls ++ [.closed fd] := by
  simp [events, SysCall.event]

/-- **The loop over the inputs** opens and closes nothing, and counts none exactly when the first
request fails. -/
theorem countInputs_spec {fd : Int} {replies : List Reply} : ∀ {i inpNum n : Nat}
    {calls calls' : List SysCall} {rest : List Reply},
    countInputs fd replies i inpNum calls = some (n, calls', rest) →
      events calls' = events calls ∧ inpNum ≤ n ∧
        (n = inpNum ↔ ∃ r replies', replies = r :: replies' ∧ r.ret < 0) := by
  induction replies with
  | nil =>
    intro i inpNum n calls calls' rest h
    cases h
  | cons r replies ih =>
    intro i inpNum n calls calls' rest h
    unfold countInputs at h
    dsimp only at h
    split at h
    · rename_i hfailed
      cases h
      exact ⟨events_snoc_ioctl _ _ _, le_rfl, iff_of_true rfl ⟨r, _, rfl, hfailed⟩⟩
    · rename_i hgoOn
      obtain ⟨hevents, hle, -⟩ := ih h
      refine ⟨hevents.trans (events_snoc_ioctl _ _ _), by omega, iff_of_false (by omega) ?_⟩
      rintro ⟨r', replies', hcons, hfailed⟩
      obtain ⟨rfl, -⟩ := List.cons.inj hcons
      exact hgoOn hfailed

/-- Counting an input makes no call of its own. -/
theorem count_calls (s : Found) (r : Reply) (loop : Loop) : (s.count r loop).calls = s.calls := by
  cases loop <;> rfl

/-- **The nested loops** open and close nothing. -/
theorem enumerate_events {fd : Int} {replies : List Reply} : ∀ {loop : Loop} {s s' : Found}
    {rest : List Reply}, enumerate fd replies loop s = some (s', rest) →
      events s'.calls = events s.calls := by
  induction replies with
  | nil =>
    intro loop s s' rest h
    cases h
  | cons r replies ih =>
    intro loop s s' rest h
    have hcall : events (s.call (.ioctl fd loop.request)).calls = events s.calls :=
      events_snoc_ioctl _ _ _
    unfold enumerate at h
    dsimp only at h
    split at h
    · split at h
      · cases h
        exact hcall
      · exact (ih h).trans hcall
    · rw [ih h, count_calls]
      exact hcall

/-! ## One call -/

/-- **A call of `infoCamera`** leaves its descriptor open when the device has no input, and otherwise
releases what it opened.

By the returns of the function, in their order. -/
theorem infoCamera_events {devName : Bytes} {replies rest : List Reply} {answer : Answer}
    (h : infoCamera devName replies = some (answer, rest)) :
    (noInput devName replies = true ∧ ∃ fd, events answer.calls = [.opened fd]) ∨
      (¬ noInput devName replies = true ∧ Released answer.calls) := by
  rw [noInput_iff]
  have hopened : ∀ fd : Int, 0 ≤ fd →
      events [.open devName fd, .ioctl fd .queryCap] = [.opened fd] := by
    intro fd hfd
    simp [events, SysCall.event, hfd]
  cases infoCamera_returns h with
  -- the returns of the function, in their order
  | unnamed hname => exact Or.inr ⟨fun hno => by simp [hname] at hno, Or.inl rfl⟩
  | @unopened opened replies hname hopen =>
    refine Or.inr ⟨?_, Or.inl ?_⟩
    · rintro ⟨-, opened', cap, inp, _, hcons, hopen', -⟩
      obtain ⟨rfl, -⟩ := List.cons.inj hcons
      omega
    · simp [events, SysCall.event, not_le.mpr hopen]
  | @refused opened cap replies hname hopen hrefused =>
    refine Or.inr ⟨?_, Or.inr ⟨opened.ret, ?_⟩⟩
    · rintro ⟨-, opened', cap', inp, _, hcons, -, hcap, hvideo, -⟩
      obtain ⟨-, htail⟩ := List.cons.inj hcons
      obtain ⟨rfl, -⟩ := List.cons.inj htail
      rcases hrefused with hfailed | hnovideo
      · omega
      · exact hvideo hnovideo
    · exact (events_snoc_close _ _).trans (congrArg (· ++ [.closed opened.ret]) (hopened _ hopen))
  -- the one return without a `close`
  | @inputless opened cap replies rest calls hname hopen hcap hvideo hinputs =>
    obtain ⟨hevents, -, hnone⟩ := countInputs_spec hinputs
    obtain ⟨inp, replies', rfl, hfailed⟩ := hnone.mp rfl
    exact Or.inl ⟨⟨hname, opened, cap, inp, replies', rfl, hopen, hcap, hvideo, hfailed⟩,
      opened.ret, hevents.trans (hopened _ hopen)⟩
  | @enumerated opened cap replies replies' rest inpNum calls s hname hopen hcap hvideo hinputs
      hsome henumerate =>
    obtain ⟨hevents, -, hnone⟩ := countInputs_spec hinputs
    refine Or.inr ⟨?_, Or.inr ⟨opened.ret, ?_⟩⟩
    · rintro ⟨-, opened', cap', inp, replies'', hcons, -, -, -, hfailed⟩
      obtain ⟨-, htail⟩ := List.cons.inj hcons
      obtain ⟨-, htail⟩ := List.cons.inj htail
      exact hsome (hnone.mpr ⟨inp, replies'', htail, hfailed⟩)
    · rw [events_snoc_close, enumerate_events henumerate, hevents, hopened _ hopen]
      rfl

/-! ## Runs -/

/-- The probes are calls of `infoCamera`. -/
def Genuine (probes : List Probe) : Prop :=
  ∀ p ∈ probes, ∃ rest, infoCamera p.devName p.replies = some (p.answer, rest)

/-- A scanner that asks a device keeps the record. -/
theorem Scanner.infoCamera_genuine {s s' : Scanner} {devName : Bytes} {b : Bool}
    (hs : Genuine s.probes) (h : s.infoCamera devName = some (b, s')) : Genuine s'.probes := by
  unfold Scanner.infoCamera at h
  obtain ⟨⟨answer, rest⟩, hanswer, h⟩ := Option.bind_eq_some_iff.mp h
  cases h
  intro p hp
  rcases List.mem_append.mp hp with hp | hp
  · exact hs p hp
  · obtain rfl := List.mem_singleton.mp hp
    exact ⟨rest, hanswer⟩

/-- **The probes of a run** are calls of `infoCamera`. -/
theorem genuine_of_trace {signed : Bool} {replies : List Reply} {scans : List Scan} {s : Scanner}
    (h : Trace (Scans signed) { replies := replies } scans s) : Genuine s.probes := by
  refine Trace.invariant (I := fun s : Scanner => Genuine s.probes) ?_ ?_ h
  · intro s scan s' hs hscan
    exact findCamera_keeps (fun _ _ _ _ hs h => Scanner.infoCamera_genuine hs h) hs hscan.1
  · intro p hp
    cases hp

/-- The descriptors that stay open add up.

Each call for such a device leaves one open, and no later call closes it: what is closed is what the
same call has opened. -/
theorem length_held {probes : List Probe} (h : Genuine probes) :
    (held (probes.flatMap (·.answer.calls))).length =
      probes.countP fun p => noInput p.devName p.replies := by
  suffices hfrom : ∀ table : List Int,
      ((events (probes.flatMap (·.answer.calls))).foldl Event.next table).length =
        table.length + probes.countP fun p => noInput p.devName p.replies by
    exact (hfrom []).trans (Nat.zero_add _)
  induction probes with
  | nil =>
    intro table
    rfl
  | cons p probes ih =>
    intro table
    obtain ⟨rest, hanswer⟩ := h p List.mem_cons_self
    have hrest : Genuine probes := fun q hq => h q (List.mem_cons_of_mem p hq)
    have hsplit : events ((p :: probes).flatMap (·.answer.calls)) =
        events p.answer.calls ++ events (probes.flatMap (·.answer.calls)) := by
      rw [List.flatMap_cons, events, List.filterMap_append]
      rfl
    rw [hsplit, List.foldl_append, ih hrest, List.countP_cons]
    rcases infoCamera_events hanswer with ⟨hleft, fd, hevents⟩ | ⟨hclosed, hreleased⟩
    · rw [hevents, if_pos hleft]
      show (fd :: table).length + _ = _
      rw [List.length_cons]
      omega
    · rw [if_neg hclosed]
      rcases hreleased with hevents | ⟨fd, hevents⟩
      · rw [hevents]
        rfl
      · rw [hevents]
        show ((fd :: table).erase fd).length + _ = _
        rw [List.erase_cons_head]
        rfl

/-- **When descriptors are released.** A call of `infoCamera` releases what it opens exactly when it
is not for a device that has no input; and over every run of scans, as many descriptors stay open as
there were calls for such a device.

The first part is `infoCamera_events`, the second `length_held`. -/
theorem descriptors_released_iff (signed : Bool) :
    (∀ devName replies answer rest, infoCamera devName replies = some (answer, rest) →
      (Released answer.calls ↔ ¬ noInput devName replies = true)) ∧
    ∀ replies scans s, Trace (Scans signed) { replies := replies } scans s →
      (held (s.probes.flatMap (·.answer.calls))).length =
        s.probes.countP fun p => noInput p.devName p.replies := by
  constructor
  · intro devName replies answer rest h
    rcases infoCamera_events h with ⟨hleft, fd, hevents⟩ | ⟨hclosed, hreleased⟩
    · refine iff_of_false ?_ (not_not.mpr hleft)
      unfold Released
      rw [hevents]
      simp
    · exact iff_of_true hreleased hclosed
  · intro replies scans s h
    exact length_held (genuine_of_trace h)

/-- A device that captures video and has no input. -/
def inputless : List Reply :=
  [{ ret := 7 }, { ret := 0, capabilities := V4L2_CAP_VIDEO_CAPTURE }, { ret := -1 }]

/-- **A device without inputs** is left open. -/
theorem inputless_is_left_open : infoCamera (str "/dev/video0") inputless =
    some ({ accepted := false, calls := [.open (str "/dev/video0") 7, .ioctl 7 .queryCap,
      .ioctl 7 (.enumInput 0)] }, []) ∧
    ¬ Released [.open (str "/dev/video0") 7, .ioctl 7 .queryCap, .ioctl 7 (.enumInput 0)] := by
  refine ⟨by decide +kernel, ?_⟩
  rintro (h | ⟨fd, h⟩)
  · cases h
  · cases h

end EdgeFrame.Capture
