/-
# EdgeFrame.Monitor.Cadence -- how often `monitor` runs

`handle` counts the messages, and runs `monitor` when the count is divisible by
`monitor_interval`, which it takes from the configuration as it is: 0 when the key is
missing. Any other interval makes a steady beat.

The beat is an invariant of the counter (`Rounds.count`): it is the number of the message
modulo the interval, since a count that comes round starts anew. That no other message of
a run divides by zero is a matter of how a call can end at all, and `handle_ends` says it
once for all inputs; `feed` is the run as far as it goes, so that a sequence of messages
which stops early can be spoken of.
-/
import EdgeFrame.Monitor.Processor
import Mathlib

namespace EdgeFrame.Monitor

open Api Lib Track

variable {K : Type} [Field K] [LinearOrder K]

/-- The call of `handle` has run `monitor`, and started to count anew. -/
def RunsMonitor (P : Setup K) (p : MonitorProcessor K) (t : Round K) (p' : MonitorProcessor K) :
    Prop :=
  ∃ m, monitor P t.call.msg.camera_sn t.call.msg.camera_time
      t.result.tracker.trackedPersonObjects (p.counted t.result.tracker) = (m, t.pushed) ∧
    p' = { m with cur_interval_cnt_ := 0 }

/-! ## The counter -/

section

variable {P : Setup K} {monitor_interval : Int}

/-- **One call of `handle`**: with a count that is divisible by the interval it runs `monitor`,
otherwise it only counts. -/
theorem Handles.beat {p p' : MonitorProcessor K} {t : Round K}
    (h : Handles P monitor_interval p t p') :
    (p.cur_interval_cnt_ + 1).tmod monitor_interval = 0 ∧ RunsMonitor P p t p' ∨
      (p.cur_interval_cnt_ + 1).tmod monitor_interval ≠ 0 ∧ p' = p.counted t.result.tracker := by
  unfold Handles handle at h
  obtain ⟨r, hr, h⟩ := Abort.bind_eq_ok h
  simp only at h
  split at h
  · cases h
  split at h
  · rename_i hbeat
    obtain ⟨rfl, hpushed, rfl⟩ : r = t.result ∧ _ = t.pushed ∧ _ = p' := by
      simpa only [pure, Except.pure, Except.ok.injEq, Prod.mk.injEq] using h
    exact Or.inl ⟨hbeat, _, Prod.ext rfl hpushed, rfl⟩
  · rename_i hbeat
    obtain ⟨rfl, hpushed, rfl⟩ : r = t.result ∧ _ = t.pushed ∧ _ = p' := by
      simpa only [pure, Except.pure, Except.ok.injEq, Prod.mk.injEq] using h
    exact Or.inr ⟨hbeat, rfl⟩

/-- A count below the interval either goes on or has come round. -/
theorem count_step {count : Int} (hcount : 0 ≤ count) (hlt : count < monitor_interval) :
    ((count + 1).tmod monitor_interval = 0 ∧ (count + 1) % monitor_interval = 0) ∨
      ((count + 1).tmod monitor_interval ≠ 0 ∧ (count + 1) % monitor_interval = count + 1) := by
  rw [Int.tmod_eq_emod_of_nonneg (by omega)]
  rcases Int.lt_or_eq_of_le (Int.add_one_le_of_lt hlt) with hbelow | hround
  · rw [Int.emod_eq_of_lt (by omega) hbelow]
    exact Or.inr ⟨by omega, rfl⟩
  · rw [hround, Int.emod_self]
    exact Or.inl ⟨rfl, rfl⟩

/-- For a positive interval the counter counts modulo the interval. -/
theorem Rounds.count (hpos : 0 < monitor_interval) {rounds : List (Round K)}
    {p : MonitorProcessor K} (h : Rounds P monitor_interval MonitorProcessor.init rounds p) :
    p.cur_interval_cnt_ = (rounds.length : Int) % monitor_interval := by
  refine Trace.history
    (H := fun rounds p => p.cur_interval_cnt_ = (rounds.length : Int) % monitor_interval) ?_ ?_ h
  · exact (Int.zero_emod _).symm
  · intro rounds p t p' _ ih ht
    have hnonneg := Int.emod_nonneg (rounds.length : Int) hpos.ne'
    have hlt := Int.emod_lt_of_pos (rounds.length : Int) hpos
    have hnext : (((rounds ++ [t]).length : Nat) : Int) % monitor_interval =
        (p.cur_interval_cnt_ + 1) % monitor_interval := by
      rw [ih, Int.emod_add_emod, List.length_append, List.length_singleton, Nat.cast_add,
        Nat.cast_one]
    rw [← ih] at hnonneg hlt
    rw [hnext]
    rcases count_step hnonneg hlt with ⟨hround, hzero⟩ | ⟨hgo, hsucc⟩
    · rcases ht.beat with ⟨-, m, -, rfl⟩ | ⟨hnot, -⟩
      · exact hzero.symm
      · exact absurd hround hnot
    · rcases ht.beat with ⟨hround, -⟩ | ⟨-, rfl⟩
      · exact absurd hround hgo
      · exact hsucc.symm

/-- **The beat**: for a positive interval `monitor` runs at every message whose number is divisible
by the interval, and at no other. -/
theorem Rounds.beat (hpos : 0 < monitor_interval) {rounds : List (Round K)} {t : Round K}
    {p p' : MonitorProcessor K} (h : Rounds P monitor_interval MonitorProcessor.init rounds p)
    (ht : Handles P monitor_interval p t p') :
    RunsMonitor P p t p' ↔ monitor_interval ∣ rounds.length + 1 := by
  have hcount := h.count hpos
  have hnonneg := Int.emod_nonneg (rounds.length : Int) hpos.ne'
  have hdvd : (p.cur_interval_cnt_ + 1).tmod monitor_interval = 0 ↔
      monitor_interval ∣ rounds.length + 1 := by
    rw [Int.tmod_eq_emod_of_nonneg (by omega), hcount, Int.emod_add_emod, Int.dvd_iff_emod_eq_zero]
  rw [← hdvd]
  rcases ht.beat with ⟨hround, hruns⟩ | ⟨hgo, hcounted⟩
  · exact iff_of_true hruns hround
  · refine iff_of_false ?_ hgo
    -- a counter that was started anew is not one that went on
    rintro ⟨m, -, hreset⟩
    have hzero : p'.cur_interval_cnt_ = 0 := by rw [hreset]
    have hsucc : p'.cur_interval_cnt_ = p.cur_interval_cnt_ + 1 := by
      rw [hcounted]
      rfl
    omega

end

/-! ## The division -/

section

variable [IsStrictOrderedRing K] {P : Setup K} {monitor_interval : Int}

omit [LinearOrder K] [IsStrictOrderedRing K] in
/-- What the processor hands to its tracker carries no features, and is not booked. -/
theorem Call.usable (c : Call K) : ∀ d ∈ c.input.cur_detected_person_objects, d.Free ∧
    Usable P c.input.current (· ≠ .divisionByZero) d := by
  intro d hd
  obtain ⟨u, box, -, -, rfl⟩ := mem_CvtDetToPed hd
  refine ⟨rfl, ⟨Or.inl rfl, ?_⟩, fun _ => ?_⟩
  · intro message hmessage
    cases hmessage
  · decide

/-- A call of `handle` does not divide by zero, for an interval that is not 0. -/
theorem handle_ends (hne : monitor_interval ≠ 0) {p : MonitorProcessor K}
    (hp : ∀ o ∈ everyone p.tracker_, o.Featured) (c : Call K) :
    Ends (· ≠ .divisionByZero) (fun r => ∀ o ∈ everyone r.2.2.tracker_, o.Featured)
      (handle P monitor_interval p c) := by
  unfold handle
  refine Ends.bind (Update_ends hp (fun d hd => (c.usable (P := P) d hd).1)
    fun d hd => (c.usable d hd).2) ?_
  intro r hr
  dsimp only
  rw [if_neg hne]
  split
  · show ∀ o ∈ everyone (monitor P _ _ _ _).1.tracker_, o.Featured
    rw [monitor_tracker]
    exact hr
  · exact hr

/-- A run does not divide by zero either, by induction on its messages. -/
theorem feed_ends (hne : monitor_interval ≠ 0) (calls : List (Call K)) :
    ∀ {p : MonitorProcessor K}, (∀ o ∈ everyone p.tracker_, o.Featured) →
      Ends (· ≠ .divisionByZero) (fun _ => True) (feed P monitor_interval p calls) := by
  induction calls with
  | nil =>
    intro p _
    exact trivial
  | cons c calls ih =>
    intro p hp
    unfold feed
    refine Ends.bind (handle_ends hne hp c) ?_
    intro r hr
    refine Ends.bind (ih hr) ?_
    intro _ _
    exact trivial

omit [IsStrictOrderedRing K] in
/-- The first update of a tracker returns: there is nobody to match. -/
theorem Update_init_returns {inp : Input K} (hfree : ∀ d ∈ inp.cur_detected_person_objects, d.Free) :
    ∃ r, Update P Tracker.init inp = .ok r := by
  have hany : inp.cur_detected_person_objects.any (·.is_current_frame_matched_or_new) = false := by
    rw [List.any_eq_false]
    intro d hd
    simpa using hfree d hd
  unfold Update
  simp only [hany]
  exact ⟨_, rfl⟩

omit [IsStrictOrderedRing K] in
/-- With the interval 0 the first message is the last. -/
theorem feed_zero (c : Call K) (calls : List (Call K)) :
    feed P 0 MonitorProcessor.init (c :: calls) = .error .divisionByZero := by
  obtain ⟨r, hr⟩ := Update_init_returns (P := P) fun d hd => (c.usable (P := P) d hd).1
  have hhandle : handle P 0 MonitorProcessor.init c = .error .divisionByZero := by
    unfold handle
    show (Update P Tracker.init c.input >>= _) = _
    rw [hr]
    rfl
  unfold feed
  rw [hhandle]
  rfl

end

/-- **The cadence of reports**: no message of a sequence makes `handle` divide by zero, and for a
positive interval `monitor` runs at every message whose number is a multiple of the interval and at
no other, exactly when the interval is not 0 or there is no message.

From left to right, a sequence with a message divides by zero at the first one if the interval is 0
(`feed_zero`). The other direction is `feed_ends` and `Rounds.beat`. -/
theorem reports_in_time_iff [IsStrictOrderedRing K] (P : Setup K) (monitor_interval : Int)
    (calls : List (Call K)) :
    (feed P monitor_interval MonitorProcessor.init calls ≠ .error .divisionByZero ∧
      (0 < monitor_interval → ∀ rounds t p p', (rounds ++ [t]).map (·.call) <+: calls →
        Rounds P monitor_interval MonitorProcessor.init rounds p →
        Handles P monitor_interval p t p' →
        (RunsMonitor P p t p' ↔ monitor_interval ∣ rounds.length + 1))) ↔
      monitor_interval ≠ 0 ∨ calls = [] := by
  constructor
  · rintro ⟨hdivision, -⟩
    by_contra hnot
    rw [not_or, not_not] at hnot
    obtain ⟨rfl, hcalls⟩ := hnot
    obtain ⟨c, rest, rfl⟩ := List.exists_cons_of_ne_nil hcalls
    exact hdivision (feed_zero c rest)
  · intro h
    refine ⟨?_, fun hpos rounds t p p' _ hrounds ht => hrounds.beat hpos ht⟩
    rcases h with hne | rfl
    · intro hzero
      have hends := feed_ends (P := P) hne calls (p := MonitorProcessor.init)
        fun o ho => absurd ho (Multiset.notMem_zero o)
      rw [hzero] at hends
      exact hends rfl
    · intro hzero
      cases hzero

/-- A message with an empty frame. -/
def emptyRoom : Call ℚ where
  msg := ⟨"camera", 1000, 1, ⟨540, 960, []⟩, []⟩
  memory _ := ⟨0, 0, ⟨0, 0, 0⟩, ⟨0, 0, 0⟩, 0, 0⟩

/-- **A configuration without the key**: the first message makes `handle` divide by zero. -/
theorem missing_interval_divides_by_zero :
    feed scene 0 MonitorProcessor.init [emptyRoom] = .error .divisionByZero :=
  feed_zero emptyRoom []

/-- Two messages, with every second one reported. -/
theorem reports_in_time_iff_every_second :
    feed scene 2 MonitorProcessor.init [emptyRoom, emptyRoom] ≠ .error .divisionByZero :=
  ((reports_in_time_iff scene 2 [emptyRoom, emptyRoom]).mpr (Or.inl (by decide))).1

end EdgeFrame.Monitor
