/-
# EdgeFrame.Monitor.Shown -- who is shown, and when

Which people an event shows can be said without the tracker: whoever was matched in this
frame and, counting it, in more than `hit_num_thresh` frames of the run. Every message whose
number is divisible by the interval brings this event if there is anybody to be shown, and no
other message brings one.

The first half is the life of a person (`Track.Lives`): the machine counts the matches, and an
object is confirmed when its person is (`confirmed_iff`). The second half is the cadence
(`Monitor.Cadence`): the counter comes round at the multiples of the interval, also of a
negative one, since the remainder is zero at the same messages (`handle_abs`). The two
meet in `Rounds.pushed`, which says what one message of a run brings.
-/
import EdgeFrame.Monitor.Cadence
import EdgeFrame.Monitor.Events
import EdgeFrame.Track.Lives
import Mathlib

namespace EdgeFrame.Monitor

open Lib Track

variable {K : Type} [Field K]

/-- The last of these messages shows somebody. -/
def Visible (P : Setup K) (before : List (Round K)) (t : Round K) (id : Int) : Prop :=
  t.turn.Matched id ∧ P.hit_num_thresh < hitCount ((before ++ [t]).map Round.turn) id

/-- The detections of a round have a body box. -/
theorem Round.sighted (t : Round K) : Sighted t.turn := by
  intro d hd
  obtain ⟨u, box, -, -, rfl⟩ := mem_CvtDetToPed hd
  exact ⟨u, none, _, _, rfl⟩

variable [LinearOrder K]

/-! ## When `monitor` runs -/

section

variable {P : Setup K} {monitor_interval : Int} {rounds : List (Round K)} {t : Round K}
  {p p' : MonitorProcessor K}

/-- The sign of the interval does not matter. -/
theorem handle_abs (p : MonitorProcessor K) (c : Call K) :
    handle P |monitor_interval| p c = handle P monitor_interval p c := by
  have htmod : ∀ n : Int, n.tmod |monitor_interval| = n.tmod monitor_interval := by
    intro n
    obtain habs | habs := abs_choice monitor_interval
    · rw [habs]
    · rw [habs, Int.tmod_neg]
  simp only [handle, htmod, abs_eq_zero]

/-- **One message of a run**: `monitor` runs if its number is divisible by the interval, and pushes
the event for the shown objects if there are any. -/
theorem Rounds.pushed (h : Rounds P monitor_interval MonitorProcessor.init rounds p)
    (ht : Handles P monitor_interval p t p') : t.pushed =
      if monitor_interval ∣ rounds.length + 1 ∧
        t.result.tracker.trackedPersonObjects.filter shown ≠ [] then
        [eventOf P t.call (t.result.tracker.trackedPersonObjects.filter shown)]
      else [] := by
  -- an interval of zero is a division by zero, and the message is never handled
  have hne : monitor_interval ≠ 0 := by
    rintro rfl
    obtain ⟨r, -, hno⟩ := Abort.bind_eq_ok ht
    cases hno
  -- the law of the beat wants an interval above zero; the remainder does not see the sign
  have hsame : Handles P |monitor_interval| = Handles P monitor_interval := by
    funext p t p'
    rw [Handles, Handles, handle_abs]
  have hbeat : RunsMonitor P p t p' ↔ monitor_interval ∣ rounds.length + 1 := by
    rw [← abs_dvd]
    apply Rounds.beat (abs_pos.mpr hne)
    · rw [Rounds, hsame]
      exact h
    · rw [hsame]
      exact ht
  have hcleared := Rounds.cleared cleared_init h
  -- `monitor` appends to lists that are empty between two messages
  have hcounted : (p.counted t.result.tracker).Cleared := ⟨hcleared.x_, hcleared.y_, hcleared.id_⟩
  by_cases hdvd : monitor_interval ∣ rounds.length + 1
  · obtain ⟨m, hmonitor, -⟩ := hbeat.mpr hdvd
    rw [monitor_spec t.call _ hcounted, Prod.mk.injEq] at hmonitor
    rw [← hmonitor.2]
    simp only [hdvd, true_and, ne_eq, ite_not]
  · rw [if_neg fun hboth => hdvd hboth.1]
    obtain ⟨-, ⟨hnone, -⟩ | hruns⟩ := ht.cases
    · exact hnone
    · exact absurd (hbeat.mp hruns) hdvd

end

/-! ## Who is shown -/

section

variable [IsStrictOrderedRing K] {P : Setup K} {turns : List (Turn K)} {s : Tracker K} {t : Turn K}

/-- Somebody is confirmed who was matched in more than `hit_num_thresh` frames. -/
theorem confirmed_iff (hreid : P.valid_leave_with_reid = false) (h : Run P Tracker.init turns s)
    (hsighted : ∀ t ∈ turns, Sighted t) (hbound : createdCount turns < 2 ^ 31)
    {o : PersonObject K} (ho : o ∈ everyone s) : o.object_status = .confirmed ↔
      0 < hitCount turns o.id ∧ P.hit_num_thresh < hitCount turns o.id := by
  obtain ⟨hfound, hhits⟩ := h.found hreid hsighted hbound o.id
  obtain ⟨p, hlife, hstands⟩ := hfound.present (h.accounted hbound) ho rfl
  have hp : p.hits = hitCount turns o.id := by
    rw [← hhits]
    obtain ⟨hlife, -⟩ | ⟨hlife, -⟩ := hlife
    · rw [hlife]
      rfl
    · rw [hlife]
      rfl
  rw [hstands.status, ← hp]
  simp only [Person.confirmed, ← Bool.decide_and, decide_eq_true_eq]
  split
  · exact iff_of_true rfl ‹_›
  · exact iff_of_false (by decide) ‹_›

/-- **The shown people of a turn** are those who were matched in it and are confirmed by it.

A new object is not confirmed, so that the flag of the frame means a match. -/
theorem mem_shown_iff (hreid : P.valid_leave_with_reid = false) (h : Run P Tracker.init turns s)
    (hupdates : Updates P s t t.result.tracker) (hsighted : ∀ u ∈ turns ++ [t], Sighted u)
    (hfresh : FreshDetections t) (hbound : createdCount (turns ++ [t]) < 2 ^ 31) (id : Int) :
    id ∈ (t.result.tracker.trackedPersonObjects.filter shown).map (·.id) ↔
      t.Matched id ∧ P.hit_num_thresh < hitCount (turns ++ [t]) id := by
  classical
  obtain ⟨L, hL⟩ := hupdates.balanced (Run.tidy tidy_init h)
  have hafter : Run P Tracker.init (turns ++ [t]) t.result.tracker :=
    trace_snoc.mpr ⟨s, h, hupdates⟩
  -- the code asks for the status right after the update, the machine for the hits so far
  have hconfirmed : ∀ a ∈ t.result.attached, a.updated.object_status = .confirmed ↔
      P.hit_num_thresh < hitCount (turns ++ [t]) a.object.id := by
    intro a ha
    have hsame := sameTrack_accumulate P t.input.current a.updated
    have htracked : accumulate P t.input.current a.updated ∈ everyone t.result.tracker := by
      apply mem_everyone.mpr
      left
      rw [← Multiset.mem_coe, hL.tracked_after]
      apply Multiset.mem_map_of_mem
      exact Multiset.mem_add.mpr (Or.inl (Multiset.mem_add.mpr (Or.inr
        (Multiset.mem_map_of_mem _ ha))))
    have hiff := confirmed_iff hreid hafter hsighted hbound htracked
    rw [hsame.object_status, hsame.id, (hL.attachment a ha).id] at hiff
    rw [hiff]
    refine and_iff_right ?_
    rw [hitCount_snoc, if_pos ⟨a, ha, rfl⟩]
    exact Nat.succ_pos _
  calc id ∈ (t.result.tracker.trackedPersonObjects.filter shown).map (·.id)
      ↔ ∃ a ∈ t.result.attached.filter (·.updated.object_status = .confirmed),
          a.object.id = id := by
        rw [← Multiset.mem_coe, ← Multiset.map_coe, shown_eq hL hfresh, Multiset.map_map,
          Multiset.mem_map]
        refine exists_congr fun a => and_congr_right fun ha => ?_
        have hatt := hL.attachment a (List.mem_filter.mp ha).1
        rw [← hatt.id, ← (sameTrack_accumulate P t.input.current a.updated).id]
        rfl
    _ ↔ t.Matched id ∧ P.hit_num_thresh < hitCount (turns ++ [t]) id := by
        simp only [List.mem_filter, decide_eq_true_eq]
        constructor
        · rintro ⟨a, ⟨ha, hstatus⟩, rfl⟩
          exact ⟨⟨a, ha, rfl⟩, (hconfirmed a ha).mp hstatus⟩
        · rintro ⟨⟨a, ha, rfl⟩, hhits⟩
          exact ⟨a, ⟨ha, (hconfirmed a ha).mpr hhits⟩, rfl⟩

/-- **Who is shown, and when.** In a run of the processor with fewer than 2^31 people: a message
brings an event exactly if its number is divisible by the interval and somebody is to be shown, who
was matched in this frame and, counting it, in more than `hit_num_thresh` frames of the run; and the
one event it brings shows each of these people once, and nobody else.

It joins `Rounds.pushed` and `mem_shown_iff`; with fewer than 2^31 people an id stands for one of
them. -/
theorem Rounds.shows {monitor_interval : Int} (hreid : P.valid_leave_with_reid = false)
    {rounds : List (Round K)} {p : MonitorProcessor K}
    (h : Rounds P monitor_interval MonitorProcessor.init rounds p)
    (hbound : createdCount (rounds.map Round.turn) < 2 ^ 31) {before after : List (Round K)}
    {t : Round K} (hsplit : rounds = before ++ t :: after) :
    (t.pushed ≠ [] ↔ monitor_interval ∣ before.length + 1 ∧ ∃ id, Visible P before t id) ∧
      ∀ e ∈ t.pushed, t.pushed = [e] ∧ e.id.Nodup ∧ ∀ id, id ∈ e.id ↔ Visible P before t id := by
  subst hsplit
  obtain ⟨p₁, hbefore, p₂, ht, -⟩ := trace_append.mp h
  have hpushed := Rounds.pushed hbefore ht
  have hupdates := ht.updates
  have hp₂ : p₂.tracker_ = t.result.tracker := hupdates.2
  rw [hp₂] at hupdates
  -- fewer people up to this message than in the whole run
  have hfew : createdCount (before.map Round.turn ++ [t.turn]) < 2 ^ 31 := by
    rw [List.map_append, List.map_cons, createdCount_append] at hbound
    rw [createdCount_append, createdCount_singleton]
    simp only [createdCount, List.map_cons, List.sum_cons] at hbound ⊢
    omega
  have hsighted : ∀ u ∈ before.map Round.turn ++ [t.turn], Sighted u := by
    intro u hu
    obtain hu | hu := List.mem_append.mp hu
    · obtain ⟨t', -, rfl⟩ := List.mem_map.mp hu
      exact t'.sighted
    · rw [List.mem_singleton.mp hu]
      exact t.sighted
  have hshown : ∀ id, id ∈ (t.result.tracker.trackedPersonObjects.filter shown).map (·.id) ↔
      Visible P before t id := by
    intro id
    rw [Visible, List.map_append]
    exact mem_shown_iff hreid (Rounds.run hbefore) hupdates hsighted t.freshDetections hfew id
  have hsome : t.result.tracker.trackedPersonObjects.filter shown ≠ [] ↔
      ∃ id, Visible P before t id := by
    simp only [← hshown]
    rw [ne_eq, ← List.map_eq_nil_iff (f := (·.id)), List.eq_nil_iff_forall_not_mem, not_forall_not]
  rw [hpushed, ← hsome]
  split
  · rename_i hdue
    refine ⟨iff_of_true (List.cons_ne_nil _ _) hdue, ?_⟩
    intro e he
    obtain rfl := List.mem_singleton.mp he
    obtain ⟨L, hL⟩ := hupdates.balanced (Run.tidy tidy_init (Rounds.run hbefore))
    have hacc := Run.accounted (trace_snoc.mpr ⟨_, Rounds.run hbefore, hupdates⟩) hfew
    have hcontents := contents_of_balanced hL (Multiset.nodup_add.mp hacc.nodup).1 hdue.2
    exact ⟨rfl, hcontents.nodup, hshown⟩
  · rename_i hnot
    exact ⟨iff_of_false (fun hno => hno rfl) hnot, fun e he => absurd he List.not_mem_nil⟩

/-- The fifth of five messages with the same person in them. -/
theorem Rounds.shows_fiveFrames : ∃ before t p,
    Rounds scene 5 MonitorProcessor.init (before ++ [t]) p ∧ Visible scene before t 0 ∧
      ∃ e, t.pushed = [e] ∧ ∀ id, id ∈ e.id ↔ Visible scene before t id := by
  obtain ⟨⟨before, p₁⟩, hfeed, hcheck⟩ := Abort.of_returns
    (x := feed scene 5 MonitorProcessor.init [message 1, message 2, message 3, message 4])
    (p := fun r => Abort.returns (handle scene 5 r.2 (message 5)) fun r' =>
      decide (createdCount (r.1.map Round.turn) + r'.1.created.length = 1) &&
        r'.2.1.any fun e => decide (e.id = [0])) (by decide +kernel)
  obtain ⟨⟨r, events, p⟩, hhandle, hevent⟩ := Abort.of_returns hcheck
  simp only [Bool.and_eq_true, List.any_eq_true, decide_eq_true_eq] at hevent
  obtain ⟨hcount, e, he, hid⟩ := hevent
  let t : Round ℚ := ⟨message 5, r, events⟩
  have hrounds : Rounds scene 5 MonitorProcessor.init (before ++ [t]) p :=
    trace_snoc.mpr ⟨p₁, feed_rounds hfeed, hhandle⟩
  have hbound : createdCount ((before ++ [t]).map Round.turn) < 2 ^ 31 := by
    rw [List.map_append, createdCount_append]
    show _ + (r.created.length + 0) < _
    omega
  have hlast : before ++ [t] = before ++ t :: [] := rfl
  obtain ⟨hone, -, hshows⟩ := (Rounds.shows rfl hrounds hbound hlast).2 e he
  exact ⟨before, t, p, hrounds, (hshows 0).mp (by simp [hid]), e, hone, hshows⟩

end

end EdgeFrame.Monitor
