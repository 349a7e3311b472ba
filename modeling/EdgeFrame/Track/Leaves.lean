/-
# EdgeFrame.Track.Leaves -- who is reported as having left

`Update` reports an object when it deletes it from the expired ones, and only there.
The object has been confirmed, its body was last seen long ago, and as its id is never
in use again it is reported once in a run.

The parts come from three places. That a report is of an object the turn has deleted, and
that its boxes were old enough by the code's own test, is in the ledger
(`Balanced.mem_leaves`). That the id is not in use afterwards, and is reported once, is
`Track.Identity`: the lists and the reports together repeat no id. The age in numbers needs
the frame ids: the stamp of a body box is the id of an earlier frame (`Run.body_stamps`),
so that where frame ids do not go back the unsigned difference is a difference.
-/
import EdgeFrame.Track.Identity
import Mathlib

namespace EdgeFrame.Track

open Lib

variable {K : Type}

/-! ## Frame ids as stamps -/

/-- The frame ids of a run do not go back. -/
def FramesOrdered (turns : List (Turn K)) : Prop :=
  (turns.map (·.input.frame_id)).Pairwise (· ≤ ·)

/-- Every detection carries the id of the frame it is handed over with.

The callers build the detections so, from the frame they are of. -/
def Stamped (turns : List (Turn K)) : Prop :=
  ∀ t ∈ turns, ∀ d ∈ t.input.cur_detected_person_objects,
    d.last_updated_body_bbox.update_frame_id = t.input.frame_id

variable [Field K] [LinearOrder K]

section

variable {P : Setup K} {s : Tracker K} {inp : Input K} {r : Result K} {L : Ledger K}

/-- What is reported is deleted from the expired objects. -/
theorem Balanced.mem_leaves (h : Balanced P s inp r L) {o : PersonObject K}
    (ho : o ∈ r.valid_leave_objects) : o ∈ L.gone := by
  rw [← Multiset.mem_coe, h.leaves] at ho
  exact (Multiset.mem_filter.mp ho).1

end

variable [IsStrictOrderedRing K]

/-- The body box of every object carries the frame id of a turn of the run. -/
theorem Run.body_stamps {P : Setup K} {turns : List (Turn K)} {s : Tracker K}
    (h : Run P Tracker.init turns s) (hstamped : Stamped turns) :
    ∀ o ∈ everyone s, ∃ t ∈ turns, o.last_updated_body_bbox.update_frame_id = t.input.frame_id := by
  refine Run.history (H := fun turns s => ∀ o ∈ everyone s, ∃ t ∈ turns,
    o.last_updated_body_bbox.update_frame_id = t.input.frame_id) ?_ ?_ h hstamped
  · intro o ho
    cases (Multiset.notMem_zero o) ho
  · intro turns s t L hs ih hnow hL o' ho'
    rcases hL.origin hs ho' with ⟨o, ho, hsame | ⟨a, ha, hatt, -, hafter⟩⟩ | ⟨c, hc, hsame⟩
    · obtain ⟨u, hu, hstamp⟩ := ih o ho
      exact ⟨u, List.mem_append_left _ hu, by rw [hsame.last_updated_body_bbox, hstamp]⟩
    · obtain ⟨d, hd, hsight⟩ := hL.detection_seen ha
      refine ⟨t, by simp, ?_⟩
      rw [hafter.last_updated_body_bbox, hatt.body_bbox, ← sighting_body hsight, hnow d hd]
    · obtain ⟨d, hd, hsight⟩ := hL.created_seen hc
      refine ⟨t, by simp, ?_⟩
      rw [hsame.last_updated_body_bbox, ← sighting_body hsight, hnow d hd]

/-! ## The reports -/

omit [Field K] [LinearOrder K] [IsStrictOrderedRing K] in
/-- A report of a turn is one of the run. -/
theorem mem_reported {turns : List (Turn K)} {t : Turn K} (ht : t ∈ turns) {o : PersonObject K}
    (ho : o ∈ t.result.valid_leave_objects) : o.id ∈ reported turns := by
  obtain ⟨before, after, rfl⟩ := List.append_of_mem ht
  rw [← List.singleton_append, reported_append, reported_append, reported_singleton]
  simp only [Multiset.mem_add, Multiset.mem_coe, List.mem_map]
  exact Or.inr (Or.inl ⟨o, ho, rfl⟩)

/-- **Leave reports.** An object that is reported was confirmed; its body was last seen more than
`expired_to_delete_thresh` frames ago, by the code's own difference and, when the frame ids do not go
back and the detections carry them, by the numbers; its id is not in use at any later moment; and it
is reported once in the run.

The turn stands anywhere in the run, with turns before and after it; the last two parts speak of the
end of the run. -/
theorem Run.leave_reports {P : Setup K} {turns₁ turns₂ : List (Turn K)} {t : Turn K}
    {s₁ s₂ s₃ : Tracker K} (h₁ : Run P Tracker.init turns₁ s₁) (ht : Updates P s₁ t s₂)
    (h₂ : Run P s₂ turns₂ s₃) (hframes : FramesOrdered (turns₁ ++ t :: turns₂))
    (hbound : createdCount (turns₁ ++ t :: turns₂) < 2 ^ 31) :
    ∀ o ∈ t.result.valid_leave_objects, o.object_status = .confirmed ∧
      asUnsigned P.expired_to_delete_thresh <
        (t.input.frame_id - o.last_updated_body_bbox.update_frame_id).toNat ∧
      (Stamped turns₁ → o.last_updated_body_bbox.update_frame_id.toNat +
        asUnsigned P.expired_to_delete_thresh < t.input.frame_id.toNat) ∧
      o.id ∉ ids s₃ ∧ (reported (turns₁ ++ t :: turns₂)).count o.id = 1 := by
  intro o ho
  have hs := Run.tidy tidy_init h₁
  obtain ⟨L, hL⟩ := ht.balanced hs
  have hgone := hL.mem_leaves ho
  have hold : asUnsigned P.expired_to_delete_thresh <
      (t.input.frame_id - o.last_updated_body_bbox.update_frame_id).toNat := by
    have hboth := (hL.gone o hgone).2
    simp only [bothOlderThan, Bool.and_eq_true] at hboth
    exact of_decide_eq_true hboth.2
  have hall : Run P Tracker.init (turns₁ ++ t :: turns₂) s₃ :=
    trace_append.mpr ⟨s₁, h₁, s₂, ht, h₂⟩
  have hacc := hall.accounted hbound
  have hreported : o.id ∈ reported (turns₁ ++ t :: turns₂) := mem_reported (by simp) ho
  obtain ⟨-, hnodup, hdisjoint⟩ := Multiset.nodup_add.mp hacc.nodup
  refine ⟨hL.expired_confirmed hs (by simp [hgone]), hold, fun hstamped => ?_,
    fun hid => Multiset.disjoint_left.mp hdisjoint hid hreported,
    Multiset.count_eq_one_of_mem hnodup hreported⟩
  -- the stamp is an earlier frame id, so the difference does not wrap
  obtain ⟨o₀, ho₀, hsame⟩ := hL.expired_was_there (o := o) (by simp [hgone])
  obtain ⟨u, hu, hstamp⟩ := h₁.body_stamps hstamped o₀ ho₀
  have hle : o.last_updated_body_bbox.update_frame_id ≤ t.input.frame_id := by
    rw [hsame.last_updated_body_bbox, hstamp]
    rw [FramesOrdered, List.map_append, List.pairwise_append] at hframes
    exact hframes.2.2 _ (List.mem_map_of_mem hu) _ (by simp)
  rw [UInt64.toNat_sub_of_le _ _ hle] at hold
  omega

/-- Someone is seen in fourteen frames and never again: the next frame, long after, reports it. -/
theorem Run.leave_reports_after_fourteen_frames : ∃ turns s₁ t, ∃ s₂ : Tracker ℚ, ∃ o,
    Run scene Tracker.init turns s₁ ∧ Updates scene s₁ t s₂ ∧
      o ∈ t.result.valid_leave_objects ∧ o.object_status = .confirmed ∧ o.id ∉ ids s₂ ∧
      (reported (turns ++ [t])).count o.id = 1 := by
  obtain ⟨⟨turns, s₁⟩, hplay, hcheck⟩ := Abort.of_returns
    (x := play scene Tracker.init
      ((List.range 14).map fun k => shot 0 (UInt64.ofNat k) true))
    (p := fun r : List (Turn ℚ) × Tracker ℚ => decide (createdCount r.1 = 1) &&
      decide ((r.1.map (·.input.frame_id) ++ [(200 : UInt64)]).Pairwise (· ≤ ·)) && Abort.returns
      (Update scene r.2 (shot 0 200 false))
      fun r' => decide (r'.created.length = 0) && decide (0 < r'.valid_leave_objects.length))
    (by decide +kernel)
  simp only [Bool.and_eq_true, decide_eq_true_eq] at hcheck
  obtain ⟨⟨hcreated, hframes⟩, hupdate⟩ := hcheck
  obtain ⟨r, hr, hleaves⟩ := Abort.of_returns hupdate
  simp only [Bool.and_eq_true, decide_eq_true_eq] at hleaves
  obtain ⟨o, ho⟩ := List.exists_mem_of_length_pos hleaves.2
  have hbound : createdCount (turns ++ [(⟨shot 0 200 false, r⟩ : Turn ℚ)]) < 2 ^ 31 := by
    rw [createdCount_append, createdCount_singleton, hcreated, hleaves.1]
    decide
  have hordered : FramesOrdered (turns ++ [(⟨shot 0 200 false, r⟩ : Turn ℚ)]) := by
    rw [FramesOrdered, List.map_append]
    exact hframes
  have hlast : Updates scene s₁ ⟨shot 0 200 false, r⟩ r.tracker := ⟨hr, rfl⟩
  have hstay : Run scene r.tracker [] r.tracker := rfl
  obtain ⟨hconfirmed, -, -, hnot, hcount⟩ :=
    Run.leave_reports (play_run hplay) hlast hstay hordered hbound o ho
  exact ⟨turns, s₁, _, r.tracker, o, play_run hplay, hlast, ho, hconfirmed, hnot, hcount⟩

end EdgeFrame.Track
