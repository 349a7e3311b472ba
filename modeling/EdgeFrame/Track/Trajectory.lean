/-
# EdgeFrame.Track.Trajectory -- what a trajectory holds

An object lives from the detection it was created from through the detections that are
booked on it, and `Lived` keeps the body boxes of both. The constructor pushes the first
box twice, so a trajectory is the window over one box too many: as long as the window is
not full it has an entry that no detection stands for, and once it is full the window has
dropped the copy.

The exact condition comes from three facts, which do not know of each other:

* every object of a reachable state has a life (`Run.lived`), by the history rule of the
  tracker and the books of each turn;
* the trajectory of an object with a life is the window over the boxes of that life, with
  the first one doubled (`Lived.body_trajectory`);
* a window over a list whose first element is doubled is the window over the list exactly
  when the list fills it, or is empty (`rtake_doubled_eq_iff`).
-/
import EdgeFrame.Track.Runs
import Mathlib

namespace EdgeFrame.Track

open Lib

variable {K : Type}

/-- The body box of a detection. -/
def PersonObject.body_bbox (d : PersonObject K) : Option (BBoxMessage K) :=
  if d.is_current_body_detected then some d.last_updated_body_bbox else none

/-- `o` is an object after these turns: `first` is the body box it was created with, and `later` are
the body boxes of the detections that were booked on it since. -/
inductive Lived : List (Turn K) → PersonObject K → Option (BBoxMessage K) → List (BBoxMessage K) →
    Prop where
  | created {turns : List (Turn K)} {t : Turn K} {c o : PersonObject K} (hc : c ∈ t.result.created)
      (hsame : SameTrack c o) : Lived (turns ++ [t]) o c.body_bbox []
  | unmatched {turns : List (Turn K)} {t : Turn K} {o o' : PersonObject K}
      {first : Option (BBoxMessage K)} {later : List (BBoxMessage K)}
      (h : Lived turns o first later) (hsame : SameTrack o o') : Lived (turns ++ [t]) o' first later
  | matched {turns : List (Turn K)} {t : Turn K} {o o' : PersonObject K} {a : Attachment K}
      {first : Option (BBoxMessage K)} {later : List (BBoxMessage K)}
      (h : Lived turns o first later) (ha : a ∈ t.result.attached) (hbefore : SameTrack o a.object)
      (hafter : SameTrack a.updated o') :
      Lived (turns ++ [t]) o' first (later ++ [a.detection.last_updated_body_bbox])

/-- The trajectory of an object is a faithful record of the body boxes of its detections. -/
structure Faithful (T : Nat) (o : PersonObject K) (boxes : List (BBoxMessage K)) : Prop where
  trajectory : o.body_trajectory = boxes.rtake T
  increasing : (o.body_trajectory.map (·.update_frame_id)).Pairwise (· < ·)
  leave : 15 ≤ o.body_trajectory.length → 15 ≤ boxes.length
  leave_of_size : 15 ≤ T → 15 ≤ boxes.length → 15 ≤ o.body_trajectory.length

/-! ## The window -/

/-- Trimming after one push more moves the window on. -/
theorem trimFront_push {α : Type} (T : Nat) (l : List α) (x : α) :
    trimFront T (l.rtake T ++ [x]) = (l ++ [x]).rtake T := by
  rw [trimFront_eq_drop, List.rtake, List.rtake]
  by_cases hlen : l.length ≤ T
  · -- nothing has been dropped yet
    rw [Nat.sub_eq_zero_of_le hlen, List.drop_zero]
  · have hdrop : (l ++ [x]).drop (l.length - T) = l.drop (l.length - T) ++ [x] :=
      List.drop_append_of_le_length (by omega)
    rw [← hdrop, List.drop_drop]
    congr 1
    simp only [List.length_drop, List.length_append, List.length_singleton]
    omega

/-- The length of a window. -/
theorem length_rtake {α : Type} (T : Nat) (l : List α) : (l.rtake T).length = min T l.length := by
  rw [List.rtake, List.length_drop]
  omega

/-- The window over a list whose first element is doubled. -/
theorem rtake_doubled_eq_iff {α : Type} (T : Nat) (first : Option α) (later : List α) :
    (first.toList ++ (first.toList ++ later)).rtake T = (first.toList ++ later).rtake T ↔
      first = none ∨ T ≤ (first.toList ++ later).length := by
  cases first with
  | none =>
    exact iff_of_true rfl (Or.inl rfl)
  | some b =>
    show (b :: b :: later).rtake T = (b :: later).rtake T ↔ _ ∨ T ≤ (b :: later).length
    constructor
    · intro heq
      right
      have hlen := congrArg List.length heq
      rw [length_rtake, length_rtake, List.length_cons] at hlen
      omega
    · rintro (hnone | hle)
      · cases hnone
      · have hsucc : (b :: b :: later).length - T = ((b :: later).length - T) + 1 := by
          simp only [List.length_cons] at hle ⊢
          omega
        rw [List.rtake, hsucc, List.drop_succ_cons]
        rfl

/-! ## The books of a turn -/

/-- A detection as its constructor leaves it, with a body box of this frame. -/
def Constructed [Field K] (frame_id : UInt64) (d : PersonObject K) : Prop :=
  ∃ u face_bbox body_bbox p_id, d = PersonObject.new u face_bbox body_bbox p_id ∧
    ∀ b, body_bbox = some b → b.update_frame_id = frame_id

/-- What a turn has booked. -/
structure Turn.Stamped [Field K] (P : Setup K) (t : Turn K) : Prop where
  attachment : ∀ a ∈ t.result.attached, Attached P a
  attached : ∀ a ∈ t.result.attached,
    a.detection.last_updated_body_bbox.update_frame_id = t.input.frame_id
  trajectory : ∀ c ∈ t.result.created, c.body_trajectory = firstTrajectory c.body_bbox
  created : ∀ c ∈ t.result.created, ∀ b, c.body_bbox = some b →
    b.update_frame_id = t.input.frame_id

/-- The body box is part of what was seen. -/
theorem sighting_body_bbox {d d' : PersonObject K} (h : d.sighting = d'.sighting) :
    d.body_bbox = d'.body_bbox := by
  have hbody : d.is_current_body_detected = d'.is_current_body_detected :=
    (congrArg PersonObject.is_current_body_detected h :)
  rw [PersonObject.body_bbox, PersonObject.body_bbox, hbody, sighting_body h]

section

variable [Field K]

/-- A detection that the constructor has made has the body box it was given. -/
theorem new_body_bbox (u : Unassigned K) (face_bbox body_bbox : Option (BBoxMessage K)) (p_id : Int) :
    (PersonObject.new u face_bbox body_bbox p_id).body_bbox = body_bbox := by
  cases body_bbox with
  | none => rfl
  | some b => rfl

/-- The constructor pushes a body box twice, and nothing if there is none. -/
theorem Constructed.body_trajectory {frame_id : UInt64} {d : PersonObject K}
    (h : Constructed frame_id d) : d.body_trajectory = firstTrajectory d.body_bbox := by
  obtain ⟨u, face_bbox, body_bbox, p_id, rfl, -⟩ := h
  rw [new_body_bbox]
  rfl

/-- Its box carries the frame it was detected in. -/
theorem Constructed.frame {frame_id : UInt64} {d : PersonObject K} (h : Constructed frame_id d)
    {b : BBoxMessage K} (hb : d.body_bbox = some b) : b.update_frame_id = frame_id := by
  obtain ⟨u, face_bbox, body_bbox, p_id, rfl, hframe⟩ := h
  rw [new_body_bbox] at hb
  exact hframe b hb

variable [LinearOrder K]

/-- What the books of a turn say about the boxes: each comes from a detection of this frame. -/
theorem Balanced.stamped {P : Setup K} {s : Tracker K} {t : Turn K} {L : Ledger K}
    (h : Balanced P s t.input t.result L)
    (hnew : ∀ d ∈ t.input.cur_detected_person_objects, Constructed t.input.frame_id d) :
    t.Stamped P := by
  constructor
  · exact h.attachment
  · intro a ha
    obtain ⟨d, hd, hsight⟩ := h.detection_seen ha
    refine (hnew d hd).frame ?_
    rw [sighting_body_bbox hsight, PersonObject.body_bbox, (h.attachment a ha).detection_body]
    rfl
  · intro c hc
    obtain ⟨d, hd, hsight⟩ := h.created_seen hc
    have htrajectory : d.body_trajectory = c.body_trajectory :=
      (congrArg PersonObject.body_trajectory hsight :)
    rw [← htrajectory, (hnew d hd).body_trajectory, sighting_body_bbox hsight]
  · intro c hc b hb
    obtain ⟨d, hd, hsight⟩ := h.created_seen hc
    exact (hnew d hd).frame ((sighting_body_bbox hsight).trans hb)

/-- So they do for every turn of a run. -/
theorem Run.stamped [IsStrictOrderedRing K] {P : Setup K} {turns : List (Turn K)} {s : Tracker K}
    (h : Run P Tracker.init turns s)
    (hnew : ∀ t ∈ turns, ∀ d ∈ t.input.cur_detected_person_objects,
      Constructed t.input.frame_id d) : ∀ t ∈ turns, t.Stamped P := by
  refine Run.history (H := fun turns _ => ∀ t ∈ turns, t.Stamped P) ?_ ?_ h hnew
  · intro t ht
    cases ht
  · intro turns s t L _ ih hbuilt hL u hu
    rcases List.mem_append.mp hu with hu | hu
    · exact ih u hu
    · obtain rfl := List.mem_singleton.mp hu
      exact hL.stamped hbuilt

/-- Every object has a life. -/
theorem Run.lived [IsStrictOrderedRing K] {P : Setup K} {turns : List (Turn K)} {s : Tracker K}
    (h : Run P Tracker.init turns s) : ∀ o ∈ everyone s, ∃ first later,
      Lived turns o first later := by
  refine Run.history (Q := fun _ => True) (H := fun turns s => ∀ o ∈ everyone s, ∃ first later,
    Lived turns o first later) ?_ ?_ h (fun _ _ => trivial)
  · intro o ho
    cases (Multiset.notMem_zero o) ho
  · intro turns s t L hs ih _ hL o' ho'
    rcases hL.origin hs ho' with ⟨o, ho, hcont⟩ | ⟨c, hc, hsame⟩
    · obtain ⟨first, later, hlived⟩ := ih o ho
      cases hcont with
      | unmatched hsame => exact ⟨first, later, hlived.unmatched hsame⟩
      | matched a ha _ hbefore hafter => exact ⟨first, _, hlived.matched ha hbefore hafter⟩
    · exact ⟨c.body_bbox, [], .created hc hsame⟩

end

/-! ## The life of an object -/

section

variable [Field K] {P : Setup K} {turns : List (Turn K)} {o : PersonObject K}
  {first : Option (BBoxMessage K)} {later : List (BBoxMessage K)}

/-- The boxes of a life, in the order of the frames that they were seen in. -/
theorem Lived.frames (h : Lived turns o first later) (hstamped : ∀ t ∈ turns, t.Stamped P) :
    ((first.toList ++ later).map (·.update_frame_id)).Sublist (turns.map (·.input.frame_id)) := by
  induction h with
  | @created turns t c o hc _ =>
    rw [List.append_nil, List.map_append]
    cases hbody : c.body_bbox with
    | none => exact List.nil_sublist _
    | some b =>
      have hframe := (hstamped t (by simp)).created c hc b hbody
      show [b.update_frame_id].Sublist _
      rw [hframe]
      exact List.sublist_append_right _ _
  | unmatched _ _ ih =>
    have hbefore := ih fun t ht => hstamped t (List.mem_append_left _ ht)
    refine hbefore.trans ?_
    rw [List.map_append]
    exact List.sublist_append_left _ _
  | @matched turns t o o' a first later _ ha _ _ ih =>
    have hframe := (hstamped t (by simp)).attached a ha
    have hbefore := ih fun t ht => hstamped t (List.mem_append_left _ ht)
    have hlast : [a.detection.last_updated_body_bbox.update_frame_id].Sublist [t.input.frame_id] := by
      rw [hframe]
    have hboth := hbefore.append hlast
    simpa only [List.map_append, List.map_cons, List.map_nil, List.append_assoc] using hboth

/-- **The window over one box too many**: the trajectory of an object. -/
theorem Lived.body_trajectory (h : Lived turns o first later)
    (hstamped : ∀ t ∈ turns, t.Stamped P) (hsize : 2 ≤ asUnsigned P.trajectory_size) :
    o.body_trajectory =
      (first.toList ++ (first.toList ++ later)).rtake (asUnsigned P.trajectory_size) := by
  induction h with
  | @created turns t c o hc hsame =>
    rw [hsame.body_trajectory, (hstamped t (by simp)).trajectory c hc]
    cases c.body_bbox with
    | none =>
      show [] = List.rtake [] _
      rw [List.rtake_nil]
    | some b =>
      have hshort : 2 - asUnsigned P.trajectory_size = 0 := by omega
      show [b, b] = [b, b].drop (2 - asUnsigned P.trajectory_size)
      rw [hshort, List.drop_zero]
  | unmatched _ hsame ih =>
    rw [hsame.body_trajectory]
    exact ih fun t ht => hstamped t (List.mem_append_left _ ht)
  | @matched turns t o o' a first later _ ha hbefore hafter ih =>
    have hbody := ((hstamped t (by simp)).attachment a ha).body_trajectory
    have hwindow := ih fun t ht => hstamped t (List.mem_append_left _ ht)
    rw [hafter.body_trajectory, hbody, hbefore.body_trajectory, hwindow, trimFront_push]
    simp only [List.append_assoc]

end

/-- A size that is an `int` and not negative is the same number when it is compared as an unsigned
one. -/
theorem asUnsigned_eq_toNat {n : Int} (h : 0 ≤ n) (hint : n < 2 ^ 31) : asUnsigned n = n.toNat := by
  have hsmall : n < 2 ^ 64 := hint.trans (by norm_num)
  rw [asUnsigned, Int.emod_eq_of_lt h hsmall]

/-- A window over boxes in frame order is a faithful record. -/
theorem faithful_of_trajectory {T : Nat} {o : PersonObject K} {boxes : List (BBoxMessage K)}
    (h : o.body_trajectory = boxes.rtake T)
    (hframes : (boxes.map (·.update_frame_id)).Pairwise (· < ·)) : Faithful T o boxes := by
  have hlen : o.body_trajectory.length = min T boxes.length := by
    rw [h, length_rtake]
  refine ⟨h, ?_, by omega, by omega⟩
  rw [h, List.rtake, List.map_drop]
  exact hframes.sublist (List.drop_sublist _ _)

/-! ## Fourteen frames -/

/-- Someone who is seen in fourteen frames. -/
def fourteenFrames : List (Input ℚ) :=
  (List.range 14).map fun k => shot 0 (UInt64.ofNat (k + 1)) true

/-- Who stands in the scene is as the constructor leaves them. -/
theorem someone_constructed (face frame_id : UInt64) :
    Constructed frame_id (someone face frame_id) := by
  refine ⟨_, _, _, _, rfl, ?_⟩
  rintro b ⟨⟩
  rfl

/-- The detections of the example are in order, -/
theorem fourteenFrames_constructed {turns : List (Turn ℚ)}
    (h : turns.map (·.input) = fourteenFrames) :
    ∀ t ∈ turns, ∀ d ∈ t.input.cur_detected_person_objects, Constructed t.input.frame_id d := by
  intro t ht d hd
  have hinput : t.input ∈ fourteenFrames := h ▸ List.mem_map_of_mem ht
  obtain ⟨k, -, hk⟩ := List.mem_map.mp hinput
  rw [← hk] at hd ⊢
  obtain rfl := List.mem_singleton.mp hd
  exact someone_constructed 0 _

/-- and so are its frames. -/
theorem fourteenFrames_frames {turns : List (Turn ℚ)}
    (h : turns.map (·.input) = fourteenFrames) :
    (turns.map (·.input.frame_id)).Pairwise (· < ·) := by
  have hids : turns.map (·.input.frame_id) = fourteenFrames.map (·.frame_id) := by
    rw [← h, List.map_map]
    rfl
  rw [hids]
  decide +kernel

/-- **Fourteen detections make fifteen entries**, and a valid leave. -/
theorem fourteen_detections_fifteen_entries : ∃ turns s, Run scene Tracker.init turns s ∧
    turns.map (·.input) = fourteenFrames ∧ (turns.map (·.input.frame_id)).Pairwise (· < ·) ∧
      ∃ o ∈ everyone s, ∃ first later, Lived turns o first later ∧
        (first.toList ++ later).length ≤ 14 ∧ CheckValidLeave scene o = true ∧
        ¬ Faithful scene.trajectory_size.toNat o (first.toList ++ later) := by
  obtain ⟨⟨turns, s⟩, hplay, hcheck⟩ := Abort.of_returns
    (x := play scene Tracker.init fourteenFrames)
    (p := fun r => r.2.trackedPersonObjects.any fun o => CheckValidLeave scene o &&
      decide (15 ≤ o.body_trajectory.length)) (by decide +kernel)
  obtain ⟨o, ho, hleave⟩ := List.any_eq_true.mp hcheck
  rw [Bool.and_eq_true, decide_eq_true_eq] at hleave
  have hrun := play_run hplay
  have hinputs := play_inputs hplay
  have hframes := fourteenFrames_frames hinputs
  have hmem : o ∈ everyone s := mem_everyone.mpr (Or.inl ho)
  obtain ⟨first, later, hlived⟩ := hrun.lived o hmem
  have hfew : (first.toList ++ later).length ≤ 14 := by
    have hsub := (hlived.frames (hrun.stamped (fourteenFrames_constructed hinputs))).length_le
    have hlen := congrArg List.length hinputs
    rw [List.length_map, List.length_map] at hsub
    rw [List.length_map] at hlen
    exact hsub.trans_eq hlen
  refine ⟨turns, s, hrun, hinputs, hframes, o, hmem, first, later, hlived, hfew, hleave.1, ?_⟩
  intro hfaithful
  have hmany := hfaithful.leave hleave.2
  omega

/-! ## When it is faithful -/

variable [Field K] [LinearOrder K] [IsStrictOrderedRing K]

/-- **When a trajectory is faithful**: for an object that was created without a body box, and once as
many detections as the trajectory holds have been booked on it.

The life that the condition speaks of is the one that `Run.lived` provides. -/
theorem Run.trajectory_faithful_iff {P : Setup K} (hsize : 2 ≤ P.trajectory_size)
    (hint : P.trajectory_size < 2 ^ 31) {turns : List (Turn K)} {s : Tracker K}
    (h : Run P Tracker.init turns s)
    (hnew : ∀ t ∈ turns, ∀ d ∈ t.input.cur_detected_person_objects, Constructed t.input.frame_id d)
    (hframes : (turns.map (·.input.frame_id)).Pairwise (· < ·)) {o : PersonObject K}
    (ho : o ∈ everyone s) :
    (∃ first later, Lived turns o first later) ∧ ∀ first later, Lived turns o first later →
      (Faithful P.trajectory_size.toNat o (first.toList ++ later) ↔
        first = none ∨ P.trajectory_size.toNat ≤ (first.toList ++ later).length) := by
  refine ⟨h.lived o ho, ?_⟩
  intro first later hlived
  have hstamped := Run.stamped h hnew
  have hT := asUnsigned_eq_toNat (by omega) hint
  have hbody := hlived.body_trajectory hstamped (by omega)
  have horder := hframes.sublist (hlived.frames hstamped)
  rw [hT] at hbody
  rw [← rtake_doubled_eq_iff]
  constructor
  · intro hfaithful
    exact hbody.symm.trans hfaithful.trajectory
  · intro heq
    exact faithful_of_trajectory (hbody.trans heq) horder

/-- The fourteen frames again: with fourteen boxes the window of fifteen is not full, and the
trajectory is not faithful. -/
theorem Run.trajectory_faithful_iff_scene : ∃ turns s, Run scene Tracker.init turns s ∧
    turns.map (·.input) = fourteenFrames ∧ ∀ o ∈ everyone s,
      ∃ first later, Lived turns o first later ∧
        (Faithful scene.trajectory_size.toNat o (first.toList ++ later) ↔
          first = none ∨ scene.trajectory_size.toNat ≤ (first.toList ++ later).length) := by
  obtain ⟨⟨turns, s⟩, hplay, -⟩ := Abort.of_returns
    (x := play scene Tracker.init fourteenFrames) (p := fun _ => true) (by decide +kernel)
  have hinputs := play_inputs hplay
  refine ⟨turns, s, play_run hplay, hinputs, ?_⟩
  intro o ho
  obtain ⟨⟨first, later, hlived⟩, hiff⟩ := Run.trajectory_faithful_iff (P := scene) (by decide)
    (by decide) (play_run hplay) (fourteenFrames_constructed hinputs)
    (fourteenFrames_frames hinputs) ho
  exact ⟨first, later, hlived, hiff first later hlived⟩

end EdgeFrame.Track
