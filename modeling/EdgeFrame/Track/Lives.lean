/-
# EdgeFrame.Track.Lives -- the life of one person, and who is reported

Behind the matching, the passes and the erase loops of `Update` stands a small machine for
every single person: created, tracked, expired, gone. What a frame brings to somebody (a
new object, a match with the frames of its boxes, or nothing) and the id of the frame decide
where the machine goes, whoever else is there. `Run.lives` says that the lists of the
tracker and the reports are the machines of all ids, `Run.reports` counts from it who is
reported.

The machine is written for its own sake: it has no lists, no detections and no matching. Two
things tie it to the tracker:

  * `Stands`: the object stands for the person, in its status, its frames and the length of
    its trajectory. A match is a hit (`Stands.hit`), and the ages that the erase loops
    compare are the person's (`Stands.bothOlderThan`);
  * `Found`: the id is where the machine says, in the tracked list, in the expired list, among
    the reports, or nowhere.

`Booking.step` moves every id at once. Which case of the machine applies is read off the
ledger of the turn: who was matched, who was created, and for whom nothing was booked; that
an id is in one place only comes from `Track.Identity`. The rest is an induction on the run.
-/
import EdgeFrame.Track.Aging
import EdgeFrame.Track.Leaves
import Mathlib

namespace EdgeFrame.Track

open Lib

/-! ## One life -/

/-- What counts of somebody: the matches since the first sight, and the frames of the last boxes. -/
structure Person where
  hits : Nat
  face : UInt64
  body : UInt64
  deriving DecidableEq, Repr

/-- Where somebody is, and what counts of them there. -/
inductive Life where
  | unborn
  | tracked (p : Person)
  | expired (p : Person)
  | gone (p : Person) (reported : Bool)
  deriving DecidableEq, Repr

/-- What a frame brings to somebody. -/
inductive Fate where
  | created (face body : UInt64)
  | matched (face : Option UInt64) (body : UInt64)
  | unseen
  deriving DecidableEq, Repr

namespace Person

/-- One more match; a detection need not have a face. -/
def hit (p : Person) (face : Option UInt64) (body : UInt64) : Person :=
  ⟨p.hits + 1, face.getD p.face, body⟩

/-- Neither box is of the last `thresh` frames.

Both are the unsigned differences of the code. -/
def lost (p : Person) (frame_id : UInt64) (thresh : Int) : Bool :=
  decide (asUnsigned thresh < (frame_id - p.face).toNat) &&
    decide (asUnsigned thresh < (frame_id - p.body).toNat)

variable {K : Type} [Field K]

/-- Matched more than `hit_num_thresh` times.

That is what a status comes to: each match has one hit, and one above the threshold confirms. -/
def confirmed (P : Thresholds K) (p : Person) : Bool :=
  decide (0 < p.hits) && decide (P.hit_num_thresh < p.hits)

/-- The length of the trajectory, which starts with two boxes.

A match adds one, and trims what is too long for `trajectory_size`; whoever is new has not been
trimmed. -/
def boxes (P : Thresholds K) (p : Person) : Nat :=
  if p.hits = 0 then 2 else min (asUnsigned P.trajectory_size) (p.hits + 2)

/-- Somebody expired who is not seen waits on, or is deleted. -/
def wait (P : Thresholds K) (frame_id : UInt64) (p : Person) : Life :=
  if p.lost frame_id P.expired_to_delete_thresh then .gone p (15 ≤ p.boxes P) else .expired p

end Person

namespace Life

variable {K : Type} [Field K]

/-- One frame in the life of somebody.

What is left over cannot happen: an id is created once, and nobody is matched who is gone. -/
def next (P : Thresholds K) (frame_id : UInt64) : Life → Fate → Life
  | .unborn, .created face body => .tracked ⟨0, face, body⟩
  | .tracked p, .matched face body => .tracked (p.hit face body)
  | .expired p, .matched face body => .tracked (p.hit face body)
  | .tracked p, .unseen =>
    if p.confirmed P = false then .gone p false
    else if p.lost frame_id P.lost_track_thresh then p.wait P frame_id
    else .tracked p
  | .expired p, .unseen => p.wait P frame_id
  | life, _ => life

/-- The hits so far. -/
def hits : Life → Nat
  | .unborn => 0
  | .tracked p => p.hits
  | .expired p => p.hits
  | .gone p _ => p.hits

end Life

section

variable {K : Type} [Field K] (P : Thresholds K)

/-- Waiting is no match. -/
theorem wait_hits (frame_id : UInt64) (p : Person) :
    (p.wait P frame_id).hits = p.hits := by
  unfold Person.wait
  split <;> rfl

/-- A frame that brings nothing is no match. -/
theorem next_unseen_hits (frame_id : UInt64) (l : Life) :
    (l.next P frame_id .unseen).hits = l.hits := by
  cases l with
  | unborn => rfl
  | tracked p =>
    simp only [Life.next]
    split_ifs
    · rfl
    · exact wait_hits P frame_id p
    · rfl
  | expired p => exact wait_hits P frame_id p
  | gone p r => rfl

/-- Whoever expires was confirmed, and whoever is reported had enough boxes too. -/
def Life.Sound : Life → Prop
  | .unborn => True
  | .tracked _ => True
  | .expired p => p.confirmed P = true
  | .gone p r => r = true ↔ p.confirmed P = true ∧ 15 ≤ p.boxes P

/-- Whoever waits or is deleted was confirmed. -/
theorem sound_wait (frame_id : UInt64) {p : Person} (h : p.confirmed P = true) :
    (p.wait P frame_id).Sound P := by
  unfold Person.wait
  split
  · show decide _ = true ↔ _
    rw [decide_eq_true_eq, and_iff_right h]
  · exact h

/-- A frame keeps this, whatever it brings. -/
theorem Life.Sound.next {l : Life} (h : l.Sound P) (frame_id : UInt64) (fate : Fate) :
    (l.next P frame_id fate).Sound P := by
  cases l with
  | unborn => cases fate <;> trivial
  | tracked p =>
    cases fate with
    | created face body => trivial
    | matched face body => trivial
    | unseen =>
      simp only [Life.next]
      split_ifs with hconf hlost
      · show false = true ↔ _
        simp [hconf]
      · exact sound_wait P frame_id (Bool.not_eq_false _ ▸ hconf)
      · trivial
  | expired p =>
    cases fate with
    | created face body => exact h
    | matched face body => trivial
    | unseen => exact sound_wait P frame_id h
  | gone p r => cases fate <;> exact h

/-- Thirteen matches make fifteen boxes. -/
theorem confirmed_and_boxes (p : Person) : p.confirmed P = true ∧ 15 ≤ p.boxes P ↔
    13 ≤ p.hits ∧ P.hit_num_thresh < p.hits ∧ 15 ≤ asUnsigned P.trajectory_size := by
  simp only [Person.confirmed, Person.boxes, Bool.and_eq_true, decide_eq_true_eq]
  split <;> omega

end

/-! ## A turn, as somebody sees it -/

variable {K : Type}

/-- What the turn has brought to an id, read off its two records. -/
def Turn.fate (t : Turn K) (id : Int) : Fate :=
  match t.result.attached.find? (·.object.id = id) with
  | some a => .matched
      (if a.detection.is_current_face_detected then
        some a.detection.last_updated_face_bbox.update_frame_id else none)
      a.detection.last_updated_body_bbox.update_frame_id
  | none =>
    match t.result.created.find? (·.id = id) with
    | some c => .created c.last_updated_face_bbox.update_frame_id
        c.last_updated_body_bbox.update_frame_id
    | none => .unseen

/-- The life of somebody in a run. -/
def life [Field K] (P : Setup K) (turns : List (Turn K)) (id : Int) : Life :=
  turns.foldl (fun l t => l.next P.toThresholds t.input.frame_id (t.fate id)) .unborn

/-- A turn more is a frame more. -/
theorem life_snoc [Field K] (P : Setup K) (turns : List (Turn K)) (t : Turn K) (id : Int) :
    life P (turns ++ [t]) id =
      (life P turns id).next P.toThresholds t.input.frame_id (t.fate id) := by
  rw [life, List.foldl_append]
  rfl

/-- So it holds of every life. -/
theorem Life.sound [Field K] (P : Setup K) (turns : List (Turn K)) (id : Int) :
    (life P turns id).Sound P.toThresholds := by
  induction turns using List.reverseRecOn with
  | nil => trivial
  | append_singleton turns t ih =>
    rw [life_snoc]
    exact ih.next P.toThresholds t.input.frame_id (t.fate id)

/-- What a fate says of the turn. -/
inductive Fated (t : Turn K) (id : Int) : Fate → Prop where
  | matched (a : Attachment K) (ha : a ∈ t.result.attached) (hid : a.object.id = id) :
      Fated t id (.matched
        (if a.detection.is_current_face_detected then
          some a.detection.last_updated_face_bbox.update_frame_id else none)
        a.detection.last_updated_body_bbox.update_frame_id)
  | created (c : PersonObject K) (hc : c ∈ t.result.created) (hid : c.id = id)
      (hun : ¬ t.Matched id) :
      Fated t id (.created c.last_updated_face_bbox.update_frame_id
        c.last_updated_body_bbox.update_frame_id)
  | unseen (hun : ¬ t.Matched id) (hold : ¬ t.Created id) : Fated t id .unseen

/-- It is read off the records too; a match is looked for first. -/
theorem fated (t : Turn K) (id : Int) : Fated t id (t.fate id) := by
  unfold Turn.fate
  split
  · rename_i a ha
    exact .matched a (List.mem_of_find?_eq_some ha) (of_decide_eq_true (List.find?_some ha :))
  · rename_i hnone
    have hun : ¬ t.Matched id := by
      rintro ⟨a, ha, hid⟩
      exact List.find?_eq_none.mp hnone a ha (decide_eq_true hid)
    split
    · rename_i c hc
      exact .created c (List.mem_of_find?_eq_some hc) (of_decide_eq_true (List.find?_some hc :)) hun
    · rename_i hold
      apply Fated.unseen hun
      rintro ⟨c, hc, hid⟩
      exact List.find?_eq_none.mp hold c hc (decide_eq_true hid)

/-! ## Where the tracker has somebody -/

variable [Field K]

/-- The object stands for the person. -/
structure Stands (P : Setup K) (p : Person) (o : PersonObject K) : Prop where
  hits : o.body_hit_num = p.hits
  status : o.object_status =
    if p.confirmed P.toThresholds then ObjectStatus.confirmed else ObjectStatus.unconfirmed
  face : o.last_updated_face_bbox.update_frame_id = p.face
  body : o.last_updated_body_bbox.update_frame_id = p.body
  boxes : o.body_trajectory.length = p.boxes P.toThresholds

/-- Where somebody is to be found after a run: among the tracked objects, among the expired ones,
or no more, and then whether it was reported. -/
def Found (P : Setup K) (turns : List (Turn K)) (s : Tracker K) (id : Int) : Life → Prop
  | .unborn => ¬ (0 ≤ id ∧ id < s.global_id.toNat)
  | .tracked p => ∃ o ∈ s.trackedPersonObjects, o.id = id ∧ Stands P p o
  | .expired p => ∃ o ∈ s.expiredPersonObjects, o.id = id ∧ Stands P p o
  | .gone _ r => (0 ≤ id ∧ id < s.global_id.toNat) ∧ id ∉ ids s ∧ (id ∈ reported turns ↔ r = true)

/-- Detections as `PersonObject`'s constructor makes them of a body box. -/
def Sighted (t : Turn K) : Prop :=
  ∀ d ∈ t.input.cur_detected_person_objects,
    ∃ u face_bbox body_bbox p_id, d = PersonObject.new u face_bbox (some body_bbox) p_id

namespace Stands

variable {P : Setup K} {p : Person} {o o' : PersonObject K}

theorem same (h : Stands P p o) (hsame : SameTrack o o') : Stands P p o' where
  hits := hsame.body_hit_num.trans h.hits
  status := hsame.object_status.trans h.status
  face := (congrArg BBoxMessage.update_frame_id hsame.last_updated_face_bbox).trans h.face
  body := (congrArg BBoxMessage.update_frame_id hsame.last_updated_body_bbox).trans h.body
  boxes := (congrArg List.length hsame.body_trajectory).trans h.boxes

/-- A match is a hit. -/
theorem hit {a : Attachment K} (h : Stands P p a.object) (ha : Attached P a) :
    Stands P (p.hit (if a.detection.is_current_face_detected then
        some a.detection.last_updated_face_bbox.update_frame_id else none)
      a.detection.last_updated_body_bbox.update_frame_id) a.updated := by
  constructor
  · rw [ha.hit, h.hits]
    rfl
  · -- more hits never take the confirmation back
    rw [ha.status, h.status, h.hits]
    simp only [Person.confirmed, Person.hit, Nat.cast_add, Nat.cast_one, Nat.succ_pos, decide_true,
      Bool.true_and, Bool.and_eq_true, decide_eq_true_eq]
    split_ifs <;> first | rfl | omega
  · rw [ha.face_bbox]
    unfold Person.hit
    split
    · rfl
    · exact h.face
  · rw [ha.body_bbox]
    rfl
  · rw [ha.body_trajectory, trimFront_eq_drop, List.length_drop, List.length_append, h.boxes]
    simp only [Person.boxes, Person.hit, List.length_singleton, Nat.succ_ne_zero, if_false]
    split <;> omega

/-- The ages that the code compares are those of the person. -/
theorem bothOlderThan (h : Stands P p o) (frame_id : UInt64) (thresh : Int) :
    bothOlderThan frame_id o thresh = p.lost frame_id thresh := by
  rw [Track.bothOlderThan, olderThan, olderThan, h.face, h.body]
  rfl

/-- The status of the object is that of the person. -/
theorem unconfirmed (h : Stands P p o) :
    o.object_status = .unconfirmed ↔ p.confirmed P.toThresholds = false := by
  rw [h.status]
  cases p.confirmed P.toThresholds <;> simp

/-- `CheckValidLeave` asks for fifteen boxes, as the machine does. -/
theorem leaves (h : Stands P p o) (hreid : P.valid_leave_with_reid = false) :
    CheckValidLeave P o = decide (15 ≤ p.boxes P.toThresholds) := by
  rw [CheckValidLeave, if_neg (by rw [hreid]; decide), h.boxes]

end Stands

/-! ## Ids in one turn -/

variable [LinearOrder K]

section

variable {P : Setup K} {s : Tracker K} {t : Turn K} {turns : List (Turn K)} {L : Ledger K}

omit [Field K] [LinearOrder K] in
/-- Nobody stands twice in the lists. -/
theorem Accounted.unique (hacc : Accounted turns s) {o o' : PersonObject K} (ho : o ∈ everyone s)
    (ho' : o' ∈ everyone s) (hid : o.id = o'.id) : o = o' :=
  Multiset.inj_on_of_nodup_map (Multiset.nodup_add.mp hacc.nodup).1 o ho o' ho' hid

/-- The ids that a turn gives are the next ones. -/
theorem Balanced.created_iff (h : Balanced P s t.input t.result L)
    (hbound : s.global_id.toNat + t.result.created.length < 2 ^ 31) (id : Int) :
    t.Created id ↔ s.global_id.toNat ≤ id ∧
      id < s.global_id.toNat + t.result.created.length := by
  rw [← mem_newIds hbound.le, ← h.created_ids]
  exact List.mem_map.symm

/-- Whoever is there after a turn, or was deleted in it, was there or is new. -/
theorem Balanced.mem_ids (h : Balanced P s t.input t.result L) (id : Int) :
    id ∈ ids t.result.tracker ∨ (∃ o ∈ L.gone + L.dropped, o.id = id) ↔
      id ∈ ids s ∨ t.Created id := by
  have hmem := congrArg (id ∈ ·) h.ids_eq
  simp only [Multiset.mem_add, Multiset.mem_coe, eq_iff_iff] at hmem
  rw [Multiset.mem_map, List.mem_map] at hmem
  simpa only [Multiset.mem_add, Turn.Created] using hmem

/-- Nobody is deleted and still there. -/
theorem Balanced.deleted (h : Balanced P s t.input t.result L) (hacc : Accounted turns s)
    (hbound : s.global_id.toNat + t.result.created.length < 2 ^ 31) :
    (ids t.result.tracker + (L.gone + L.dropped).map (·.id)).Nodup := by
  rw [h.ids_eq, h.created_ids]
  refine Multiset.nodup_add.mpr ⟨(Multiset.nodup_add.mp hacc.nodup).1, nodup_newIds hbound.le, ?_⟩
  rw [Multiset.disjoint_left]
  intro id hold hnew
  -- an id in use is below the counter, a new one is not
  have hlt := (hacc.below id (Multiset.mem_add.mpr (Or.inl hold))).2
  have hge := ((mem_newIds hbound.le).mp hnew).1
  omega

/-- Who is reported by a turn. -/
theorem Balanced.mem_reported (h : Balanced P s t.input t.result L) (id : Int) :
    id ∈ reported (turns ++ [t]) ↔
      id ∈ reported turns ∨ ∃ o ∈ L.gone, CheckValidLeave P o = true ∧ o.id = id := by
  rw [reported_append, reported_singleton, Multiset.mem_add, ← Multiset.map_coe, h.leaves,
    Multiset.mem_map]
  simp only [Multiset.mem_filter, and_assoc]

/-- A match was made with somebody who was there, and who is tracked afterwards. -/
theorem Balanced.matched (hs : Tidy s) (h : Balanced P s t.input t.result L) {a : Attachment K}
    (ha : a ∈ t.result.attached) :
    (∃ o ∈ everyone s, SameTrack o a.object) ∧
      ∃ o' ∈ t.result.tracker.trackedPersonObjects, SameTrack a.updated o' := by
  constructor
  · obtain ⟨o, ho, hsame⟩ | ⟨o, ho, hsame, -⟩ := h.object_was_there hs ha
    · exact ⟨o, mem_everyone.mpr (Or.inl ho), hsame⟩
    · exact ⟨o, mem_everyone.mpr (Or.inr ho), hsame⟩
  · exact ⟨_, h.mem_tracked.mpr (Or.inr (Or.inl ⟨a, ha, rfl⟩)), sameTrack_accumulate P _ _⟩

/-- A new object stands for somebody without a hit. -/
theorem Balanced.created_stands (h : Balanced P s t.input t.result L) (hsighted : Sighted t)
    {c : PersonObject K} (hc : c ∈ t.result.created) :
    Stands P ⟨0, c.last_updated_face_bbox.update_frame_id,
      c.last_updated_body_bbox.update_frame_id⟩ c := by
  obtain ⟨d, hd, hsight⟩ := h.created_seen hc
  obtain ⟨u, face_bbox, body_bbox, p_id, rfl⟩ := hsighted d hd
  constructor
  · exact (congrArg PersonObject.body_hit_num hsight.symm :)
  · exact (congrArg PersonObject.object_status hsight.symm :)
  · rfl
  · rfl
  · exact (congrArg (fun o => o.body_trajectory.length) hsight.symm :)

end

/-! ## One turn in every life -/

section

variable {P : Setup K} {s : Tracker K} {t : Turn K} {turns : List (Turn K)} {L : Ledger K}
  {id : Int}

omit [LinearOrder K] in
/-- Whoever is there is tracked or expired. -/
theorem Found.present {l : Life} (hfound : Found P turns s id l) (hacc : Accounted turns s)
    {o : PersonObject K} (ho : o ∈ everyone s) (hid : o.id = id) :
    ∃ p, (l = .tracked p ∧ o ∈ s.trackedPersonObjects ∨
      l = .expired p ∧ o ∈ s.expiredPersonObjects) ∧ Stands P p o := by
  have hmem : id ∈ ids s := Multiset.mem_map.mpr ⟨o, ho, hid⟩
  cases l with
  | unborn =>
    exact absurd (hacc.below id (Multiset.mem_add.mpr (Or.inl hmem))) hfound
  | tracked p =>
    obtain ⟨o', ho', hid', hstands⟩ := hfound
    obtain rfl := hacc.unique ho (mem_everyone.mpr (Or.inl ho')) (hid.trans hid'.symm)
    exact ⟨p, Or.inl ⟨rfl, ho'⟩, hstands⟩
  | expired p =>
    obtain ⟨o', ho', hid', hstands⟩ := hfound
    obtain rfl := hacc.unique ho (mem_everyone.mpr (Or.inr ho')) (hid.trans hid'.symm)
    exact ⟨p, Or.inr ⟨rfl, ho'⟩, hstands⟩
  | gone p r =>
    exact absurd hmem hfound.2.1

omit [LinearOrder K] in
/-- Only the unborn have ids that were not given. -/
theorem Found.born {l : Life} (hfound : Found P turns s id l) (hacc : Accounted turns s)
    (hl : l ≠ .unborn) : 0 ≤ id ∧ id < s.global_id.toNat := by
  have hgiven : ∀ o ∈ everyone s, o.id = id → 0 ≤ id ∧ id < s.global_id.toNat := by
    intro o ho hid
    exact hacc.below id (Multiset.mem_add.mpr (Or.inl (Multiset.mem_map.mpr ⟨o, ho, hid⟩)))
  cases l with
  | unborn => exact absurd rfl hl
  | tracked p =>
    obtain ⟨o, ho, hid, -⟩ := hfound
    exact hgiven o (mem_everyone.mpr (Or.inl ho)) hid
  | expired p =>
    obtain ⟨o, ho, hid, -⟩ := hfound
    exact hgiven o (mem_everyone.mpr (Or.inr ho)) hid
  | gone p r => exact hfound.1

/-- The turn, its account, and what the run has booked before it.

It is all that `step` needs of the turn, put together once for the lemmas after it. -/
structure Booking (P : Setup K) (turns : List (Turn K)) (s : Tracker K) (t : Turn K) (L : Ledger K) :
    Prop where
  reid : P.valid_leave_with_reid = false
  tidy : Tidy s
  accounted : Accounted turns s
  bound : s.global_id.toNat + t.result.created.length < 2 ^ 31
  global_id : t.result.tracker.global_id.toNat = s.global_id.toNat + t.result.created.length
  sighted : Sighted t
  balanced : Balanced P s t.input t.result L

namespace Booking

/-- A deleted object's id is not in use, and was reported if the code found the leave valid. -/
theorem deleted (h : Booking P turns s t L) {o : PersonObject K} {p : Person}
    (ho : o ∈ L.gone + L.dropped) (hid : o.id = id) (hthere : id ∈ ids s) {r : Bool}
    (hreport : r = true ↔ o ∈ L.gone ∧ CheckValidLeave P o = true) :
    Found P (turns ++ [t]) t.result.tracker id (.gone p r) := by
  obtain ⟨-, hnodup, hapart⟩ := Multiset.nodup_add.mp (h.balanced.deleted h.accounted h.bound)
  have hgiven := h.accounted.below id (Multiset.mem_add.mpr (Or.inl hthere))
  -- the account of the run: whoever is still listed has not been reported
  have hnever : id ∉ reported turns := fun hmem =>
    Multiset.disjoint_left.mp (Multiset.nodup_add.mp h.accounted.nodup).2.2 hthere hmem
  refine ⟨?_, ?_, ?_⟩
  · rw [h.global_id]
    omega
  · intro hmem
    exact Multiset.disjoint_left.mp hapart hmem (Multiset.mem_map.mpr ⟨o, ho, hid⟩)
  · rw [h.balanced.mem_reported, hreport, or_iff_right hnever]
    constructor
    · rintro ⟨o', ho', hleave, hid'⟩
      have hmem' : o' ∈ L.gone + L.dropped := Multiset.mem_add.mpr (Or.inl ho')
      obtain rfl := Multiset.inj_on_of_nodup_map hnodup o ho o' hmem' (hid.trans hid'.symm)
      exact ⟨ho', hleave⟩
    · rintro ⟨hgone, hleave⟩
      exact ⟨o, hgone, hleave, hid⟩

/-- Somebody expired, or just aged, whom no detection was booked on. -/
theorem wait (h : Booking P turns s t L) {o : PersonObject K} {p : Person}
    (ho : o ∈ s.expiredPersonObjects ∨ o ∈ L.aged) (hid : o.id = id) (hthere : id ∈ ids s)
    (hun : ¬ t.Matched id) (hstands : Stands P p o) :
    Found P (turns ++ [t]) t.result.tracker id (p.wait P.toThresholds t.input.frame_id) := by
  have hfree : ∀ a ∈ t.result.attached, a.object.id ≠ o.id :=
    fun a ha he => hun ⟨a, ha, he.trans hid⟩
  -- either young enough to be matched again, or erased, with a report exactly if the
  -- trajectory is long enough
  unfold Person.wait
  obtain hwaiting | hgone := h.balanced.expired_unmatched ho hfree
  · have hyoung := (h.balanced.waiting o hwaiting).2
    rw [hstands.bothOlderThan] at hyoung
    rw [if_neg (by rw [hyoung]; decide)]
    exact ⟨o, h.balanced.mem_expired.mpr hwaiting, hid, hstands⟩
  · have hold := (h.balanced.gone o hgone).2
    rw [hstands.bothOlderThan] at hold
    rw [if_pos hold]
    apply h.deleted (Multiset.mem_add.mpr (Or.inl hgone)) hid hthere
    rw [← hstands.leaves h.reid]
    exact (and_iff_right hgone).symm

/-- Somebody tracked whom no detection was booked on. -/
theorem tracked (h : Booking P turns s t L) {o : PersonObject K} {p : Person}
    (ho : o ∈ s.trackedPersonObjects) (hid : o.id = id) (hun : ¬ t.Matched id)
    (hstands : Stands P p o) :
    Found P (turns ++ [t]) t.result.tracker id
      ((Life.tracked p).next P.toThresholds t.input.frame_id .unseen) := by
  have hthere : id ∈ ids s := Multiset.mem_map.mpr ⟨o, mem_everyone.mpr (Or.inl ho), hid⟩
  have hsame := hstands.same (sameTrack_startFrame o)
  have hfree : ∀ a ∈ t.result.attached, a.object.id ≠ o.id :=
    fun a ha he => hun ⟨a, ha, he.trans hid⟩
  -- the code asks for the status, the machine for the hits
  have hconfirmed : ∀ {o' : PersonObject K}, Stands P p o' → o'.object_status = .confirmed →
      p.confirmed P.toThresholds = true := by
    intro o' ho' hstatus
    by_contra hno
    rw [ho'.unconfirmed.mpr (Bool.not_eq_true _ ▸ hno)] at hstatus
    cases hstatus
  simp only [Life.next]
  obtain hkept | haged | hdropped := h.balanced.tracked_unmatched ho hfree
  · obtain ⟨-, hstatus, hyoung⟩ := h.balanced.kept _ hkept
    rw [hsame.bothOlderThan] at hyoung
    rw [if_neg (by rw [hconfirmed hsame hstatus]; decide), if_neg (by rw [hyoung]; decide)]
    exact ⟨startFrame o, h.balanced.mem_tracked.mpr (Or.inl hkept), hid, hsame⟩
  · obtain ⟨-, hstatus, hold⟩ := h.balanced.aged _ haged
    rw [hsame.bothOlderThan] at hold
    rw [if_neg (by rw [hconfirmed hsame hstatus]; decide), if_pos hold]
    exact h.wait (Or.inr haged) hid hthere hun hsame
  · have hstatus := (h.balanced.dropped _ hdropped).2
    rw [if_pos (hsame.unconfirmed.mp hstatus)]
    apply h.deleted (Multiset.mem_add.mpr (Or.inr hdropped)) hid hthere
    refine iff_of_false (by decide) ?_
    rintro ⟨hgone, -⟩
    -- what goes from the expired objects was confirmed
    have hconf : (startFrame o).object_status = .confirmed :=
      h.balanced.expired_confirmed h.tidy (Multiset.mem_add.mpr (Or.inr hgone))
    rw [hstatus] at hconf
    cases hconf

/-- Nobody comes back. -/
theorem gone (h : Booking P turns s t L) {p : Person} {r : Bool}
    (hfound : Found P turns s id (.gone p r)) :
    Found P (turns ++ [t]) t.result.tracker id (.gone p r) := by
  obtain ⟨hgiven, hnot, hreported⟩ := hfound
  -- the counter only grows, so an old id is not given again
  have hold : ¬ t.Created id := by
    rw [h.balanced.created_iff h.bound]
    omega
  have hnowhere : ¬ (id ∈ ids t.result.tracker ∨ ∃ o ∈ L.gone + L.dropped, o.id = id) := by
    rw [h.balanced.mem_ids]
    rintro (hmem | hnew)
    · exact hnot hmem
    · exact hold hnew
  refine ⟨?_, fun hmem => hnowhere (Or.inl hmem), ?_⟩
  · rw [h.global_id]
    omega
  · rw [h.balanced.mem_reported, ← hreported]
    refine or_iff_left ?_
    rintro ⟨o, ho, -, hid⟩
    exact hnowhere (Or.inr ⟨o, Multiset.mem_add.mpr (Or.inl ho), hid⟩)

/-- **One turn** moves everybody as the machine says.

By what the turn has brought to this id. A match moves a tracked or an expired object to the tracked
ones; whoever is new was unborn; for whom nothing was booked it depends on the list they are in. -/
theorem step (h : Booking P turns s t L) {l : Life} (hfound : Found P turns s id l) :
    Found P (turns ++ [t]) t.result.tracker id
      (l.next P.toThresholds t.input.frame_id (t.fate id)) := by
  -- the cases are what the turn has brought to this id; who is matched was listed before
  have hfated := fated t id
  generalize t.fate id = fate at hfated ⊢
  cases hfated with
  | matched a ha hid =>
    obtain ⟨⟨o, ho, hbefore⟩, o', ho', hafter⟩ := h.balanced.matched h.tidy ha
    have hatt := h.balanced.attachment a ha
    obtain ⟨p, hl, hstands⟩ := hfound.present h.accounted ho (hbefore.id.symm.trans hid)
    have hnext := ((hstands.same hbefore).hit hatt).same hafter
    have hid' : o'.id = id := (hafter.id.trans hatt.id).trans hid
    obtain ⟨rfl, -⟩ | ⟨rfl, -⟩ := hl
    · exact ⟨o', ho', hid', hnext⟩
    · exact ⟨o', ho', hid', hnext⟩
  | created c hc hid hun =>
    have hnew := (h.balanced.created_iff h.bound id).mp ⟨c, hc, hid⟩
    have hunborn : l = .unborn := by
      by_contra hl
      have hgiven := hfound.born h.accounted hl
      omega
    subst hunborn
    -- an object is booked for its first time without a hit
    have hsame := sameTrack_accumulate P t.input.current c
    have hstands := (h.balanced.created_stands h.sighted hc).same hsame
    exact ⟨_, h.balanced.mem_tracked.mpr (Or.inr (Or.inr ⟨c, hc, rfl⟩)), hsame.id.trans hid, hstands⟩
  | unseen hun hold =>
    cases l with
    | unborn =>
      show ¬ (0 ≤ id ∧ id < t.result.tracker.global_id.toNat)
      have hnot : ¬ (0 ≤ id ∧ id < s.global_id.toNat) := hfound
      rw [h.balanced.created_iff h.bound] at hold
      rw [h.global_id]
      omega
    | tracked p =>
      obtain ⟨o, ho, hid, hstands⟩ := hfound
      exact h.tracked ho hid hun hstands
    | expired p =>
      obtain ⟨o, ho, hid, hstands⟩ := hfound
      apply h.wait (Or.inl ho) hid _ hun hstands
      exact Multiset.mem_map.mpr ⟨o, mem_everyone.mpr (Or.inr ho), hid⟩
    | gone p r => exact h.gone hfound

end Booking

end

/-! ## Whole runs -/

/-- How many frames somebody was matched in. -/
def hitCount (turns : List (Turn K)) (id : Int) : Nat :=
  turns.countP fun t => t.result.attached.any (·.object.id = id)

omit [Field K] [LinearOrder K] in
/-- A turn more counts one more, if it matched. -/
theorem hitCount_snoc (turns : List (Turn K)) (t : Turn K) (id : Int) [Decidable (t.Matched id)] :
    hitCount (turns ++ [t]) id = hitCount turns id + if t.Matched id then 1 else 0 := by
  have hany : t.result.attached.any (·.object.id = id) = true ↔ t.Matched id := by
    simp only [List.any_eq_true, decide_eq_true_eq]
    exact Iff.rfl
  simp only [hitCount, List.countP_append, List.countP_singleton, hany]

/-- The machine counts the matches.

Only whoever is tracked or expired can be matched, and there the machine counts. -/
theorem Booking.hits {P : Setup K} {s : Tracker K} {t : Turn K} {turns : List (Turn K)}
    {L : Ledger K} (h : Booking P turns s t L) {id : Int} {l : Life} (hfound : Found P turns s id l)
    (hhits : l.hits = hitCount turns id) :
    (l.next P.toThresholds t.input.frame_id (t.fate id)).hits = hitCount (turns ++ [t]) id := by
  classical
  rw [hitCount_snoc, ← hhits]
  have hfated := fated t id
  generalize t.fate id = fate at hfated ⊢
  cases hfated with
  | matched a ha hid =>
    obtain ⟨⟨o, ho, hbefore⟩, -⟩ := h.balanced.matched h.tidy ha
    obtain ⟨p, hl, -⟩ := hfound.present h.accounted ho (hbefore.id.symm.trans hid)
    have hmatched : t.Matched id := ⟨a, ha, hid⟩
    rw [if_pos hmatched]
    obtain ⟨rfl, -⟩ | ⟨rfl, -⟩ := hl
    · rfl
    · rfl
  | created c hc hid hun =>
    rw [if_neg hun]
    cases l <;> rfl
  | unseen hun hold =>
    rw [if_neg hun]
    exact next_unseen_hits P.toThresholds t.input.frame_id l

variable [IsStrictOrderedRing K]

/-- Where everybody is, and what the machine has counted. -/
theorem Run.found {P : Setup K} (hreid : P.valid_leave_with_reid = false)
    {turns : List (Turn K)} {s : Tracker K} (h : Run P Tracker.init turns s)
    (hsighted : ∀ t ∈ turns, Sighted t) (hbound : createdCount turns < 2 ^ 31) (id : Int) :
    Found P turns s id (life P turns id) ∧ (life P turns id).hits = hitCount turns id := by
  revert hbound
  refine Trace.history_of_forall (H := fun turns s => createdCount turns < 2 ^ 31 →
    Found P turns s id (life P turns id) ∧ (life P turns id).hits = hitCount turns id)
    ?_ ?_ h hsighted
  · intro _
    refine ⟨?_, rfl⟩
    show ¬ (0 ≤ id ∧ id < (0 : Nat))
    omega
  · intro turns s t s' hrun ih ht hupdates hbound
    have hbefore : createdCount turns < 2 ^ 31 := by
      rw [createdCount_append] at hbound
      omega
    have hs := Run.tidy tidy_init hrun
    have hacc := Run.accounted hrun hbefore
    obtain ⟨L, hL⟩ := hupdates.balanced hs
    -- `global_id` is a 32-bit counter, and has not wrapped around yet
    have hlt : s.global_id.toNat + t.result.created.length < 2 ^ 31 := by
      rwa [createdCount_append, createdCount_singleton, ← hacc.global_id] at hbound
    have hglobal := hupdates.global_id hs hlt
    rw [hupdates.2] at hglobal
    have hbooking : Booking P turns s t L := ⟨hreid, hs, hacc, hlt, hglobal, ht, hL⟩
    obtain ⟨hfound, hhits⟩ := ih hbefore
    rw [life_snoc, hupdates.2]
    exact ⟨hbooking.step hfound, hbooking.hits hfound hhits⟩

/-- **Every life.** In a run without re-identification and with fewer than 2^31 objects, on
detections that have a body box, everybody is where the machine of their own life has them, with the
hits, the status, the frames and the trajectory that it says, and reported if it says so; nobody is
twice in the lists and the reports together.

It rests on `Booking.step` for every id and every turn, and on the accounts of `Track.Identity` for
the last part. Without the bound on the objects two of them would have one id. -/
theorem Run.lives {P : Setup K} (hreid : P.valid_leave_with_reid = false)
    {turns : List (Turn K)} {s : Tracker K} (h : Run P Tracker.init turns s)
    (hsighted : ∀ t ∈ turns, Sighted t) (hbound : createdCount turns < 2 ^ 31) :
    (ids s + reported turns).Nodup ∧ ∀ id, Found P turns s id (life P turns id) :=
  ⟨(h.accounted hbound).nodup, fun id => (h.found hreid hsighted hbound id).1⟩

/-- Somebody in fourteen frames, a frame without anybody long after, and somebody new. -/
def comesAndGoes : List (Input ℚ) :=
  ((List.range 14).map fun k => shot 0 (UInt64.ofNat k) true) ++ [shot 0 200 false, shot 0 201 true]

/-- Its detections have a body box. -/
theorem comesAndGoes_sighted {turns : List (Turn ℚ)} (h : turns.map (·.input) = comesAndGoes) :
    ∀ t ∈ turns, Sighted t := by
  have hshot : ∀ inp ∈ comesAndGoes, ∃ k seen, inp = shot 0 k seen := by
    intro inp hinp
    obtain hinp | hinp := List.mem_append.mp hinp
    · obtain ⟨k, -, rfl⟩ := List.mem_map.mp hinp
      exact ⟨_, _, rfl⟩
    · obtain rfl | hinp := List.mem_cons.mp hinp
      · exact ⟨_, _, rfl⟩
      · obtain rfl := List.mem_singleton.mp hinp
        exact ⟨_, _, rfl⟩
  intro t ht d hd
  obtain ⟨k, seen, hinput⟩ := hshot t.input (h ▸ List.mem_map_of_mem ht)
  rw [hinput] at hd
  cases seen with
  | false => cases hd
  | true =>
    obtain rfl := List.mem_singleton.mp hd
    exact ⟨_, _, _, _, rfl⟩

/-- The first is gone and reported, the second is tracked, a third there has not been. -/
theorem Run.lives_comesAndGoes : ∃ turns s, Run scene Tracker.init turns s ∧
    turns.map (·.input) = comesAndGoes ∧
    (ids s + reported turns).Nodup ∧ Found scene turns s 0 (.gone ⟨13, 0, 13⟩ true) ∧
    Found scene turns s 1 (.tracked ⟨0, 0, 201⟩) ∧ Found scene turns s 2 .unborn := by
  obtain ⟨⟨turns, s⟩, hplay, hcheck⟩ := Abort.of_returns
    (x := play scene Tracker.init comesAndGoes)
    (p := fun r => decide (createdCount r.1 < 2 ^ 31) &&
      (decide (life scene r.1 0 = .gone ⟨13, 0, 13⟩ true) &&
        (decide (life scene r.1 1 = .tracked ⟨0, 0, 201⟩) &&
          decide (life scene r.1 2 = .unborn)))) (by decide +kernel)
  simp only [Bool.and_eq_true, decide_eq_true_eq] at hcheck
  obtain ⟨hbound, h₀, h₁, h₂⟩ := hcheck
  have hinputs := play_inputs hplay
  obtain ⟨hnodup, hfound⟩ := Run.lives (P := scene) rfl (play_run hplay)
    (comesAndGoes_sighted hinputs) hbound
  exact ⟨turns, s, play_run hplay, hinputs, hnodup, h₀ ▸ hfound 0, h₁ ▸ hfound 1, h₂ ▸ hfound 2⟩

/-! ## Who is reported -/

/-- **Who is reported.** In such a run somebody is reported, and then once, who is not there any more
and was matched in thirteen frames or more and in more than `hit_num_thresh`; nobody else ever is. A
trajectory that holds fewer than fifteen boxes reports nobody.

It is `Run.lives` and `Life.sound`: fifteen boxes are thirteen hits, as long as the trajectory may
hold fifteen. -/
theorem Run.reports {P : Setup K} (hreid : P.valid_leave_with_reid = false)
    {turns : List (Turn K)} {s : Tracker K} (h : Run P Tracker.init turns s)
    (hsighted : ∀ t ∈ turns, Sighted t) (hbound : createdCount turns < 2 ^ 31) (id : Int) :
    (reported turns).count id =
      if id ∉ ids s ∧ 13 ≤ hitCount turns id ∧ P.hit_num_thresh < hitCount turns id ∧
        15 ≤ asUnsigned P.trajectory_size then 1 else 0 := by
  obtain ⟨hfound, hhits⟩ := h.found hreid hsighted hbound id
  have hacc := h.accounted hbound
  obtain ⟨-, hnodup, hapart⟩ := Multiset.nodup_add.mp hacc.nodup
  have hsound := Life.sound P turns id
  have hthere : ∀ {o : PersonObject K}, o ∈ everyone s → o.id = id → id ∈ ids s :=
    fun ho hid => Multiset.mem_map.mpr ⟨_, ho, hid⟩
  have hpresent : id ∈ ids s → (reported turns).count id = 0 := fun hmem =>
    Multiset.count_eq_zero.mpr (Multiset.disjoint_left.mp hapart hmem)
  rw [← hhits]
  generalize life P turns id = l at hfound hsound
  cases l with
  | unborn =>
    rw [if_neg (by simp [Life.hits])]
    apply Multiset.count_eq_zero.mpr
    intro hmem
    exact hfound (hacc.below id (Multiset.mem_add.mpr (Or.inr hmem)))
  | tracked p =>
    obtain ⟨o, ho, hid, -⟩ := hfound
    have hmem := hthere (mem_everyone.mpr (Or.inl ho)) hid
    rw [if_neg fun hnot => hnot.1 hmem]
    exact hpresent hmem
  | expired p =>
    obtain ⟨o, ho, hid, -⟩ := hfound
    have hmem := hthere (mem_everyone.mpr (Or.inr ho)) hid
    rw [if_neg fun hnot => hnot.1 hmem]
    exact hpresent hmem
  | gone p r =>
    obtain ⟨-, hnot, hreported⟩ := hfound
    -- the machine lets nobody go with a report who has not earned it
    have hiff : r = true ↔ p.confirmed P.toThresholds = true ∧ 15 ≤ p.boxes P.toThresholds := hsound
    rw [confirmed_and_boxes] at hiff
    simp only [Life.hits, hnot, not_false_eq_true, true_and, ← hiff]
    split
    · rename_i hr
      exact Multiset.count_eq_one_of_mem hnodup (hreported.mpr hr)
    · rename_i hr
      exact Multiset.count_eq_zero.mpr fun hmem => hr (hreported.mp hmem)

/-- The first of them is reported once. -/
theorem Run.reports_comesAndGoes : ∃ turns s, Run scene Tracker.init turns s ∧
    turns.map (·.input) = comesAndGoes ∧ (reported turns).count 0 = 1 := by
  obtain ⟨⟨turns, s⟩, hplay, hcheck⟩ := Abort.of_returns
    (x := play scene Tracker.init comesAndGoes)
    (p := fun r => decide (createdCount r.1 < 2 ^ 31) &&
      (decide (hitCount r.1 0 = 13) &&
        r.2.trackedPersonObjects.all (decide <| ·.id ≠ 0) &&
          r.2.expiredPersonObjects.all (decide <| ·.id ≠ 0))) (by decide +kernel)
  simp only [Bool.and_eq_true, decide_eq_true_eq, List.all_eq_true] at hcheck
  obtain ⟨hbound, ⟨hhits, htracked⟩, hexpired⟩ := hcheck
  have hinputs := play_inputs hplay
  have hcount := Run.reports (P := scene) rfl (play_run hplay) (comesAndGoes_sighted hinputs)
    hbound 0
  have hgone : (0 : Int) ∉ ids s := by
    intro hmem
    obtain ⟨o, ho, hid⟩ := Multiset.mem_map.mp hmem
    obtain ho | ho := mem_everyone.mp ho
    · exact htracked o ho hid
    · exact hexpired o ho hid
  rw [hhits, if_pos ⟨hgone, by decide, by decide, by decide⟩] at hcount
  exact ⟨turns, s, play_run hplay, hinputs, hcount⟩

end EdgeFrame.Track
