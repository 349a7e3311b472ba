/-
# EdgeFrame.Track.History -- a confirmed object has a history

An object is confirmed by being seen again and again: created in one turn, matched to
a detection with a body in each of the `hit_num_thresh + 1` turns that follow. The
history of an unconfirmed object is still being written, and ends with the first turn
that does not match it: the object is deleted.

`Documented` says what the turns of a run tell of the two kinds of objects, and a turn is
followed object by object, through the ledger: an unconfirmed object after a turn was
matched in it or is new (`Documented.step_unconfirmed`), and a confirmed one was confirmed
before or has just had its last hit (`Documented.step_confirmed`). That a person without a
match is not there unless confirmed is what the erase loop of the tracked ones does, and
the ledger has it (`Balanced.unmatched_confirmed`).

`Monitor.Events` reads the history of a confirmed object to show that no event is about
somebody who was seen by chance.
-/
import EdgeFrame.Track.Runs
import Mathlib

namespace EdgeFrame.Track

open Lib

variable {K : Type}

/-- The turn matched the object with this id to a detection of its frame that has a body. -/
def Turn.MatchedBody (t : Turn K) (id : Int) : Prop :=
  ∃ a ∈ t.result.attached, a.object.id = id ∧
    ∃ d ∈ t.input.cur_detected_person_objects, d.is_current_body_detected = true ∧
      d.sighting = a.detection.sighting

/-- Created in a turn, and matched in each of the `n` turns that followed it. -/
def Seen (n : Nat) (turns : List (Turn K)) (id : Int) : Prop :=
  ∃ before first hits after, turns = before ++ first :: (hits ++ after) ∧ first.Created id ∧
    hits.length = n ∧ ∀ t ∈ hits, t.MatchedBody id

/-- Created in a turn, and matched in every turn since. -/
def SeenSince (turns : List (Turn K)) (o : PersonObject K) : Prop :=
  ∃ before first hits, turns = before ++ first :: hits ∧ first.Created o.id ∧
    o.body_hit_num = hits.length ∧ ∀ t ∈ hits, t.MatchedBody o.id

/-- Further turns do not unmake it. -/
theorem Seen.later {n : Nat} {turns : List (Turn K)} {id : Int} (h : Seen n turns id) (t : Turn K) :
    Seen n (turns ++ [t]) id := by
  obtain ⟨before, first, hits, after, rfl, hfirst, hlen, hhits⟩ := h
  exact ⟨before, first, hits, after ++ [t], by simp, hfirst, hlen, hhits⟩

/-- It is about the id of the object and its hits. -/
theorem SeenSince.same {turns : List (Turn K)} {o o' : PersonObject K} (h : SeenSince turns o)
    (hsame : SameTrack o o') : SeenSince turns o' := by
  obtain ⟨before, first, hits, heq, hfirst, hnum, hhits⟩ := h
  exact ⟨before, first, hits, heq, hsame.id ▸ hfirst, hsame.body_hit_num ▸ hnum, hsame.id ▸ hhits⟩

/-- Detections as the constructor leaves them: not confirmed, without a hit.

It is what `PersonObject`'s constructor makes of a detection, and what every caller of `Update` hands
over. -/
def FreshDetections (t : Turn K) : Prop :=
  ∀ d ∈ t.input.cur_detected_person_objects,
    d.object_status = .unconfirmed ∧ d.body_hit_num = 0

/-- What the history of the turns says about the state.

In a reachable state every object is of one of the two kinds. -/
structure Documented (n : Nat) (turns : List (Turn K)) (s : Tracker K) : Prop where
  unconfirmed : ∀ o ∈ s.trackedPersonObjects, o.object_status = .unconfirmed →
    SeenSince turns o ∧ o.body_hit_num < n
  confirmed : ∀ o ∈ everyone s, o.object_status = .confirmed → Seen n turns o.id

variable [Field K] [LinearOrder K]

section

variable {P : Setup K} {s : Tracker K} {t : Turn K} {L : Ledger K}

/-- Whoever is attached was matched, and to a detection with a body: both passes take no other. -/
theorem Balanced.matchedBody (h : Balanced P s t.input t.result L) {a : Attachment K}
    (ha : a ∈ t.result.attached) : t.MatchedBody a.object.id := by
  obtain ⟨d, hd, hsight⟩ := h.detection_seen ha
  have hbody : d.is_current_body_detected = a.detection.is_current_body_detected :=
    (congrArg PersonObject.is_current_body_detected hsight :)
  exact ⟨a, ha, rfl, d, hd, hbody.trans (h.attachment a ha).detection_body, hsight⟩

/-- A new object has no hits yet. -/
theorem Balanced.created_fresh (h : Balanced P s t.input t.result L) (hfresh : FreshDetections t)
    {c : PersonObject K} (hc : c ∈ t.result.created) :
    c.object_status = .unconfirmed ∧ c.body_hit_num = 0 := by
  obtain ⟨d, hd, hsight⟩ := h.created_seen hc
  have hstatus : d.object_status = c.object_status :=
    (congrArg PersonObject.object_status hsight :)
  have hhit : d.body_hit_num = c.body_hit_num := (congrArg PersonObject.body_hit_num hsight :)
  exact ⟨hstatus ▸ (hfresh d hd).1, hhit ▸ (hfresh d hd).2⟩

/-- **An unconfirmed object that misses a frame is gone**: what is there after a turn and was
neither matched nor created in it was confirmed before it. -/
theorem Balanced.unmatched_confirmed (hs : Tidy s) (h : Balanced P s t.input t.result L)
    {o' : PersonObject K} (ho' : o' ∈ everyone t.result.tracker) :
    (∃ a ∈ t.result.attached, SameTrack a.updated o') ∨ (∃ c ∈ t.result.created, SameTrack c o') ∨
      ∃ o ∈ everyone s, SameTrack o o' ∧ o.object_status = .confirmed := by
  rcases mem_everyone.mp ho' with ho' | ho'
  · rcases h.mem_tracked.mp ho' with hk | ⟨a, ha, rfl⟩ | ⟨c, hc, rfl⟩
    · obtain ⟨o, ho, rfl⟩ := h.kept_was_tracked hk
      exact Or.inr (Or.inr ⟨o, mem_everyone.mpr (Or.inl ho), sameTrack_startFrame o,
        (h.kept _ hk).2.1⟩)
    · exact Or.inl ⟨a, ha, sameTrack_accumulate P t.input.current a.updated⟩
    · exact Or.inr (Or.inl ⟨c, hc, sameTrack_accumulate P t.input.current c⟩)
  · have hmem : o' ∈ (L.fromExpired : Multiset (Attachment K)).map (·.object) + L.waiting +
        L.gone := by simp [h.mem_expired.mp ho']
    obtain ⟨o, ho, hsame⟩ := h.expired_was_there hmem
    exact Or.inr (Or.inr ⟨o, ho, hsame,
      hsame.object_status.symm.trans (h.expired_confirmed hs hmem)⟩)

end

omit [LinearOrder K] in
/-- The status of a matched object, by its hits.

The status is set by `takeBody`, once the count is above the threshold. -/
theorem Attached.confirmed_iff {P : Setup K} {a : Attachment K} (h : Attached P a) :
    a.updated.object_status = .confirmed ↔
      P.hit_num_thresh < a.object.body_hit_num + 1 ∨ a.object.object_status = .confirmed := by
  rw [h.status]
  split
  · rename_i hlt
    exact iff_of_true rfl (Or.inl hlt)
  · rename_i hge
    exact (or_iff_right hge).symm

section

variable {P : Setup K} {n : Nat} {turns : List (Turn K)} {s : Tracker K} {t : Turn K} {L : Ledger K}

/-- A matched object that was not confirmed has one hit more in its history. -/
theorem Documented.hit (hd : Documented n turns s) (hs : Tidy s)
    (h : Balanced P s t.input t.result L) {a : Attachment K} (ha : a ∈ t.result.attached)
    (hunconf : a.object.object_status = .unconfirmed) :
    SeenSince (turns ++ [t]) a.updated ∧ a.object.body_hit_num < n := by
  have hatt := h.attachment a ha
  rcases h.object_was_there hs ha with ⟨o, ho, hsame⟩ | ⟨o, -, hsame, hconf⟩
  · obtain ⟨⟨before, first, hits, rfl, hfirst, hnum, hhits⟩, hlt⟩ :=
      hd.unconfirmed o ho (hsame.object_status ▸ hunconf)
    have hid : a.updated.id = o.id := hatt.id.trans hsame.id
    refine ⟨⟨before, first, hits ++ [t], by simp, hid ▸ hfirst, ?_, ?_⟩, hsame.body_hit_num ▸ hlt⟩
    · rw [hatt.hit, hsame.body_hit_num, hnum, List.length_append]
      rfl
    · intro u hu
      rcases List.mem_append.mp hu with hu | hu
      · exact hid ▸ hhits u hu
      · rw [List.mem_singleton.mp hu, hatt.id]
        exact h.matchedBody ha
  · rw [hsame.object_status, hconf] at hunconf
    cases hunconf

/-- What is unconfirmed after a turn was matched in it and has not enough hits yet, or is new. -/
theorem Documented.step_unconfirmed (hthresh : 0 ≤ P.hit_num_thresh) (hs : Tidy s)
    (hfresh : FreshDetections t) (hd : Documented (P.hit_num_thresh + 1).toNat turns s)
    (h : Balanced P s t.input t.result L) {o' : PersonObject K}
    (ho' : o' ∈ everyone t.result.tracker) (hunconf : o'.object_status = .unconfirmed) :
    SeenSince (turns ++ [t]) o' ∧ o'.body_hit_num < (P.hit_num_thresh + 1).toNat := by
  rcases h.unmatched_confirmed hs ho' with ⟨a, ha, hsame⟩ | ⟨c, hc, hsame⟩ | ⟨o, -, hsame, hconf⟩
  · have hatt := h.attachment a ha
    rw [hsame.object_status] at hunconf
    have hnot : ¬ (P.hit_num_thresh < a.object.body_hit_num + 1 ∨
        a.object.object_status = .confirmed) := by
      rw [← hatt.confirmed_iff, hunconf]
      decide
    push Not at hnot
    have hbefore : a.object.object_status = .unconfirmed := by
      cases hst : a.object.object_status with
      | unconfirmed => rfl
      | confirmed => exact absurd hst hnot.2
    refine ⟨(hd.hit hs h ha hbefore).1.same hsame, ?_⟩
    rw [hsame.body_hit_num, hatt.hit]
    omega
  · obtain ⟨-, hzero⟩ := h.created_fresh hfresh hc
    rw [hsame.body_hit_num, hzero]
    refine ⟨⟨turns, t, [], rfl, ⟨c, hc, hsame.id.symm⟩, ?_, by simp⟩, by omega⟩
    rw [hsame.body_hit_num, hzero]
    rfl
  · rw [hsame.object_status, hconf] at hunconf
    cases hunconf

/-- What is confirmed after a turn was confirmed before it, or has just had its last hit. -/
theorem Documented.step_confirmed (hs : Tidy s) (hfresh : FreshDetections t)
    (hd : Documented (P.hit_num_thresh + 1).toNat turns s) (h : Balanced P s t.input t.result L)
    {o' : PersonObject K} (ho' : o' ∈ everyone t.result.tracker)
    (hconf : o'.object_status = .confirmed) :
    Seen (P.hit_num_thresh + 1).toNat (turns ++ [t]) o'.id := by
  rcases h.unmatched_confirmed hs ho' with ⟨a, ha, hsame⟩ | ⟨c, hc, hsame⟩ | ⟨o, ho, hsame, hoconf⟩
  · have hatt := h.attachment a ha
    rw [hsame.object_status] at hconf
    rw [hsame.id]
    cases hst : a.object.object_status with
    | confirmed =>
      obtain ⟨o, ho, hbefore⟩ : ∃ o ∈ everyone s, SameTrack o a.object := by
        rcases h.object_was_there hs ha with ⟨o, ho, hbefore⟩ | ⟨o, ho, hbefore, -⟩
        · exact ⟨o, mem_everyone.mpr (Or.inl ho), hbefore⟩
        · exact ⟨o, mem_everyone.mpr (Or.inr ho), hbefore⟩
      rw [hatt.id, hbefore.id]
      exact (hd.confirmed o ho (hbefore.object_status ▸ hst)).later t
    | unconfirmed =>
      -- confirmed by this very turn
      obtain ⟨⟨before, first, hits, heq, hfirst, hnum, hhits⟩, hlt⟩ := hd.hit hs h ha hst
      have hgt : P.hit_num_thresh < a.object.body_hit_num + 1 := by
        simpa [hst] using hatt.confirmed_iff.mp hconf
      refine ⟨before, first, hits, [], by simpa using heq, hfirst, ?_, hhits⟩
      rw [hatt.hit] at hnum
      omega
  · obtain ⟨hunconf, -⟩ := h.created_fresh hfresh hc
    rw [hsame.object_status, hunconf] at hconf
    cases hconf
  · rw [hsame.id]
    exact (hd.confirmed o ho hoconf).later t

/-- **A turn writes the history on.** -/
theorem Documented.step (hthresh : 0 ≤ P.hit_num_thresh) (hs : Tidy s) (hfresh : FreshDetections t)
    (hd : Documented (P.hit_num_thresh + 1).toNat turns s)
    (h : Balanced P s t.input t.result L) :
    Documented (P.hit_num_thresh + 1).toNat (turns ++ [t]) t.result.tracker :=
  ⟨fun _ ho' => hd.step_unconfirmed hthresh hs hfresh h (mem_everyone.mpr (Or.inl ho')),
    fun _ ho' => hd.step_confirmed hs hfresh h ho'⟩

end

omit [Field K] [LinearOrder K] in
/-- A new tracker has nobody to tell of. -/
theorem documented_init {n : Nat} : Documented n [] (Tracker.init : Tracker K) := by
  constructor
  · intro o ho
    cases ho
  · intro o ho
    cases (Multiset.notMem_zero o) ho

/-- **The history of a run.**

By the history rule of the tracker, from `documented_init` and the step. -/
theorem Run.documented [IsStrictOrderedRing K] {P : Setup K} (hthresh : 0 ≤ P.hit_num_thresh)
    {turns : List (Turn K)} {s : Tracker K} (h : Run P Tracker.init turns s)
    (hfresh : ∀ t ∈ turns, FreshDetections t) :
    Documented (P.hit_num_thresh + 1).toNat turns s := by
  refine Run.history documented_init ?_ h hfresh
  intro turns s t L hs ih ht hL
  exact Documented.step hthresh hs ht ih hL

end EdgeFrame.Track
