/-
# EdgeFrame.Track.Identity -- ids are never shared and never reused

The ledger, read for ids only, is one equation: the ids after a turn, with those of
the objects that were deleted, are the ids before it with the new ones. Every law
about ids follows from it by induction on the run, as long as `global_id` fits into
the `int` it is stored in.

`Accounted` is what the induction carries: the ids in use, together with those that were
ever reported, are distinct, and all of them lie below `global_id`. New ids start at
`global_id` and so are different from every one of them; ids that were deleted only
leave the first bag. The bound of 2^31 objects enters at one place (`asInt_eq`), where
an id is stored as an `int`.
-/
import EdgeFrame.Track.Runs
import Mathlib

namespace EdgeFrame.Track

open Lib

variable {K : Type}

/-! ## The ids of a state -/

/-- The ids in use, with multiplicity. -/
def ids (s : Tracker K) : Multiset Int := (everyone s).map (·.id)

/-- A new tracker has no ids. -/
@[simp] theorem ids_init : ids (Tracker.init : Tracker K) = 0 := rfl

/-- The objects created in a run. -/
def createdCount (turns : List (Turn K)) : Nat := (turns.map (·.result.created.length)).sum

/-- The ids reported as valid leaves in a run. -/
def reported (turns : List (Turn K)) : Multiset Int :=
  (turns.map fun t => ((t.result.valid_leave_objects.map (·.id) : List Int) : Multiset Int)).sum

/-- What was created in two runs in a row, -/
@[simp] theorem createdCount_append (turns turns' : List (Turn K)) :
    createdCount (turns ++ turns') = createdCount turns + createdCount turns' := by
  simp [createdCount]

/-- and in one turn. -/
@[simp] theorem createdCount_singleton (t : Turn K) :
    createdCount [t] = t.result.created.length := by
  simp [createdCount]

/-- What was reported in two runs in a row, -/
@[simp] theorem reported_append (turns turns' : List (Turn K)) :
    reported (turns ++ turns') = reported turns + reported turns' := by
  simp [reported]

/-- and in one turn. -/
@[simp] theorem reported_singleton (t : Turn K) : reported [t] =
    ((t.result.valid_leave_objects.map (·.id) : List Int) : Multiset Int) := by
  simp [reported]

/-! ## New ids -/

/-- An id below 2^31 survives the conversion to `int`. -/
theorem asInt_eq {n : UInt64} (h : n.toNat < 2 ^ 31) : asInt n = n.toNat := by
  unfold asInt
  rw [Int.bmod_def]
  omega

/-- Below 2^31 the new ids are the next numbers. -/
theorem newIds_eq : ∀ {n : Nat} {global_id : UInt64}, global_id.toNat + n ≤ 2 ^ 31 →
    newIds global_id n = (List.range' global_id.toNat n).map Int.ofNat := by
  intro n
  induction n with
  | zero =>
    intro _ _
    exact rfl
  | succ n ih =>
    intro global_id h
    have hnext : (global_id + 1).toNat = global_id.toNat + 1 := by
      rw [UInt64.toNat_add, UInt64.toNat_one]
      omega
    rw [newIds, asInt_eq (by omega), ih (by omega), hnext, List.range'_succ, List.map_cons]
    rfl

/-- The new ids are the numbers from `global_id` on. -/
theorem mem_newIds {n : Nat} {global_id : UInt64} (h : global_id.toNat + n ≤ 2 ^ 31) {id : Int} :
    id ∈ newIds global_id n ↔ global_id.toNat ≤ id ∧ id < global_id.toNat + n := by
  rw [newIds_eq h]
  simp only [List.mem_map, List.mem_range'_1, Int.ofNat_eq_natCast]
  constructor
  · rintro ⟨k, hk, rfl⟩
    omega
  · intro hid
    exact ⟨id.toNat, by omega, by omega⟩

/-- They are distinct. -/
theorem nodup_newIds {n : Nat} {global_id : UInt64} (h : global_id.toNat + n ≤ 2 ^ 31) :
    (newIds global_id n).Nodup := by
  rw [newIds_eq h]
  exact (List.nodup_range' ..).map fun a b hab => Int.ofNat.inj hab

/-! ## The equation -/

variable [Field K] [LinearOrder K]

section

variable {P : Setup K} {s : Tracker K} {inp : Input K} {r : Result K} {L : Ledger K}

/-- A match keeps the id of the object. -/
theorem Balanced.updated_ids (h : Balanced P s inp r L) :
    (r.attached : Multiset (Attachment K)).map (·.updated.id) =
      (r.attached : Multiset (Attachment K)).map (·.object.id) :=
  Multiset.map_congr rfl fun a ha => (h.attachment a ha).id

/-- The matched ids, by the vector they were found in. -/
theorem Balanced.attached_ids (h : Balanced P s inp r L) :
    (r.attached : Multiset (Attachment K)).map (·.object.id) =
      (L.fromTracked : Multiset (Attachment K)).map (·.object.id) +
        (L.fromExpired : Multiset (Attachment K)).map (·.object.id) := by
  rw [h.attached, ← Multiset.coe_add, Multiset.map_add]

/-- The ids before a turn, by what becomes of the objects. -/
theorem Balanced.object_ids (h : Balanced P s inp r L) :
    ids s = (r.attached : Multiset (Attachment K)).map (·.object.id) + L.kept.map (·.id) +
      L.dropped.map (·.id) + L.waiting.map (·.id) + L.gone.map (·.id) := by
  have htracked := congrArg (Multiset.map (·.id)) h.tracked_before
  have hexpired := congrArg (Multiset.map (·.id)) h.expired_before
  simp only [Multiset.map_map, Multiset.map_add, Function.comp_def] at htracked hexpired
  rw [h.attached_ids]
  refine add_right_cancel (b := L.aged.map (·.id)) ?_
  calc ids s + L.aged.map (·.id) =
      (s.trackedPersonObjects : Multiset (PersonObject K)).map (fun o => (startFrame o).id) +
        ((s.expiredPersonObjects : Multiset (PersonObject K)).map (·.id) + L.aged.map (·.id)) := by
        simp only [ids, everyone, Multiset.map_add, startFrame]
        abel
    _ = _ := by
        rw [htracked, hexpired]
        abel

/-- **The ids of a turn**: what is there afterwards, with what was deleted, is what was there
before, with what was created. -/
theorem Balanced.ids_eq (h : Balanced P s inp r L) :
    ids r.tracker + (L.gone + L.dropped).map (·.id) =
      ids s + ((r.created.map (·.id) : List Int) : Multiset Int) := by
  have hafter := congrArg (Multiset.map (·.id)) h.tracked_after
  simp only [Multiset.map_map, Multiset.map_add, Function.comp_def] at hafter
  simp only [fun o : PersonObject K => (sameTrack_accumulate P inp.current o).id,
    h.updated_ids] at hafter
  rw [h.object_ids]
  simp only [ids, everyone, Multiset.map_add, h.expired_after, hafter, ← Multiset.map_coe]
  abel

/-- What is reported is deleted. -/
theorem Balanced.leaves_le (h : Balanced P s inp r L) :
    ((r.valid_leave_objects.map (·.id) : List Int) : Multiset Int) ≤
      (L.gone + L.dropped).map (·.id) := by
  rw [← Multiset.map_coe, h.leaves]
  exact Multiset.map_le_map ((Multiset.filter_le _ _).trans (Multiset.le_add_right _ _))

end

/-! ## Ids over a run -/

/-- The ids in use and the ids reported are distinct, and `global_id` has counted them. -/
structure Accounted (turns : List (Turn K)) (s : Tracker K) : Prop where
  global_id : s.global_id.toNat = createdCount turns
  nodup : (ids s + reported turns).Nodup
  below : ∀ id ∈ ids s + reported turns, 0 ≤ id ∧ id < s.global_id.toNat

omit [Field K] [LinearOrder K] in
/-- Nothing has been counted yet. -/
theorem accounted_init : Accounted [] (Tracker.init : Tracker K) :=
  ⟨rfl, by simp [reported], by simp [reported]⟩

variable [IsStrictOrderedRing K]

/-- `global_id` counts what is created, without wrapping around. -/
theorem Updates.global_id {P : Setup K} {s s' : Tracker K} {t : Turn K} (hs : Tidy s)
    (h : Updates P s t s')
    (hbound : s.global_id.toNat + t.result.created.length < 2 ^ 31) :
    s'.global_id.toNat = s.global_id.toNat + t.result.created.length := by
  obtain ⟨L, hL⟩ := h.balanced hs
  rw [h.2, hL.global_id, UInt64.toNat_add, UInt64.toNat_ofNat']
  omega

/-- One turn keeps the account. -/
theorem Accounted.step {P : Setup K} {turns : List (Turn K)} {s s' : Tracker K} {t : Turn K}
    (hs : Tidy s) (ha : Accounted turns s) (h : Updates P s t s')
    (hbound : createdCount (turns ++ [t]) < 2 ^ 31) : Accounted (turns ++ [t]) s' := by
  rw [createdCount_append, createdCount_singleton, ← ha.global_id] at hbound
  have hglobal := h.global_id hs hbound
  obtain ⟨L, hL⟩ := h.balanced hs
  have heq := hL.ids_eq
  rw [hL.created_ids, ← h.2] at heq
  -- what the books hold now was there, or is new
  have hle : ids s' + reported (turns ++ [t]) ≤
      (ids s + reported turns) + (newIds s.global_id t.result.created.length : Multiset Int) := by
    rw [reported_append, reported_singleton]
    calc ids s' + (reported turns + _)
        ≤ ids s' + (reported turns + (L.gone + L.dropped).map (·.id)) := by
          gcongr
          exact hL.leaves_le
      _ = (ids s' + (L.gone + L.dropped).map (·.id)) + reported turns := by abel
      _ = _ := by
          rw [heq]
          abel
  have hnew : ∀ id ∈ newIds s.global_id t.result.created.length,
      s.global_id.toNat ≤ id ∧ id < s.global_id.toNat + t.result.created.length :=
    fun id hid => (mem_newIds (by omega)).mp hid
  refine ⟨?_, Multiset.nodup_of_le hle ?_, fun id hid => ?_⟩
  · rw [hglobal, ha.global_id, createdCount_append, createdCount_singleton]
  · refine Multiset.nodup_add.mpr ⟨ha.nodup, nodup_newIds (by omega), ?_⟩
    rw [Multiset.disjoint_left]
    intro id hid hid'
    have hold := ha.below id hid
    have := hnew id hid'
    omega
  · rw [hglobal]
    rcases Multiset.mem_add.mp (Multiset.mem_of_le hle hid) with hid | hid
    · have hold := ha.below id hid
      omega
    · have := hnew id hid
      omega

/-- **The account of a run** with fewer than 2^31 objects. -/
theorem Run.accounted {P : Setup K} {turns : List (Turn K)} {s : Tracker K}
    (h : Run P Tracker.init turns s) (hbound : createdCount turns < 2 ^ 31) :
    Accounted turns s := by
  revert hbound
  refine Trace.history (H := fun turns s => createdCount turns < 2 ^ 31 → Accounted turns s)
    (fun _ => accounted_init) ?_ h
  intro turns s t s' hrun ih ht hbound
  refine (ih ?_).step (Run.tidy tidy_init hrun) ht hbound
  rw [createdCount_append] at hbound
  omega

/-! ## Objects keep their ids -/

/-- The objects of a state, seen from an earlier state of the run. -/
theorem Run.descent {P : Setup K} {turns₁ turns₂ : List (Turn K)} {s₁ s₂ : Tracker K}
    (h₁ : Run P Tracker.init turns₁ s₁) (h₂ : Run P s₁ turns₂ s₂)
    (hbound : createdCount (turns₁ ++ turns₂) < 2 ^ 31) :
    ∀ o₂ ∈ everyone s₂, (∃ o₁ ∈ everyone s₁, Descends P turns₂ o₁ o₂) ∨
      s₁.global_id.toNat ≤ o₂.id := by
  revert hbound
  refine Trace.history (H := fun turns s => createdCount (turns₁ ++ turns) < 2 ^ 31 →
    ∀ o₂ ∈ everyone s, (∃ o₁ ∈ everyone s₁, Descends P turns o₁ o₂) ∨
      s₁.global_id.toNat ≤ o₂.id) ?_ ?_ h₂
  · exact fun _ o₂ ho₂ => Or.inl ⟨o₂, ho₂, .refl o₂⟩
  · intro turns s t s' hrun ih ht hbound o' ho'
    have hall : Run P Tracker.init (turns₁ ++ turns) s := trace_append.mpr ⟨s₁, h₁, hrun⟩
    have hs := Run.tidy tidy_init hall
    rw [← List.append_assoc, createdCount_append, createdCount_singleton] at hbound
    have hacc := hall.accounted (by omega)
    have hacc₁ := h₁.accounted (by rw [createdCount_append] at hbound; omega)
    obtain ⟨L, hL⟩ := ht.balanced hs
    rw [ht.2] at ho'
    rcases hL.origin hs ho' with ⟨o, ho, hcont⟩ | ⟨c, hc, hsame⟩
    · rcases ih (by omega) o ho with ⟨o₁, ho₁, hdesc⟩ | hge
      · exact Or.inl ⟨o₁, ho₁, hdesc.step hcont⟩
      · exact Or.inr (hcont.id ▸ hge)
    · -- a new object has one of the next ids
      apply Or.inr
      have hmem : c.id ∈ newIds s.global_id t.result.created.length := by
        rw [← hL.created_ids]
        exact List.mem_map_of_mem hc
      have hge := ((mem_newIds (by rw [hacc.global_id]; omega)).mp hmem).1
      rw [hsame.id]
      have hmono : s₁.global_id.toNat ≤ s.global_id.toNat := by
        rw [hacc.global_id, hacc₁.global_id, createdCount_append]
        omega
      omega

/-- **Identity.** At every moment of a run with fewer than 2^31 objects the ids of all objects are
distinct and below `global_id`; between any two moments an object keeps its id, in whichever list it
is; and an id that was given and is not in use any more never comes back.

The three parts are read off `Accounted`: for the first it is asked of the state itself, for the last
of the later of two states, whose ids have their origin in the earlier one or above its `global_id`
(`Run.descent`). -/
theorem Run.identity {P : Setup K} {turns₁ turns₂ : List (Turn K)} {s₁ s₂ : Tracker K}
    (h₁ : Run P Tracker.init turns₁ s₁) (h₂ : Run P s₁ turns₂ s₂)
    (hbound : createdCount (turns₁ ++ turns₂) < 2 ^ 31) :
    (ids s₂).Nodup ∧ (∀ id ∈ ids s₂, 0 ≤ id ∧ id < s₂.global_id.toNat) ∧
      (∀ o₂ ∈ everyone s₂,
        (∃ o₁ ∈ everyone s₁, Descends P turns₂ o₁ o₂ ∧ o₂.id = o₁.id) ∨
          s₁.global_id.toNat ≤ o₂.id) ∧
      ∀ id : Int, id < s₁.global_id.toNat → id ∉ ids s₁ → id ∉ ids s₂ := by
  have hacc := Run.accounted (trace_append.mpr ⟨s₁, h₁, h₂⟩) hbound
  have hdesc := Run.descent h₁ h₂ hbound
  refine ⟨(Multiset.nodup_add.mp hacc.nodup).1, fun id hid => hacc.below id (by simp [hid]), ?_, ?_⟩
  · intro o₂ ho₂
    refine (hdesc o₂ ho₂).imp_left ?_
    rintro ⟨o₁, ho₁, hd⟩
    exact ⟨o₁, ho₁, hd, hd.id⟩
  · intro id hlt hnot hid
    obtain ⟨o₂, ho₂, rfl⟩ := Multiset.mem_map.mp hid
    rcases hdesc o₂ ho₂ with ⟨o₁, ho₁, hd⟩ | hge
    · exact hnot (Multiset.mem_map.mpr ⟨o₁, ho₁, hd.id.symm⟩)
    · omega

/-- Someone is seen in two frames and missed in the third one. -/
theorem Run.identity_three_frames : ∃ turns₁ s₁ turns₂ s₂, (ids s₁).Nodup ∧ (ids s₂).Nodup ∧
    Run scene Tracker.init turns₁ s₁ ∧ Run scene s₁ turns₂ s₂ ∧ createdCount turns₂ = 0 ∧
    ∀ id : Int, id < s₁.global_id.toNat → id ∉ ids s₁ → id ∉ ids s₂ := by
  obtain ⟨⟨turns₁, s₁⟩, hplay₁, hcheck⟩ := Abort.of_returns
    (x := play scene Tracker.init [shot 0 1 true])
    (p := fun r => decide (createdCount r.1 = 1) && Abort.returns
      (play scene r.2 [shot 0 2 true, shot 0 3 false])
      fun r' => decide (createdCount r'.1 = 0)) (by decide +kernel)
  simp only [Bool.and_eq_true, decide_eq_true_eq] at hcheck
  obtain ⟨⟨turns₂, s₂⟩, hplay₂, hcreated⟩ := Abort.of_returns hcheck.2
  have hcreated : createdCount turns₂ = 0 := of_decide_eq_true hcreated
  have h₁ := play_run hplay₁
  have h₂ := play_run hplay₂
  have hbound : createdCount (turns₁ ++ turns₂) < 2 ^ 31 := by
    rw [createdCount_append, hcheck.1, hcreated]
    decide
  obtain ⟨hnodup, -, -, hnever⟩ := Run.identity h₁ h₂ hbound
  have hstart : Run scene Tracker.init [] Tracker.init := rfl
  have hfirst := Run.identity hstart h₁ (by simp only [List.nil_append, hcheck.1]; decide)
  exact ⟨turns₁, s₁, turns₂, s₂, hfirst.1, hnodup, h₁, h₂, hcreated, hnever⟩

end EdgeFrame.Track
