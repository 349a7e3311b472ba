/-
# EdgeFrame.Api.Survivors -- what the two loops of the mask face detector leave

In hard suppression the boxes do not change, so that the outcome can be said in terms
of the candidates alone. A candidate reaches a later one when none of those in between,
nor the later one, is too small: at the first that is too small the inner loop gives its
own box up. A candidate is alive at its turn when it is large enough and no alive one
that reaches it overlaps it. It survives when, besides, nothing after it is too small.

These words (`Small`, `Reaches`, `Alive`, `Drops`, `Survives`) are about a list of
candidates and name no loop. The two loops are followed with one invariant each:
`Compared` for the inner loop of an alive candidate, up to the index it looks at next, and
`Swept` for the outer one. In each an index either changes nothing or is dropped, which
are the pairs of lemmas `skip` and `drop`, `skip` and `sweep`. `suppress_spec` reads the
invariant off at the end; `LowerScores` and `FarApart` use nothing else of the loops.
-/
import EdgeFrame.Api.FaceDetectWithMask
import EdgeFrame.Lib.Loops
import Mathlib

namespace EdgeFrame.Api

open Lib

variable {K : Type} [Field K] [LinearOrder K]

/-! ## Alive candidates -/

section

variable (D : FaceDetectWithMask K) (cands : List (Candidate K))

/-- The candidate at index `j` is too small. -/
def Small (j : Nat) : Bool := (cands[j]?).any fun c => D.tooSmall (c.clipped D)

/-- The test of hard suppression, for the candidates at these indexes. -/
def Covers (i j : Nat) : Bool :=
  (cands[i]?).any fun a => (cands[j]?).any fun b => overlaps (a.clipped D) (b.clipped D)

/-- The inner loop for `i` gets to `j` and finds it large enough. -/
def Reaches (i j : Nat) : Prop := i < j ∧ ∀ m, i < m → m ≤ j → Small D cands m = false

/-- Not too small, and not dropped by an earlier one when its turn comes.

It is a recursion on the index, as the loops are: who drops it has been alive at an earlier turn. -/
def Alive (i : Nat) : Prop :=
  Small D cands i = false ∧
    ∀ k, k < i → Alive k → Reaches D cands k i → Covers D cands k i = false
termination_by i

/-- `i` is alive, reaches `j` and drops it. -/
def Drops (i j : Nat) : Prop := Alive D cands i ∧ Reaches D cands i j ∧ Covers D cands i j = true

/-- Alive, and nothing after it is too small. -/
def Survives (i : Nat) : Prop := Alive D cands i ∧ ∀ m, i < m → Small D cands m = false

end

variable {D : FaceDetectWithMask K} {cands : List (Candidate K)} {exp : K → K}

/-- Who is alive, in terms of what drops it. -/
theorem alive_iff {i : Nat} : Alive D cands i ↔
    Small D cands i = false ∧ ∀ k, k < i → ¬ Drops D cands k i := by
  rw [Alive]
  refine and_congr_right fun _ => forall₂_congr fun k _ => ?_
  constructor
  · rintro h ⟨halive, hreach, hcovers⟩
    rw [h halive hreach] at hcovers
    cases hcovers
  · intro h halive hreach
    rw [← Bool.not_eq_true]
    exact fun hcovers => h ⟨halive, hreach, hcovers⟩

/-- `Small` is the detector's test of the clipped candidate. -/
theorem small_eq {j : Nat} {c : Candidate K} (h : cands[j]? = some c) :
    Small D cands j = D.tooSmall (c.clipped D) := by
  rw [Small, h]
  rfl

/-- An index that is too small is one of the list. -/
theorem lt_length_of_small {j : Nat} (h : Small D cands j = true) : j < cands.length := by
  by_contra hj
  rw [Small, List.getElem?_eq_none (not_lt.mp hj)] at h
  cases h

/-- `Covers` is the test of hard suppression on the clipped candidates. -/
theorem covers_eq {i j : Nat} {a b : Candidate K} (ha : cands[i]? = some a)
    (hb : cands[j]? = some b) :
    Covers D cands i j = overlaps (a.clipped D) (b.clipped D) := by
  rw [Covers, ha, hb]
  rfl

/-- What drops another comes before it. -/
theorem Drops.lt {i j : Nat} (h : Drops D cands i j) : i < j := h.2.1.1

/-! ## The inner loop -/

/-- What the inner loop of an alive `i` has done before it looks at index `p`.

The flag of `i` itself says whether an index has been too small; the flags from `p` on are those it
started with. -/
structure Compared (D : FaceDetectWithMask K) (cands : List (Candidate K)) (i : Nat)
    (st : Suppression K) (p : Nat) (st' : Suppression K) : Prop where
  bboxes_ : st'.bboxes_ = cands
  own : st'.drop_flag i = true ↔ ∃ m, i < m ∧ m < p ∧ Small D cands m = true
  others : ∀ j, j ≠ i →
    (st'.drop_flag j = true ↔ st.drop_flag j = true ∨ j < p ∧ Drops D cands i j)
  log : ∀ k j, (k, j) ∈ st'.suppressed ↔
    (k, j) ∈ st.suppressed ∨ k = i ∧ j < p ∧ Drops D cands i j

/-- Nothing is new at an index that `i` does not drop, as long as the flags of the others stay. -/
theorem Compared.skip {i p : Nat} {st st' st'' : Suppression K} (h : Compared D cands i st p st')
    (hdrops : ¬ Drops D cands i p) (hboxes : st''.bboxes_ = cands)
    (hown : st''.drop_flag i = true ↔ ∃ m, i < m ∧ m < p + 1 ∧ Small D cands m = true)
    (hothers : ∀ j, j ≠ i → st''.drop_flag j = st'.drop_flag j)
    (hlog : st''.suppressed = st'.suppressed) : Compared D cands i st (p + 1) st'' := by
  have hlt : ∀ j, (j < p + 1 ∧ Drops D cands i j) ↔ (j < p ∧ Drops D cands i j) := by
    intro j
    refine and_congr_left fun hj => ?_
    have hne : j ≠ p := by
      rintro rfl
      exact hdrops hj
    omega
  constructor
  · exact hboxes
  · exact hown
  · intro j hj
    rw [hothers j hj, h.others j hj, hlt]
  · intro k j
    rw [hlog, h.log k j, hlt]

/-- An index that `i` drops. -/
theorem Compared.drop {i p : Nat} {st st' : Suppression K} (h : Compared D cands i st p st')
    (hdrops : Drops D cands i p) (hflag : st'.drop_flag i = false)
    (hown : ¬ ∃ m, i < m ∧ m < p + 1 ∧ Small D cands m = true) :
    Compared D cands i st (p + 1)
      { st'.drop p with suppressed := st'.suppressed ++ [(i, p)] } := by
  have hip := hdrops.lt
  have hlt : ∀ j, j ≠ p → ((j < p + 1 ∧ Drops D cands i j) ↔ (j < p ∧ Drops D cands i j)) := by
    intro j hj
    refine and_congr_left fun _ => ?_
    omega
  constructor
  -- the flag of `i` itself is not touched
  · exact h.bboxes_
  · show Function.update st'.drop_flag p true i = true ↔ _
    rw [Function.update_of_ne (by omega)]
    exact iff_of_false (by simp [hflag]) hown
  -- `p` gets its flag now, the others keep theirs
  · intro j hj
    show Function.update st'.drop_flag p true j = true ↔ _
    by_cases hjp : j = p
    · subst hjp
      rw [Function.update_self]
      exact iff_of_true rfl (Or.inr ⟨Nat.lt_succ_self j, hdrops⟩)
    · rw [Function.update_of_ne hjp, h.others j hj, hlt j hjp]
  -- and the pair is noted
  · intro k j
    show (k, j) ∈ st'.suppressed ++ [(i, p)] ↔ _
    rw [List.mem_append, h.log k j, List.mem_singleton, Prod.mk.injEq]
    by_cases hjp : j = p
    · subst hjp
      constructor
      · rintro ((hold | ⟨rfl, hlt, -⟩) | ⟨rfl, -⟩)
        · exact Or.inl hold
        · exact absurd hlt (lt_irrefl j)
        · exact Or.inr ⟨rfl, Nat.lt_succ_self j, hdrops⟩
      · rintro (hold | ⟨rfl, -⟩)
        · exact Or.inl (Or.inl hold)
        · exact Or.inr ⟨rfl, rfl⟩
    · rw [hlt j hjp]
      simp [hjp]

/-- One index of the inner loop: it is too small, or it is dropped, or nothing happens. -/
theorem Compared.step (hhard : D.soft_nms_ = false) {i p : Nat} {st st' : Suppression K}
    {a : Candidate K} (ha : cands[i]? = some a) (halive : Alive D cands i) (hip : i < p)
    (hp : p < cands.length) (h : Compared D cands i st p st') :
    Compared D cands i st (p + 1) (innerPass exp D i (a.clipped D) st' p) := by
  have hbox : st'.bboxes_[p]? = some cands[p] := by
    rw [h.bboxes_]
    exact List.getElem?_eq_getElem hp
  have hbox' : cands[p]? = some cands[p] := List.getElem?_eq_getElem hp
  unfold innerPass
  cases hflag : st'.drop_flag i with
  | true =>
    -- given up at an earlier index
    obtain ⟨m, him, hmp, hsmall⟩ := h.own.mp hflag
    rw [if_pos rfl]
    refine h.skip ?_ h.bboxes_ ?_ (fun _ _ => rfl) rfl
    · rintro ⟨-, hreach, -⟩
      have hlarge := hreach.2 m him hmp.le
      rw [hsmall] at hlarge
      cases hlarge
    · exact iff_of_true hflag ⟨m, him, by omega, hsmall⟩
  | false =>
    have hclear : ∀ m, i < m → m < p → Small D cands m = false := by
      intro m him hmp
      rw [← Bool.not_eq_true]
      intro hsmall
      rw [h.own.mpr ⟨m, him, hmp, hsmall⟩] at hflag
      cases hflag
    rw [if_neg (by simp), hbox]
    simp only
    cases hsmall : Small D cands p with
    | true =>
      rw [if_pos (by rw [← small_eq hbox', hsmall])]
      refine h.skip ?_ h.bboxes_ ?_ ?_ rfl
      · rintro ⟨-, hreach, -⟩
        have hlarge := hreach.2 p hip (le_refl p)
        rw [hsmall] at hlarge
        cases hlarge
      · refine iff_of_true ?_ ⟨p, hip, by omega, hsmall⟩
        simp [Suppression.drop]
      · intro j hj
        simp [Suppression.drop, hj]
    | false =>
      have hreach : Reaches D cands i p := by
        refine ⟨hip, ?_⟩
        intro m him hmp
        rcases Nat.lt_or_eq_of_le hmp with hlt | rfl
        · exact hclear m him hlt
        · exact hsmall
      have hown : ¬ ∃ m, i < m ∧ m < p + 1 ∧ Small D cands m = true := by
        rintro ⟨m, him, hmp, hm⟩
        rw [hreach.2 m him (by omega)] at hm
        cases hm
      rw [if_neg (by rw [← small_eq hbox', hsmall]; simp)]
      unfold Suppression.compare
      rw [hhard, if_neg (by simp)]
      split
      · rename_i hover
        refine h.drop ⟨halive, hreach, ?_⟩ hflag hown
        rw [covers_eq ha hbox']
        exact hover
      · -- the boxes do not overlap enough
        rename_i hover
        refine h.skip ?_ h.bboxes_ (iff_of_false (by simp [hflag]) hown) (fun _ _ => rfl) rfl
        rintro ⟨-, -, hcovers⟩
        rw [covers_eq ha hbox'] at hcovers
        exact hover hcovers

/-- The inner loop, by induction on how far it has come. -/
theorem compared_range (hhard : D.soft_nms_ = false) {i : Nat} {st : Suppression K}
    {a : Candidate K} (ha : cands[i]? = some a) (halive : Alive D cands i)
    (hboxes : st.bboxes_ = cands) (hflag : st.drop_flag i = false) {n : Nat}
    (hn : i + 1 + n ≤ cands.length) : Compared D cands i st (i + 1 + n)
      ((List.range' (i + 1) n).foldl (innerPass exp D i (a.clipped D)) st) := by
  refine foldl_range'_induction ?_ ?_
  · constructor
    · exact hboxes
    · refine iff_of_false (by simp [hflag]) ?_
      rintro ⟨m, him, hmp, -⟩
      omega
    · intro j _
      refine (or_iff_left ?_).symm
      rintro ⟨hj, hdrops⟩
      have hlt := hdrops.lt
      omega
    · intro k j
      refine (or_iff_left ?_).symm
      rintro ⟨-, hj, hdrops⟩
      have hlt := hdrops.lt
      omega
  · intro p st' hip hp h
    exact h.step hhard ha halive (by omega) (by omega)

/-! ## The outer loop -/

/-- What the outer loop has done before it looks at index `i`.

The flags before `i` are final; those from `i` on say who has been dropped so far. -/
structure Swept (D : FaceDetectWithMask K) (cands : List (Candidate K)) (i : Nat)
    (st : Suppression K) : Prop where
  bboxes_ : st.bboxes_ = cands
  before : ∀ j, j < i → (st.drop_flag j = false ↔ Survives D cands j)
  after : ∀ j, i ≤ j → (st.drop_flag j = true ↔ ∃ k, k < i ∧ Drops D cands k j)
  log : ∀ k j, (k, j) ∈ st.suppressed ↔ k < i ∧ Drops D cands k j

/-- An index that is not alive drops nothing. -/
theorem Swept.skip {i : Nat} {st st' : Suppression K} (h : Swept D cands i st)
    (halive : ¬ Alive D cands i) (hboxes : st'.bboxes_ = cands) (hown : st'.drop_flag i = true)
    (hothers : ∀ j, j ≠ i → st'.drop_flag j = st.drop_flag j)
    (hlog : st'.suppressed = st.suppressed) : Swept D cands (i + 1) st' := by
  have hlt : ∀ k j, (k < i + 1 ∧ Drops D cands k j) ↔ (k < i ∧ Drops D cands k j) := by
    intro k j
    refine and_congr_left fun hdrops => ?_
    have hne : k ≠ i := by
      rintro rfl
      exact halive hdrops.1
    omega
  constructor
  · exact hboxes
  · intro j hj
    by_cases hji : j = i
    · subst hji
      exact iff_of_false (by simp [hown]) fun hsurvives => halive hsurvives.1
    · rw [hothers j hji]
      exact h.before j (by omega)
  · intro j hj
    rw [hothers j (by omega), h.after j (by omega)]
    exact exists_congr fun k => (hlt k j).symm
  · intro k j
    rw [hlog, h.log, hlt]

/-- An alive index drops what its inner loop drops. -/
theorem Swept.sweep {i : Nat} {st st' : Suppression K} (h : Swept D cands i st)
    (hi : i < cands.length) (halive : Alive D cands i)
    (hinner : Compared D cands i st cands.length st') : Swept D cands (i + 1) st' := by
  -- an index that is dropped is that of a candidate
  have hdropped : ∀ j, (j < cands.length ∧ Drops D cands i j) ↔ Drops D cands i j := by
    intro j
    refine and_iff_right_of_imp ?_
    rintro ⟨-, -, hcovers⟩
    by_contra hj
    rw [Covers, List.getElem?_eq_getElem hi, List.getElem?_eq_none (not_lt.mp hj)] at hcovers
    cases hcovers
  have hsplit : ∀ k j, (k < i + 1 ∧ Drops D cands k j) ↔
      (k < i ∧ Drops D cands k j) ∨ (k = i ∧ Drops D cands i j) := by
    intro k j
    constructor
    · rintro ⟨hk, hdrops⟩
      rcases Nat.lt_succ_iff_lt_or_eq.mp hk with hk | rfl
      · exact Or.inl ⟨hk, hdrops⟩
      · exact Or.inr ⟨rfl, hdrops⟩
    · rintro (⟨hk, hdrops⟩ | ⟨rfl, hdrops⟩)
      · exact ⟨by omega, hdrops⟩
      · exact ⟨by omega, hdrops⟩
  constructor
  · exact hinner.bboxes_
  · intro j hj
    by_cases hji : j = i
    · subst hji
      rw [← Bool.not_eq_true, hinner.own]
      constructor
      · intro hnone
        refine ⟨halive, ?_⟩
        intro m hm
        rw [← Bool.not_eq_true]
        exact fun hs => hnone ⟨m, hm, lt_length_of_small hs, hs⟩
      · rintro hsurvives ⟨m, hm, -, hs⟩
        rw [hsurvives.2 m hm] at hs
        cases hs
    · rw [← Bool.not_eq_true, hinner.others j hji, ← h.before j (by omega), ← Bool.not_eq_true,
        not_or]
      refine and_iff_left ?_
      rintro ⟨-, hdrops⟩
      have hlt := hdrops.lt
      omega
  · intro j hj
    rw [hinner.others j (by omega), h.after j (by omega), hdropped]
    constructor
    · rintro (⟨k, hk⟩ | hdrops)
      · exact ⟨k, (hsplit k j).mpr (Or.inl hk)⟩
      · exact ⟨i, (hsplit i j).mpr (Or.inr ⟨rfl, hdrops⟩)⟩
    · rintro ⟨k, hk⟩
      rcases (hsplit k j).mp hk with hk | ⟨-, hdrops⟩
      · exact Or.inl ⟨k, hk⟩
      · exact Or.inr hdrops
  · intro k j
    rw [hinner.log, h.log, hsplit, hdropped]

/-- One index of the outer loop: it has been dropped before, or is too small, or has its inner
loop. -/
theorem Swept.step (hhard : D.soft_nms_ = false) {i : Nat} {st : Suppression K}
    (hi : i < cands.length) (h : Swept D cands i st) :
    Swept D cands (i + 1) (outerPass exp D st i) := by
  have hbox : cands[i]? = some cands[i] := List.getElem?_eq_getElem hi
  unfold outerPass
  cases hflag : st.drop_flag i with
  | true =>
    -- dropped by an earlier one
    rw [if_pos rfl]
    obtain ⟨k, hki, hdrops⟩ := (h.after i (le_refl i)).mp hflag
    refine h.skip ?_ h.bboxes_ hflag (fun _ _ => rfl) rfl
    exact fun halive => (alive_iff.mp halive).2 k hki hdrops
  | false =>
    rw [if_neg (by simp), h.bboxes_, hbox]
    simp only
    cases hsmall : Small D cands i with
    | true =>
      rw [if_pos (by rw [← small_eq hbox, hsmall])]
      refine h.skip ?_ h.bboxes_ ?_ ?_ rfl
      · intro halive
        rw [(alive_iff.mp halive).1] at hsmall
        cases hsmall
      · simp [Suppression.drop]
      · intro j hj
        simp [Suppression.drop, hj]
    | false =>
      have halive : Alive D cands i := by
        refine alive_iff.mpr ⟨hsmall, ?_⟩
        intro k hki hdrops
        rw [(h.after i (le_refl i)).mpr ⟨k, hki, hdrops⟩] at hflag
        cases hflag
      rw [if_neg (by rw [← small_eq hbox, hsmall]; simp)]
      have hlen : i + 1 + (cands.length - (i + 1)) = cands.length := by omega
      have hinner : Compared D cands i st (i + 1 + (cands.length - (i + 1)))
          ((List.range' (i + 1) (cands.length - (i + 1))).foldl
            (innerPass exp D i (cands[i].clipped D)) st) :=
        compared_range hhard hbox halive h.bboxes_ hflag hlen.le
      rw [hlen] at hinner
      exact h.sweep hi halive hinner

/-- **The two loops, in hard suppression**: a flag is left unset exactly for the candidates that
survive, and the pairs of which one dropped the other are those of an alive candidate and one that it
reaches and overlaps. -/
theorem suppress_spec (exp : K → K) (hhard : D.soft_nms_ = false) :
    Swept D cands cands.length (suppress exp D cands) := by
  refine foldl_range_induction ?_ ?_
  · constructor
    · rfl
    · intro j hj
      omega
    · intro j _
      refine iff_of_false (by simp) ?_
      rintro ⟨k, hk, -⟩
      omega
    · intro k j
      simp
  · intro i st hi h
    exact h.step hhard hi

end EdgeFrame.Api
