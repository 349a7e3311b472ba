/-
# EdgeFrame.Assign.Progress -- the solver returns, with a complete matching

Each pass of the scan in `step3` makes progress: it covers another row, or it
finds an augmenting path and `step4` uses one more row, or it finds nothing and
`step5` makes a zero for the next pass. `potential` adds the three up, and
`assignmentoptimal_spec` concludes that for every matrix the solver returns an
assignment that uses each row and each column at most once and `min m n` of them.

The states between two searches are `Settled` and those within one are `Searching`
(`Assign.Stars`), and every step of the solver has one lemma that says what it makes of them:

  * `preliminary_settled`: the preliminary steps leave a settled state;
  * `scanColumns_spec`: a pass over the columns covers rows, or ends at a zero whose row
    has no star, or finds no uncovered zero;
  * `step4_spec`: a path settles the search again, with one more row starred;
  * `step5_spec`: where no uncovered zero is left, one is made, since an element is
    uncovered as long as a row is to be starred (`Searching.exists_uncovered`);
  * `step2b_spec`: the solver stops where each row or each column is starred.

The recursion of the solver has a bound on its passes as fuel; `potential_lt_passes` says
that the bound is above the potential, so that it never runs out.
-/
import EdgeFrame.Assign.Stars
import Mathlib

namespace EdgeFrame.Assign

open Lib

variable {K : Type} {m n : Nat}

/-! ## The preliminary steps -/

/-- What the preliminary steps maintain: the covered columns are the starred ones, and the rows in
`rows` that have been passed hold every star.

`rows` is a predicate, so that the loop over the rows can be followed in any order of a list without
repetitions. -/
structure Starring (s : Work m n K) (rows : Fin m → Prop) : Prop where
  matching : IsMatching (Stars s.starMatrix)
  columns : ∀ c, s.coveredColumns c = true ↔ ∃ r, s.starMatrix r c = true
  rows : ∀ r c, s.starMatrix r c = true → rows r
  primes : ∀ r c, s.primeMatrix r c = false

/-- Before the first row nothing is starred and nothing covered. -/
theorem starring_init (d : Fin m → Fin n → K) : Starring (Work.init d) fun _ => False := by
  refine ⟨⟨?_, ?_⟩, ?_, ?_, ?_⟩ <;> simp [Work.init, Stars]

/-- Starring one entry whose row and column are free. -/
theorem Starring.setEntry {s : Work m n K} {rows : Fin m → Prop} (h : Starring s rows)
    {row : Fin m} {col : Fin n} (hrow : ∀ c, s.starMatrix row c ≠ true)
    (hcol : s.coveredColumns col = false) :
    Starring { s with
      starMatrix := setEntry s.starMatrix row col true
      coveredColumns := Function.update s.coveredColumns col true } fun r => rows r ∨ r = row := by
  -- a column that is not covered has no star
  have hnone : ∀ r, s.starMatrix r col ≠ true := by
    intro r hr
    rw [(h.columns col).mpr ⟨r, hr⟩] at hcol
    cases hcol
  refine ⟨⟨?_, ?_⟩, ?_, ?_, h.primes⟩
  · intro r c c' hc hc'
    rcases setEntry_eq_true.mp hc with ⟨rfl, rfl⟩ | hold <;>
      rcases setEntry_eq_true.mp hc' with ⟨hr, rfl⟩ | hold'
    · rfl
    · exact absurd hold' (hrow c')
    · exact absurd (hr ▸ hold) (hrow c)
    · exact h.matching.left hold hold'
  · intro r r' c hr hr'
    rcases setEntry_eq_true.mp hr with ⟨rfl, rfl⟩ | hold <;>
      rcases setEntry_eq_true.mp hr' with ⟨rfl, hc⟩ | hold'
    · rfl
    · exact absurd hold' (hnone r')
    · exact absurd (hc ▸ hold) (hnone r)
    · exact h.matching.right hold hold'
  · intro c
    by_cases hc : c = col
    · subst hc
      simp only [Function.update_self, true_iff]
      exact ⟨row, setEntry_eq_true.mpr (Or.inl ⟨rfl, rfl⟩)⟩
    · simp only [Function.update_of_ne hc, h.columns c]
      refine exists_congr fun r => ?_
      simp [hc]
  · intro r c hr
    rcases setEntry_eq_true.mp hr with ⟨rfl, -⟩ | hold
    · exact Or.inr rfl
    · exact Or.inl (h.rows r c hold)

section

variable [Field K] [LinearOrder K]

/-- Starring by rows: a row is starred once, in an uncovered column. -/
theorem starRow_spec {s : Work m n K} {rows : Fin m → Prop} (h : Starring s rows) {row : Fin m}
    (hrow : ¬ rows row) :
    Starring (starRow s row) (fun r => rows r ∨ r = row) ∧
      (starRow s row).coveredRows = s.coveredRows := by
  unfold starRow
  split
  · exact ⟨⟨h.matching, h.columns, fun r c hr => Or.inl (h.rows r c hr), h.primes⟩, rfl⟩
  · rename_i col hfind
    have hcol := List.find?_some hfind
    simp only [Bool.and_eq_true, Bool.not_eq_true'] at hcol
    exact ⟨h.setEntry (fun c hc => hrow (h.rows row c hc)) hcol.2, rfl⟩

/-- The loop over the rows: those of the list have been passed as well, and no row is covered. -/
theorem foldl_starRow_spec {l : List (Fin m)} (hnd : l.Nodup) {s : Work m n K}
    {rows : Fin m → Prop} (h : Starring s rows) (hl : ∀ r ∈ l, ¬ rows r) :
    Starring (l.foldl starRow s) (fun r => rows r ∨ r ∈ l) ∧
      (l.foldl starRow s).coveredRows = s.coveredRows := by
  induction l generalizing s rows with
  | nil => simpa using h
  | cons row l ih =>
    obtain ⟨hrow, hnd'⟩ := List.nodup_cons.mp hnd
    obtain ⟨hstep, hcov⟩ := starRow_spec h (hl row List.mem_cons_self)
    have hl' : ∀ r ∈ l, ¬ (rows r ∨ r = row) := by
      rintro r hr (hrows | rfl)
      · exact hl r (List.mem_cons_of_mem _ hr) hrows
      · exact hrow hr
    obtain ⟨hfold, hcov'⟩ := ih hnd' hstep hl'
    refine ⟨?_, hcov'.trans hcov⟩
    simpa [or_assoc, List.mem_cons] using hfold

/-- Starring by columns: a column is starred once, in an uncovered row; the covered rows are the
starred ones. -/
structure StarringColumns (s : Work m n K) (columns : Fin n → Prop) : Prop where
  starring : Starring s fun r => s.coveredRows r = true
  columns : ∀ c, s.coveredColumns c = true → columns c

/-- One pass of the loop over the columns, in a tall matrix. -/
theorem starColumn_spec {s : Work m n K} {columns : Fin n → Prop} (h : StarringColumns s columns)
    {col : Fin n} (hcol : ¬ columns col) :
    StarringColumns (starColumn s col) fun c => columns c ∨ c = col := by
  unfold starColumn
  split
  · exact ⟨h.starring, fun c hc => Or.inl (h.columns c hc)⟩
  · rename_i row hfind
    have hrow := List.find?_some hfind
    simp only [Bool.and_eq_true, Bool.not_eq_true'] at hrow
    have hfree : s.coveredColumns col = false := by
      rw [← Bool.not_eq_true]
      exact fun hc => hcol (h.columns col hc)
    have hno : ∀ c, s.starMatrix row c ≠ true := by
      intro c hc
      rw [h.starring.rows row c hc] at hrow
      exact Bool.noConfusion hrow.2
    have hset := h.starring.setEntry hno hfree
    refine ⟨⟨hset.matching, hset.columns, ?_, hset.primes⟩, ?_⟩
    · intro r c hr
      rcases hset.rows r c hr with hcov | rfl
      · by_cases he : r = row
        · rw [he]
          exact Function.update_self ..
        · simp only [Function.update_of_ne he]
          exact hcov
      · exact Function.update_self ..
    · intro c hc
      by_cases he : c = col
      · exact Or.inr he
      · simp only [Function.update_of_ne he] at hc
        exact Or.inl (h.columns c hc)

/-- The loop over the columns. -/
theorem foldl_starColumn_spec {l : List (Fin n)} (hnd : l.Nodup) {s : Work m n K}
    {columns : Fin n → Prop} (h : StarringColumns s columns) (hl : ∀ c ∈ l, ¬ columns c) :
    StarringColumns (l.foldl starColumn s) fun c => columns c ∨ c ∈ l := by
  induction l generalizing s columns with
  | nil => simpa using h
  | cons col l ih =>
    obtain ⟨hcol, hnd'⟩ := List.nodup_cons.mp hnd
    have hl' : ∀ c ∈ l, ¬ (columns c ∨ c = col) := by
      rintro c hc (hcols | rfl)
      · exact hl c (List.mem_cons_of_mem _ hc) hcols
      · exact hcol hc
    have hfold := ih hnd' (starColumn_spec h (hl col List.mem_cons_self)) hl'
    simpa [or_assoc, List.mem_cons] using hfold

/-- The preliminary steps leave a settled state.

The wide and the tall case are the two loops above. In the tall case the covered rows are given free
again at the end. -/
theorem preliminary_settled (d : Fin m → Fin n → K) : Settled (preliminary d) := by
  unfold preliminary
  split
  · obtain ⟨h, hcov⟩ := foldl_starRow_spec (List.nodup_finRange m)
      (starring_init (reduceRows d)) (fun _ _ => not_false)
    exact ⟨h.matching, h.columns, fun r => by rw [hcov]; rfl, h.primes⟩
  · have hinit : StarringColumns (Work.init (reduceColumns d)) fun _ : Fin n => False := by
      refine ⟨⟨(starring_init _).matching, (starring_init _).columns, ?_, (starring_init _).primes⟩,
        ?_⟩ <;> simp [Work.init]
    have h := (foldl_starColumn_spec (List.nodup_finRange n) hinit (fun _ _ => not_false)).starring
    exact ⟨h.matching, h.columns, fun _ => rfl, h.primes⟩

end

/-! ## One pass of the scan -/

/-- The number of rows that are not covered. -/
def uncoveredRows (s : Work m n K) : Nat :=
  (Finset.univ.filter fun r => s.coveredRows r = false).card

/-- Covering an uncovered row leaves fewer of them. -/
theorem uncoveredRows_update {s : Work m n K} {row : Fin m} (hrow : s.coveredRows row = false)
    {s' : Work m n K} (hs' : s'.coveredRows = Function.update s.coveredRows row true) :
    uncoveredRows s' < uncoveredRows s := by
  refine Finset.card_lt_card (Finset.ssubset_iff_subset_ne.mpr ⟨?_, ?_⟩)
  · intro r hr
    simp only [Finset.mem_filter, Finset.mem_univ, true_and, hs'] at hr ⊢
    by_cases he : r = row
    · rw [he]
      exact hrow
    · simpa only [Function.update_of_ne he] using hr
  · intro he
    have hmem : row ∈ Finset.univ.filter fun r => s'.coveredRows r = false := by
      rw [he]
      simp [hrow]
    simp [hs'] at hmem

section

variable [Field K] [LinearOrder K]

/-- An uncovered zero is left. -/
def HasZero (s : Work m n K) : Prop :=
  ∃ r c, s.coveredRows r = false ∧ s.coveredColumns c = false ∧ isZero (s.distMatrix r c) = true

/-- What a pass over the columns `cols` tells.

The pass ends in one of two ways, as `scanColumns` does: at a zero for `step4`, or with the columns
done. -/
def ScanSpec (cols : List (Fin n)) (s : Work m n K) (zerosFound : Bool) : Scan m n K → Prop
  | .step4 s' row col => ∃ s₀, PathStart s₀ row col ∧ s₀.starMatrix = s.starMatrix ∧
      s' = { s₀ with primeMatrix := setEntry s₀.primeMatrix row col true }
  | .passed s' true => Searching s' ∧ s'.starMatrix = s.starMatrix ∧
      uncoveredRows s' ≤ uncoveredRows s ∧ (zerosFound = false → uncoveredRows s' < uncoveredRows s)
  | .passed s' false => s' = s ∧ zerosFound = false ∧
      ∀ c ∈ cols, s.coveredColumns c = false → ∀ r, s.coveredRows r = false →
        isZero (s.distMatrix r c) = false

/-- By induction on the columns: a zero whose row holds a star covers that row and uncovers the
star's column, and the pass goes on in a state that is `Searching` as well. -/
theorem scanColumns_spec {cols : List (Fin n)} {s : Work m n K} {zerosFound : Bool}
    (h : Searching s) : ScanSpec cols s zerosFound (scanColumns cols s zerosFound) := by
  induction cols generalizing s zerosFound with
  | nil =>
    cases zerosFound with
    | true => exact ⟨h, rfl, le_rfl, fun h => nomatch h⟩
    | false => exact ⟨rfl, rfl, fun c hc => nomatch hc⟩
  | cons col cols ih =>
    -- a column that changes nothing leaves the answer to the rest of the pass
    have hskip : (s.coveredColumns col = false → ∀ r, s.coveredRows r = false →
        isZero (s.distMatrix r col) = false) →
        ScanSpec (col :: cols) s zerosFound (scanColumns cols s zerosFound) := by
      intro hno
      have hrest : ScanSpec cols s zerosFound (scanColumns cols s zerosFound) := ih h
      revert hrest
      cases scanColumns cols s zerosFound with
      | step4 s' row col' => exact id
      | passed s' found =>
        cases found with
        | true => exact id
        | false =>
          rintro ⟨hs', hfound, hzero⟩
          refine ⟨hs', hfound, fun c hc => ?_⟩
          rcases List.mem_cons.mp hc with rfl | hc
          · exact hno
          · exact hzero c hc
    unfold scanColumns
    split
    · rename_i hcov
      exact hskip fun hc => absurd hcov (by rw [hc]; decide)
    · rename_i hcov
      have hcol : s.coveredColumns col = false := by simpa using hcov
      split
      · rename_i hfind
        refine hskip fun _ r hr => ?_
        have hnone := List.find?_eq_none.mp hfind r (List.mem_finRange r)
        simpa [hr] using hnone
      · rename_i row hfind
        have hzero := List.find?_some hfind
        simp only [Bool.and_eq_true, Bool.not_eq_true'] at hzero
        dsimp only
        split
        · rename_i hnone
          exact ⟨s, ⟨h, hzero.1, hcol, findInRow_eq_none.mp hnone⟩, rfl, rfl⟩
        · rename_i starCol hsome
          -- the row is covered now, so whatever the rest of the pass finds, it made progress
          have hnext := h.cover_row hzero.1 hcol (findInRow_eq_some hsome)
          set s₁ : Work m n K := { s with
            primeMatrix := setEntry s.primeMatrix row col true
            coveredRows := Function.update s.coveredRows row true
            coveredColumns := Function.update s.coveredColumns starCol false }
          have hlt : uncoveredRows s₁ < uncoveredRows s := uncoveredRows_update hzero.1 rfl
          have hrest : ScanSpec cols s₁ true (scanColumns cols s₁ true) := ih hnext
          revert hrest
          cases scanColumns cols s₁ true with
          | step4 s' row' col' => exact id
          | passed s' found =>
            cases found with
            | true =>
              rintro ⟨hs', hstar, hle, -⟩
              exact ⟨hs', hstar, by omega, fun _ => by omega⟩
            | false =>
              rintro ⟨-, hfound, -⟩
              cases hfound

end

/-! ## `step4` -/

/-- **An augmenting path** settles the search again, with one more row starred. -/
theorem step4_spec {s : Work m n K} {row : Fin m} {col : Fin n} (h : PathStart s row col) :
    ∃ s', step4 { s with primeMatrix := setEntry s.primeMatrix row col true } row col = .ok s' ∧
      Settled (step2a s') ∧
      ∀ r, (∃ c, s'.starMatrix r c = true) ↔ (∃ c, s.starMatrix r c = true) ∨ r = row := by
  -- the rank that the search has built up bounds the length of the path
  obtain ⟨t, ht⟩ := h.searching.rank
  have hT : ∀ r, t r < Finset.univ.sup t + 1 := fun r =>
    Nat.lt_succ_of_le (Finset.le_sup (Finset.mem_univ r))
  have hprime : ∀ r, s.coveredRows r = true →
      setEntry s.primeMatrix row col true r = s.primeMatrix r := by
    intro r hr
    have hne : r ≠ row := by
      rintro rfl
      rw [h.row_uncovered] at hr
      cases hr
    funext c
    simp [setEntry, hne]
  -- the fuel is one more than there are rows
  have hfuel : (rowsAhead s t (Finset.univ.sup t + 1)).card < m + 1 := by
    have hle := Finset.card_le_univ (rowsAhead s t (Finset.univ.sup t + 1))
    rw [Fintype.card_fin] at hle
    omega
  obtain ⟨N, hN, hmatch, hrows, hsame⟩ :=
    step4Path_spec h.searching ht hprime (h.onPath hT) hfuel
  refine ⟨{ s with
    starMatrix := N, primeMatrix := fun _ _ => false, coveredRows := fun _ => false }, ?_,
    ⟨hmatch, ?_, fun _ => rfl, fun _ _ => rfl⟩, hrows⟩
  · simp only [step4, hN]
    rfl
  -- `step2a` covers the columns with a star, besides those that are covered already
  · intro c
    constructor
    · intro hc
      simp only [step2a, Bool.or_eq_true] at hc
      rcases hc with hc | hc
      · -- a column covered during the search keeps its star: the row of that star is not covered
        obtain ⟨r, hr⟩ := h.searching.column_star c hc
        have hcover := h.searching.cover r c hr
        rw [hc] at hcover
        have hne : r ≠ row := by
          rintro rfl
          rw [h.no_star c] at hr
          cases hr
        refine ⟨r, ?_⟩
        simp only [step2a]
        rw [hsame r (by simpa using hcover.symm) hne c]
        exact hr
      · obtain ⟨r, hr⟩ := Option.isSome_iff_exists.mp hc
        exact ⟨r, findInColumn_eq_some hr⟩
    · rintro ⟨r, hr⟩
      simp only [step2a, Bool.or_eq_true]
      apply Or.inr
      rw [Option.isSome_iff_ne_none]
      intro hnone
      have hno := findInColumn_eq_none.mp hnone r
      simp only [step2a] at hr
      rw [hr] at hno
      cases hno

/-! ## Counting stars -/

/-- The number of starred rows. -/
noncomputable def stars (s : Work m n K) : Nat := (leftSide (Stars s.starMatrix)).card

/-- The count is that of the stars only. -/
theorem stars_congr {s s' : Work m n K} (h : s'.starMatrix = s.starMatrix) :
    stars s' = stars s := by
  rw [stars, stars, h]

/-- A path adds one starred row. -/
theorem stars_succ {s s' : Work m n K} {row : Fin m} (hrow : ∀ c, s.starMatrix row c = false)
    (h : ∀ r, (∃ c, s'.starMatrix r c = true) ↔ (∃ c, s.starMatrix r c = true) ∨ r = row) :
    stars s' = stars s + 1 := by
  have hnot : row ∉ leftSide (Stars s.starMatrix) := by
    rw [mem_leftSide]
    rintro ⟨c, hc⟩
    rw [Stars, hrow c] at hc
    cases hc
  rw [stars, stars, ← Finset.card_insert_of_notMem hnot]
  congr 1
  ext r
  rw [mem_leftSide, Finset.mem_insert, mem_leftSide, or_comm]
  exact h r

/-- A matching has no more stars than rows or columns. -/
theorem stars_le {s : Work m n K} (h : IsMatching (Stars s.starMatrix)) : stars s ≤ min m n := by
  refine le_min ?_ ?_
  · exact (Finset.card_le_univ _).trans_eq (Fintype.card_fin m)
  · rw [stars, h.card_eq]
    exact (Finset.card_le_univ _).trans_eq (Fintype.card_fin n)

/-- Counting in the list of all columns is counting in their finite set. -/
theorem countP_finRange (p : Fin n → Bool) :
    (List.finRange n).countP p = (Finset.univ.filter fun c => p c = true).card := by
  rw [List.countP_eq_length_filter, ← List.toFinset_card_of_nodup
    ((List.nodup_finRange n).filter _)]
  congr 1
  ext c
  simp

/-- Between two searches `step2b` counts the stars. -/
theorem nOfCoveredColumns_eq {s : Work m n K} (h : Settled s) : nOfCoveredColumns s = stars s := by
  rw [nOfCoveredColumns, countP_finRange, stars, h.matching.card_eq]
  congr 1
  ext c
  rw [mem_rightSide, Finset.mem_filter]
  simpa [Stars] using h.columns c

/-- With rows left to star, there are a row and a column without a star.

A matching that is smaller than both sides leaves one of each. -/
theorem Searching.exists_unstarred {s : Work m n K} (h : Searching s) (hlt : stars s < min m n) :
    ∃ r c, (∀ c', s.starMatrix r c' = false) ∧ ∀ r', s.starMatrix r' c = false := by
  have hrow : ∃ r, r ∉ leftSide (Stars s.starMatrix) := by
    by_contra hall
    push Not at hall
    have hcard : stars s = m := by
      rw [stars, Finset.eq_univ_iff_forall.mpr hall, Finset.card_univ, Fintype.card_fin]
    omega
  have hcol : ∃ c, c ∉ rightSide (Stars s.starMatrix) := by
    by_contra hall
    push Not at hall
    have hcard : stars s = n := by
      rw [stars, h.matching.card_eq, Finset.eq_univ_iff_forall.mpr hall, Finset.card_univ,
        Fintype.card_fin]
    omega
  obtain ⟨r, hr⟩ := hrow
  obtain ⟨c, hc⟩ := hcol
  refine ⟨r, c, fun c' => ?_, fun r' => ?_⟩
  · rw [← Bool.not_eq_true]
    exact fun hstar => hr (mem_leftSide.mpr ⟨c', hstar⟩)
  · rw [← Bool.not_eq_true]
    exact fun hstar => hc (mem_rightSide.mpr ⟨r', hstar⟩)

/-- A row without a star is not covered. -/
theorem Searching.row_uncovered {s : Work m n K} (h : Searching s) {r : Fin m}
    (hr : ∀ c, s.starMatrix r c = false) : s.coveredRows r = false := by
  rw [← Bool.not_eq_true]
  intro hcov
  obtain ⟨c, hc⟩ := h.row_star r hcov
  exact Bool.false_ne_true ((hr c).symm.trans hc)

/-- A column without a star is not covered. -/
theorem Searching.column_uncovered {s : Work m n K} (h : Searching s) {c : Fin n}
    (hc : ∀ r, s.starMatrix r c = false) : s.coveredColumns c = false := by
  rw [← Bool.not_eq_true]
  intro hcov
  obtain ⟨r, hr⟩ := h.column_star c hcov
  exact Bool.false_ne_true ((hc r).symm.trans hr)

/-- A search with rows left to star leaves an element uncovered. -/
theorem Searching.exists_uncovered {s : Work m n K} (h : Searching s) (hlt : stars s < min m n) :
    ∃ r c, s.coveredRows r = false ∧ s.coveredColumns c = false := by
  obtain ⟨r, c, hr, hc⟩ := h.exists_unstarred hlt
  exact ⟨r, c, h.row_uncovered hr, h.column_uncovered hc⟩

/-- There are `m` rows. -/
theorem uncoveredRows_le {s : Work m n K} : uncoveredRows s ≤ m :=
  (Finset.card_le_univ _).trans_eq (Fintype.card_fin m)

/-! ## `step2b` -/

/-- What the solver promises about the assignment.

Optimality is not among it; that is `Assign.Optimal`. -/
def Complete (assignment : Fin m → Option (Fin n)) : Prop :=
  IsMatching (fun r c => assignment r = some c) ∧
    (leftSide fun r c => assignment r = some c).card = min m n

/-- A row is assigned the column of its star, of which it has one at most. -/
theorem buildassignmentvector_eq_some {star : Fin m → Fin n → Bool} (h : IsMatching (Stars star))
    {r : Fin m} {c : Fin n} : buildassignmentvector star r = some c ↔ star r c = true := by
  constructor
  · exact findInRow_eq_some
  · intro hc
    cases hfind : findInRow star r with
    | none =>
      rw [findInRow_eq_none.mp hfind c] at hc
      cases hc
    | some c' => rw [buildassignmentvector, hfind, h.left (findInRow_eq_some hfind) hc]

/-- `step2b` stops at a complete assignment, or leaves rows to star. -/
theorem step2b_spec {k : Work m n K → Except Abort (Fin m → Option (Fin n))} {s : Work m n K}
    (h : Settled s) (hk : stars s < min m n → ∃ a, k s = .ok a ∧ Complete a) :
    ∃ a, step2b k s = .ok a ∧ Complete a := by
  unfold step2b
  rw [nOfCoveredColumns_eq h]
  split
  · rename_i hfull
    have heq : (fun r c => buildassignmentvector s.starMatrix r = some c) = Stars s.starMatrix := by
      funext r c
      exact propext (buildassignmentvector_eq_some h.matching)
    refine ⟨_, rfl, ?_⟩
    rw [Complete, heq]
    exact ⟨h.matching, hfull⟩
  · rename_i hne
    exact hk (lt_of_le_of_ne (stars_le h.matching) hne)

/-! ## `step5` -/

/-- `step5` moves no star, no prime and no cover. -/
theorem Searching.shift {s : Work m n K} (h : Searching s) (d : Fin m → Fin n → K) :
    Searching { s with distMatrix := d } :=
  ⟨h.matching, h.cover, h.row_star, h.column_star, h.prime_row, h.row_prime, h.prime_column,
    h.rank⟩

/-- What `step5` takes the minimum of. -/
theorem mem_uncovered {s : Work m n K} {v : K} : v ∈ uncovered s ↔
    ∃ r c, s.coveredRows r = false ∧ s.coveredColumns c = false ∧ s.distMatrix r c = v := by
  simp only [uncovered, List.mem_flatMap, List.mem_filter, List.mem_finRange, true_and,
    List.mem_map, Bool.not_eq_true']
  constructor
  · rintro ⟨r, hr, c, hc, rfl⟩
    exact ⟨r, c, hr, hc, rfl⟩
  · rintro ⟨r, c, hr, hc, rfl⟩
    exact ⟨r, hr, c, hc, rfl⟩

/-- The minimum that the loop keeps is a value it has seen. -/
theorem foldl_min_mem [LinearOrder K] {x : K} {l : List K} :
    l.foldl (fun h value => if value < h then value else h) x ∈ x :: l := by
  induction l generalizing x with
  | nil => exact List.mem_cons_self
  | cons v l ih =>
    simp only [List.foldl_cons]
    split
    · exact List.mem_cons_of_mem _ ih
    · rcases List.mem_cons.mp (ih (x := x)) with h | h
      · rw [h]
        exact List.mem_cons_self
      · exact List.mem_cons_of_mem _ (List.mem_cons_of_mem _ h)

section

variable [Field K] [LinearOrder K]

/-- So the smallest value of a list is in the list. -/
theorem minValue_mem {x : K} {l : List K} : minValue (x :: l) ∈ x :: l := foldl_min_mem

/-- Zero is below `DBL_EPSILON`. -/
theorem isZero_zero [IsStrictOrderedRing K] : isZero (0 : K) = true := by
  simp [isZero, DBL_EPSILON]

/-- **`step5` makes a zero** where an uncovered element exists.

The smallest uncovered element is subtracted from itself; its row and its column are not covered, so
that it is found by the next pass. -/
theorem step5_spec [IsStrictOrderedRing K] {s : Work m n K}
    (hex : ∃ r c, s.coveredRows r = false ∧ s.coveredColumns c = false) :
    ∃ d, step5 s = .ok { s with distMatrix := d } ∧ HasZero { s with distMatrix := d } := by
  obtain ⟨r, c, hr, hc⟩ := hex
  have hmem : s.distMatrix r c ∈ uncovered s := mem_uncovered.mpr ⟨r, c, hr, hc, rfl⟩
  unfold step5
  cases huncov : uncovered s with
  | nil =>
    rw [huncov] at hmem
    cases hmem
  | cons v vs =>
    refine ⟨_, rfl, ?_⟩
    obtain ⟨r₀, c₀, hr₀, hc₀, hv⟩ := mem_uncovered.mp (huncov ▸ minValue_mem)
    refine ⟨r₀, c₀, hr₀, hc₀, ?_⟩
    simp only [hr₀, hc₀, hv, huncov, Bool.false_eq_true, if_false]
    rw [sub_self]
    exact isZero_zero

/-! ## The search ends -/

open Classical in
/-- What is left to do: rows to star first, then rows to cover, then a zero to make.

The weights make the three count one after the other: a row less to star outweighs all rows to cover,
and a row less to cover outweighs the zero. -/
noncomputable def potential (s : Work m n K) : Nat :=
  (min m n - stars s) * (2 * m + 3) + 2 * uncoveredRows s + if HasZero s then 0 else 1

/-- With a row fewer to star, whatever else is left to do counts less. -/
theorem potential_lt_of_stars {s s' : Work m n K} (hlt : stars s < min m n)
    (h : stars s' = stars s + 1) : potential s' < potential s := by
  obtain ⟨k, hk⟩ : ∃ k, min m n - stars s = k + 1 := ⟨min m n - stars s - 1, by omega⟩
  have hk' : min m n - stars s' = k := by omega
  have hle := uncoveredRows_le (s := s')
  have hmul : (k + 1) * (2 * m + 3) = k * (2 * m + 3) + (2 * m + 3) := Nat.succ_mul ..
  rw [potential, potential, hk, hk', hmul]
  split <;> split <;> omega

/-- With as many rows to star and fewer to cover, less is left to do. -/
theorem potential_lt_of_rows {s s' : Work m n K} (hs : stars s' = stars s)
    (h : uncoveredRows s' < uncoveredRows s) : potential s' < potential s := by
  rw [potential, potential, hs]
  split <;> split <;> omega

/-- With a zero made, less is left to do. -/
theorem potential_lt_of_zero {s s' : Work m n K} (hs : stars s' = stars s)
    (hr : uncoveredRows s' = uncoveredRows s) (hz : ¬ HasZero s) (hz' : HasZero s') :
    potential s' < potential s := by
  rw [potential, potential, hs, hr, if_neg hz, if_pos hz']
  omega

/-- The fuel of the solver is above the potential of any state. -/
theorem potential_lt_passes {s : Work m n K} : potential s < passes m n := by
  have hle := uncoveredRows_le (s := s)
  have hmul : (min m n - stars s) * (2 * m + 3) ≤ min m n * (2 * m + 3) :=
    Nat.mul_le_mul_right _ (Nat.sub_le ..)
  have hsucc : (min m n + 1) * (2 * m + 3) = min m n * (2 * m + 3) + (2 * m + 3) := Nat.succ_mul ..
  rw [potential, passes, hsucc]
  split <;> omega

/-- **`step3` returns** within its potential.

By induction on the fuel, with the state generalised. The four ways a pass goes on are the lemmas of
this module, and each lowers the potential. -/
theorem step3_spec [IsStrictOrderedRing K] {fuel : Nat} {s : Work m n K} (h : Searching s)
    (hlt : stars s < min m n) (hfuel : potential s < fuel) :
    ∃ a, step3 fuel s = .ok a ∧ Complete a := by
  induction fuel generalizing s with
  | zero => exact absurd hfuel (Nat.not_lt_zero _)
  | succ fuel ih =>
    have hscan : ScanSpec (List.finRange n) s false (scanColumns (List.finRange n) s false) :=
      scanColumns_spec h
    unfold step3
    revert hscan
    cases scanColumns (List.finRange n) s false with
    -- a path: one more row is starred
    | step4 s₁ row col =>
      rintro ⟨s₀, hstart, hstar, rfl⟩
      obtain ⟨s₂, hstep, hsettled, hrows⟩ := step4_spec hstart
      have hsucc : stars (step2a s₂) = stars s + 1 := by
        rw [← stars_congr hstar]
        exact stars_succ hstart.no_star hrows
      have hnext := step2b_spec (k := step3 fuel) hsettled fun hlt' =>
        ih hsettled.searching hlt' (by have := potential_lt_of_stars hlt hsucc; omega)
      simp only [hstep]
      exact hnext
    | passed s₁ found =>
      cases found with
      -- a pass that covers rows: there are fewer left
      | true =>
        rintro ⟨hs₁, hstar, -, hrows⟩
        have hs := stars_congr hstar
        exact ih hs₁ (by omega) (by have := potential_lt_of_rows hs (hrows rfl); omega)
      -- a pass that finds nothing: `step5` makes a zero
      | false =>
        rintro ⟨rfl, -, hnone⟩
        obtain ⟨d, hstep, hzero⟩ := step5_spec (h.exists_uncovered hlt)
        have hno : ¬ HasZero s₁ := by
          rintro ⟨r, c, hr, hc, hz⟩
          rw [hnone c (List.mem_finRange c) hc r hr] at hz
          cases hz
        have hless : potential { s₁ with distMatrix := d } < potential s₁ :=
          potential_lt_of_zero rfl rfl hno hzero
        have hnext := ih (h.shift d) hlt (by omega)
        simp only [hstep]
        exact hnext

/-- **The solver returns**, for every matrix, an assignment of `min m n` rows to columns that uses no
row and no column twice.

It is `step3_spec` from the state that the preliminary steps leave, or `step2b_spec` where that is
complete already. -/
theorem assignmentoptimal_spec [IsStrictOrderedRing K] (d : Fin m → Fin n → K) :
    ∃ a, assignmentoptimal d = .ok a ∧ Complete a := by
  unfold assignmentoptimal
  have hsettled := preliminary_settled d
  exact step2b_spec hsettled fun hlt => step3_spec hsettled.searching hlt potential_lt_passes

end

end EdgeFrame.Assign
