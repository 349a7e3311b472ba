/-
# EdgeFrame.Assign.Stars -- the stars always form a matching

The arithmetic of the solver decides which zeros are starred, and nothing in
this module depends on it. Between two calls of `step2b` the stars are a partial
matching whose columns are exactly the covered ones (`Settled`). During a search
each star is covered once, by its row or by its column, and each covered row holds
a prime (`Searching`). The primes are ranked by the time they were set: the star in
the column of a prime lies in a row primed earlier. That ranking is what makes the
path of `step4` end, and `step4Path_spec` shows that it ends in a matching that
uses one more row.

The loop of `step4` goes from a star to the prime of its row and on to the star of that
prime's column. On its way the stars are no matching: the column it stands in has two.
`OnPath` says what they are instead, and how far down the ranks the path has come. A
round (`OnPath.step`) goes to a row of a lower rank, which is why the rows that are still
ahead become fewer; where the column has no old star the two agree again, and the
path ends.
-/
import EdgeFrame.Assign.Hungarian
import EdgeFrame.Lib.Matching
import Mathlib

namespace EdgeFrame.Assign

open Lib

variable {K : Type} {m n : Nat}

/-! ## Scans -/

/-- What a scan of a row has found is there. -/
theorem findInRow_eq_some {M : Fin m → Fin n → Bool} {r : Fin m} {c : Fin n}
    (h : findInRow M r = some c) : M r c = true := by
  have := List.find?_some h
  simpa using this

/-- It finds nothing where nothing is. -/
theorem findInRow_eq_none {M : Fin m → Fin n → Bool} {r : Fin m} :
    findInRow M r = none ↔ ∀ c, M r c = false := by
  simp [findInRow, List.find?_eq_none]

/-- What a scan of a column has found is there. -/
theorem findInColumn_eq_some {M : Fin m → Fin n → Bool} {r : Fin m} {c : Fin n}
    (h : findInColumn M c = some r) : M r c = true := by
  have := List.find?_some h
  simpa using this

/-- It finds nothing where nothing is. -/
theorem findInColumn_eq_none {M : Fin m → Fin n → Bool} {c : Fin n} :
    findInColumn M c = none ↔ ∀ r, M r c = false := by
  simp [findInColumn, List.find?_eq_none]

/-- An entry that was set, or was there. -/
@[simp] theorem setEntry_eq_true {M : Fin m → Fin n → Bool} {row r : Fin m} {col c : Fin n} :
    setEntry M row col true r c = true ↔ (r = row ∧ c = col) ∨ M r c = true := by
  unfold setEntry
  split <;> simp_all

/-- An entry that was there, and was not cleared. -/
@[simp] theorem setEntry_false_eq_true {M : Fin m → Fin n → Bool} {row r : Fin m} {col c : Fin n} :
    setEntry M row col false r c = true ↔ ¬ (r = row ∧ c = col) ∧ M r c = true := by
  unfold setEntry
  split <;> simp_all

/-! ## The two states of the solver -/

/-- The stars as a relation. -/
def Stars (star : Fin m → Fin n → Bool) (r : Fin m) (c : Fin n) : Prop := star r c = true

/-- Between two searches. -/
structure Settled (s : Work m n K) : Prop where
  matching : IsMatching (Stars s.starMatrix)
  columns : ∀ c, s.coveredColumns c = true ↔ ∃ r, s.starMatrix r c = true
  rows : ∀ r, s.coveredRows r = false
  primes : ∀ r c, s.primeMatrix r c = false

/-- During a search.

The rank of a row is when it was primed. -/
structure Searching (s : Work m n K) : Prop where
  matching : IsMatching (Stars s.starMatrix)
  cover : ∀ r c, s.starMatrix r c = true → s.coveredColumns c = !s.coveredRows r
  row_star : ∀ r, s.coveredRows r = true → ∃ c, s.starMatrix r c = true
  column_star : ∀ c, s.coveredColumns c = true → ∃ r, s.starMatrix r c = true
  prime_row : ∀ r c, s.primeMatrix r c = true → s.coveredRows r = true
  row_prime : ∀ r, s.coveredRows r = true → ∃ c, s.primeMatrix r c = true
  prime_column : ∀ r c, s.primeMatrix r c = true → s.coveredColumns c = false
  rank : ∃ t : Fin m → Nat, ∀ r c r', s.primeMatrix r c = true → s.starMatrix r' c = true →
    t r' < t r

/-- A search begins in a settled state, with no row covered and no prime set. -/
theorem Settled.searching {s : Work m n K} (h : Settled s) : Searching s where
  matching := h.matching
  cover r c hstar := by rw [h.rows r, (h.columns c).mpr ⟨r, hstar⟩]; rfl
  row_star r hr := by rw [h.rows r] at hr; cases hr
  column_star c hc := (h.columns c).mp hc
  prime_row r c hp := by rw [h.primes r c] at hp; cases hp
  row_prime r hr := by rw [h.rows r] at hr; cases hr
  prime_column r c hp := by rw [h.primes r c] at hp; cases hp
  rank := ⟨fun _ => 0, fun r c r' hp => by rw [h.primes r c] at hp; cases hp⟩

/-- A prime in an uncovered row ranks after everything that was there. -/
theorem Searching.rank_prime {s : Work m n K} (h : Searching s) {row : Fin m} {col : Fin n}
    (hrow : s.coveredRows row = false) (hcol : s.coveredColumns col = false) :
    ∃ t : Fin m → Nat, ∀ r c r', setEntry s.primeMatrix row col true r c = true →
      s.starMatrix r' c = true → t r' < t r := by
  -- the row held no prime and is covered by no star in an uncovered column
  have hnoprime : ∀ c, s.primeMatrix row c ≠ true := by
    intro c hp
    rw [h.prime_row row c hp] at hrow
    cases hrow
  have hnostar : ∀ c, s.coveredColumns c = false → s.starMatrix row c ≠ true := by
    intro c hc hs
    rw [h.cover row c hs, hrow] at hc
    cases hc
  obtain ⟨t, ht⟩ := h.rank
  refine ⟨Function.update t row (Finset.univ.sup t + 1), ?_⟩
  intro r c r' hp hs
  rcases setEntry_eq_true.mp hp with ⟨rfl, rfl⟩ | hold
  · have hne : r' ≠ r := by
      rintro rfl
      exact hnostar _ hcol hs
    rw [Function.update_of_ne hne, Function.update_self]
    have hle : t r' ≤ Finset.univ.sup t := Finset.le_sup (Finset.mem_univ r')
    omega
  · have hr : r ≠ row := by
      rintro rfl
      exact hnoprime c hold
    have hr' : r' ≠ row := by
      rintro rfl
      exact hnostar c (h.prime_column r c hold) hs
    rw [Function.update_of_ne hr, Function.update_of_ne hr']
    exact ht r c r' hold hs

/-- An uncovered zero in a row with a star: the row is covered, the column of its star freed.

The eight parts are kept one by one; what changes is one row and one column, so that each is asked
for them and for the others. -/
theorem Searching.cover_row {s : Work m n K} (h : Searching s) {row : Fin m} {col starCol : Fin n}
    (hrow : s.coveredRows row = false) (hcol : s.coveredColumns col = false)
    (hstar : s.starMatrix row starCol = true) :
    Searching { s with
      primeMatrix := setEntry s.primeMatrix row col true
      coveredRows := Function.update s.coveredRows row true
      coveredColumns := Function.update s.coveredColumns starCol false } := by
  have hfree : ∀ c, s.coveredColumns c = false →
      Function.update s.coveredColumns starCol false c = false := by
    intro c hc
    by_cases he : c = starCol
    · rw [he, Function.update_self]
    · rw [Function.update_of_ne he, hc]
  -- the row is covered in the place of its star's column
  refine ⟨h.matching, ?cover, ?row_star, ?column_star, ?prime_row, ?row_prime, ?prime_column, ?rank⟩
  case cover =>
    intro r c hs
    by_cases hr : r = row
    · subst hr
      have hc : c = starCol := h.matching.left hs hstar
      subst hc
      -- the star of the row is in the column that is uncovered
      simp
    · have hc : c ≠ starCol := by
        rintro rfl
        exact hr (h.matching.right hs hstar)
      simp only [Function.update_of_ne hr, Function.update_of_ne hc]
      exact h.cover r c hs
  case row_star =>
    intro r hr
    by_cases he : r = row
    · exact ⟨starCol, he ▸ hstar⟩
    · simp only [Function.update_of_ne he] at hr
      exact h.row_star r hr
  case column_star =>
    intro c hc
    by_cases he : c = starCol
    · simp only [he, Function.update_self] at hc
      cases hc
    · simp only [Function.update_of_ne he] at hc
      exact h.column_star c hc
  case prime_row =>
    intro r c hp
    rcases setEntry_eq_true.mp hp with ⟨rfl, -⟩ | hp
    · exact Function.update_self ..
    · by_cases he : r = row
      · rw [he]
        exact Function.update_self ..
      · simp only [Function.update_of_ne he]
        exact h.prime_row r c hp
  case row_prime =>
    intro r hr
    by_cases he : r = row
    · exact ⟨col, setEntry_eq_true.mpr (Or.inl ⟨he, rfl⟩)⟩
    · simp only [Function.update_of_ne he] at hr
      obtain ⟨c, hc⟩ := h.row_prime r hr
      exact ⟨c, setEntry_eq_true.mpr (Or.inr hc)⟩
  case prime_column =>
    intro r c hp
    rcases setEntry_eq_true.mp hp with ⟨-, rfl⟩ | hp
    · exact hfree _ hcol
    · exact hfree _ (h.prime_column r c hp)
  case rank =>
    exact h.rank_prime hrow hcol

/-! ## The path of `step4` -/

/-- The position `step4` is called in: a search that has just primed an uncovered zero at
`(row, col)` in a row without a star. -/
structure PathStart (s : Work m n K) (row : Fin m) (col : Fin n) : Prop where
  searching : Searching s
  row_uncovered : s.coveredRows row = false
  column_uncovered : s.coveredColumns col = false
  no_star : ∀ c, s.starMatrix row c = false

/-- What holds at the head of `step4`'s loop. `N` is `newStarMatrix`, `col` is `starCol` and `T`
bounds the ranks of the rows still ahead: every row the path has visited ranks `T` or later. -/
structure OnPath (s : Work m n K) (t : Fin m → Nat) (row : Fin m) (N : Fin m → Fin n → Bool)
    (col : Fin n) (T : Nat) : Prop where
  /-- rows are used once -/
  rows : ∀ r c c', N r c = true → N r c' = true → c = c'
  /-- so are columns, but for the old star in `col` -/
  columns : ∀ r r' c, N r c = true → N r' c = true → ¬ (c = col ∧ s.starMatrix r c = true) →
    ¬ (c = col ∧ s.starMatrix r' c = true) → r = r'
  /-- the old star in `col` is ahead -/
  ahead : ∀ r, s.starMatrix r col = true → s.coveredRows r = true ∧ t r < T
  /-- rows ahead and rows no path can visit are as before -/
  same : ∀ r, (s.coveredRows r = true ∧ t r < T) ∨ (s.coveredRows r = false ∧ r ≠ row) →
    ∀ c, N r c = s.starMatrix r c
  /-- the path has gained `row` and lost no row -/
  gained : ∀ r, (∃ c, N r c = true) ↔ (∃ c, s.starMatrix r c = true) ∨ r = row
  /-- a new star is in `col`, or its column has an old star in a row already visited -/
  fresh : ∀ r c, N r c = true → s.starMatrix r c = false →
    c = col ∨ ∃ r', s.starMatrix r' c = true ∧ T ≤ t r'

/-- The path starts with the new zero starred. -/
theorem PathStart.onPath {s : Work m n K} {row : Fin m} {col : Fin n} (h : PathStart s row col)
    {t : Fin m → Nat} {T : Nat} (hT : ∀ r, t r < T) :
    OnPath s t row (setEntry s.starMatrix row col true) col T := by
  have hstar : ∀ r c, setEntry s.starMatrix row col true r c = true →
      (r = row ∧ c = col) ∨ s.starMatrix r c = true := fun r c => setEntry_eq_true.mp
  have hno : ∀ c, s.starMatrix row c ≠ true := fun c => by rw [h.no_star c]; decide
  -- the path begins with one new star, in a row that has none
  refine ⟨?rows, ?columns, ?ahead, ?same, ?gained, ?fresh⟩
  case rows =>
    intro r c c' hc hc'
    rcases hstar r c hc with ⟨rfl, rfl⟩ | hold <;> rcases hstar r c' hc' with ⟨hr, rfl⟩ | hold'
    · rfl
    · exact absurd hold' (hno c')
    · exact absurd (hr ▸ hold) (hno c)
    · exact h.searching.matching.left hold hold'
  case columns =>
    intro r r' c hr hr' hnew hnew'
    -- two stars in one column are old ones, unless the new one is among them
    rcases hstar r c hr with ⟨rfl, rfl⟩ | hold <;> rcases hstar r' c hr' with ⟨rfl, hc⟩ | hold'
    · rfl
    · exact absurd ⟨rfl, hold'⟩ hnew'
    · exact absurd ⟨hc, hold⟩ hnew
    · exact h.searching.matching.right hold hold'
  case ahead =>
    intro r hr
    refine ⟨?_, hT r⟩
    have hcover := h.searching.cover r col hr
    rw [h.column_uncovered] at hcover
    simpa using hcover.symm
  case same =>
    intro r hr c
    have hne : r ≠ row := by
      rcases hr with ⟨hr, -⟩ | ⟨-, hr⟩
      · rintro rfl
        rw [h.row_uncovered] at hr
        cases hr
      · exact hr
    simp [setEntry, hne]
  case gained =>
    intro r
    constructor
    · rintro ⟨c, hc⟩
      rcases hstar r c hc with ⟨hr, -⟩ | hc
      · exact Or.inr hr
      · exact Or.inl ⟨c, hc⟩
    · rintro (⟨c, hc⟩ | rfl)
      · exact ⟨c, setEntry_eq_true.mpr (Or.inr hc)⟩
      · exact ⟨col, setEntry_eq_true.mpr (Or.inl ⟨rfl, rfl⟩)⟩
  case fresh =>
    -- the new star is in the column where the path goes on
    intro r c hc hs
    rcases hstar r c hc with ⟨-, hc⟩ | hc
    · exact Or.inl hc
    · rw [hc] at hs
      cases hs

/-- The row of the old star holds it alone, and after the round it holds the prime alone. -/
theorem OnPath.swap_iff {s : Work m n K} {t : Fin m → Nat} {row : Fin m} {N : Fin m → Fin n → Bool}
    {col : Fin n} {T : Nat} (hp : OnPath s t row N col T) (h : Searching s) {starRow : Fin m}
    (hstar : s.starMatrix starRow col = true) (primeCol : Fin n) (r : Fin m) (c : Fin n) :
    setEntry (setEntry N starRow col false) starRow primeCol true r c = true ↔
      (r = starRow ∧ c = primeCol) ∨ (r ≠ starRow ∧ N r c = true) := by
  rw [setEntry_eq_true, setEntry_false_eq_true]
  apply or_congr_right
  constructor
  · rintro ⟨hne, hc⟩
    refine ⟨?_, hc⟩
    rintro rfl
    have hsc : s.starMatrix r c = true := by
      rw [← hp.same r (Or.inl (hp.ahead r hstar)) c]
      exact hc
    exact hne ⟨rfl, h.matching.left hsc hstar⟩
  · rintro ⟨hne, hc⟩
    exact ⟨fun hrc => hne hrc.1, hc⟩

/-- One round of the loop: the old star of `col` is unstarred, the prime of its row starred. -/
theorem OnPath.step {s : Work m n K} (h : Searching s) {t : Fin m → Nat}
    (ht : ∀ r c r', s.primeMatrix r c = true → s.starMatrix r' c = true → t r' < t r)
    {row : Fin m} {N : Fin m → Fin n → Bool} {col : Fin n} {T : Nat}
    (hp : OnPath s t row N col T) {starRow : Fin m} {primeCol : Fin n}
    (hstar : s.starMatrix starRow col = true) (hprime : s.primeMatrix starRow primeCol = true) :
    OnPath s t row (setEntry (setEntry N starRow col false) starRow primeCol true) primeCol
      (t starRow) := by
  obtain ⟨hcov, hlt⟩ := hp.ahead starRow hstar
  have hcols : primeCol ≠ col := by
    rintro rfl
    exact absurd (ht starRow primeCol starRow hprime hstar) (lt_irrefl _)
  have hN := hp.swap_iff h hstar primeCol
  -- no new star of the path lies in the column of the prime
  have hclash : ∀ r, N r primeCol = true → s.starMatrix r primeCol = false → False := by
    intro r hr hs
    rcases hp.fresh r primeCol hr hs with he | ⟨r', hr', hle⟩
    · exact hcols he
    · have := ht starRow primeCol r' hprime hr'
      omega
  refine ⟨?rows, ?columns, ?ahead, ?same, ?gained, ?fresh⟩
  case rows =>
    intro r c c' hc hc'
    rcases (hN r c).mp hc with ⟨rfl, rfl⟩ | ⟨hne, hc⟩ <;>
      rcases (hN r c').mp hc' with ⟨hr, rfl⟩ | ⟨hne', hc'⟩
    · rfl
    · exact absurd rfl hne'
    · exact absurd hr hne
    · exact hp.rows r c c' hc hc'
  case columns =>
    intro r r' c hr hr' hnew hnew'
    rcases (hN r c).mp hr with ⟨rfl, rfl⟩ | ⟨hne, hold⟩ <;>
      rcases (hN r' c).mp hr' with ⟨rfl, hc⟩ | ⟨hne', hold'⟩
    · rfl
    · exact (hclash r' hold' (by simpa using hnew')).elim
    · subst hc
      exact (hclash r hold (by simpa using hnew)).elim
    · refine hp.columns r r' c hold hold' ?_ ?_
      · rintro ⟨rfl, hs⟩
        exact hne (h.matching.right hs hstar)
      · rintro ⟨rfl, hs⟩
        exact hne' (h.matching.right hs hstar)
  case ahead =>
    intro r hr
    refine ⟨?_, ht starRow primeCol r hprime hr⟩
    have hcover := h.cover r primeCol hr
    rw [h.prime_column starRow primeCol hprime] at hcover
    simpa using hcover.symm
  case same =>
    intro r hr c
    have hne : r ≠ starRow := by
      rintro rfl
      rcases hr with ⟨-, hr⟩ | ⟨hr, -⟩
      · exact absurd hr (lt_irrefl _)
      · rw [hcov] at hr
        cases hr
    have hold : N r c = s.starMatrix r c := by
      refine hp.same r (hr.imp_left fun hr => ⟨hr.1, ?_⟩) c
      omega
    simp [setEntry, hne, hold]
  case gained =>
    intro r
    rw [← hp.gained r]
    by_cases hr : r = starRow
    · subst hr
      refine iff_of_true ⟨primeCol, (hN r primeCol).mpr (Or.inl ⟨rfl, rfl⟩)⟩ ⟨col, ?_⟩
      rw [hp.same r (Or.inl ⟨hcov, hlt⟩) col]
      exact hstar
    · refine exists_congr fun c => ?_
      rw [hN]
      tauto
  case fresh =>
    intro r c hc hs
    rcases (hN r c).mp hc with ⟨-, hc⟩ | ⟨-, hc⟩
    · exact Or.inl hc
    · apply Or.inr
      rcases hp.fresh r c hc hs with rfl | ⟨r', hr', hle⟩
      · exact ⟨starRow, hstar, le_rfl⟩
      · exact ⟨r', hr', by omega⟩

/-- The rows still ahead of a path below rank `T`. -/
def rowsAhead (s : Work m n K) (t : Fin m → Nat) (T : Nat) : Finset (Fin m) :=
  Finset.univ.filter fun r => s.coveredRows r = true ∧ t r < T

/-- **The path of `step4`**: it always meets a prime in the row it visits, it ends, and it leaves a
matching that uses one more row; rows that are not covered keep their stars.

By induction on the fuel, which is above the number of rows ahead. -/
theorem step4Path_spec {s : Work m n K} (h : Searching s) {t : Fin m → Nat}
    (ht : ∀ r c r', s.primeMatrix r c = true → s.starMatrix r' c = true → t r' < t r)
    {row : Fin m} {prime : Fin m → Fin n → Bool}
    (hprime : ∀ r, s.coveredRows r = true → prime r = s.primeMatrix r) :
    ∀ {fuel : Nat} {N : Fin m → Fin n → Bool} {col : Fin n} {T : Nat},
      OnPath s t row N col T → (rowsAhead s t T).card < fuel →
      ∃ N', step4Path s.starMatrix prime fuel N col = .ok N' ∧ IsMatching (Stars N') ∧
        (∀ r, (∃ c, N' r c = true) ↔ (∃ c, s.starMatrix r c = true) ∨ r = row) ∧
        ∀ r, s.coveredRows r = false → r ≠ row → ∀ c, N' r c = s.starMatrix r c := by
  intro fuel
  induction fuel with
  | zero =>
    intro N col T _ hfuel
    exact absurd hfuel (Nat.not_lt_zero _)
  | succ fuel ih =>
    intro N col T hp hfuel
    unfold step4Path
    cases hfind : findInColumn s.starMatrix col with
    | none =>
      have hnone := findInColumn_eq_none.mp hfind
      refine ⟨N, rfl, ⟨fun h1 h2 => hp.rows _ _ _ h1 h2, fun h1 h2 => ?_⟩, hp.gained,
        fun r hr hne => hp.same r (Or.inr ⟨hr, hne⟩)⟩
      refine hp.columns _ _ _ h1 h2 ?_ ?_
      · rintro ⟨rfl, hs⟩
        rw [hnone] at hs
        cases hs
      · rintro ⟨rfl, hs⟩
        rw [hnone] at hs
        cases hs
    | some starRow =>
      have hstar := findInColumn_eq_some hfind
      obtain ⟨hcov, hlt⟩ := hp.ahead starRow hstar
      obtain ⟨c, hc⟩ := h.row_prime starRow hcov
      have hrow : prime starRow = s.primeMatrix starRow := hprime starRow hcov
      cases hfindp : findInRow prime starRow with
      | none =>
        have hnone := findInRow_eq_none.mp hfindp c
        rw [hrow, hc] at hnone
        cases hnone
      | some primeCol =>
        have hpc : s.primeMatrix starRow primeCol = true := by
          rw [← hrow]
          exact findInRow_eq_some hfindp
        simp only [hfindp]
        refine ih (hp.step h ht hstar hpc) (lt_of_lt_of_le (Finset.card_lt_card ?_)
          (Nat.lt_succ_iff.mp hfuel))
        -- the visited row is behind the path now
        refine Finset.ssubset_iff_subset_ne.mpr ⟨?_, ?_⟩
        · intro r hr
          simp only [rowsAhead, Finset.mem_filter, Finset.mem_univ, true_and] at hr ⊢
          exact ⟨hr.1, by omega⟩
        · intro he
          have hmem : starRow ∈ rowsAhead s t (t starRow) := by
            rw [he]
            simp [rowsAhead, hcov, hlt]
          simp [rowsAhead] at hmem

end EdgeFrame.Assign
