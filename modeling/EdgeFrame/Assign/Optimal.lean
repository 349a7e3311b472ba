/-
# EdgeFrame.Assign.Optimal -- the assignment is a cheapest one

The working matrix is the cost matrix less a potential for each row and each column, and
stays non-negative; stars and primes are zeros, and the longer side keeps a zero
potential wherever it has no star (`Feasible`). Every step keeps that, so that at the
end the stars are within `DBL_EPSILON` of the potentials, which no complete assignment
can undercut.

The steps, in the order of the solver:

  * the minima that are subtracted first are the first potentials, and the stars are put on
    zeros (`preliminary_feasible`, `Starred`);
  * a pass of the scan changes covers, and primes zeros (`scanColumns_kept`);
  * a path stars what was primed, and unstars no row and no column (`Feasible.path`);
  * the shift of `step5` moves the potentials of the rows and columns on one side of the
    covers (`Potentials.shift_wide`, `Potentials.shift_tall`), and no uncovered element is
    smaller than what is subtracted (`Feasible.shift`).

The last argument is weak duality, and is `Lib.Duality`'s: a complete assignment costs at
least the sum of the potentials, one along the zeros at most an epsilon a pair more.
The zero test of the solver is `value < DBL_EPSILON`, which is why the two differ at all.
-/
import EdgeFrame.Assign.Progress
import EdgeFrame.Lib.Duality
import Mathlib

namespace EdgeFrame.Assign

open Lib

variable {K : Type} [Field K] [LinearOrder K] {m n : Nat}

/-! ## The invariant -/

/-- Potentials of the rows and columns. The longer side is never above zero, and at zero where it has
no star; the shorter side is not below zero as long as no cost is.

The sign of the longer side is what lets assignments over different parts of it be compared: what
the stars leave out has potential zero, and what another assignment leaves out has at most that. -/
structure Potentials (d : Fin m → Fin n → K) (s : Work m n K) (u : Fin m → K) (v : Fin n → K) :
    Prop where
  dist : ∀ r c, d r c = u r + v c + s.distMatrix r c
  wide : m ≤ n → (∀ c, v c ≤ 0) ∧ ∀ c, (∀ r, s.starMatrix r c = false) → v c = 0
  tall : n < m → (∀ r, u r ≤ 0) ∧ ∀ r, (∀ c, s.starMatrix r c = false) → u r = 0
  low : (∀ r c, 0 ≤ d r c) → (m ≤ n → ∀ r, 0 ≤ u r) ∧ (n < m → ∀ c, 0 ≤ v c)

/-- What the steps keep true of the costs `d`. -/
structure Feasible (d : Fin m → Fin n → K) (s : Work m n K) : Prop where
  nonneg : ∀ r c, 0 ≤ s.distMatrix r c
  star_zero : ∀ r c, s.starMatrix r c = true → isZero (s.distMatrix r c) = true
  prime_zero : ∀ r c, s.primeMatrix r c = true → isZero (s.distMatrix r c) = true
  potentials : ∃ u v, Potentials d s u v

/-! ## The preliminary steps -/

omit [Field K] in
/-- The minimum that the loop keeps is below everything it has seen. -/
theorem foldl_min_le {x : K} {l : List K} :
    ∀ y ∈ x :: l, l.foldl (fun h value => if value < h then value else h) x ≤ y := by
  induction l generalizing x with
  | nil =>
    intro y hy
    exact (List.mem_singleton.mp hy).ge
  | cons v l ih =>
    intro y hy
    rw [List.foldl_cons]
    have hle : (if v < x then v else x) ≤ x ∧ (if v < x then v else x) ≤ v := by
      split
      · rename_i h
        exact ⟨h.le, le_refl v⟩
      · rename_i h
        exact ⟨le_refl x, not_lt.mp h⟩
    have hhead := ih (if v < x then v else x) List.mem_cons_self
    rcases List.mem_cons.mp hy with rfl | hy
    · exact hhead.trans hle.1
    · rcases List.mem_cons.mp hy with rfl | hy
      · exact hhead.trans hle.2
      · exact ih y (List.mem_cons_of_mem _ hy)

/-- So the smallest value of a list is below its elements. -/
theorem minValue_le {l : List K} {y : K} (hy : y ∈ l) : minValue l ≤ y := by
  cases l with
  | nil => exact absurd hy (by simp)
  | cons x l => exact foldl_min_le y hy

/-- And not below zero where they are not. -/
theorem minValue_nonneg {l : List K} (h : ∀ y ∈ l, 0 ≤ y) : 0 ≤ minValue l := by
  cases l with
  | nil => exact le_refl 0
  | cons x l => exact h _ minValue_mem

/-- Starring touches no cost, and stars zeros only. -/
structure Starred (D : Fin m → Fin n → K) (s : Work m n K) : Prop where
  dist : s.distMatrix = D
  star_zero : ∀ r c, s.starMatrix r c = true → isZero (D r c) = true

/-- One pass of the loop over the rows. -/
theorem Starred.row {D : Fin m → Fin n → K} {s : Work m n K} (h : Starred D s) (row : Fin m) :
    Starred D (starRow s row) := by
  unfold starRow
  split
  · exact h
  · rename_i col hfind
    have hcol := List.find?_some hfind
    simp only [Bool.and_eq_true, h.dist] at hcol
    refine ⟨h.dist, fun r c hrc => ?_⟩
    rcases setEntry_eq_true.mp hrc with ⟨rfl, rfl⟩ | hold
    · exact hcol.1
    · exact h.star_zero r c hold

/-- One pass of the loop over the columns. -/
theorem Starred.column {D : Fin m → Fin n → K} {s : Work m n K} (h : Starred D s) (col : Fin n) :
    Starred D (starColumn s col) := by
  unfold starColumn
  split
  · exact h
  · rename_i row hfind
    have hrow := List.find?_some hfind
    simp only [Bool.and_eq_true, h.dist] at hrow
    refine ⟨h.dist, fun r c hrc => ?_⟩
    rcases setEntry_eq_true.mp hrc with ⟨rfl, rfl⟩ | hold
    · exact hrow.1
    · exact h.star_zero r c hold

/-- Nothing is starred before the loops. -/
theorem starred_init (D : Fin m → Fin n → K) : Starred D (Work.init D) :=
  ⟨rfl, fun r c h => absurd h (by simp [Work.init])⟩

variable [IsStrictOrderedRing K]

omit [IsStrictOrderedRing K] in
/-- Reduced costs with starred zeros are feasible, as long as the longer side is not reduced. -/
theorem Starred.feasible {d D : Fin m → Fin n → K} {s : Work m n K} (h : Starred D s)
    (hprimes : ∀ r c, s.primeMatrix r c = false) (hD : ∀ r c, 0 ≤ D r c) {u : Fin m → K}
    {v : Fin n → K} (hdist : ∀ r c, d r c = u r + v c + D r c) (hwide : m ≤ n → ∀ c, v c = 0)
    (htall : n < m → ∀ r, u r = 0)
    (hlow : (∀ r c, 0 ≤ d r c) → (m ≤ n → ∀ r, 0 ≤ u r) ∧ (n < m → ∀ c, 0 ≤ v c)) :
    Feasible d s := by
  refine ⟨fun r c => ?_, fun r c hrc => ?_, fun r c hp => ?_, u, v, fun r c => ?_, ?_, ?_, hlow⟩
  · rw [h.dist]
    exact hD r c
  · rw [h.dist]
    exact h.star_zero r c hrc
  · rw [hprimes] at hp
    exact absurd hp (by simp)
  · rw [h.dist]
    exact hdist r c
  · intro hle
    exact ⟨fun c => (hwide hle c).le, fun c _ => hwide hle c⟩
  · intro hlt
    exact ⟨fun r => (htall hlt r).le, fun r _ => htall hlt r⟩

/-- The minima that the preliminary steps subtract are the first potentials.

The wide case subtracts from the rows and the tall case from the columns, so that the longer side
starts at zero. -/
theorem preliminary_feasible (d : Fin m → Fin n → K) : Feasible d (preliminary d) := by
  have hprimes := (preliminary_settled d).primes
  revert hprimes
  unfold preliminary
  split
  · rename_i hwide
    intro hprimes
    have hstarred : Starred (reduceRows d) ((List.finRange m).foldl starRow (Work.init (reduceRows d))) :=
      List.foldlRecOn _ _ (starred_init _) fun _ h row _ => h.row row
    apply hstarred.feasible (u := fun r => minValue ((List.finRange n).map fun c' => d r c'))
      (v := fun _ => 0) hprimes
    · intro r c
      exact sub_nonneg.mpr (minValue_le (List.mem_map_of_mem (List.mem_finRange c)))
    · intro r c
      rw [reduceRows]
      ring
    · exact fun _ _ => rfl
    · intro htall
      omega
    · intro hnonneg
      refine ⟨fun _ r => minValue_nonneg ?_, fun htall => by omega⟩
      intro y hy
      obtain ⟨c, -, rfl⟩ := List.mem_map.mp hy
      exact hnonneg r c
  · rename_i htall
    intro hprimes
    have hfold : Starred (reduceColumns d)
        ((List.finRange n).foldl starColumn (Work.init (reduceColumns d))) :=
      List.foldlRecOn _ _ (starred_init _) fun _ h col _ => h.column col
    -- the rows that the loop has covered are uncovered again
    have hstarred : Starred (reduceColumns d)
        { (List.finRange n).foldl starColumn (Work.init (reduceColumns d)) with
          coveredRows := fun _ => false } :=
      ⟨hfold.dist, hfold.star_zero⟩
    apply hstarred.feasible (u := fun _ => 0)
      (v := fun c => minValue ((List.finRange m).map fun r' => d r' c)) hprimes
    · intro r c
      exact sub_nonneg.mpr (minValue_le (List.mem_map_of_mem (List.mem_finRange r)))
    · intro r c
      rw [reduceColumns]
      ring
    · intro hwide
      exact absurd hwide htall
    · exact fun _ _ => rfl
    · intro hnonneg
      refine ⟨fun hwide => absurd hwide htall, fun _ c => minValue_nonneg ?_⟩
      intro y hy
      obtain ⟨r, -, rfl⟩ := List.mem_map.mp hy
      exact hnonneg r c

/-! ## The scan -/

section

omit [IsStrictOrderedRing K]

/-- What a pass may change: covers, and primes on zeros. -/
structure Kept (s s' : Work m n K) : Prop where
  dist : s'.distMatrix = s.distMatrix
  star : s'.starMatrix = s.starMatrix
  prime : ∀ r c, s'.primeMatrix r c = true → s.primeMatrix r c = true ∨
    isZero (s.distMatrix r c) = true

/-- A pass may change nothing. -/
theorem Kept.refl (s : Work m n K) : Kept s s := ⟨rfl, rfl, fun _ _ h => Or.inl h⟩

/-- One change after another is a change of the kind. -/
theorem Kept.trans {s s' s'' : Work m n K} (h : Kept s s') (h' : Kept s' s'') : Kept s s'' := by
  refine ⟨h'.dist.trans h.dist, h'.star.trans h.star, fun r c hp => ?_⟩
  rcases h'.prime r c hp with hp | hz
  · exact h.prime r c hp
  · exact Or.inr (h.dist ▸ hz)

/-- Priming a zero, whatever happens to the covers. -/
theorem kept_prime {s : Work m n K} {row : Fin m} {col : Fin n}
    (hzero : isZero (s.distMatrix row col) = true) (columns : Fin n → Bool) (rows : Fin m → Bool) :
    Kept s { s with
      primeMatrix := setEntry s.primeMatrix row col true
      coveredColumns := columns
      coveredRows := rows } := by
  refine ⟨rfl, rfl, fun r c hp => ?_⟩
  rcases setEntry_eq_true.mp hp with ⟨rfl, rfl⟩ | hp
  · exact Or.inr hzero
  · exact Or.inl hp

/-- The arrays a pass ends with. -/
def Scan.state : Scan m n K → Work m n K
  | .step4 s _ _ => s
  | .passed s _ => s

/-- The pass over the columns is of this kind, by induction on them. -/
theorem scanColumns_kept : ∀ {cols : List (Fin n)} {s : Work m n K} {zerosFound : Bool},
    Kept s (scanColumns cols s zerosFound).state := by
  intro cols
  induction cols with
  | nil =>
    intro s _
    exact Kept.refl s
  | cons col cols ih =>
    intro s zerosFound
    unfold scanColumns
    split
    · exact ih
    · split
      · exact ih
      · rename_i row hfind
        have hzero := List.find?_some hfind
        simp only [Bool.and_eq_true] at hzero
        dsimp only
        split
        · exact kept_prime hzero.2 s.coveredColumns s.coveredRows
        · rename_i starCol _
          exact (kept_prime hzero.2 (Function.update s.coveredColumns starCol false)
            (Function.update s.coveredRows row true)).trans ih

/-- Covers and primes on zeros do not matter to the potentials. -/
theorem Feasible.kept {d : Fin m → Fin n → K} {s s' : Work m n K} (h : Feasible d s)
    (hkept : Kept s s') : Feasible d s' := by
  obtain ⟨u, v, hpot⟩ := h.potentials
  refine ⟨fun r c => ?_, fun r c hrc => ?_, fun r c hp => ?_, u, v, ⟨fun r c => ?_, ?_, ?_, hpot.low⟩⟩
  · rw [hkept.dist]
    exact h.nonneg r c
  · rw [hkept.star] at hrc
    rw [hkept.dist]
    exact h.star_zero r c hrc
  · rw [hkept.dist]
    exact (hkept.prime r c hp).elim (h.prime_zero r c) id
  · rw [hkept.dist]
    exact hpot.dist r c
  · rw [hkept.star]
    exact hpot.wide
  · rw [hkept.star]
    exact hpot.tall

/-! ## The path -/

/-- The rule for the loop of `step4`.

The loop follows a star down its column and a prime along its row, and each turn stars the one and
unstars the other; the rule asks for what one turn keeps. -/
theorem step4Path_induction {star prime : Fin m → Fin n → Bool}
    {I : (Fin m → Fin n → Bool) → Fin n → Prop}
    (hstep : ∀ N col starRow primeCol, I N col → star starRow col = true →
      prime starRow primeCol = true →
      I (setEntry (setEntry N starRow col false) starRow primeCol true) primeCol) :
    ∀ {fuel : Nat} {N N' : Fin m → Fin n → Bool} {col : Fin n}, I N col →
      step4Path star prime fuel N col = .ok N' → ∃ col', I N' col' := by
  intro fuel
  induction fuel with
  | zero =>
    intro _ _ _ _ h
    exact absurd h (by simp [step4Path])
  | succ fuel ih =>
    intro N N' col hI h
    unfold step4Path at h
    split at h
    · obtain rfl := Except.ok.inj h
      exact ⟨col, hI⟩
    · rename_i starRow hstar
      split at h
      · exact absurd h (by simp)
      · rename_i primeCol hprime
        exact ih (hstep N col starRow primeCol hI
          (findInColumn_eq_some hstar) (findInRow_eq_some hprime)) h

/-- New stars were stars or primes. -/
theorem step4Path_sub {star prime N N' : Fin m → Fin n → Bool} {fuel : Nat} {col : Fin n}
    (h : step4Path star prime fuel N col = .ok N') :
    ∀ r c, N' r c = true → N r c = true ∨ prime r c = true := by
  obtain ⟨-, hI⟩ := step4Path_induction
    (I := fun N' _ => ∀ r c, N' r c = true → N r c = true ∨ prime r c = true)
    (fun N₁ col₁ starRow primeCol hN₁ _ hprime r c hrc => by
      rcases setEntry_eq_true.mp hrc with ⟨rfl, rfl⟩ | hrc
      · exact Or.inr hprime
      · exact hN₁ r c (setEntry_false_eq_true.mp hrc).2) (fun r c hrc => Or.inl hrc) h
  exact hI

/-- Columns keep their stars: what unstars a column has starred it before. -/
theorem step4Path_columns {star prime N N' : Fin m → Fin n → Bool} {fuel : Nat} {col : Fin n}
    (hdisjoint : ∀ r c, prime r c = true → star r c = false)
    (hnew : ∃ r, N r col = true ∧ star r col = false)
    (hkept : ∀ c, (∃ r, star r c = true) → ∃ r, N r c = true)
    (h : step4Path star prime fuel N col = .ok N') :
    ∀ c, (∃ r, star r c = true) → ∃ r, N' r c = true := by
  obtain ⟨col', -, hI⟩ := step4Path_induction
    (I := fun N' col => (∃ r, N' r col = true ∧ star r col = false) ∧
      ∀ c, (∃ r, star r c = true) → ∃ r, N' r c = true)
    (fun N₁ col₁ starRow primeCol hN₁ hstar hprime => by
      obtain ⟨⟨r₁, hr₁, hold₁⟩, hcolumns⟩ := hN₁
      refine ⟨⟨starRow, setEntry_eq_true.mpr (Or.inl ⟨rfl, rfl⟩),
        hdisjoint starRow primeCol hprime⟩, fun c hc => ?_⟩
      by_cases hcol : c = col₁
      · -- the column of the old star has a new one, in another row
        refine ⟨r₁, setEntry_eq_true.mpr (Or.inr (setEntry_false_eq_true.mpr ⟨?_, hcol ▸ hr₁⟩))⟩
        rintro ⟨rfl, -⟩
        rw [hstar] at hold₁
        exact absurd hold₁ (by simp)
      · obtain ⟨r, hr⟩ := hcolumns c hc
        exact ⟨r, setEntry_eq_true.mpr (Or.inr (setEntry_false_eq_true.mpr
          ⟨fun hrc => hcol hrc.2, hr⟩))⟩) ⟨hnew, hkept⟩ h
  exact hI

omit [Field K] [LinearOrder K] in
/-- A prime is not on a star. -/
theorem Searching.disjoint {s : Work m n K} (h : Searching s) {r : Fin m} {c : Fin n}
    (hp : s.primeMatrix r c = true) : s.starMatrix r c = false := by
  obtain ⟨t, ht⟩ := h.rank
  rw [← Bool.not_eq_true]
  exact fun hs => absurd (ht r c r hp hs) (lt_irrefl _)

/-- A path keeps the potentials: it stars zeros, and unstars no row and no column.

A row or a column that had a star has one at the end, which is what the potentials of the longer side
need. -/
theorem Feasible.path {d : Fin m → Fin n → K} {s₀ s' : Work m n K} {row : Fin m} {col : Fin n}
    (hstart : PathStart s₀ row col)
    (h : Feasible d { s₀ with primeMatrix := setEntry s₀.primeMatrix row col true })
    (hstep : step4 { s₀ with primeMatrix := setEntry s₀.primeMatrix row col true } row col = .ok s') :
    Feasible d (step2a s') := by
  obtain ⟨s'', hs'', -, hrows⟩ := step4_spec hstart
  obtain rfl : s'' = s' := Except.ok.inj (hs''.symm.trans hstep)
  obtain ⟨N, hN, hs⟩ := Abort.bind_eq_ok hstep
  obtain rfl := Except.ok.inj hs
  have hsub := step4Path_sub hN
  have hcolumns := step4Path_columns
    (fun r c hp => by
      rcases setEntry_eq_true.mp hp with ⟨rfl, rfl⟩ | hp
      · exact hstart.no_star _
      · exact hstart.searching.disjoint hp)
    ⟨row, setEntry_eq_true.mpr (Or.inl ⟨rfl, rfl⟩), hstart.no_star col⟩
    (fun c hc => hc.imp fun r hr => setEntry_eq_true.mpr (Or.inr hr)) hN
  obtain ⟨u, v, hpot⟩ := h.potentials
  refine ⟨h.nonneg, fun r c hrc => ?_, fun r c hp => absurd hp (by simp [step2a]), u, v,
    ⟨hpot.dist, fun hwide => ⟨(hpot.wide hwide).1, fun c hc => ?_⟩,
      fun htall => ⟨(hpot.tall htall).1, fun r hr => ?_⟩, hpot.low⟩⟩
  · -- a new star was a star before, or a prime, or the start of the path
    rcases hsub r c hrc with hold | hp
    · rcases setEntry_eq_true.mp hold with ⟨rfl, rfl⟩ | hold
      · exact h.prime_zero _ _ (setEntry_eq_true.mpr (Or.inl ⟨rfl, rfl⟩))
      · exact h.star_zero r c hold
    · exact h.prime_zero r c hp
  · -- a column without a star now had none before
    apply (hpot.wide hwide).2
    intro r
    rw [← Bool.not_eq_true]
    intro hold
    obtain ⟨r', hr'⟩ := hcolumns c ⟨r, hold⟩
    exact Bool.false_ne_true ((hc r').symm.trans hr')
  -- a row without a star now had none before
  · apply (hpot.tall htall).2
    intro c
    rw [← Bool.not_eq_true]
    intro hold
    obtain ⟨c', hc'⟩ := (hrows r).mpr (Or.inl ⟨c, hold⟩)
    exact Bool.false_ne_true ((hr c').symm.trans hc')

end

/-! ## The shift -/

/-- `step5` with the smallest uncovered element `h`. -/
def shifted (s : Work m n K) (h : K) : Fin m → Fin n → K :=
  fun r c =>
    let d := if s.coveredRows r then s.distMatrix r c + h else s.distMatrix r c
    if s.coveredColumns c then d else d - h

omit [IsStrictOrderedRing K] in
/-- What `step5` does. -/
theorem step5_eq {s s' : Work m n K} (h : step5 s = .ok s') :
    ∃ h, h ∈ uncovered s ∧ (∀ x ∈ uncovered s, h ≤ x) ∧ s' = { s with distMatrix := shifted s h } := by
  unfold step5 at h
  split at h
  · exact absurd h (by simp)
  · rename_i x xs huncovered
    obtain rfl := Except.ok.inj h
    rw [huncovered]
    exact ⟨minValue (x :: xs), minValue_mem, fun y hy => minValue_le hy, rfl⟩

omit [LinearOrder K] [IsStrictOrderedRing K] in
/-- Stars and primes are covered once, and stay where they are.

So the shift adds and subtracts the same on them, and zeros that are starred or primed remain
zeros. -/
theorem shifted_eq {s : Work m n K} {r : Fin m} {c : Fin n}
    (h : s.coveredColumns c = !s.coveredRows r) (x : K) : shifted s x r c = s.distMatrix r c := by
  unfold shifted
  rw [h]
  cases s.coveredRows r
  · simp
  · simp

/-- In a wide matrix a shift moves the potentials of the uncovered rows up and of the covered columns
down. -/
theorem Potentials.shift_wide {d : Fin m → Fin n → K} {s : Work m n K} {u : Fin m → K}
    {v : Fin n → K} (h : Potentials d s u v) (hs : Searching s) (hwide : m ≤ n) {x : K}
    (hx : 0 ≤ x) :
    Potentials d { s with distMatrix := shifted s x }
      (fun r => if s.coveredRows r then u r else u r + x)
      (fun c => if s.coveredColumns c then v c - x else v c) := by
  obtain ⟨hv, hzero⟩ := h.wide hwide
  refine ⟨fun r c => ?_, fun _ => ⟨fun c => ?_, fun c hc => ?_⟩, fun htall => by omega,
    fun hnonneg => ⟨fun _ r => ?_, fun htall => by omega⟩⟩
  · rw [h.dist r c]
    show _ = _ + shifted s x r c
    unfold shifted
    cases s.coveredRows r <;> cases s.coveredColumns c <;> simp <;> ring
  · have := hv c
    show (if s.coveredColumns c then v c - x else v c) ≤ 0
    split <;> linarith
  · show (if s.coveredColumns c then v c - x else v c) = 0
    -- a column without a star has not been covered
    rw [hs.column_uncovered hc]
    exact hzero c hc
  · have := (h.low hnonneg).1 hwide r
    show 0 ≤ if s.coveredRows r then u r else u r + x
    split <;> linarith

/-- In a tall matrix it moves those of the covered rows down and of the uncovered columns up. -/
theorem Potentials.shift_tall {d : Fin m → Fin n → K} {s : Work m n K} {u : Fin m → K}
    {v : Fin n → K} (h : Potentials d s u v) (hs : Searching s) (htall : n < m) {x : K}
    (hx : 0 ≤ x) :
    Potentials d { s with distMatrix := shifted s x }
      (fun r => if s.coveredRows r then u r - x else u r)
      (fun c => if s.coveredColumns c then v c else v c + x) := by
  obtain ⟨hu, hzero⟩ := h.tall htall
  refine ⟨fun r c => ?_, fun hwide => by omega, fun _ => ⟨fun r => ?_, fun r hr => ?_⟩,
    fun hnonneg => ⟨fun hwide => by omega, fun _ c => ?_⟩⟩
  · rw [h.dist r c]
    show _ = _ + shifted s x r c
    unfold shifted
    cases s.coveredRows r <;> cases s.coveredColumns c <;> simp <;> ring
  · have := hu r
    show (if s.coveredRows r then u r - x else u r) ≤ 0
    split <;> linarith
  · show (if s.coveredRows r then u r - x else u r) = 0
    rw [hs.row_uncovered hr]
    exact hzero r hr
  · have := (h.low hnonneg).2 htall c
    show 0 ≤ if s.coveredColumns c then v c else v c + x
    split <;> linarith

/-- **A shift keeps the costs feasible**: the potentials move, and no uncovered element is smaller
than what is subtracted.

The wide and the tall case are the two lemmas above. `h` is the smallest uncovered element, so that
the matrix stays non-negative. -/
theorem Feasible.shift {d : Fin m → Fin n → K} {s s' : Work m n K} (hs : Searching s)
    (h : Feasible d s) (hstep : step5 s = .ok s') : Feasible d s' := by
  obtain ⟨x, hmem, hle, rfl⟩ := step5_eq hstep
  have hx : 0 ≤ x := by
    obtain ⟨r, c, -, -, rfl⟩ := mem_uncovered.mp hmem
    exact h.nonneg r c
  have hstar : ∀ r c, s.starMatrix r c = true → shifted s x r c = s.distMatrix r c :=
    fun r c hrc => shifted_eq (hs.cover r c hrc) x
  have hprime : ∀ r c, s.primeMatrix r c = true → shifted s x r c = s.distMatrix r c := by
    intro r c hp
    refine shifted_eq ?_ x
    rw [hs.prime_column r c hp, hs.prime_row r c hp]
    rfl
  refine ⟨fun r c => ?nonneg, fun r c hrc => ?star, fun r c hp => ?prime, ?potentials⟩
  case nonneg =>
    show 0 ≤ shifted s x r c
    unfold shifted
    have hnonneg := h.nonneg r c
    -- covered never, once by a column, once by a row, or twice
    cases hr : s.coveredRows r <;> cases hc : s.coveredColumns c <;>
      simp only [if_true, if_false, Bool.false_eq_true]
    · exact sub_nonneg.mpr (hle _ (mem_uncovered.mpr ⟨r, c, hr, hc, rfl⟩))
    · exact hnonneg
    · linarith
    · linarith
  case star =>
    show isZero (shifted s x r c) = true
    rw [hstar r c hrc]
    exact h.star_zero r c hrc
  case prime =>
    show isZero (shifted s x r c) = true
    rw [hprime r c hp]
    exact h.prime_zero r c hp
  case potentials =>
    obtain ⟨u, v, hpot⟩ := h.potentials
    rcases Nat.lt_or_ge n m with htall | hwide
    · exact ⟨_, _, hpot.shift_tall hs htall hx⟩
    · exact ⟨_, _, hpot.shift_wide hs hwide hx⟩

/-! ## The run -/

/-- What a pass of the scan starts from.

It is the conjunction of the two modules' invariants: `Searching` for what is starred, primed and
covered, and `Feasible` for the costs. -/
structure Live (d : Fin m → Fin n → K) (s : Work m n K) : Prop where
  searching : Searching s
  feasible : Feasible d s
  stars_lt : stars s < min m n

omit [IsStrictOrderedRing K] in
/-- A settled state with rows left to star is one that a pass can start from. -/
theorem live_of_settled {d : Fin m → Fin n → K} {s : Work m n K} (h : Settled s)
    (hf : Feasible d s) (hopen : nOfCoveredColumns s ≠ min m n) : Live d s := by
  rw [nOfCoveredColumns_eq h] at hopen
  exact ⟨h.searching, hf, lt_of_le_of_ne (stars_le h.matching) hopen⟩

section

variable {d : Fin m → Fin n → K} {s s₁ : Work m n K}

omit [IsStrictOrderedRing K] in
/-- What a pass does, whichever way it ends. -/
theorem Live.scan (h : Live d s) :
    ScanSpec (List.finRange n) s false (scanColumns (List.finRange n) s false) ∧
      Feasible d (scanColumns (List.finRange n) s false).state :=
  ⟨scanColumns_spec h.searching, h.feasible.kept scanColumns_kept⟩

omit [IsStrictOrderedRing K] in
/-- A pass that ends in `step4`: the path is found, and the search settles again. -/
theorem Live.path (h : Live d s) {row : Fin m} {col : Fin n}
    (hscan : scanColumns (List.finRange n) s false = .step4 s₁ row col) :
    ∃ s₂, step4 s₁ row col = .ok s₂ ∧ Settled (step2a s₂) ∧ Feasible d (step2a s₂) := by
  obtain ⟨hspec, hkept⟩ := h.scan
  rw [hscan] at hspec hkept
  obtain ⟨s₀, hstart, -, rfl⟩ := hspec
  obtain ⟨s₂, hstep, hsettled, -⟩ := step4_spec hstart
  exact ⟨s₂, hstep, hsettled, Feasible.path hstart hkept hstep⟩

omit [IsStrictOrderedRing K] in
/-- A pass that covers rows goes on with the next pass. -/
theorem Live.zeros (h : Live d s)
    (hscan : scanColumns (List.finRange n) s false = .passed s₁ true) : Live d s₁ := by
  obtain ⟨hspec, hkept⟩ := h.scan
  rw [hscan] at hspec hkept
  obtain ⟨hsearching, hstar, -, -⟩ := hspec
  exact ⟨hsearching, hkept, stars_congr hstar ▸ h.stars_lt⟩

/-- A pass without a zero changes nothing, and `step5` finds an element to shift by. -/
theorem Live.shift (h : Live d s)
    (hscan : scanColumns (List.finRange n) s false = .passed s₁ false) :
    s₁ = s ∧ ∃ s₂, step5 s = .ok s₂ ∧ Live d s₂ := by
  obtain ⟨hspec, -⟩ := h.scan
  rw [hscan] at hspec
  obtain ⟨hs₁, -, -⟩ := hspec
  obtain ⟨D, hstep, -⟩ := step5_spec (h.searching.exists_uncovered h.stars_lt)
  refine ⟨hs₁, _, hstep, h.searching.shift D, ?_, h.stars_lt⟩
  exact h.feasible.shift h.searching hstep

/-- **Where `step3` ends**: in a settled state, with as many stars as the shorter side.

By induction on the fuel, as `step3_spec`, with `Live` in place of `Searching`. -/
theorem step3_ends : ∀ {fuel : Nat} {s : Work m n K} {a : Fin m → Option (Fin n)}, Live d s →
    step3 fuel s = .ok a →
    ∃ s', Settled s' ∧ Feasible d s' ∧ stars s' = min m n ∧ a = buildassignmentvector s'.starMatrix := by
  intro fuel
  induction fuel with
  | zero =>
    intro _ _ _ h
    exact absurd h (by simp [step3])
  | succ fuel ih =>
    intro s a hlive h
    unfold step3 at h
    split at h
    · rename_i s₁ row col hscan
      obtain ⟨s₂, hstep, hsettled, hfeasible⟩ := hlive.path hscan
      rw [hstep] at h
      replace h : step2b (step3 fuel) (step2a s₂) = .ok a := h
      unfold step2b at h
      split at h
      · rename_i hfull
        rw [nOfCoveredColumns_eq hsettled] at hfull
        exact ⟨step2a s₂, hsettled, hfeasible, hfull, (Except.ok.inj h).symm⟩
      · rename_i hopen
        exact ih (live_of_settled hsettled hfeasible hopen) h
    · rename_i s₁ hscan
      exact ih (hlive.zeros hscan) h
    · -- no zero was left: the shift makes one
      rename_i s₁ hscan
      obtain ⟨rfl, s₂, hstep, hnext⟩ := hlive.shift hscan
      rw [hstep] at h
      exact ih hnext h

/-- What the solver returns is read off the stars of such a state. -/
theorem assignmentoptimal_ends {a : Fin m → Option (Fin n)} (h : assignmentoptimal d = .ok a) :
    ∃ s', Settled s' ∧ Feasible d s' ∧ stars s' = min m n ∧
      a = buildassignmentvector s'.starMatrix := by
  unfold assignmentoptimal step2b at h
  split at h
  · rename_i hfull
    rw [nOfCoveredColumns_eq (preliminary_settled d)] at hfull
    exact ⟨preliminary d, preliminary_settled d, preliminary_feasible d, hfull,
      (Except.ok.inj h).symm⟩
  · rename_i hopen
    exact step3_ends (live_of_settled (preliminary_settled d) (preliminary_feasible d) hopen) h

end

/-! ## The cost -/

omit [LinearOrder K] [IsStrictOrderedRing K] in
/-- The cost that is computed at the end is the weight of the assignment as a relation. -/
theorem computeassignmentcost_eq (d : Fin m → Fin n → K) (a : Fin m → Option (Fin n)) :
    computeassignmentcost d a = weight (fun r c => a r = some c) d := by
  have hrows : computeassignmentcost d a = (List.finRange m).foldl
      (fun cost r => cost + ∑ c, if a r = some c then d r c else 0) 0 := by
    unfold computeassignmentcost
    congr 1
    funext cost r
    split
    · rename_i hnone
      simp [hnone]
    · rename_i col hcol
      simp [hcol]
  rw [hrows, ← List.foldl_map, ← List.sum_eq_foldl, ← Fin.sum_univ_def]
  unfold weight
  refine Finset.sum_congr rfl fun r _ => Finset.sum_congr rfl fun c _ => ?_
  congr

/-- In a wide matrix a full assignment uses every row. -/
theorem leftSide_eq_univ {M : Fin m → Fin n → Prop} (h : (leftSide M).card = min m n)
    (hwide : m ≤ n) : leftSide M = Finset.univ := by
  apply Finset.eq_univ_of_card
  rw [h, Fintype.card_fin]
  exact min_eq_left hwide

/-- In a tall matrix it uses every column. -/
theorem rightSide_eq_univ {M : Fin m → Fin n → Prop} (hM : IsMatching M)
    (h : (leftSide M).card = min m n) (htall : n ≤ m) : rightSide M = Finset.univ := by
  apply Finset.eq_univ_of_card
  rw [← hM.card_eq, h, Fintype.card_fin]
  exact min_eq_right htall

/-- **A full set of stars is cheapest**, up to `DBL_EPSILON` a star.

Each complete assignment is compared with the potentials, and so are the stars: the first costs at
least their sum, the second at most an epsilon a star more. -/
theorem Feasible.optimal {d : Fin m → Fin n → K} {s : Work m n K} (h : Feasible d s)
    (hM : IsMatching (Stars s.starMatrix)) (hfull : stars s = min m n) {M' : Fin m → Fin n → Prop}
    (hM' : IsMatching M') (hfull' : (leftSide M').card = min m n) :
    weight (Stars s.starMatrix) d ≤ weight M' d + (min m n : Nat) * DBL_EPSILON := by
  obtain ⟨u, v, hpot⟩ := h.potentials
  have hcard : (leftSide (Stars s.starMatrix)).card = min m n := hfull
  have hfeasible : ∀ r c, u r + v c ≤ d r c := by
    intro r c
    have := h.nonneg r c
    rw [hpot.dist r c]
    linarith
  have htight : ∀ r c, Stars s.starMatrix r c → d r c ≤ u r + v c + DBL_EPSILON := by
    intro r c hrc
    have hzero : |s.distMatrix r c| < DBL_EPSILON := of_decide_eq_true (h.star_zero r c hrc)
    have hle := (le_abs_self (s.distMatrix r c)).trans hzero.le
    rw [hpot.dist r c]
    linarith
  rw [← hcard]
  -- the shorter side is used up by both; on the longer one the stars take what is cheapest
  refine weight_le_of_potentials hM hM' hfeasible htight ?_
  by_cases hwide : m ≤ n
  · rw [leftSide_eq_univ hcard hwide, leftSide_eq_univ hfull' hwide]
    obtain ⟨hv, hzero⟩ := hpot.wide hwide
    apply add_le_add_right
    refine sum_le_sum_of_nonpos hv fun c hc => hzero c fun r => ?_
    rw [← Bool.not_eq_true]
    exact fun hrc => hc (mem_rightSide.mpr ⟨r, hrc⟩)
  · have htall : n ≤ m := (not_le.mp hwide).le
    rw [rightSide_eq_univ hM hcard htall, rightSide_eq_univ hM' hfull' htall]
    obtain ⟨hu, hzero⟩ := hpot.tall (not_le.mp hwide)
    apply add_le_add_left
    refine sum_le_sum_of_nonpos hu fun r hr => hzero r fun c => ?_
    rw [← Bool.not_eq_true]
    exact fun hrc => hr (mem_leftSide.mpr ⟨c, hrc⟩)

/-- **The solver's assignment is a cheapest one**, up to `DBL_EPSILON` a pair.

No assumption is made of the costs. `assignmentoptimal_ends` says where the solver stopped, and
`Feasible.optimal` what that is worth. -/
theorem assignmentoptimal_optimal {d : Fin m → Fin n → K} {a : Fin m → Option (Fin n)}
    (h : assignmentoptimal d = .ok a) {a' : Fin m → Option (Fin n)} (ha' : Complete a') :
    computeassignmentcost d a ≤ computeassignmentcost d a' + (min m n : Nat) * DBL_EPSILON := by
  obtain ⟨s, hsettled, hfeasible, hfull, rfl⟩ := assignmentoptimal_ends h
  have hstars : (fun r c => buildassignmentvector s.starMatrix r = some c) =
      Stars s.starMatrix := by
    funext r c
    exact propext (buildassignmentvector_eq_some hsettled.matching)
  rw [computeassignmentcost_eq, computeassignmentcost_eq, hstars]
  exact hfeasible.optimal hsettled.matching hfull ha'.1 ha'.2

end EdgeFrame.Assign
