/-
# EdgeFrame.Assign.Passes -- every pass the solver makes

`Reaches` follows the solver from pass to pass of its scan. In every state it reaches,
a path that `step4` starts ends, and the search of `step5`, which the source starts from
`DBL_MAX`, ends on an uncovered element: one of them has lost no more than its cost, as
long as no cost is below zero.
-/
import EdgeFrame.Assign.Optimal
import Mathlib

namespace EdgeFrame.Assign

open Lib

variable {K : Type} [Field K] [LinearOrder K] {m n : Nat}

/-- `DBL_MAX`. -/
def DBL_MAX : K := ((2 ^ 53 - 1) * 2 ^ 971 : Nat)

/-- The search of `step5` for `h`, as the source writes it. -/
def searchUncovered (s : Work m n K) : K :=
  (uncovered s).foldl (fun h value => if value < h then value else h) DBL_MAX

/-- The states in which the solver starts a pass of its scan. -/
inductive Reaches (d : Fin m → Fin n → K) : Work m n K → Prop
  /-- `step2b` after the preliminary steps -/
  | start (h : nOfCoveredColumns (preliminary d) ≠ min m n) : Reaches d (preliminary d)
  /-- `step4`, `step2a` and `step2b` -/
  | path {s s₁ s₂ : Work m n K} {row : Fin m} {col : Fin n} (h : Reaches d s)
      (hscan : scanColumns (List.finRange n) s false = .step4 s₁ row col)
      (hstep : step4 s₁ row col = .ok s₂)
      (hopen : nOfCoveredColumns (step2a s₂) ≠ min m n) : Reaches d (step2a s₂)
  /-- the next pass of `while (zerosFound)` -/
  | zeros {s s₁ : Work m n K} (h : Reaches d s)
      (hscan : scanColumns (List.finRange n) s false = .passed s₁ true) : Reaches d s₁
  /-- `step5` and `step3` -/
  | shift {s s₁ s₂ : Work m n K} (h : Reaches d s)
      (hscan : scanColumns (List.finRange n) s false = .passed s₁ false)
      (hstep : step5 s₁ = .ok s₂) : Reaches d s₂

variable [IsStrictOrderedRing K] {d : Fin m → Fin n → K} {s : Work m n K}

theorem Reaches.live (h : Reaches d s) : Live d s := by
  induction h with
  | start h => exact live_of_settled (preliminary_settled d) (preliminary_feasible d) h
  | path _ hscan hstep hopen ih =>
    obtain ⟨s₂, hs₂, hsettled, hfeasible⟩ := ih.path hscan
    obtain rfl := Except.ok.inj (hs₂.symm.trans hstep)
    exact live_of_settled hsettled hfeasible hopen
  | zeros _ hscan ih => exact ih.zeros hscan
  | shift _ hscan hstep ih =>
    obtain ⟨rfl, s₂, hs₂, hlive⟩ := ih.shift hscan
    obtain rfl := Except.ok.inj (hs₂.symm.trans hstep)
    exact hlive

/-- **An uncovered element is within its cost**: a row and a column without a star have potentials
that are not below zero. -/
theorem Live.exists_le (h : Live d s) (hnonneg : ∀ r c, 0 ≤ d r c) :
    ∃ x ∈ uncovered s, ∃ r c, x ≤ d r c := by
  obtain ⟨r, c, hr, hc⟩ := h.searching.exists_unstarred h.stars_lt
  refine ⟨s.distMatrix r c, mem_uncovered.mpr ⟨r, c, h.searching.row_uncovered hr,
    h.searching.column_uncovered hc, rfl⟩, r, c, ?_⟩
  obtain ⟨u, v, hpot⟩ := h.feasible.potentials
  obtain ⟨hu, hv⟩ := hpot.low hnonneg
  rw [hpot.dist r c]
  by_cases hwide : m ≤ n
  · have hzero := (hpot.wide hwide).2 c hc
    have hlow := hu hwide r
    linarith
  · have hzero := (hpot.tall (not_le.mp hwide)).2 r hr
    have hlow := hv (not_le.mp hwide) c
    linarith

omit [IsStrictOrderedRing K] in
/-- A search from a value that is not below every element ends on an element. -/
theorem searchUncovered_mem {x : K} (hx : x ∈ uncovered s) (hle : x ≤ DBL_MAX) :
    searchUncovered s ∈ uncovered s := by
  unfold searchUncovered
  rcases List.mem_cons.mp (foldl_min_mem (x := (DBL_MAX : K)) (l := uncovered s)) with htop | hmem
  · have hbelow := foldl_min_le (x := (DBL_MAX : K)) x (List.mem_cons_of_mem _ hx)
    -- left at `DBL_MAX`, the search is at the element that it did not go below
    rw [htop] at hbelow ⊢
    exact le_antisymm hle hbelow ▸ hx
  · exact hmem

/-- **Matching terminates**: for finite costs that are not below zero the solver returns a complete
assignment; wherever it calls `step4`, the path ends; and wherever it calls `step5`, the search for
the smallest uncovered element finds one, and is not left at `DBL_MAX` where no cost is.

`Live` holds wherever a pass begins. It ranks the primes, and a path falls in the rank; it keeps the
potentials, which put some uncovered element at or below a cost (`Live.exists_le`). -/
theorem matching_ends (hfinite : ∀ r c, 0 ≤ d r c ∧ d r c ≤ DBL_MAX) :
    (∃ a, assignmentoptimal d = .ok a ∧ Complete a) ∧
    (∀ s, Reaches d s → ∀ s₁ row col,
      scanColumns (List.finRange n) s false = .step4 s₁ row col → ∃ s₂, step4 s₁ row col = .ok s₂) ∧
    ∀ s, Reaches d s → ∀ s₁, scanColumns (List.finRange n) s false = .passed s₁ false →
      searchUncovered s₁ ∈ uncovered s₁ ∧
        ((∀ r c, d r c < DBL_MAX) → searchUncovered s₁ < DBL_MAX) := by
  refine ⟨assignmentoptimal_spec d, fun s hs s₁ row col hscan => ?_, fun s hs s₁ hscan => ?_⟩
  · obtain ⟨s₂, hstep, -⟩ := hs.live.path hscan
    exact ⟨s₂, hstep⟩
  · obtain ⟨rfl, -⟩ := hs.live.shift hscan
    obtain ⟨x, hx, r, c, hle⟩ := hs.live.exists_le fun r c => (hfinite r c).1
    refine ⟨searchUncovered_mem hx (hle.trans (hfinite r c).2), fun hbelow => ?_⟩
    exact (foldl_min_le x (List.mem_cons_of_mem _ hx)).trans_lt (hle.trans_lt (hbelow r c))

theorem one_lt_DBL_MAX : (1 : K) < DBL_MAX := by
  have hnat : ∀ e : Nat, 1 < (2 ^ 53 - 1) * 2 ^ e := by
    intro e
    have hpow : 1 ≤ 2 ^ e := Nat.one_le_two_pow
    omega
  exact Nat.one_lt_cast.mpr (hnat 971)

/-- Two rows whose cheapest column is the same one. -/
def sharedColumn : Fin 2 → Fin 2 → ℚ := fun _ c => if c = 0 then 0 else 1

/-- The solver has to shift, and ends. -/
theorem matching_ends_sharedColumn : (∃ a, assignmentoptimal sharedColumn = .ok a ∧ Complete a) ∧
    ∃ s s₁, Reaches sharedColumn s ∧ scanColumns (List.finRange 2) s false = .passed s₁ false ∧
      searchUncovered s₁ ∈ uncovered s₁ ∧ searchUncovered s₁ < DBL_MAX := by
  have hbelow : ∀ r c, 0 ≤ sharedColumn r c ∧ sharedColumn r c < DBL_MAX := by
    intro r c
    have hmax := one_lt_DBL_MAX (K := ℚ)
    unfold sharedColumn
    split <;> constructor <;> linarith
  obtain ⟨hends, -, hshift⟩ :=
    matching_ends (d := sharedColumn) fun r c => ⟨(hbelow r c).1, (hbelow r c).2.le⟩
  have hstart : Reaches sharedColumn (preliminary sharedColumn) := .start (by decide +kernel)
  have hpassed : (match scanColumns (List.finRange 2) (preliminary sharedColumn) false with
      | .passed _ false => true
      | _ => false) = true := by decide +kernel
  obtain ⟨s₁, hscan⟩ : ∃ s₁, scanColumns (List.finRange 2) (preliminary sharedColumn) false =
      .passed s₁ false := by
    split at hpassed
    · rename_i s₁ hscan
      exact ⟨s₁, hscan⟩
    · exact absurd hpassed (by simp)
  obtain ⟨hmem, hmax⟩ := hshift _ hstart s₁ hscan
  exact ⟨hends, _, s₁, hstart, hscan, hmem, hmax fun r c => (hbelow r c).2⟩

end EdgeFrame.Assign
