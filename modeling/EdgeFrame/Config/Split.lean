/-
# EdgeFrame.Config.Split -- splitting a string at separators

`SysPublicTool::split` scans with two indexes and a flag: one loop passes separators,
the next one runs to the end of a token, and the outer loop goes on from there. It is a
scan in the sense of `Scanned`, whatever the separators are: none, in front, at the end
or one after the other.

Each loop has one lemma that says where it stops and what lies in between
(`skipSeperators_scans`, `runToSeperator_stops`), and that it ends. The outer loop cuts
out what lies between the two indexes and goes on as a scan does (`splitLoop_scans`).
The laws of the result are then those of any scan, of which `Lib.Tokens` knows the runs,
their order and what is lost.
-/
import EdgeFrame.Lib.Tokens
import EdgeFrame.Lib.Bytes

namespace EdgeFrame.Config

open Lib

/-- The `for` of the first inner loop, over the separators that are left: where `i` and `flag` are
after it. -/
def passSeperator (s : Bytes) (i flag : Nat) : Bytes → Nat × Nat
  | [] => (i, flag)
  | x :: seperator => if s[i]? = some x then (i + 1, 0) else passSeperator s i flag seperator

/-- The first inner loop: `i` after it. -/
def skipSeperators (s seperator : Bytes) : Nat → Nat → Nat → Option Nat
  | 0, _, _ => none
  | fuel + 1, i, flag =>
    if i ≠ s.length ∧ flag = 0 then
      let (i, flag) := passSeperator s i 1 seperator
      skipSeperators s seperator fuel i flag
    else some i

/-- The `for` of the second inner loop: `flag` after it. -/
def meetSeperator (s : Bytes) (j flag : Nat) : Bytes → Nat
  | [] => flag
  | x :: seperator => if s[j]? = some x then 1 else meetSeperator s j flag seperator

/-- The second inner loop: `j` after it. -/
def runToSeperator (s seperator : Bytes) : Nat → Nat → Nat → Option Nat
  | 0, _, _ => none
  | fuel + 1, j, flag =>
    if j ≠ s.length ∧ flag = 0 then
      let flag := meetSeperator s j flag seperator
      runToSeperator s seperator fuel (if flag = 0 then j + 1 else j) flag
    else some j

/-- The outer loop. -/
def splitLoop (s seperator : Bytes) : Nat → Nat → List Bytes → Option (List Bytes)
  | 0, _, _ => none
  | fuel + 1, i, result =>
    if i ≠ s.length then do
      let i ← skipSeperators s seperator (s.length + 2) i 0
      let j ← runToSeperator s seperator (s.length + 2) i 0
      if i ≠ j then splitLoop s seperator fuel j (result ++ [slice s i j])
      else splitLoop s seperator fuel i result
    else some result

/-- `SysPublicTool::split`; `none` when a loop does not end. -/
def split (s seperator : Bytes) : Option (List Bytes) := splitLoop s seperator (s.length + 1) 0 []

/-! ## The inner loops -/

section

variable {s seperator : Bytes} {i j : Nat} {c : UInt8}

/-- The `for` of the first loop: a separator is passed, at anything else `flag` stays. -/
theorem passSeperator_eq (hc : s[i]? = some c) (flag : Nat) :
    passSeperator s i flag seperator = if seperator.contains c then (i + 1, 0) else (i, flag) := by
  induction seperator with
  | nil => rfl
  | cons x seperator ih =>
    rw [passSeperator, hc, ih, List.contains_cons]
    by_cases hx : c = x
    · simp [hx]
    · simp [hx]

/-- The `for` of the second loop: a separator sets `flag`. -/
theorem meetSeperator_eq (hc : s[j]? = some c) (flag : Nat) :
    meetSeperator s j flag seperator = if seperator.contains c then 1 else flag := by
  induction seperator with
  | nil => rfl
  | cons x seperator ih =>
    rw [meetSeperator, hc, ih, List.contains_cons]
    by_cases hx : c = x
    · simp [hx]
    · simp [hx]

/-- **The first inner loop** ends; it passes separators, and stops at the end of the string or at
something else. -/
theorem skipSeperators_scans {l : List (Nat × Nat)} :
    ∀ (fuel i : Nat), s.length - i + 2 ≤ fuel → Scanned seperator.contains s i l →
      ∃ i', skipSeperators s seperator fuel i 0 = some i' ∧ i ≤ i' ∧
        Scanned seperator.contains s i' l ∧
        (i' = s.length ∨ ∃ c, s[i']? = some c ∧ seperator.contains c = false) := by
  intro fuel
  induction fuel with
  | zero =>
    intro i hfuel
    omega
  | succ fuel ih =>
    intro i hfuel hscan
    have hle := hscan.le_length
    by_cases hi : i = s.length
    · exact ⟨i, by rw [skipSeperators, if_neg (by simp [hi])], Nat.le_refl i, hscan, Or.inl hi⟩
    · have hlt : i < s.length := by omega
      have hc : s[i]? = some s[i] := List.getElem?_eq_getElem hlt
      rw [skipSeperators, if_pos ⟨hi, rfl⟩, passSeperator_eq hc]
      cases hsep : seperator.contains s[i] with
      | true =>
        obtain ⟨i', hrun, hii', hscan', hstop⟩ := ih (i + 1) (by omega) (hscan.skip hc hsep)
        exact ⟨i', hrun, by omega, hscan', hstop⟩
      | false =>
        -- no separator: `flag` stays 1, and the loop ends at its next test
        obtain ⟨fuel, rfl⟩ : ∃ n, fuel = n + 1 := ⟨fuel - 1, by omega⟩
        refine ⟨i, ?_, Nat.le_refl i, hscan, Or.inr ⟨s[i], hc, hsep⟩⟩
        simp [skipSeperators]

/-- **The second inner loop** ends, with no separator between where it began and where it stops. -/
theorem runToSeperator_stops :
    ∀ (fuel j : Nat), s.length - j + 2 ≤ fuel → j ≤ s.length →
      ∃ j', runToSeperator s seperator fuel j 0 = some j' ∧ j ≤ j' ∧ j' ≤ s.length ∧
        (∀ k c, j ≤ k → k < j' → s[k]? = some c → seperator.contains c = false) ∧
        (j' = s.length ∨ ∃ c, s[j']? = some c ∧ seperator.contains c = true) := by
  intro fuel
  induction fuel with
  | zero =>
    intro j hfuel
    omega
  | succ fuel ih =>
    intro j hfuel hle
    by_cases hj : j = s.length
    · refine ⟨j, by rw [runToSeperator, if_neg (by simp [hj])], Nat.le_refl j, hle, ?_, Or.inl hj⟩
      intro k c hjk hkj
      omega
    · have hlt : j < s.length := by omega
      have hc : s[j]? = some s[j] := List.getElem?_eq_getElem hlt
      rw [runToSeperator, if_pos ⟨hj, rfl⟩, meetSeperator_eq hc]
      cases hsep : seperator.contains s[j] with
      | true =>
        obtain ⟨fuel, rfl⟩ : ∃ n, fuel = n + 1 := ⟨fuel - 1, by omega⟩
        refine ⟨j, ?_, Nat.le_refl j, hle, ?_, Or.inr ⟨s[j], hc, hsep⟩⟩
        · simp [runToSeperator]
        · intro k c hjk hkj
          omega
      | false =>
        obtain ⟨j', hrun, hjj', hle', hin, hstop⟩ := ih (j + 1) (by omega) (by omega)
        refine ⟨j', hrun, by omega, hle', ?_, hstop⟩
        intro k c hjk hkj hk
        rcases Nat.eq_or_lt_of_le hjk with hk' | hk'
        · rw [← hk', hc, Option.some.injEq] at hk
          rw [← hk, hsep]
        · exact hin k c hk' hkj hk

/-! ## The outer loop -/

/-- From where a scan stands, the loop scans to the end of the string.

By induction on the fuel, which is more than what is left of the string. -/
theorem splitLoop_scans :
    ∀ (fuel i : Nat) (l : List (Nat × Nat)), s.length - i < fuel →
      Scanned seperator.contains s i l →
      ∃ l', splitLoop s seperator fuel i (l.map fun p => slice s p.1 p.2) =
          some (l'.map fun p => slice s p.1 p.2) ∧
        Scanned seperator.contains s s.length l' := by
  intro fuel
  induction fuel with
  | zero =>
    intro i l hfuel
    omega
  | succ fuel ih =>
    intro i l hfuel hscan
    have hle := hscan.le_length
    by_cases hi : i = s.length
    · refine ⟨l, by rw [splitLoop, if_neg (by simp [hi])], ?_⟩
      rw [← hi]
      exact hscan
    · obtain ⟨i', hskip, hii', hscan', hstop⟩ := skipSeperators_scans (s.length + 2) i (by omega) hscan
      have hle' := hscan'.le_length
      obtain ⟨j, hrun, hij, hjle, hin, hend⟩ :=
        @runToSeperator_stops s seperator (s.length + 2) i' (by omega) hle'
      rw [splitLoop, if_pos hi, hskip]
      simp only [Option.bind_eq_bind, Option.bind_some]
      rw [hrun, Option.bind_some]
      rcases hstop with hn | ⟨c, hc, hsep⟩
      · -- nothing but separators was left
        have hj : i' = j := by omega
        rw [if_neg (by simp [hj])]
        exact ih i' l (by omega) hscan'
      · have hone := hscan'.isRun hc hsep hij hjle hin hend
        have hlt := hone.nonempty
        rw [if_pos (by omega)]
        have hnext := ih j (l ++ [(i', j)]) (by omega) (hscan'.run hone)
        simpa using hnext

end

/-- The loop is a scan of the whole string. -/
theorem split_scans (s seperator : Bytes) :
    ∃ l, split s seperator = some (l.map fun p => slice s p.1 p.2) ∧
      Scanned seperator.contains s s.length l :=
  splitLoop_scans (s.length + 1) 0 [] (by omega) Scanned.start

/-- What `split` returns are the tokens of the string. -/
theorem split_eq_tokens (s seperator : Bytes) :
    split s seperator = some (tokens seperator.contains s) := by
  obtain ⟨l, hl, hscan⟩ := split_scans s seperator
  rw [hl, ← hscan.tokens_take, List.take_length]

/-- **`split` is the maximal-token splitter.** It ends, its result is cut out by the maximal runs
without a separator, all of them, in order; no token is empty or contains a separator, and the tokens
together are the string less its separators.

It is `split_scans` with the laws of `Scanned` at the end of the string. -/
theorem split_maximal_runs (s seperator : Bytes) :
    ∃ (result : List Bytes) (runs : List (Nat × Nat)), split s seperator = some result ∧
      result = runs.map (fun p => slice s p.1 p.2) ∧ runs.Pairwise (fun p q => p.2 ≤ q.1) ∧
      (∀ i j, (i, j) ∈ runs ↔ IsRun seperator.contains s i j) ∧
      (∀ t ∈ result, t ≠ [] ∧ ∀ c ∈ t, c ∉ seperator) ∧
      result.flatten = s.filter fun c => !seperator.contains c := by
  obtain ⟨l, hl, hscan⟩ := split_scans s seperator
  have hmem : ∀ i j, (i, j) ∈ l ↔ IsRun seperator.contains s i j := by
    intro i j
    rw [hscan.mem_iff]
    exact and_iff_left_of_imp IsRun.le_length
  refine ⟨_, l, hl, rfl, hscan.pairwise, hmem, ?_, ?_⟩
  · intro t ht
    obtain ⟨p, hp, rfl⟩ := List.mem_map.mp ht
    have hrun := (hmem p.1 p.2).mp hp
    refine ⟨hrun.slice_ne_nil, ?_⟩
    intro c hc hsep
    have hno := hrun.no_separator c hc
    rw [List.contains_iff_mem.mpr hsep] at hno
    cases hno
  · rw [hscan.flatten, List.take_length]

end EdgeFrame.Config
