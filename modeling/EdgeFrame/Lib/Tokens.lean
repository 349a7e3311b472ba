/-
# EdgeFrame.Lib.Tokens -- the maximal runs between separators

`tokens` are the runs of a list that the separators leave, without the empty ones. A
run is a stretch of indexes (`IsRun`), and a scan from left to right passes separators
and runs one after the other (`Scanned`): whoever scans a list to its end has its runs,
all of them, in order, and what he cut out are the tokens.

A loop that splits a string is shown to be a scan, however it is written, and the rest
follows: `Scanned.mem_iff` for the runs, `pairwise` for their order, `flatten` for what is
lost, and `tokens_take` for the tokens. Separators and elements are arbitrary.
-/
import Mathlib.Data.List.Basic
import Mathlib.Data.List.TakeDrop

namespace EdgeFrame.Lib

variable {α : Type*} {sep : α → Bool} {s : List α}

/-- The tokens of a list: what lies between separators, where anything does. -/
def tokens (sep : α → Bool) (s : List α) : List (List α) :=
  (s.splitOnP sep).filter fun t => !t.isEmpty

/-- An empty list has none. -/
@[simp] theorem tokens_nil : tokens sep [] = [] := by
  simp [tokens, List.splitOnP_nil]

/-- A separator ends one token and begins another. -/
theorem tokens_append_cons (t s : List α) {c : α} (hc : sep c = true) :
    tokens sep (t ++ c :: s) = tokens sep t ++ tokens sep s := by
  rw [tokens, List.splitOnP_append_cons _ _ hc, List.filter_append]
  rfl

/-- A separator in front does not count. -/
theorem tokens_cons (s : List α) {c : α} (hc : sep c = true) : tokens sep (c :: s) = tokens sep s := by
  simpa using tokens_append_cons [] s hc

/-- Without separators there is one token. -/
theorem tokens_run {w : List α} (hne : w ≠ []) (hw : ∀ c ∈ w, sep c = false) : tokens sep w = [w] := by
  rw [tokens, List.splitOnP_eq_singleton hw]
  simpa using hne

/-- Separators in front do not count. -/
theorem tokens_dropWhile (s : List α) : tokens sep (s.dropWhile sep) = tokens sep s := by
  induction s with
  | nil => rfl
  | cons c s ih =>
    cases hc : sep c with
    | true => rw [List.dropWhile_cons_of_pos hc, ih, tokens_cons s hc]
    | false => rw [List.dropWhile_cons_of_neg (by simp [hc])]

/-- After a first token come the tokens of what it leaves. -/
theorem tokens_append_of_run {w rest : List α} (hne : w ≠ []) (hw : ∀ c ∈ w, sep c = false)
    (hrest : ∀ c, rest.head? = some c → sep c = true) :
    tokens sep (w ++ rest) = w :: tokens sep rest := by
  cases rest with
  | nil => rw [List.append_nil, tokens_run hne hw, tokens_nil]
  | cons c rest =>
    have hc : sep c = true := hrest c rfl
    rw [tokens_append_cons w rest hc, tokens_run hne hw, tokens_cons rest hc, List.singleton_append]

/-! ## Runs as stretches of indexes -/

/-- The elements from index `i` up to index `j`. -/
def slice (s : List α) (i j : Nat) : List α := (s.drop i).take (j - i)

/-- The indexes from `i` up to `j` are a maximal run: no separator among them, and none could be
added on either side. -/
structure IsRun (sep : α → Bool) (s : List α) (i j : Nat) : Prop where
  nonempty : i < j
  le_length : j ≤ s.length
  inside : ∀ k c, i ≤ k → k < j → s[k]? = some c → sep c = false
  before : i = 0 ∨ ∃ c, s[i - 1]? = some c ∧ sep c = true
  after : j = s.length ∨ ∃ c, s[j]? = some c ∧ sep c = true

/-- A slice goes on where the part before it ends. -/
theorem take_append_slice (s : List α) {i j : Nat} (h : i ≤ j) : s.take i ++ slice s i j = s.take j := by
  have hj : j = i + (j - i) := by omega
  rw [slice, ← List.take_add, ← hj]

/-- What is in a slice has an index there. -/
theorem mem_slice {c : α} {i j : Nat} (h : c ∈ slice s i j) : ∃ k, i ≤ k ∧ k < j ∧ s[k]? = some c := by
  obtain ⟨k, hk⟩ := List.mem_iff_getElem?.mp h
  rw [slice, List.getElem?_take, List.getElem?_drop] at hk
  split at hk
  · exact ⟨i + k, by omega, by omega, hk⟩
  · cases hk

/-- No separator is in a run. -/
theorem IsRun.no_separator {i j : Nat} (h : IsRun sep s i j) : ∀ c ∈ slice s i j, sep c = false := by
  intro c hc
  obtain ⟨k, hik, hkj, hk⟩ := mem_slice hc
  exact h.inside k c hik hkj hk

/-- A run is not empty. -/
theorem IsRun.slice_ne_nil {i j : Nat} (h : IsRun sep s i j) : slice s i j ≠ [] := by
  have hlt := h.nonempty
  have hle := h.le_length
  intro hnil
  have hlen : (slice s i j).length = j - i := by
    rw [slice, List.length_take, List.length_drop]
    omega
  rw [hnil] at hlen
  simp only [List.length_nil] at hlen
  omega

/-- A run that begins before an index and ends after it has no separator there. -/
theorem IsRun.not_separator {i j k : Nat} {c : α} (h : IsRun sep s i j) (hc : s[k]? = some c)
    (hsep : sep c = true) : k < i ∨ j ≤ k := by
  by_contra hk
  rw [h.inside k c (by omega) (by omega) hc] at hsep
  cases hsep

/-- A run that begins before another one ends begins no later than it. -/
theorem IsRun.start_le {i j i' j' : Nat} (h : IsRun sep s i j) (h' : IsRun sep s i' j')
    (hlt : i' < j) : i' ≤ i := by
  rcases h'.before with hz | ⟨c, hc, hsep⟩
  · omega
  · rcases h.not_separator hc hsep with hbefore | hafter
    · omega
    · omega

/-- A run that another one begins before the end of does not end before it. -/
theorem IsRun.stop_le {i j i' j' : Nat} (h : IsRun sep s i j) (h' : IsRun sep s i' j')
    (hlt : i < j') : j ≤ j' := by
  rcases h'.after with hn | ⟨c, hc, hsep⟩
  · rw [hn]
    exact h.le_length
  · rcases h.not_separator hc hsep with hbefore | hafter
    · omega
    · exact hafter

/-- Two runs that share an index are one. -/
theorem IsRun.unique {i j i' j' : Nat} (h : IsRun sep s i j) (h' : IsRun sep s i' j')
    (hi : i < j') (hi' : i' < j) : i' = i ∧ j' = j :=
  ⟨Nat.le_antisymm (h.start_le h' hi') (h'.start_le h hi),
    Nat.le_antisymm (h'.stop_le h hi') (h.stop_le h' hi)⟩

/-! ## Scanning -/

/-- A scan has passed the indexes below `k` and cut out the runs `l`. -/
inductive Scanned (sep : α → Bool) (s : List α) : Nat → List (Nat × Nat) → Prop
  | start : Scanned sep s 0 []
  | skip {k : Nat} {l : List (Nat × Nat)} {c : α} :
      Scanned sep s k l → s[k]? = some c → sep c = true → Scanned sep s (k + 1) l
  | run {k j : Nat} {l : List (Nat × Nat)} :
      Scanned sep s k l → IsRun sep s k j → Scanned sep s j (l ++ [(k, j)])

namespace Scanned

variable {k : Nat} {l : List (Nat × Nat)}

/-- A scan does not go past the end. -/
theorem le_length (h : Scanned sep s k l) : k ≤ s.length := by
  cases h with
  | start => exact Nat.zero_le _
  | skip _ hc _ => exact (List.getElem?_eq_some_iff.mp hc).1
  | run _ hrun => exact hrun.le_length

/-- Where a scan stands, no run goes on: what comes next begins one, unless it is a separator. -/
theorem boundary (h : Scanned sep s k l) :
    (k = 0 ∨ ∃ c, s[k - 1]? = some c ∧ sep c = true) ∨
      (k = s.length ∨ ∃ c, s[k]? = some c ∧ sep c = true) := by
  cases h with
  | start => exact Or.inl (Or.inl rfl)
  | skip _ hc hsep => exact Or.inl (Or.inr ⟨_, hc, hsep⟩)
  | run _ hrun => exact Or.inr hrun.after

/-- What a scan meets between separators is a run: it begins where the scan stands, at something
that is no separator, and goes on to the next one. -/
theorem isRun {j : Nat} {c : α} (h : Scanned sep s k l) (hc : s[k]? = some c) (hsep : sep c = false)
    (hkj : k ≤ j) (hj : j ≤ s.length)
    (hinside : ∀ m c, k ≤ m → m < j → s[m]? = some c → sep c = false)
    (hafter : j = s.length ∨ ∃ c, s[j]? = some c ∧ sep c = true) : IsRun sep s k j := by
  have hlt : k < s.length := (List.getElem?_eq_some_iff.mp hc).1
  have hother : ∀ c', s[k]? = some c' → sep c' ≠ true := by
    intro c' hc' hsep'
    rw [hc, Option.some.injEq] at hc'
    rw [← hc', hsep] at hsep'
    cases hsep'
  have hne : k ≠ j := by
    intro he
    rcases hafter with hn | ⟨c', hc', hsep'⟩
    · omega
    · exact hother c' (he ▸ hc') hsep'
  have hbefore : k = 0 ∨ ∃ c, s[k - 1]? = some c ∧ sep c = true := by
    rcases h.boundary with hb | hn | ⟨c', hc', hsep'⟩
    · exact hb
    · omega
    · exact absurd hsep' (hother c' hc')
  exact ⟨by omega, hj, hinside, hbefore, hafter⟩

/-- **What a scan has cut out** are the runs that end where it stands or before.

By induction on the scan; a run that ends where it stands is the one just cut out, by
`IsRun.unique`. -/
theorem mem_iff (h : Scanned sep s k l) (p : Nat × Nat) :
    p ∈ l ↔ IsRun sep s p.1 p.2 ∧ p.2 ≤ k := by
  induction h with
  | start =>
    constructor
    · intro hp
      cases hp
    · rintro ⟨hrun, hle⟩
      have := hrun.nonempty
      omega
  | @skip k l c _ hc hsep ih =>
    rw [ih]
    constructor
    · rintro ⟨hrun, hle⟩
      exact ⟨hrun, Nat.le_succ_of_le hle⟩
    · rintro ⟨hrun, hle⟩
      have hlt := hrun.nonempty
      rcases hrun.not_separator hc hsep with hbefore | hafter
      · omega
      · exact ⟨hrun, hafter⟩
  | @run k j l hscan hrun ih =>
    have hkj := hrun.nonempty
    rw [List.mem_append, ih, List.mem_singleton]
    constructor
    · rintro (⟨hp, hle⟩ | hp)
      · exact ⟨hp, by omega⟩
      · rw [hp]
        exact ⟨hrun, Nat.le_refl j⟩
    · rintro ⟨hp, hle⟩
      by_cases hk : p.2 ≤ k
      · exact Or.inl ⟨hp, hk⟩
      · have hp1 := hp.nonempty
        have hone := hrun.unique hp (by omega) (by omega)
        exact Or.inr (Prod.ext hone.1 hone.2)

/-- They come one after the other. -/
theorem pairwise (h : Scanned sep s k l) : l.Pairwise fun p q => p.2 ≤ q.1 := by
  induction h with
  | start => exact List.Pairwise.nil
  | skip _ _ _ ih => exact ih
  | @run k j l hscan hrun ih =>
    rw [List.pairwise_append]
    refine ⟨ih, List.pairwise_singleton _ _, ?_⟩
    intro p hp q hq
    rw [List.mem_singleton.mp hq]
    exact ((hscan.mem_iff p).mp hp).2

/-- What is cut out is what is passed, less the separators. -/
theorem flatten (h : Scanned sep s k l) :
    (l.map fun p => slice s p.1 p.2).flatten = (s.take k).filter fun c => !sep c := by
  induction h with
  | start => rfl
  | @skip k l c _ hc hsep ih =>
    rw [ih, List.take_add_one, hc, List.filter_append]
    simp [hsep]
  | @run k j l _ hrun ih =>
    have hkept : (slice s k j).filter (fun c => !sep c) = slice s k j := by
      rw [List.filter_eq_self]
      intro c hc
      rw [hrun.no_separator c hc]
      rfl
    rw [List.map_append, List.flatten_append, ih, ← take_append_slice s (Nat.le_of_lt hrun.nonempty),
      List.filter_append, hkept, List.map_singleton, List.flatten_singleton]

/-- What is cut out are the tokens of what is passed. -/
theorem tokens_take (h : Scanned sep s k l) :
    tokens sep (s.take k) = l.map fun p => slice s p.1 p.2 := by
  induction h with
  | start => exact tokens_nil
  | @skip k l c _ hc hsep ih =>
    rw [List.take_add_one, hc, Option.toList_some, tokens_append_cons _ _ hsep, ih, tokens_nil,
      List.append_nil]
  | @run k j l _ hrun ih =>
    have hone := tokens_run hrun.slice_ne_nil hrun.no_separator
    rw [← take_append_slice s (Nat.le_of_lt hrun.nonempty), List.map_append, ← ih, List.map_singleton, ← hone]
    rcases Nat.eq_zero_or_pos k with hz | hpos
    · rw [hz, List.take_zero, List.nil_append, tokens_nil, List.nil_append]
    · -- the last element passed is a separator: it parts the run from what came before
      rcases hrun.before with hz | ⟨c, hc, hsep⟩
      · omega
      · have htake : s.take k = s.take (k - 1) ++ [c] := by
          rw [← Nat.sub_add_cancel hpos, List.take_add_one, Nat.add_sub_cancel, hc,
            Option.toList_some]
        rw [htake, List.append_assoc, List.singleton_append, tokens_append_cons _ _ hsep,
          tokens_append_cons _ _ hsep, tokens_nil, List.append_nil]

end Scanned

end EdgeFrame.Lib
