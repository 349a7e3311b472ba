/-
# EdgeFrame.Lib.FallingMap -- a map in the order of falling keys

The entries of a map that is ordered by `>` are a list whose keys fall. `insertNew` is
the insertion that leaves a key alone that is there already. An entry is among the
first `n` exactly when at most `n` keys are at least its own.

The keys are of any linear order, the values of any type. Insertion walks to the place of the
key. Of a tree that is ordered in this way the list is what an iteration shows.
-/
import Mathlib.Data.Finset.Card
import Mathlib.Data.List.Pairwise
import Mathlib.Order.Defs.LinearOrder

namespace EdgeFrame.Lib

variable {κ β : Type*} [LinearOrder κ]

/-- Insert an entry, unless its key is there. -/
def insertNew (k : κ) (v : β) : List (κ × β) → List (κ × β)
  | [] => [(k, v)]
  | p :: m =>
    if p.1 < k then (k, v) :: p :: m
    else if k < p.1 then p :: insertNew k v m
    else p :: m

/-- The keys of the entries fall. -/
def Falling (m : List (κ × β)) : Prop := m.Pairwise fun a b => b.1 < a.1

/-- What is there afterwards is new or was there. -/
theorem mem_of_mem_insertNew {k : κ} {v : β} {m : List (κ × β)} {q : κ × β}
    (h : q ∈ insertNew k v m) : q = (k, v) ∨ q ∈ m := by
  induction m with
  | nil =>
    exact Or.inl (List.mem_singleton.mp h)
  | cons p m ih =>
    unfold insertNew at h
    split at h
    · exact List.mem_cons.mp h
    · split at h
      · rcases List.mem_cons.mp h with rfl | h
        · exact Or.inr List.mem_cons_self
        · exact (ih h).imp_right (List.mem_cons_of_mem p)
      · exact Or.inr h

/-- What was there stays. -/
theorem mem_insertNew {k : κ} {v : β} {m : List (κ × β)} {q : κ × β} (h : q ∈ m) :
    q ∈ insertNew k v m := by
  induction m with
  | nil => cases h
  | cons p m ih =>
    unfold insertNew
    split
    · exact List.mem_cons_of_mem _ h
    · split
      · rcases List.mem_cons.mp h with rfl | h
        · exact List.mem_cons_self
        · exact List.mem_cons_of_mem p (ih h)
      · exact h

/-- Afterwards the key is there. -/
theorem exists_key_insertNew (k : κ) (v : β) (m : List (κ × β)) :
    ∃ q ∈ insertNew k v m, q.1 = k := by
  induction m with
  | nil => exact ⟨(k, v), List.mem_cons_self, rfl⟩
  | cons p m ih =>
    unfold insertNew
    split
    · exact ⟨(k, v), List.mem_cons_self, rfl⟩
    · rename_i hlt
      split
      · obtain ⟨q, hq, hkey⟩ := ih
        exact ⟨q, List.mem_cons_of_mem p hq, hkey⟩
      · rename_i hgt
        exact ⟨p, List.mem_cons_self, le_antisymm (not_lt.mp hgt) (not_lt.mp hlt)⟩

/-- The keys still fall. -/
theorem Falling.insertNew {m : List (κ × β)} (h : Falling m) (k : κ) (v : β) :
    Falling (insertNew k v m) := by
  induction m with
  | nil => exact List.pairwise_singleton _ _
  | cons p m ih =>
    obtain ⟨hp, hm⟩ := List.pairwise_cons.mp h
    unfold Lib.insertNew
    split
    · rename_i hlt
      refine List.pairwise_cons.mpr ⟨?_, h⟩
      intro q hq
      rcases List.mem_cons.mp hq with rfl | hq
      · exact hlt
      · exact (hp q hq).trans hlt
    · split
      · rename_i hgt
        refine List.pairwise_cons.mpr ⟨?_, ih hm⟩
        intro q hq
        rcases mem_of_mem_insertNew hq with rfl | hq
        · exact hgt
        · exact hp q hq
      · exact h

/-! ## The first entries -/

/-- No key is there twice. -/
theorem Falling.nodup_map_fst {m : List (κ × β)} (h : Falling m) : (m.map (·.1)).Nodup := by
  unfold List.Nodup
  rw [List.pairwise_map]
  exact h.imp fun hlt => hlt.ne'

/-- Two entries with one key are one entry. -/
theorem Falling.eq_of_key {m : List (κ × β)} (h : Falling m) {p q : κ × β} (hp : p ∈ m)
    (hq : q ∈ m) (hkey : p.1 = q.1) : p = q :=
  List.inj_on_of_nodup_map h.nodup_map_fst hp hq hkey

/-- What is not among the first `n` has a smaller key than they have. -/
theorem Falling.lt_of_mem_take {m : List (κ × β)} (h : Falling m) {n : Nat} {p q : κ × β}
    (hp : p ∈ m.take n) (hq : q ∈ m) (hnot : q ∉ m.take n) : q.1 < p.1 := by
  unfold Falling at h
  rw [← List.take_append_drop n m] at h hq
  rcases List.mem_append.mp hq with hq | hq
  · exact absurd hq hnot
  · exact (List.pairwise_append.mp h).2.2 p hp q hq

/-- The keys of a map. -/
def keys (m : List (κ × β)) : Finset κ := (m.map (·.1)).toFinset

/-- A key is that of an entry. -/
theorem mem_keys {m : List (κ × β)} {k : κ} : k ∈ keys m ↔ ∃ p ∈ m, p.1 = k := by
  simp [keys]

/-- There are as many keys as entries. -/
theorem Falling.card_keys {m : List (κ × β)} (h : Falling m) : (keys m).card = m.length := by
  rw [keys, List.toFinset_card_of_nodup h.nodup_map_fst, List.length_map]

/-- **An entry is among the first `n`** exactly when at most `n` keys are at least its own.

The keys that are at least that of the entry are those of the entries up to it. -/
theorem Falling.mem_take_iff {m : List (κ × β)} (h : Falling m) : ∀ {n : Nat} {q : κ × β}, q ∈ m →
    (q ∈ m.take n ↔ ((keys m).filter (q.1 ≤ ·)).card ≤ n) := by
  induction m with
  | nil =>
    intro n q hq
    cases hq
  | cons p m ih =>
    obtain ⟨hp, hm⟩ := List.pairwise_cons.mp h
    have hkeys : keys (p :: m) = insert p.1 (keys m) := by
      simp [keys]
    have hnew : p.1 ∉ keys m := by
      rw [mem_keys]
      rintro ⟨q, hq, hkey⟩
      exact absurd hkey (hp q hq).ne
    intro n q hq
    rw [hkeys, Finset.filter_insert]
    rcases List.mem_cons.mp hq with rfl | hqm
    · -- the largest key
      have hnone : (keys m).filter (q.1 ≤ ·) = ∅ := by
        rw [Finset.filter_eq_empty_iff]
        intro k hk
        obtain ⟨r, hr, rfl⟩ := mem_keys.mp hk
        exact not_le.mpr (hp r hr)
      rw [if_pos (le_refl _), hnone]
      cases n with
      | zero => simp
      | succ n => simp
    -- a key below the largest one counts it, and stands one place further back
    · rw [if_pos (hp q hqm).le, Finset.card_insert_of_notMem fun hmem =>
        hnew (Finset.mem_filter.mp hmem).1]
      have hne : q ≠ p := by
        rintro rfl
        exact lt_irrefl _ (hp q hqm)
      cases n with
      | zero => simp
      | succ n =>
        rw [List.take_succ_cons, List.mem_cons, or_iff_right hne, ih hm hqm]
        omega

end EdgeFrame.Lib
