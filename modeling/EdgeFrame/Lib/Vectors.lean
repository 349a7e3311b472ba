/-
# EdgeFrame.Lib.Vectors -- vectors addressed by index, seen as bags

Code that keeps records in a vector reads and writes them by index; what it says
about the records is a statement about the bag of them. The lemmas here take an
index apart: a bag with one record at hand and the rest, the same rest after the
record has been written.
-/
import Mathlib.Data.Multiset.Basic
import Mathlib.Data.List.Range

namespace EdgeFrame.Lib

variable {α : Type*}

/-- A read takes one record out of the bag, a write at the same index puts one back. -/
theorem bag_of_getElem? {l : List α} {i : Nat} {a : α} (h : l[i]? = some a) :
    ∃ rest : Multiset α, (l : Multiset α) = a ::ₘ rest ∧
      ∀ b, (l.set i b : Multiset α) = b ::ₘ rest := by
  induction l generalizing i with
  | nil => simp at h
  | cons x xs ih =>
    cases i with
    | zero =>
      obtain rfl : x = a := by simpa using h
      exact ⟨xs, rfl, fun b => rfl⟩
    | succ i =>
      obtain ⟨rest, hxs, hset⟩ := ih (by simpa using h)
      refine ⟨x ::ₘ rest, ?_, fun b => ?_⟩
      · rw [← Multiset.cons_coe, hxs, Multiset.cons_swap]
      · rw [List.set_cons_succ, ← Multiset.cons_coe, hset b, Multiset.cons_swap]

/-- A write that `f` does not see. -/
theorem map_set_of_eq {β : Type*} {f : α → β} {l : List α} {i : Nat} {a b : α}
    (h : l[i]? = some a) (hab : f b = f a) : (l.set i b).map f = l.map f := by
  obtain ⟨hlt, rfl⟩ := List.getElem?_eq_some_iff.mp h
  rw [List.map_set, hab, ← List.getElem_map (f := f) (h := by simpa using hlt),
    List.set_getElem_self]

/-- What holds of all records and of the one that is written holds after the write. -/
theorem forall_mem_set {p : α → Prop} {l : List α} {i : Nat} {b : α} (hl : ∀ a ∈ l, p a)
    (hb : p b) : ∀ a ∈ l.set i b, p a := by
  intro a ha
  rcases List.mem_or_eq_of_mem_set ha with ha | rfl
  · exact hl a ha
  · exact hb

/-- The indexes of the records for which `p` holds, in order. -/
def indexesWhere (p : α → Bool) (l : List α) : List Nat :=
  (List.range l.length).filter fun i => (l[i]?).any p

theorem mem_indexesWhere {p : α → Bool} {l : List α} {i : Nat} :
    i ∈ indexesWhere p l ↔ ∃ a, l[i]? = some a ∧ p a = true := by
  simp only [indexesWhere, List.mem_filter, List.mem_range, Option.any_eq_true_iff_get]
  constructor
  · rintro ⟨-, hsome, hp⟩
    exact ⟨_, (Option.some_get hsome).symm, hp⟩
  · rintro ⟨a, hget, hp⟩
    obtain ⟨hlt, -⟩ := List.getElem?_eq_some_iff.mp hget
    exact ⟨hlt, by simp [hget], by simpa [hget] using hp⟩

theorem nodup_indexesWhere {p : α → Bool} {l : List α} : (indexesWhere p l).Nodup :=
  (List.nodup_range).filter _

/-- In two lists that are related entry by entry, every entry of the second has one in the first. -/
theorem exists_of_forall₂ {α β : Type*} {R : α → β → Prop} {l : List α} {l' : List β}
    (h : List.Forall₂ R l l') : ∀ b ∈ l', ∃ a ∈ l, R a b := by
  induction h with
  | nil =>
    intro b hb
    exact absurd hb (List.not_mem_nil)
  | @cons a b l l' hab _ ih =>
    intro b' hb'
    rcases List.mem_cons.mp hb' with rfl | hb'
    · exact ⟨a, List.mem_cons_self, hab⟩
    · obtain ⟨a', ha', hR⟩ := ih b' hb'
      exact ⟨a', List.mem_cons_of_mem _ ha', hR⟩

end EdgeFrame.Lib
