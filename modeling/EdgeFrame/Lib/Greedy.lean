/-
# EdgeFrame.Lib.Greedy -- greedy selection along a list

`greedy sup l` walks a list from its head and keeps an element unless one of those kept
before it suppresses it. What is kept is a sublist in which nothing suppresses what
comes later, what is dropped has a suppressor among the kept, and the choice for a
prefix does not depend on what follows it.

The relation may be any: it need not be symmetric, nor transitive. In a list that is sorted
by merit the walk is greedy suppression; the theorems here do not know about merit, and
hold of every order of the list.
-/
import Mathlib.Data.List.Basic
import Mathlib.Data.List.Induction
import Mathlib.Data.List.Perm.Basic

namespace EdgeFrame.Lib

variable {α : Type*} (sup : α → α → Bool)

/-- The walk, with what was kept so far. -/
def greedyFrom : List α → List α → List α
  | kept, [] => kept
  | kept, a :: l => if kept.any (sup · a) then greedyFrom kept l else greedyFrom (kept ++ [a]) l

/-- The elements that no element kept before them suppresses. -/
def greedy (l : List α) : List α := greedyFrom sup [] l

variable {sup}

/-- A walk of two lists is a walk of the second with what the first has left. -/
theorem greedyFrom_append (l₁ l₂ : List α) : ∀ kept : List α,
    greedyFrom sup kept (l₁ ++ l₂) = greedyFrom sup (greedyFrom sup kept l₁) l₂ := by
  induction l₁ with
  | nil => intro kept; rfl
  | cons a l₁ ih =>
    intro kept
    simp only [List.cons_append, greedyFrom]
    split
    · exact ih kept
    · exact ih (kept ++ [a])

/-- And so is the greedy choice. -/
theorem greedy_append (l₁ l₂ : List α) :
    greedy sup (l₁ ++ l₂) = greedyFrom sup (greedy sup l₁) l₂ :=
  greedyFrom_append l₁ l₂ []

/-- One more element at the end. -/
theorem greedy_concat (l : List α) (a : α) : greedy sup (l ++ [a]) =
    if (greedy sup l).any (sup · a) then greedy sup l else greedy sup l ++ [a] := by
  rw [greedy_append]
  rfl

/-- What is kept is in its order. -/
theorem greedy_sublist (l : List α) : (greedy sup l).Sublist l := by
  induction l using List.reverseRecOn with
  | nil => exact List.Sublist.refl _
  | append_singleton l a ih =>
    rw [greedy_concat]
    split
    · exact ih.trans (List.sublist_append_left l [a])
    · exact ih.append (List.Sublist.refl [a])

/-- It is some of the list. -/
theorem mem_of_mem_greedy {l : List α} {a : α} (h : a ∈ greedy sup l) : a ∈ l :=
  (greedy_sublist l).subset h

/-- **Soundness**: nothing kept suppresses what was kept after it.

An element is compared with all that was kept before it. -/
theorem greedy_pairwise (l : List α) : (greedy sup l).Pairwise fun a b => sup a b = false := by
  induction l using List.reverseRecOn with
  | nil => exact List.Pairwise.nil
  | append_singleton l a ih =>
    rw [greedy_concat]
    split
    · exact ih
    · rename_i hfree
      rw [List.pairwise_append]
      refine ⟨ih, List.pairwise_singleton _ a, ?_⟩
      intro b hb a' ha'
      obtain rfl := List.mem_singleton.mp ha'
      by_contra hsup
      exact hfree (List.any_eq_true.mpr ⟨b, hb, by simpa using hsup⟩)

variable (sup) in
/-- **Completeness**: every occurrence that is not kept has a suppressor among the kept, which stands
before it in the list.

By induction from the end of the list: what comes last is kept, or one of those kept before
suppresses it. -/
theorem greedy_partition {R : α → α → Prop} {l : List α} (hR : l.Pairwise R) :
    ∃ dropped, (greedy sup l ++ dropped).Perm l ∧
      ∀ d ∈ dropped, ∃ b ∈ greedy sup l, R b d ∧ sup b d = true := by
  induction l using List.reverseRecOn with
  | nil => exact ⟨[], List.Perm.refl _, fun d hd => absurd hd (List.not_mem_nil)⟩
  | append_singleton l a ih =>
    obtain ⟨hl, -, hla⟩ := List.pairwise_append.mp hR
    obtain ⟨dropped, hperm, hdropped⟩ := ih hl
    rw [greedy_concat]
    split
    · rename_i hany
      obtain ⟨b, hb, hsup⟩ := List.any_eq_true.mp hany
      refine ⟨dropped ++ [a], ?_, ?_⟩
      · rw [← List.append_assoc]
        exact hperm.append_right [a]
      · intro d hd
        rcases List.mem_append.mp hd with hd | hd
        · exact hdropped d hd
        · obtain rfl := List.mem_singleton.mp hd
          exact ⟨b, hb, hla b (mem_of_mem_greedy hb) d List.mem_cons_self, hsup⟩
    · refine ⟨dropped, ?_, ?_⟩
      · have hswap : (greedy sup l ++ [a] ++ dropped).Perm (greedy sup l ++ dropped ++ [a]) := by
          rw [List.append_assoc, List.append_assoc]
          exact List.perm_append_comm.append_left _
        exact hswap.trans (hperm.append_right [a])
      · intro d hd
        obtain ⟨b, hb, hbd⟩ := hdropped d hd
        exact ⟨b, List.mem_append_left _ hb, hbd⟩

end EdgeFrame.Lib
