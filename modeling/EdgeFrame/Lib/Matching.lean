/-
# EdgeFrame.Lib.Matching -- partial matchings as relations

A partial matching between two types is a relation that uses each element of
either side at most once. On finite types both sides then use equally many
elements, which is what bounds a matching that grows one element at a time.
-/
import Mathlib.Combinatorics.Enumerative.DoubleCounting
import Mathlib.Data.Fintype.Card

namespace EdgeFrame.Lib

variable {α β : Type*} {M : α → β → Prop}

/-- Each side is used at most once. -/
structure IsMatching (M : α → β → Prop) : Prop where
  left : ∀ {a b b'}, M a b → M a b' → b = b'
  right : ∀ {a a' b}, M a b → M a' b → a = a'

theorem IsMatching.flip (h : IsMatching M) : IsMatching fun b a => M a b :=
  ⟨h.right, h.left⟩

open Classical in
/-- The elements of the left type that the matching uses. -/
noncomputable def leftSide [Fintype α] (M : α → β → Prop) : Finset α :=
  Finset.univ.filter fun a => ∃ b, M a b

open Classical in
/-- The elements of the right type that the matching uses. -/
noncomputable def rightSide [Fintype β] (M : α → β → Prop) : Finset β :=
  Finset.univ.filter fun b => ∃ a, M a b

@[simp] theorem mem_leftSide [Fintype α] {a : α} : a ∈ leftSide M ↔ ∃ b, M a b := by
  simp [leftSide]

@[simp] theorem mem_rightSide [Fintype β] {b : β} : b ∈ rightSide M ↔ ∃ a, M a b := by
  simp [rightSide]

theorem IsMatching.card_leftSide_le [Fintype α] [Fintype β] (h : IsMatching M) :
    (leftSide M).card ≤ (rightSide M).card := by
  refine Finset.card_le_card_of_forall_subsingleton M ?_ ?_
  · intro a ha
    obtain ⟨b, hb⟩ := mem_leftSide.mp ha
    exact ⟨b, mem_rightSide.mpr ⟨a, hb⟩, hb⟩
  · rintro b - a ⟨-, ha⟩ a' ⟨-, ha'⟩
    exact h.right ha ha'

/-- Both sides of a matching use equally many elements. -/
theorem IsMatching.card_eq [Fintype α] [Fintype β] (h : IsMatching M) :
    (leftSide M).card = (rightSide M).card :=
  le_antisymm h.card_leftSide_le h.flip.card_leftSide_le

end EdgeFrame.Lib
