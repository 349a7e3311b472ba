/-
# EdgeFrame.Api.Suppression -- `Detect::nms` is greedy suppression

The loops of `nms` share an array of flags. After the outer loop has passed index `i`
the boxes that were output are the greedy selection from the first `i` boxes, and the
flag of every later box says whether one of them merges it. So the flags are an
implementation of `greedy`, and what is known of greedy selection holds of the output.

`greedy` and its laws are `Lib.Greedy`'s: a box is kept exactly when no box kept before it
merges it. `Passed` is the invariant of the outer loop, `nmsClass_eq` the refinement, and
`Suppressed` what it comes to for the callers. The order of boxes with one score is that of
the sorting function, of which nothing is assumed but what `std::sort` promises.
-/
import EdgeFrame.Api.Detect
import EdgeFrame.Lib.Greedy
import EdgeFrame.Lib.Loops
import Mathlib

namespace EdgeFrame.Api

open EdgeFrame.Lib

variable {K : Type} [Field K] [LinearOrder K]

/-! ## Intersection over union -/

/-- The extents that two boxes have in common, pixels counted inclusively. -/
def Box.inner_w (a b : Box K) : K := min a.x1 b.x1 - max a.x0 b.x0 + 1

/-- Their common height. -/
def Box.inner_h (a b : Box K) : K := min a.y1 b.y1 - max a.y0 b.y0 + 1

/-- The pixels of a box. -/
def Box.area (a : Box K) : K := (a.y1 - a.y0 + 1) * (a.x1 - a.x0 + 1)

/-- The pixels in one box or the other. -/
def Box.union (a b : Box K) : K := a.area + b.area - a.inner_h b * a.inner_w b

/-- The boxes have pixels in common. -/
def Box.Meets (a b : Box K) : Prop := 0 < a.inner_h b ∧ 0 < a.inner_w b

instance (a b : Box K) : Decidable (a.Meets b) := inferInstanceAs (Decidable (_ ∧ _))

/-- The pixels in both over those in one or the other. -/
def Box.iou (a b : Box K) : K := a.inner_h b * a.inner_w b / a.union b

/-- The score that `nms` computes, in these terms. -/
theorem mergeScore_eq (a b : Box K) :
    mergeScore a b = if a.Meets b then some (a.iou b) else none := by
  unfold mergeScore
  simp only
  split
  · rename_i hapart
    rw [if_neg]
    rintro ⟨hh, hw⟩
    rcases hapart with h | h
    · exact absurd hh (not_lt.mpr h)
    · exact absurd hw (not_lt.mpr h)
  · rename_i hmeets
    rw [not_or, not_le, not_le] at hmeets
    rw [if_pos (show a.Meets b from hmeets)]
    rfl

/-- A box merges another that it meets, when they have enough in common. -/
theorem merges_eq_true_iff {iou_threshold : K} {a b : Box K} :
    merges iou_threshold a b = true ↔ a.Meets b ∧ iou_threshold < a.iou b := by
  unfold merges
  rw [mergeScore_eq]
  by_cases h : a.Meets b
  · simp [h]
  · simp [h]

/-! ## The loop -/

/-- The box as it is output for class `c`. -/
def Box.relabel (c : Nat) (b : Box K) : Box K := { b with class_idx := c }

variable {iou_threshold : K} {c : Nat} {input : List (Box K)}

/-- The array of flags keeps its length. -/
theorem length_mergeInto {b : Box K} {i : Nat} {merged : List Bool}
    (h : merged.length = input.length) :
    (mergeInto iou_threshold b i input merged).length = input.length := by
  unfold mergeInto
  rw [List.length_mapIdx, List.length_zip, h, Nat.min_self]

/-- What the inner loop does to the flag of a later box. -/
theorem mergeInto_getElem? {b d : Box K} {i j : Nat} {merged : List Bool} {flag : Bool}
    (hd : input[j]? = some d) (hflag : merged[j]? = some flag) (hij : i < j) :
    (mergeInto iou_threshold b i input merged)[j]? =
      some (flag || merges iou_threshold b d) := by
  have hzip : (input.zip merged)[j]? = some (d, flag) := by
    rw [List.getElem?_zip_eq_some]
    exact ⟨hd, hflag⟩
  unfold mergeInto
  rw [List.getElem?_mapIdx, hzip]
  simp [hij]

variable (iou_threshold c input) in
/-- The state of the outer loop before index `i`.

A box that is merged gets a flag once; the loop does not come back to it. -/
structure Passed (i : Nat) (s : List Bool × List (Box K)) : Prop where
  length : s.1.length = input.length
  out : s.2 = (greedy (merges iou_threshold) (input.take i)).map (Box.relabel c)
  flags : ∀ j b, i ≤ j → input[j]? = some b →
    s.1[j]? = some ((greedy (merges iou_threshold) (input.take i)).any (merges iou_threshold · b))

/-- One pass of the outer loop. -/
theorem Passed.step {i : Nat} {s : List Bool × List (Box K)}
    (h : Passed iou_threshold c input i s) (hi : i < input.length) :
    Passed iou_threshold c input (i + 1) (nmsPass iou_threshold c input s i) := by
  have hbox : input[i]? = some input[i] := List.getElem?_eq_getElem hi
  have htake : input.take (i + 1) = input.take i ++ [input[i]] := List.take_succ_eq_append_getElem hi
  have hflag := h.flags i input[i] (le_refl i) hbox
  unfold nmsPass
  rw [hbox, hflag]
  cases hany : (greedy (merges iou_threshold) (input.take i)).any
    (merges iou_threshold · input[i]) with
  | true =>
    -- merged by a better box: the pass does nothing
    have hkeep : greedy (merges iou_threshold) (input.take (i + 1)) =
        greedy (merges iou_threshold) (input.take i) := by
      rw [htake, greedy_concat, if_pos hany]
    constructor
    · exact h.length
    · rw [hkeep]
      exact h.out
    · intro j b hj hb
      rw [hkeep]
      exact h.flags j b (Nat.le_of_succ_le hj) hb
  | false =>
    have hkeep : greedy (merges iou_threshold) (input.take (i + 1)) =
        greedy (merges iou_threshold) (input.take i) ++ [input[i]] := by
      rw [htake, greedy_concat, if_neg (by simp [hany])]
    have hset : (s.1.set i true).length = input.length := by
      rw [List.length_set]
      exact h.length
    constructor
    · exact length_mergeInto hset
    · show s.2 ++ [input[i].relabel c] = _
      rw [hkeep, List.map_append, h.out]
      rfl
    · intro j b hj hb
      have hold : (s.1.set i true)[j]? = s.1[j]? := List.getElem?_set_ne (by omega)
      rw [hkeep, List.any_append]
      show (mergeInto iou_threshold input[i] i input (s.1.set i true))[j]? = _
      rw [mergeInto_getElem? hb (hold.trans (h.flags j b (by omega) hb)) (by omega)]
      simp

variable (iou_threshold c input) in
/-- The outer loop, up to the last box. -/
theorem passed_range : Passed iou_threshold c input input.length
    ((List.range input.length).foldl (nmsPass iou_threshold c input)
      (List.replicate input.length false, [])) := by
  refine foldl_range_induction ?_ ?_
  · constructor
    · exact List.length_replicate
    · rfl
    · intro j b _ hb
      obtain ⟨hj, -⟩ := List.getElem?_eq_some_iff.mp hb
      show (List.replicate input.length false)[j]? = some false
      rw [List.getElem?_replicate, if_pos hj]
  · intro i st hi h
    exact h.step hi

/-- **`nms` refines greedy selection**: on the sorted boxes of a class it outputs what `greedy`
keeps. -/
theorem nmsClass_eq : nmsClass iou_threshold c input =
    (greedy (merges iou_threshold) input).map (Box.relabel c) := by
  have h := (passed_range iou_threshold c input).out
  rw [List.take_length] at h
  exact h

/-! ## What is output -/

/-- The boxes `kept` are what exact greedy suppression leaves of the proposals of class `c`. -/
structure Suppressed (iou_threshold : K) (c : Nat) (proposals kept : List (Box K)) : Prop where
  /-- the best come first -/
  sorted : kept.Pairwise fun a b => b.score ≤ a.score
  /-- two boxes that were output do not overlap by more than the threshold -/
  apart : kept.Pairwise fun a b => a.Meets b → a.iou b ≤ iou_threshold
  /-- every box that was output is a proposal, each proposal at most once, and what is left over
  overlaps a box that was output and is at least as good -/
  account : ∃ sources dropped : List (Box K), kept = sources.map (Box.relabel c) ∧
    (sources ++ dropped).Perm proposals ∧
    ∀ d ∈ dropped, ∃ b ∈ kept, d.score ≤ b.score ∧ b.Meets d ∧ iou_threshold < b.iou d
  /-- every quotient that two proposals can give is of a positive number of pixels -/
  denominator : ∀ a ∈ proposals, ∀ b ∈ proposals, a.Meets b → 0 < a.union b

/-- The pixels of two boxes together are more than none. -/
theorem Box.union_pos [IsStrictOrderedRing K] {a b : Box K} (hy : a.y0 ≤ a.y1)
    (hx' : b.x0 ≤ b.x1) (hy' : b.y0 ≤ b.y1) (h : a.Meets b) : 0 < a.union b := by
  obtain ⟨hh, hw⟩ := h
  have hih : a.inner_h b ≤ a.y1 - a.y0 + 1 := by
    have h1 := min_le_left a.y1 b.y1
    have h2 := le_max_left a.y0 b.y0
    unfold Box.inner_h
    linarith
  have hiw : a.inner_w b ≤ a.x1 - a.x0 + 1 := by
    have h1 := min_le_left a.x1 b.x1
    have h2 := le_max_left a.x0 b.x0
    unfold Box.inner_w
    linarith
  have hinner : a.inner_h b * a.inner_w b ≤ a.area :=
    mul_le_mul hih hiw hw.le (by linarith)
  have harea : 0 < b.area := mul_pos (by linarith) (by linarith)
  unfold Box.union
  linarith

/-- What is output for one class: the greedy selection of its boxes, each under the class. -/
theorem suppressed_nmsClass [IsStrictOrderedRing K] {S : Sorter K} {proposals : List (Box K)}
    (hproposals : ∀ b ∈ proposals, b.x0 ≤ b.x1 ∧ b.y0 ≤ b.y1) :
    Suppressed iou_threshold c proposals (nmsClass iou_threshold c (S.sort proposals)) := by
  rw [nmsClass_eq]
  constructor
  · rw [List.pairwise_map]
    exact (S.sorted proposals).sublist (greedy_sublist _)
  · rw [List.pairwise_map]
    refine (greedy_pairwise (S.sort proposals)).imp ?_
    intro a b hab hmeets
    by_contra hlarge
    have hmerge : merges iou_threshold a b = true :=
      merges_eq_true_iff.mpr ⟨hmeets, not_le.mp hlarge⟩
    rw [hab] at hmerge
    cases hmerge
  · obtain ⟨dropped, hperm, hdropped⟩ := greedy_partition (merges iou_threshold)
      (S.sorted proposals)
    refine ⟨_, dropped, rfl, hperm.trans (S.perm proposals), ?_⟩
    intro d hd
    obtain ⟨b, hb, hscore, hmerge⟩ := hdropped d hd
    obtain ⟨hmeets, hlarge⟩ := merges_eq_true_iff.mp hmerge
    exact ⟨b.relabel c, List.mem_map_of_mem hb, hscore, hmeets, hlarge⟩
  · intro a ha b hb hmeets
    obtain ⟨hx, hy⟩ := hproposals b hb
    exact Box.union_pos (hproposals a ha).2 hx hy hmeets

/-- **`nms` is exact greedy suppression, class by class**: what is output for a class is a function
of the proposals of that class alone, and it is what greedy suppression leaves of them.

The classes do not see each other; that is what the loop over them comes to. The corners of the
proposals are in order, as decoding leaves them. -/
theorem nms_suppressed [IsStrictOrderedRing K] (S : Sorter K) (D : Detect K) :
    ∃ keep : Nat → List (Box K) → List (Box K), ∀ proposal_boxes : List (List (Box K)),
      D.num_of_class - 1 ≤ proposal_boxes.length →
      (∀ proposals ∈ proposal_boxes, ∀ b ∈ proposals, b.x0 ≤ b.x1 ∧ b.y0 ≤ b.y1) →
      nms S D proposal_boxes = .ok ((List.range' 1 (D.num_of_class - 1)).flatMap fun c =>
        keep c (proposal_boxes.getD (c - 1) [])) ∧
      ∀ c ∈ List.range' 1 (D.num_of_class - 1),
        Suppressed D.iou_threshold c (proposal_boxes.getD (c - 1) [])
          (keep c (proposal_boxes.getD (c - 1) [])) := by
  refine ⟨fun c proposals => nmsClass D.iou_threshold c (S.sort proposals), ?_⟩
  intro proposal_boxes hlen hproposals
  have hget : ∀ c ∈ List.range' 1 (D.num_of_class - 1),
      proposal_boxes[c - 1]? = some (proposal_boxes.getD (c - 1) []) := by
    intro c hc
    obtain ⟨hlow, hhigh⟩ := List.mem_range'_1.mp hc
    have hc : c - 1 < proposal_boxes.length := by omega
    rw [List.getD_eq_getElem?_getD, List.getElem?_eq_getElem hc]
    rfl
  constructor
  · unfold nms
    rw [mapM_eq_ok (g := fun c =>
      nmsClass D.iou_threshold c (S.sort (proposal_boxes.getD (c - 1) [])))]
    · rfl
    · intro c hc
      rw [hget c hc]
  · intro c hc
    exact suppressed_nmsClass (hproposals _ (List.mem_of_getElem? (hget c hc)))

/-- A detector for one class that suppresses from an overlap of one half. -/
def oneClass : Detect ℚ where
  score_threshold := 1 / 2
  iou_threshold := 1 / 2
  num_of_class := 2
  num_anchors := 2
  image_h := 10
  image_w := 10
  center_variance := 1
  size_variance := 1
  priors := []

/-- Two boxes in one place: the better one is output. -/
theorem nms_suppressed_oneClass : ∃ kept,
    nms Sorter.merge oneClass [[⟨0, 0, 4, 4, 3 / 5, 1⟩, ⟨0, 0, 4, 4, 4 / 5, 1⟩]] = .ok kept ∧
      Suppressed (1 / 2) 1 [⟨0, 0, 4, 4, 3 / 5, 1⟩, ⟨0, 0, 4, 4, 4 / 5, 1⟩] kept := by
  obtain ⟨keep, hkeep⟩ := nms_suppressed Sorter.merge oneClass
  obtain ⟨hok, hkept⟩ := hkeep [[⟨0, 0, 4, 4, 3 / 5, 1⟩, ⟨0, 0, 4, 4, 4 / 5, 1⟩]] (by decide)
    (by norm_num)
  have hclass : (1 : Nat) ∈ List.range' 1 (oneClass.num_of_class - 1) := by decide
  refine ⟨_, hok, ?_⟩
  simpa [oneClass] using hkept 1 hclass

end EdgeFrame.Api
