/-
# EdgeFrame.Api.Selection -- which anchors are decoded

The anchors above the threshold go through a map whose keys are their scores, so that of
several anchors with one score only the first is left. What is decoded are the first
entries of the map. They are a best selection as long as every score that occurs twice
has enough different scores above it.

`Collected` says what the map holds after some of the rows, and the map is in falling order
of its keys (`Lib.FallingMap`), so that its first entries are those of the largest
scores: a score is decoded when at most `limit` different scores are at least as good
(`mem_selected_iff`). An anchor is left out by the map only for one of its own score
(`exists_not_selected`). A best selection leaves that one out as well if there are `limit`
others at least as good, and not otherwise, and this is the condition.
-/
import EdgeFrame.Api.FaceDetectWithMask
import Mathlib

namespace EdgeFrame.Api

open Lib

variable {K : Type} [Field K] [LinearOrder K]

/-- The anchors whose face score is above the threshold, in order. -/
def scored (D : FaceDetectWithMask K) (cls_point : Nat → K) : List Nat :=
  (List.range D.dim_cls_1.toNat).filter fun i => score_threshold_ < faceScore cls_point i

/-- How many candidates are looked at: 1 with `only_top1_`, `kMaxFaceDetNum` otherwise. -/
def FaceDetectWithMask.limit (D : FaceDetectWithMask K) : Nat :=
  if D.only_top1_ then 1 else kMaxFaceDetNum

/-- The different scores above the threshold. -/
def differentScores (D : FaceDetectWithMask K) (cls_point : Nat → K) : Finset K :=
  ((scored D cls_point).map (faceScore cls_point)).toFinset

/-- The entries are those of a best selection of the anchors above the threshold: as many of them as
there may be, each with its score, and none left out that has a better one. -/
structure BestSelection (D : FaceDetectWithMask K) (cls_point : Nat → K) (chosen : List (K × Nat)) :
    Prop where
  length : chosen.length = min D.limit (scored D cls_point).length
  nodup : (chosen.map (·.2)).Nodup
  mem : ∀ p ∈ chosen, p.2 ∈ scored D cls_point ∧ p.1 = faceScore cls_point p.2
  best : ∀ i ∈ scored D cls_point, i ∉ chosen.map (·.2) →
    ∀ p ∈ chosen, faceScore cls_point i ≤ p.1

variable {D : FaceDetectWithMask K} {cls_point : Nat → K}

/-! ## The map -/

/-- The map after some of the rows: one entry for every score, with an anchor that has it. -/
structure Collected (cls_point : Nat → K) (rows : List Nat) (m : List (K × Nat)) : Prop where
  falling : Falling m
  mem : ∀ p ∈ m, p.2 ∈ rows ∧ p.1 = faceScore cls_point p.2
  scores : ∀ i ∈ rows, ∃ p ∈ m, p.1 = faceScore cls_point i

omit [Field K] in
/-- Another row: its score is there already, or it gets an entry. -/
theorem Collected.insert {rows : List Nat} {m : List (K × Nat)} (h : Collected cls_point rows m)
    (i : Nat) : Collected cls_point (rows ++ [i]) (insertNew (faceScore cls_point i) i m) := by
  constructor
  · exact h.falling.insertNew _ _
  · intro p hp
    rcases mem_of_mem_insertNew hp with rfl | hp
    · exact ⟨List.mem_append_right rows List.mem_cons_self, rfl⟩
    · obtain ⟨hrow, hscore⟩ := h.mem p hp
      exact ⟨List.mem_append_left [i] hrow, hscore⟩
  · intro j hj
    rcases List.mem_append.mp hj with hj | hj
    · obtain ⟨p, hp, hscore⟩ := h.scores j hj
      exact ⟨p, mem_insertNew hp, hscore⟩
    · obtain rfl := List.mem_singleton.mp hj
      exact exists_key_insertNew _ _ m

/-- The loop over the rows. -/
theorem collected_range (D : FaceDetectWithMask K) (cls_point : Nat → K) :
    Collected cls_point (scored D cls_point) (filtered_score_and_dex D cls_point) := by
  unfold scored filtered_score_and_dex
  induction D.dim_cls_1.toNat with
  | zero =>
    constructor
    · exact List.Pairwise.nil
    · intro p hp
      cases hp
    · intro i hi
      cases hi
  | succ n ih =>
    rw [List.range_succ, List.filter_append, List.foldl_concat]
    split
    · rename_i habove
      rw [List.filter_cons_of_pos (by simpa using habove), List.filter_nil]
      exact ih.insert n
    · rename_i hbelow
      rw [List.filter_cons_of_neg (by simpa using hbelow), List.filter_nil, List.append_nil]
      exact ih

omit [Field K] in
/-- The keys are the scores of the rows. -/
theorem Collected.keys_eq {rows : List Nat} {m : List (K × Nat)} (h : Collected cls_point rows m) :
    keys m = (rows.map (faceScore cls_point)).toFinset := by
  ext v
  rw [mem_keys, List.mem_toFinset, List.mem_map]
  constructor
  · rintro ⟨p, hp, rfl⟩
    obtain ⟨hrow, hscore⟩ := h.mem p hp
    exact ⟨p.2, hrow, hscore.symm⟩
  · rintro ⟨i, hi, rfl⟩
    exact h.scores i hi

/-- `max_num` cuts the map where `limit` does. -/
theorem selected_eq (D : FaceDetectWithMask K) (cls_point : Nat → K) :
    selected D cls_point = (filtered_score_and_dex D cls_point).take D.limit := by
  unfold selected FaceDetectWithMask.max_num FaceDetectWithMask.limit
  cases D.only_top1_ with
  | true => rfl
  | false =>
    simp only [Bool.false_eq_true, if_false]
    rw [Nat.min_comm, List.take_eq_take_min, Nat.min_assoc, Nat.min_self,
      ← List.take_eq_take_min]

/-! ## The first entries -/

/-- The entries that are decoded, whatever scores occur twice. -/
theorem selected_mem {p : K × Nat} (hp : p ∈ selected D cls_point) :
    p.2 ∈ scored D cls_point ∧ p.1 = faceScore cls_point p.2 := by
  rw [selected_eq] at hp
  exact (collected_range D cls_point).mem p (List.mem_of_mem_take hp)

/-- The decoded entries are in falling order of their scores. -/
theorem selected_falling : Falling (selected D cls_point) := by
  rw [selected_eq]
  exact (collected_range D cls_point).falling.sublist (List.take_sublist _ _)

/-- No anchor is decoded twice. -/
theorem selected_nodup : ((selected D cls_point).map (·.2)).Nodup := by
  unfold List.Nodup
  rw [List.pairwise_map]
  refine selected_falling.imp_of_mem ?_
  intro p q hp hq hlt hsame
  rw [(selected_mem hp).2, (selected_mem hq).2, hsame] at hlt
  exact lt_irrefl _ hlt

/-- A score is decoded exactly when at most `limit` different scores are at least as good. -/
theorem mem_selected_iff {p : K × Nat} (hp : p ∈ filtered_score_and_dex D cls_point) :
    p ∈ selected D cls_point ↔
      ((differentScores D cls_point).filter (p.1 ≤ ·)).card ≤ D.limit := by
  have h := collected_range D cls_point
  rw [selected_eq, h.falling.mem_take_iff hp, h.keys_eq]
  rfl

/-- The map has one entry for each score. -/
theorem card_differentScores :
    (differentScores D cls_point).card = (filtered_score_and_dex D cls_point).length := by
  have h := collected_range D cls_point
  rw [← h.falling.card_keys, h.keys_eq]
  rfl

/-- As many are decoded as there are scores, up to the limit. -/
theorem length_selected : (selected D cls_point).length =
    min D.limit (differentScores D cls_point).card := by
  rw [selected_eq, List.length_take, card_differentScores]

/-- The anchors in order are different ones. -/
theorem nodup_scored : (scored D cls_point).Nodup := List.nodup_range.filter _

/-- Of a score that occurs twice an anchor is left out. -/
theorem exists_not_selected {i j : Nat} (hi : i ∈ scored D cls_point) (hj : j ∈ scored D cls_point)
    (hij : i ≠ j) (hscore : faceScore cls_point i = faceScore cls_point j) :
    ∃ k ∈ scored D cls_point, faceScore cls_point k = faceScore cls_point i ∧
      k ∉ (selected D cls_point).map (·.2) := by
  have h := collected_range D cls_point
  have hone : ∀ {k l : Nat}, k ∈ (selected D cls_point).map (·.2) →
      l ∈ (selected D cls_point).map (·.2) → faceScore cls_point k = faceScore cls_point l →
      k = l := by
    intro k l hk hl hkl
    obtain ⟨p, hp, rfl⟩ := List.mem_map.mp hk
    obtain ⟨q, hq, rfl⟩ := List.mem_map.mp hl
    rw [← (selected_mem hp).2, ← (selected_mem hq).2] at hkl
    rw [selected_eq] at hp hq
    rw [h.falling.eq_of_key (List.mem_of_mem_take hp) (List.mem_of_mem_take hq) hkl]
  by_cases hsel : i ∈ (selected D cls_point).map (·.2)
  · exact ⟨j, hj, hscore.symm, fun hsel' => hij (hone hsel hsel' hscore)⟩
  · exact ⟨i, hi, rfl, hsel⟩

/-! ## Best selections -/

/-- A best selection leaves an anchor out for others that are as good: there are `limit` of them.

So where two anchors share a score that few others reach, one of them is left out for nothing. -/
theorem BestSelection.limit_le (h : BestSelection D cls_point (selected D cls_point)) {i j : Nat}
    (hi : i ∈ scored D cls_point) (hj : j ∈ scored D cls_point) (hij : i ≠ j)
    (hscore : faceScore cls_point i = faceScore cls_point j) :
    D.limit ≤ ((differentScores D cls_point).filter (faceScore cls_point i ≤ ·)).card := by
  by_contra hfew
  obtain ⟨k, hk, hki, hout⟩ := exists_not_selected hi hj hij hscore
  -- everything decoded is at least as good as the anchor that is left out
  have hsub : (selected D cls_point).length ≤
      ((differentScores D cls_point).filter (faceScore cls_point i ≤ ·)).card := by
    rw [← selected_falling.card_keys]
    refine Finset.card_le_card fun v hv => ?_
    obtain ⟨p, hp, rfl⟩ := mem_keys.mp hv
    refine Finset.mem_filter.mpr ⟨?_, ?_⟩
    · obtain ⟨hrow, hp1⟩ := selected_mem hp
      rw [differentScores, List.mem_toFinset, hp1]
      exact List.mem_map_of_mem hrow
    · rw [← hki]
      exact h.best k hk hout p hp
  -- so every anchor above the threshold is decoded, but it is not
  have hall : (scored D cls_point).length ≤ (selected D cls_point).length := by
    have hlength := h.length
    omega
  have hsubset : (selected D cls_point).map (·.2) ⊆ (scored D cls_point).erase k := by
    intro l hl
    have hlk : l ≠ k := by
      rintro rfl
      exact hout hl
    obtain ⟨p, hp, rfl⟩ := List.mem_map.mp hl
    exact (List.mem_erase_of_ne hlk).mpr (selected_mem hp).1
  have hlt := (selected_nodup.subperm hsubset).length_le
  have hpos := List.length_pos_of_mem hk
  rw [List.length_map, List.length_erase_of_mem hk] at hlt
  omega

section

variable (h : ∀ i ∈ scored D cls_point, ∀ j ∈ scored D cls_point, i ≠ j →
  faceScore cls_point i = faceScore cls_point j →
  D.limit ≤ ((differentScores D cls_point).filter (faceScore cls_point i ≤ ·)).card)

include h

/-- With `limit` scores as good as any that occurs twice, as many anchors are decoded as there may
be. -/
theorem length_selected_of_limit_le :
    (selected D cls_point).length = min D.limit (scored D cls_point).length := by
  rw [length_selected]
  by_cases hmany : D.limit ≤ (differentScores D cls_point).card
  · have hle : (differentScores D cls_point).card ≤ (scored D cls_point).length := by
      refine (List.toFinset_card_le _).trans ?_
      rw [List.length_map]
    omega
  · -- then no score occurs twice
    have hinj : Set.InjOn (faceScore cls_point) (scored D cls_point).toFinset := by
      intro i hi j hj hij
      rw [List.coe_toFinset] at hi hj
      by_contra hne
      have hle := h i hi j hj hne hij
      exact hmany (hle.trans (Finset.card_le_card (Finset.filter_subset _ _)))
    have hcard := Finset.card_image_of_injOn hinj
    rw [List.toFinset_card_of_nodup nodup_scored] at hcard
    rw [← hcard]
    congr 2
    ext v
    simp [differentScores]

/-- And none that is left out is better than one of them. -/
theorem le_selected_of_limit_le {i : Nat} (hi : i ∈ scored D cls_point)
    (hout : i ∉ (selected D cls_point).map (·.2)) {p : K × Nat} (hp : p ∈ selected D cls_point) :
    faceScore cls_point i ≤ p.1 := by
  have hcollected := collected_range D cls_point
  obtain ⟨q, hq, hqi⟩ := hcollected.scores i hi
  rw [← hqi]
  rw [selected_eq] at hp
  by_cases hsel : q ∈ (filtered_score_and_dex D cls_point).take D.limit
  · -- its score is decoded for another anchor, and is the last one that is
    have hqmem := hcollected.mem q hq
    have hne : i ≠ q.2 := by
      rintro rfl
      rw [selected_eq] at hout
      exact hout (List.mem_map_of_mem hsel)
    have hmany := h i hi q.2 hqmem.1 hne (hqi.symm.trans hqmem.2)
    rw [← hqi] at hmany
    by_contra hlt
    rw [not_le] at hlt
    have hpm := List.mem_of_mem_take hp
    have hfew := (mem_selected_iff hpm).mp (selected_eq D cls_point ▸ hp)
    have hstrict : (differentScores D cls_point).filter (q.1 ≤ ·) ⊂
        (differentScores D cls_point).filter (p.1 ≤ ·) := by
      refine (Finset.ssubset_iff_of_subset ?_).mpr ⟨p.1, ?_, ?_⟩
      · intro v hv
        obtain ⟨hv, hle⟩ := Finset.mem_filter.mp hv
        exact Finset.mem_filter.mpr ⟨hv, hlt.le.trans hle⟩
      · refine Finset.mem_filter.mpr ⟨?_, le_refl _⟩
        rw [differentScores, ← hcollected.keys_eq]
        exact mem_keys.mpr ⟨p, hpm, rfl⟩
      · intro hmem
        exact absurd (Finset.mem_filter.mp hmem).2 (not_le.mpr hlt)
    have hcard := Finset.card_lt_card hstrict
    omega
  · exact (hcollected.falling.lt_of_mem_take hp hq hsel).le

end

/-- **What is decoded is a best selection** exactly when, for every score that two anchors have, at
least `limit` different scores are as good or better.

From left to right it is `BestSelection.limit_le` at the anchor that the map has left out; from right
to left, `length_selected_of_limit_le` and `le_selected_of_limit_le`. -/
theorem selected_best_iff (D : FaceDetectWithMask K) (cls_point : Nat → K) :
    BestSelection D cls_point (selected D cls_point) ↔
      ∀ i ∈ scored D cls_point, ∀ j ∈ scored D cls_point, i ≠ j →
        faceScore cls_point i = faceScore cls_point j →
        D.limit ≤ ((differentScores D cls_point).filter (faceScore cls_point i ≤ ·)).card := by
  constructor
  · intro h i hi j hj hij hscore
    exact h.limit_le hi hj hij hscore
  · intro h
    constructor
    · exact length_selected_of_limit_le h
    · exact selected_nodup
    · intro p hp
      exact selected_mem hp
    · intro i hi hout p hp
      exact le_selected_of_limit_le h hi hout hp

/-- A detector with two rows of scores, for an image of 100 by 100 pixels. -/
def twoRows : FaceDetectWithMask ℚ where
  only_top1_ := false
  soft_nms_ := false
  input_height_ := 32
  input_width_ := 32
  dim_cls_1 := 2
  priori_anchors_ := []
  ori_height_ := 100
  ori_width_ := 100

/-- Two anchors with the score 0.9: one of them is lost. -/
theorem equal_scores_lose_anchor :
    scored twoRows (fun _ => 9 / 10) = [0, 1] ∧ selected twoRows (fun _ => 9 / 10) = [(9 / 10, 0)] ∧
      ¬ BestSelection twoRows (fun _ => 9 / 10) (selected twoRows fun _ => 9 / 10) := by
  have hscored : scored twoRows (fun _ => 9 / 10) = [0, 1] := by decide +kernel
  have hselected : selected twoRows (fun _ => 9 / 10) = [(9 / 10, 0)] := by decide +kernel
  refine ⟨hscored, hselected, ?_⟩
  intro h
  have hlength := h.length
  rw [hscored, hselected] at hlength
  exact absurd hlength (by decide)

end EdgeFrame.Api
