/-
# EdgeFrame.Api.LowerScores -- what lower scores can do to a face

Two candidate sets that agree on the scores of at least `s` have the same candidates at
the first indexes of the map. Who is alive there does not depend on what follows, but
who survives does: one candidate that is too small, anywhere after, takes them all with
it. So the faces of score at least `s` are those of the common part, or none.

The condition is found in three steps. `filter_survivors_eq` splits what is left: the faces
of the common part (`commonFaces`), and nothing if anything below is too small. So two
sets differ only where one of them has such a candidate and the other does not, and then
only if there is a face to lose. `exists_survivesTo` says when there is: as soon as the last
candidate of the common part is large enough, since the first after the last small one is
alive and survives. With `only_top1_` nothing below is looked at.
-/
import EdgeFrame.Api.Survivors
import Mathlib

namespace EdgeFrame.Api

variable {K : Type} [Field K] [LinearOrder K]

variable {D : FaceDetectWithMask K} {cands cands' : List (Candidate K)} {exp : K → K}

/-! ## The first indexes -/

/-- It is a property of the candidate there. -/
theorem small_congr {j : Nat} (h : cands[j]? = cands'[j]?) : Small D cands j = Small D cands' j := by
  rw [Small, Small, h]

/-- What is dropped depends on the candidates up to there. -/
theorem drops_congr {i j : Nat} (h : ∀ m, m ≤ j → cands[m]? = cands'[m]?) (hij : i < j)
    (halive : Alive D cands i ↔ Alive D cands' i) : Drops D cands i j ↔ Drops D cands' i j := by
  refine and_congr halive (and_congr (and_congr_right fun _ => ?_) ?_)
  · refine forall₃_congr fun m _ hm => ?_
    rw [small_congr (h m hm)]
  · rw [Covers, Covers, h i hij.le, h j (le_refl j)]

/-- Who is alive depends on the candidates up to there only. -/
theorem alive_congr {n : Nat} (h : ∀ m, m ≤ n → cands[m]? = cands'[m]?) : ∀ {i : Nat}, i ≤ n →
    (Alive D cands i ↔ Alive D cands' i) := by
  intro i
  induction i using Nat.strong_induction_on with
  | h i ih =>
    intro hi
    rw [alive_iff, alive_iff, small_congr (h i hi)]
    refine and_congr_right fun _ => forall₂_congr fun k hk => not_congr ?_
    exact drops_congr (fun m hm => h m (hm.trans hi)) hk (ih k hk (by omega))

/-- Some candidate from index `n` on is too small. -/
def SmallFrom (D : FaceDetectWithMask K) (cands : List (Candidate K)) (n : Nat) : Prop :=
  ∃ m, n ≤ m ∧ Small D cands m = true

/-- Alive, and nothing after it is too small, as far as the first `n` indexes go. -/
def SurvivesTo (D : FaceDetectWithMask K) (cands : List (Candidate K)) (n i : Nat) : Prop :=
  Alive D cands i ∧ ∀ m, i < m → m < n → Small D cands m = false

/-- To survive is to survive so far, and nothing after is too small. -/
theorem survives_iff {n i : Nat} (hi : i < n) :
    Survives D cands i ↔ SurvivesTo D cands n i ∧ ¬ SmallFrom D cands n := by
  constructor
  · rintro ⟨halive, hlarge⟩
    refine ⟨⟨halive, fun m him _ => hlarge m him⟩, ?_⟩
    rintro ⟨m, hm, hsmall⟩
    rw [hlarge m (by omega)] at hsmall
    cases hsmall
  · rintro ⟨⟨halive, hlarge⟩, hnone⟩
    refine ⟨halive, ?_⟩
    intro m him
    by_cases hm : m < n
    · exact hlarge m him hm
    · rw [← Bool.not_eq_true]
      exact fun hsmall => hnone ⟨m, not_lt.mp hm, hsmall⟩

/-- How far an index survives depends on the first indexes. -/
theorem survivesTo_congr {n i : Nat} (h : ∀ m, m < n → cands[m]? = cands'[m]?) (hi : i < n) :
    SurvivesTo D cands n i ↔ SurvivesTo D cands' n i := by
  refine and_congr (alive_congr (n := i) (fun m hm => h m (by omega)) (le_refl i)) ?_
  refine forall₃_congr fun m _ hm => ?_
  rw [small_congr (h m hm)]

/-- **Someone survives** in a list whose last candidate is large enough: the first one after the
last that is too small. -/
theorem exists_survivesTo {n : Nat} (hlast : Small D cands n = false) :
    ∃ i, i < n + 1 ∧ SurvivesTo D cands (n + 1) i := by
  classical
  have hex : ∃ t, ∀ m, t ≤ m → m < n + 1 → Small D cands m = false := by
    refine ⟨n, ?_⟩
    intro m hm hm'
    obtain rfl : m = n := by omega
    exact hlast
  have hle : Nat.find hex ≤ n := by
    refine Nat.find_min' hex ?_
    intro m hm hm'
    obtain rfl : m = n := by omega
    exact hlast
  have hlarge := Nat.find_spec hex
  refine ⟨Nat.find hex, by omega, alive_iff.mpr ⟨hlarge _ (le_refl _) (by omega), ?_⟩, ?_⟩
  · -- what stands before it is too small, and neither drops nor lets anything through
    rintro k hk ⟨halive, hreach, -⟩
    refine Nat.find_min hex (m := Nat.find hex - 1) (by omega) ?_
    intro m hm hm'
    by_cases hm₁ : Nat.find hex ≤ m
    · exact hlarge m hm₁ hm'
    · obtain rfl | hkm : m = k ∨ k < m := by omega
      · exact (alive_iff.mp halive).1
      · exact hreach.2 m hkm (by omega)
  · intro m hm hm'
    exact hlarge m hm.le hm'

/-! ## The faces of the first indexes -/

/-- In hard suppression the faces are the candidates without a flag, unchanged. -/
theorem survivors_eq (hhard : D.soft_nms_ = false) : survivors exp D cands =
    (List.range cands.length).filterMap fun i =>
      if (suppress exp D cands).drop_flag i then none else cands[i]? := by
  have hspec : Swept D cands cands.length (suppress exp D cands) := suppress_spec exp hhard
  unfold survivors
  simp only [hspec.bboxes_]

/-- So every face is a candidate. -/
theorem mem_of_mem_survivors (hhard : D.soft_nms_ = false) {c : Candidate K}
    (h : c ∈ survivors exp D cands) : c ∈ cands := by
  rw [survivors_eq hhard] at h
  obtain ⟨i, -, hi⟩ := List.mem_filterMap.mp h
  split at hi
  · cases hi
  · exact List.mem_of_getElem? hi

omit [Field K] in
/-- In a list of falling scores those of at least `s` come first. -/
theorem filter_score_eq_take {s : K} (hsorted : cands.Pairwise fun a b => b.score < a.score) :
    cands.filter (s ≤ ·.score) = cands.take (cands.filter (s ≤ ·.score)).length := by
  induction cands with
  | nil => rfl
  | cons a l ih =>
    obtain ⟨ha, hl⟩ := List.pairwise_cons.mp hsorted
    by_cases hs : s ≤ a.score
    · rw [List.filter_cons_of_pos (by simpa using hs), List.length_cons, List.take_succ_cons,
        ← ih hl]
    · have hnone : (a :: l).filter (s ≤ ·.score) = [] := by
        rw [List.filter_eq_nil_iff]
        intro b hb
        rcases List.mem_cons.mp hb with rfl | hb
        · simpa using hs
        · simpa using (ha b hb).trans (not_le.mp hs)
      rw [hnone]
      rfl

omit [Field K] in
/-- The indexes of the scores of at least `s` are the first ones. -/
theorem score_of_getElem? {s : K} (hsorted : cands.Pairwise fun a b => b.score < a.score)
    {i : Nat} {c : Candidate K} (hc : cands[i]? = some c) :
    s ≤ c.score ↔ i < (cands.filter (s ≤ ·.score)).length := by
  have htake := filter_score_eq_take (s := s) hsorted
  constructor
  · intro hs
    by_contra hi
    obtain ⟨hlt, rfl⟩ := List.getElem?_eq_some_iff.mp hc
    -- an entry of the list before it has a score below `s`, as the first one left out has
    have hlen : (cands.filter (s ≤ ·.score)).length < cands.length := by omega
    have hdrop : cands[i] ∈ cands.drop (cands.filter (s ≤ ·.score)).length := by
      rw [List.mem_drop_iff_getElem]
      refine ⟨i - (cands.filter (s ≤ ·.score)).length, by omega, ?_⟩
      congr 1
      omega
    have hsplit : (cands.drop (cands.filter (s ≤ ·.score)).length).filter (s ≤ ·.score) = [] := by
      have hall := List.take_append_drop (cands.filter (s ≤ ·.score)).length cands
      have hfilter := congrArg (List.filter (s ≤ ·.score)) hall
      rw [List.filter_append, ← htake, List.filter_filter] at hfilter
      simpa using hfilter
    have hnot := List.filter_eq_nil_iff.mp hsplit _ hdrop
    exact hnot (by simpa using hs)
  · intro hi
    have hmem : c ∈ cands.filter (s ≤ ·.score) := by
      rw [htake]
      have hget : (cands.take (cands.filter (s ≤ ·.score)).length)[i]? = some c := by
        rw [List.getElem?_take_of_lt hi, hc]
      exact List.mem_of_getElem? hget
    simpa using (List.mem_filter.mp hmem).2

open Classical in
/-- The faces of the first `n` indexes, if nothing after them is too small. -/
noncomputable def commonFaces (D : FaceDetectWithMask K) (cands : List (Candidate K)) (n : Nat) :
    List (Candidate K) :=
  (List.range n).filterMap fun i => if SurvivesTo D cands n i then cands[i]? else none

open Classical in
/-- **The faces of score at least `s`**: those of the common part that survive there, or none. -/
theorem filter_survivors_eq (hhard : D.soft_nms_ = false) {s : K}
    (hsorted : cands.Pairwise fun a b => b.score < a.score) :
    (survivors exp D cands).filter (s ≤ ·.score) =
      if SmallFrom D cands (cands.filter (s ≤ ·.score)).length then []
      else commonFaces D cands (cands.filter (s ≤ ·.score)).length := by
  have hspec : Swept D cands cands.length (suppress exp D cands) := suppress_spec exp hhard
  have hle : (cands.filter (s ≤ ·.score)).length ≤ cands.length := List.length_filter_le _ _
  obtain ⟨r, hr⟩ := Nat.exists_eq_add_of_le hle
  rw [survivors_eq hhard, List.filter_filterMap, hr, List.range_add, List.filterMap_append]
  -- no face of the later indexes has a score of at least `s`
  have htail : ((List.range r).map ((cands.filter (s ≤ ·.score)).length + ·)).filterMap
      (fun i => (if (suppress exp D cands).drop_flag i then none else cands[i]?).filter
        (s ≤ ·.score)) = [] := by
    rw [List.filterMap_eq_nil_iff]
    intro i hi
    obtain ⟨k, -, rfl⟩ := List.mem_map.mp hi
    rw [Option.filter_eq_none_iff]
    intro c hc
    split at hc
    · cases hc
    · have hnot := (score_of_getElem? (s := s) hsorted hc).not.mpr (by omega)
      simpa using hnot
  rw [htail, List.append_nil]
  split
  -- one that is too small takes all of them with it
  · rename_i hsmall
    rw [List.filterMap_eq_nil_iff]
    intro i hi
    have hi := List.mem_range.mp hi
    have hdropped : (suppress exp D cands).drop_flag i = true := by
      rw [← Bool.not_eq_false, hspec.before i (by omega), survives_iff hi]
      exact fun h => h.2 hsmall
    rw [if_pos hdropped]
    rfl
  · rename_i hnone
    -- otherwise who survives is decided among the first indexes
    refine List.filterMap_congr fun i hi => ?_
    have hi := List.mem_range.mp hi
    have hflag : (suppress exp D cands).drop_flag i = false ↔
        SurvivesTo D cands (cands.filter (s ≤ ·.score)).length i := by
      rw [hspec.before i (by omega), survives_iff hi]
      exact and_iff_left hnone
    by_cases hsurvives : SurvivesTo D cands (cands.filter (s ≤ ·.score)).length i
    · rw [if_pos hsurvives, if_neg (by rw [hflag.mpr hsurvives]; simp)]
      have hc : cands[i]? = some cands[i] := List.getElem?_eq_getElem (by omega)
      rw [hc, Option.filter_some, if_pos]
      simpa using (score_of_getElem? (s := s) hsorted hc).mpr hi
    · rw [if_neg hsurvives, if_pos (by rw [← Bool.not_eq_false, hflag]; exact hsurvives)]
      rfl

/-! ## The law -/

/-- Some candidate with a score below `s` is too small. -/
def SmallBelow (D : FaceDetectWithMask K) (s : K) (cands : List (Candidate K)) : Prop :=
  ∃ c ∈ cands, c.score < s ∧ D.tooSmall (c.clipped D) = true

/-- What is too small behind them is what is too small below `s`. -/
theorem smallFrom_iff {s : K} (hsorted : cands.Pairwise fun a b => b.score < a.score) :
    SmallFrom D cands (cands.filter (s ≤ ·.score)).length ↔ SmallBelow D s cands := by
  constructor
  · rintro ⟨m, hm, hsmall⟩
    have hlt := lt_length_of_small hsmall
    have hc : cands[m]? = some cands[m] := List.getElem?_eq_getElem hlt
    refine ⟨_, List.mem_of_getElem? hc, ?_, ?_⟩
    · rw [← not_le, score_of_getElem? hsorted hc]
      omega
    · rw [← small_eq hc]
      exact hsmall
  · rintro ⟨c, hc, hscore, hsmall⟩
    obtain ⟨m, hm⟩ := List.mem_iff_getElem?.mp hc
    refine ⟨m, ?_, ?_⟩
    · rw [← not_le, score_of_getElem? hsorted hm] at hscore
      omega
    · rw [small_eq hm]
      exact hsmall

/-- The faces that are left for a candidate set, of which at most `max_num` are looked at. -/
def keptFaces (exp : K → K) (D : FaceDetectWithMask K) (cands : List (Candidate K)) :
    List (Candidate K) :=
  survivors exp D (cands.take (D.max_num cands.length))

omit [Field K] in
/-- Two lists of falling scores that agree on those of at least `s` agree at the indexes of these. -/
theorem getElem?_eq_of_agree {s : K} (hsorted : cands.Pairwise fun a b => b.score < a.score)
    (hsorted' : cands'.Pairwise fun a b => b.score < a.score)
    (hagree : cands.filter (s ≤ ·.score) = cands'.filter (s ≤ ·.score)) :
    ∀ m, m < (cands.filter (s ≤ ·.score)).length → cands[m]? = cands'[m]? := by
  intro m hm
  have hlen := congrArg List.length hagree
  rw [← List.getElem?_take_of_lt hm, ← filter_score_eq_take hsorted, hagree,
    filter_score_eq_take hsorted', List.getElem?_take_of_lt (by omega)]

/-- The faces of the common part are those of the candidates there. -/
theorem commonFaces_congr {n : Nat} (h : ∀ m, m < n → cands[m]? = cands'[m]?) :
    commonFaces D cands n = commonFaces D cands' n := by
  classical
  refine List.filterMap_congr fun i hi => ?_
  have hi := List.mem_range.mp hi
  rw [h i hi]
  exact if_congr (survivesTo_congr h hi) rfl rfl

/-- Nobody is left of the first indexes exactly when the last of them is too small. -/
theorem commonFaces_eq_nil_iff {n : Nat} (hn : n ≤ cands.length) :
    commonFaces D cands n = [] ↔ ∀ c ∈ (cands.take n).getLast?, D.tooSmall (c.clipped D) = true := by
  classical
  unfold commonFaces
  rw [List.filterMap_eq_nil_iff]
  cases n with
  | zero => simp
  | succ k =>
    have hk : cands[k]? = some cands[k] := List.getElem?_eq_getElem (by omega)
    have hlast : (cands.take (k + 1)).getLast? = some cands[k] := by
      rw [List.getLast?_eq_getElem?, List.length_take, Nat.min_eq_left hn, Nat.add_sub_cancel,
        List.getElem?_take_of_lt (by omega), hk]
    rw [hlast]
    constructor
    · intro hnone c hc
      obtain rfl := Option.some.inj hc
      rw [← small_eq hk, ← Bool.not_eq_false]
      intro hlarge
      obtain ⟨i, hi, hsurvives⟩ := exists_survivesTo hlarge
      have hnil := hnone i (List.mem_range.mpr hi)
      rw [if_pos hsurvives, List.getElem?_eq_none_iff] at hnil
      omega
    · intro hsmall i hi
      have hi := List.mem_range.mp hi
      have hsmall : Small D cands k = true := (small_eq hk).trans (hsmall _ rfl)
      rw [if_neg]
      rintro ⟨halive, hlarge⟩
      rcases Nat.lt_succ_iff_lt_or_eq.mp hi with hik | rfl
      · rw [hlarge k hik (Nat.lt_succ_self k)] at hsmall
        cases hsmall
      · rw [(alive_iff.mp halive).1] at hsmall
        cases hsmall

/-- The law for lists that are looked at as a whole. -/
theorem filter_survivors_congr_iff (hhard : D.soft_nms_ = false) {s : K}
    (hsorted : cands.Pairwise fun a b => b.score < a.score)
    (hsorted' : cands'.Pairwise fun a b => b.score < a.score)
    (hagree : cands.filter (s ≤ ·.score) = cands'.filter (s ≤ ·.score)) :
    (survivors exp D cands).filter (s ≤ ·.score) = (survivors exp D cands').filter (s ≤ ·.score) ↔
      (SmallBelow D s cands ↔ SmallBelow D s cands') ∨
      ∀ c ∈ (cands.filter (s ≤ ·.score)).getLast?, D.tooSmall (c.clipped D) = true := by
  have hfirst := getElem?_eq_of_agree hsorted hsorted' hagree
  have hnil := commonFaces_eq_nil_iff (D := D) (List.length_filter_le (s ≤ ·.score) cands)
  rw [← filter_score_eq_take hsorted] at hnil
  rw [filter_survivors_eq hhard hsorted, filter_survivors_eq hhard hsorted', ← hagree,
    ← smallFrom_iff (D := D) hsorted, ← smallFrom_iff (D := D) hsorted', ← hagree,
    ← commonFaces_congr (D := D) hfirst, ← hnil]
  by_cases hA : SmallFrom D cands (cands.filter (s ≤ ·.score)).length
  · by_cases hB : SmallFrom D cands' (cands.filter (s ≤ ·.score)).length
    · simp [hA, hB]
    · rw [if_pos hA, if_neg hB, or_iff_right (by simp [hA, hB])]
      exact eq_comm
  · by_cases hB : SmallFrom D cands' (cands.filter (s ≤ ·.score)).length
    · simp [hA, hB]
    · simp [hA, hB]

/-- A set without scores of at least `s` leaves no faces of such a score. -/
theorem filter_survivors_eq_nil (hhard : D.soft_nms_ = false) {s : K} {n : Nat}
    (hnone : cands.filter (s ≤ ·.score) = []) :
    (survivors exp D (cands.take n)).filter (s ≤ ·.score) = [] := by
  rw [List.filter_eq_nil_iff]
  intro c hc
  have hmem := List.mem_of_mem_take (mem_of_mem_survivors hhard hc)
  exact List.filter_eq_nil_iff.mp hnone c hmem

/-- **What lower scores can do**: of two candidate sets that agree on the scores of at least `s`, the
faces of these scores are the same exactly when only the best candidate is looked at, or both or
neither of the sets have a candidate below `s` that is too small, or the last candidate of score at
least `s` is too small itself (or there is none).

The candidates come from the map, so that their scores fall, and no score is there twice. It rests on
`filter_survivors_congr_iff` where both sets are looked at as a whole. -/
theorem keptFaces_lower_scores_iff (exp : K → K) (D : FaceDetectWithMask K)
    (cands cands' : List (Candidate K)) (s : K) (hhard : D.soft_nms_ = false)
    (hsorted : cands.Pairwise fun a b => b.score < a.score)
    (hsorted' : cands'.Pairwise fun a b => b.score < a.score)
    (hlen : cands.length ≤ kMaxFaceDetNum) (hlen' : cands'.length ≤ kMaxFaceDetNum)
    (hagree : cands.filter (s ≤ ·.score) = cands'.filter (s ≤ ·.score)) :
    (keptFaces exp D cands).filter (s ≤ ·.score) = (keptFaces exp D cands').filter (s ≤ ·.score) ↔
      D.only_top1_ = true ∨ (SmallBelow D s cands ↔ SmallBelow D s cands') ∨
      ∀ c ∈ (cands.filter (s ≤ ·.score)).getLast?, D.tooSmall (c.clipped D) = true := by
  unfold keptFaces FaceDetectWithMask.max_num
  cases htop : D.only_top1_ with
  | true =>
    refine iff_of_true ?_ (Or.inl rfl)
    rw [if_pos rfl, if_pos rfl]
    have hone : min 1 kMaxFaceDetNum = 1 := by decide
    simp only [hone]
    by_cases hnone : cands.filter (s ≤ ·.score) = []
    · rw [filter_survivors_eq_nil hhard hnone, filter_survivors_eq_nil hhard (hagree ▸ hnone)]
    · -- the best candidate is a common one
      have hfirst := getElem?_eq_of_agree hsorted hsorted' hagree 0 (List.length_pos_iff.mpr hnone)
      rw [List.take_one, List.take_one, List.head?_eq_getElem?, List.head?_eq_getElem?, hfirst]
  | false =>
    simp only [Bool.false_eq_true, if_false, false_or]
    rw [Nat.min_eq_left hlen, Nat.min_eq_left hlen', List.take_length, List.take_length]
    exact filter_survivors_congr_iff hhard hsorted hsorted' hagree

/-! ## A face and a speck -/

/-- A detector that has seen an image of 100 by 100 pixels. -/
def squareImage : FaceDetectWithMask ℚ where
  only_top1_ := false
  soft_nms_ := false
  input_height_ := 32
  input_width_ := 32
  dim_cls_1 := 42
  priori_anchors_ := []
  ori_height_ := 100
  ori_width_ := 100

/-- A face that is large enough, with a score of 0.9. -/
def largeFace : Candidate ℚ := ⟨10, 10, 60, 60, 9 / 10, 0⟩

/-- Two pixels wide, and of a lower score. -/
def speck : Candidate ℚ := ⟨80, 80, 81, 81, 8 / 10, 1⟩

/-- The face is found, unless the speck is there too. -/
theorem speck_removes_face :
    [largeFace].filter (17 / 20 ≤ ·.score) = [largeFace, speck].filter (17 / 20 ≤ ·.score) ∧
      (keptFaces id squareImage [largeFace]).filter (17 / 20 ≤ ·.score) ≠
        (keptFaces id squareImage [largeFace, speck]).filter (17 / 20 ≤ ·.score) := by
  decide +kernel

/-- What the law says of the two sets. -/
theorem keptFaces_lower_scores_iff_speck :
    (keptFaces id squareImage [largeFace]).filter (17 / 20 ≤ ·.score) =
        (keptFaces id squareImage [largeFace, speck]).filter (17 / 20 ≤ ·.score) ↔
      squareImage.only_top1_ = true ∨ (SmallBelow squareImage (17 / 20) [largeFace] ↔
        SmallBelow squareImage (17 / 20) [largeFace, speck]) ∨
      ∀ c ∈ ([largeFace].filter (17 / 20 ≤ ·.score)).getLast?,
        squareImage.tooSmall (c.clipped squareImage) = true :=
  keptFaces_lower_scores_iff id squareImage [largeFace] [largeFace, speck] (17 / 20) rfl
    (by simp) (by simp [largeFace, speck]; norm_num) (by decide) (by decide) (by decide +kernel)

end EdgeFrame.Api
