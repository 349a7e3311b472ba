/-
# EdgeFrame.Capture.Resolution -- the resolution that is chosen for a camera

`infoCamera` pushes every frame size that a device enumerates to
`suppered_resolution_vec_`, and nothing ever takes one out: the sizes of devices that are
then rejected stay, and those of earlier scans. `selectResolution` chooses from all of
them, so what it sets for a camera may be what another one offered.

What is chosen is the foremost of the most preferred (`selectResolution_eq_some_iff`), where
the preference is a number (`rank`): first 960x540, then what is 960 wide, then the nearest
width. It fits a camera exactly when nothing that is left over from others beats what the
camera itself has offered, before it in the vector or behind it (`choice_fits_iff`,
`NotMisled`). What is in the vector is known of every run: all that any probe has enumerated,
in order (`vec_of_trace`).
-/
import EdgeFrame.Capture.Camera
import EdgeFrame.Lib.Runs
import EdgeFrame.Lib.Search
import Mathlib

namespace EdgeFrame.Capture

open Lib

/-! ## `selectResolution` -/

/-- The first loop: `candidate_resolution`, and the resolution that was `selected`. -/
def firstLoop (vec : List (Int × Int)) : List (Int × Int) × Option (Int × Int) :=
  vec.foldl (fun s r =>
    if r.1 = 960 then (s.1 ++ [r], if r.2 = 960 * 9 / 16 then some r else s.2) else s) ([], none)

/-- `abs(960 - width)`, where the difference is an `int`. -/
def diffOf (width : Int) : Option Int := if 960 - width < 2 ^ 31 then some |960 - width| else none

/-- The loop for the nearest width, from the index `i` on; the `idx` it ends with. -/
def nearest : List (Int × Int) → Int → Int → Int → Option Int
  | [], _, idx, _ => some idx
  | r :: vec, i, idx, min_diff =>
    (diffOf r.1).bind fun diff =>
      if diff < min_diff then nearest vec (i + 1) i diff else nearest vec (i + 1) idx min_diff

/-- `UsbDeviceLoaderProcessor::selectResolution`: `width_` and `height_`. Nothing when the loop for
the nearest width overflows, or leaves `idx` at -1. -/
def selectResolution (suppered_resolution_vec_ : List (Int × Int)) : Option (Int × Int) :=
  match firstLoop suppered_resolution_vec_ with
  | (_, some r) => some r
  | (r :: _, none) => some r
  | ([], none) =>
    (nearest suppered_resolution_vec_ 0 (-1) 99999).bind fun idx =>
      if 0 ≤ idx then suppered_resolution_vec_[idx.toNat]? else none

/-! ## What a choice should be -/

/-- One of the resolutions that the camera offers: 960x540 if it offers that, otherwise one that is
960 wide if it offers any, otherwise one of the nearest width. -/
def Fits (offered : List (Int × Int)) (r : Int × Int) : Prop :=
  r ∈ offered ∧
    if (960, 540) ∈ offered then r = (960, 540)
    else if ∃ o ∈ offered, o.1 = 960 then r.1 = 960
    else ∀ o ∈ offered, |960 - r.1| ≤ |960 - o.1|

/-- What a scan pushed. -/
def Scan.enumerated (scan : Scan) : List (Int × Int) := scan.probes.flatMap (·.answer.resolutions)

/-- What a scan pushed for the device that it returned. -/
def Scan.offered (scan : Scan) : List (Int × Int) :=
  (scan.probes.filter fun p => p.devName == devicePath scan.cam_id).flatMap (·.answer.resolutions)

/-- The preference of `selectResolution`: 960x540, then the nearest width. -/
def rank (r : Int × Int) : Int := if r = (960, 540) then 0 else |960 - r.1| + 1

/-- Something is 960 wide, or else no difference overflows and one is below 99999. -/
def Selectable (vec : List (Int × Int)) : Prop :=
  (∃ r ∈ vec, r.1 = 960) ∨
    (∀ r ∈ vec, 960 - r.1 < 2 ^ 31) ∧ ∃ r ∈ vec, |960 - r.1| < 99999

/-- A resolution can be selected, and to each that the camera does not offer one that was pushed
earlier is not inferior, or one that was pushed later superior. -/
structure NotMisled (vec offered : List (Int × Int)) : Prop where
  selectable : Selectable vec
  beaten : ∀ before a after, vec = before ++ a :: after → a ∉ offered →
    (∃ b ∈ before, rank b ≤ rank a) ∨ ∃ b ∈ after, rank b < rank a

/-! ## The order of preference -/

/-- No rank is below 0. -/
theorem rank_nonneg (r : Int × Int) : 0 ≤ rank r := by
  unfold rank
  split
  · exact le_rfl
  · have := abs_nonneg (960 - r.1)
    omega

/-- 960x540 comes first. -/
theorem rank_eq_zero_iff {r : Int × Int} : rank r = 0 ↔ r = (960, 540) := by
  unfold rank
  have := abs_nonneg (960 - r.1)
  split
  · simp [*]
  · refine iff_of_false (by omega) (by assumption)

/-- The others come by their width. -/
theorem rank_of_ne {r : Int × Int} (h : r ≠ (960, 540)) : rank r = |960 - r.1| + 1 := if_neg h

/-- The rank of a resolution that is 960 wide. -/
theorem rank_le_one_iff {r : Int × Int} : rank r ≤ 1 ↔ r.1 = 960 := by
  by_cases hbest : r = (960, 540)
  · rw [rank_eq_zero_iff.mpr hbest, hbest]
    simp
  · rw [rank_of_ne hbest, add_le_iff_nonpos_left, abs_nonpos_iff]
    omega

/-- **The three levels** are an order: what fits is offered, and nothing that is offered is
preferred to it. -/
theorem fits_iff {offered : List (Int × Int)} {r : Int × Int} :
    Fits offered r ↔ r ∈ offered ∧ ∀ o ∈ offered, rank r ≤ rank o := by
  unfold Fits
  refine and_congr_right fun hr => ?_
  split
  · rename_i hbest
    constructor
    · rintro rfl o _
      rw [rank_eq_zero_iff.mpr rfl]
      exact rank_nonneg o
    · intro hleast
      have hle := hleast _ hbest
      rw [rank_eq_zero_iff.mpr rfl] at hle
      exact rank_eq_zero_iff.mp (le_antisymm hle (rank_nonneg r))
  rename_i hbest
  have hne : ∀ o ∈ offered, o ≠ (960, 540) := fun o ho heq => hbest (heq ▸ ho)
  split
  · rename_i hwide
    obtain ⟨o, ho, hwidth⟩ := hwide
    constructor
    · intro hr960 o' ho'
      have hpos := (rank_nonneg o').lt_of_ne fun h => hne o' ho' (rank_eq_zero_iff.mp h.symm)
      have hle := rank_le_one_iff.mpr hr960
      omega
    · intro hleast
      exact rank_le_one_iff.mp ((hleast o ho).trans (rank_le_one_iff.mpr hwidth))
  · refine forall₂_congr fun o ho => ?_
    rw [rank_of_ne (hne r hr), rank_of_ne (hne o ho), add_le_add_iff_right]

/-! ## The loops -/

/-- **The first loop** collects what is 960 wide, and selects 960x540. -/
theorem firstLoop_eq (vec : List (Int × Int)) : firstLoop vec =
    (vec.filter (·.1 = 960), if (960, 540) ∈ vec then some (960, 540) else none) := by
  unfold firstLoop
  induction vec using List.reverseRecOn with
  | nil => rfl
  | append_singleton vec r ih =>
    rw [List.foldl_append, ih, List.foldl_cons, List.foldl_nil]
    by_cases hwide : r.1 = 960
    · by_cases hhigh : r.2 = 540
      · have hbest : r = (960, 540) := Prod.ext hwide hhigh
        simp [hbest]
      · have hbest : (960, 540) ≠ r := by
          rintro rfl
          exact hhigh rfl
        simp [hwide, hhigh, hbest]
    · have hbest : (960, 540) ≠ r := by
        rintro rfl
        exact hwide rfl
      simp [hwide, hbest]

/-- The distance of a width from 960. -/
def distance (r : Int × Int) : Int := |960 - r.1|

/-- A difference that is an `int` is the distance. -/
theorem diffOf_of_lt {r : Int × Int} (h : 960 - r.1 < 2 ^ 31) : diffOf r.1 = some (distance r) :=
  if_pos h

/-- The loop for the nearest width has no result when a difference overflows. -/
theorem nearest_overflows {vec : List (Int × Int)} (h : ∃ r ∈ vec, ¬ 960 - r.1 < 2 ^ 31) :
    ∀ {i idx min_diff : Int}, nearest vec i idx min_diff = none := by
  induction vec with
  | nil =>
    obtain ⟨r, hr, -⟩ := h
    cases hr
  | cons x vec ih =>
    intro i idx min_diff
    unfold nearest
    by_cases hx : 960 - x.1 < 2 ^ 31
    · have hrest : ∃ r ∈ vec, ¬ 960 - r.1 < 2 ^ 31 := by
        obtain ⟨r, hr, hover⟩ := h
        rcases List.mem_cons.mp hr with rfl | hr
        · exact absurd hx hover
        · exact ⟨r, hr, hover⟩
      rw [diffOf_of_lt hx, Option.bind_some]
      split <;> exact ih hrest
    · rw [diffOf, if_neg hx]
      rfl

/-- Without a nearer width it ends with the index that it has. -/
theorem nearest_keeps {vec : List (Int × Int)} : ∀ {i idx min_diff : Int},
    (∀ r ∈ vec, 960 - r.1 < 2 ^ 31) → (∀ r ∈ vec, min_diff ≤ distance r) →
      nearest vec i idx min_diff = some idx := by
  induction vec with
  | nil =>
    intro i idx min_diff _ _
    rfl
  | cons x vec ih =>
    intro i idx min_diff hfits hfar
    rw [List.forall_mem_cons] at hfits hfar
    unfold nearest
    rw [diffOf_of_lt hfits.1, Option.bind_some, if_neg (not_lt.mpr hfar.1)]
    exact ih hfits.2 hfar.2

/-- **The loop for the nearest width** ends with the index of the foremost of the nearest.

It replaces what it has only by something strictly nearer, so that of equal ones the first stays. -/
theorem nearest_finds {a : Int × Int} {before after : List (Int × Int)}
    (hafter : ∀ b ∈ after, distance a ≤ distance b) : ∀ {i idx min_diff : Int},
    (∀ r ∈ before ++ a :: after, 960 - r.1 < 2 ^ 31) → (∀ b ∈ before, distance a < distance b) →
      distance a < min_diff →
        nearest (before ++ a :: after) i idx min_diff = some (i + before.length) := by
  induction before with
  | nil =>
    intro i idx min_diff hfits _ hnear
    rw [List.nil_append, List.forall_mem_cons] at hfits
    rw [List.nil_append, nearest, diffOf_of_lt hfits.1, Option.bind_some, if_pos hnear,
      nearest_keeps hfits.2 hafter]
    simp
  | cons x before ih =>
    intro i idx min_diff hfits hbefore hnear
    rw [List.cons_append, List.forall_mem_cons] at hfits
    rw [List.forall_mem_cons] at hbefore
    have hindex : i + 1 + (before.length : Int) = i + ((x :: before).length : Int) := by
      rw [List.length_cons]
      push_cast
      ring
    rw [List.cons_append, nearest, diffOf_of_lt hfits.1, Option.bind_some, ← hindex]
    -- the element before it has set the bound or not: it is nearer either way
    split
    · exact ih hfits.2 hbefore.2 hbefore.1
    · exact ih hfits.2 hbefore.2 hnear

/-! ## The choice -/

/-- Where nothing is 960 wide the rank is the distance. -/
theorem foremost_of_not_wide {vec : List (Int × Int)} {a : Int × Int}
    (hwide : ∀ r ∈ vec, r.1 ≠ 960) : Foremost rank vec a ↔ Foremost distance vec a := by
  have hrank : ∀ r ∈ vec, rank r = distance r + 1 := by
    intro r hr
    exact rank_of_ne fun h => hwide r hr (congrArg Prod.fst h)
  unfold Foremost
  refine exists_congr fun before => exists_congr fun after => and_congr_right fun hsplit => ?_
  have ha : rank a = distance a + 1 := hrank a (by simp [hsplit])
  refine and_congr (forall₂_congr fun b hb => ?_) (forall₂_congr fun b hb => ?_)
  · rw [ha, hrank b (by simp [hsplit, hb])]
    omega
  · rw [ha, hrank b (by simp [hsplit, hb])]
    omega

/-- There is something to select from. -/
theorem Selectable.ne_nil {vec : List (Int × Int)} (h : Selectable vec) : vec ≠ [] := by
  rintro rfl
  rcases h with ⟨o, ho, -⟩ | ⟨-, o, ho, -⟩ <;> cases ho

/-- Without a resolution that is 960 wide the nearest width decides. -/
theorem selectResolution_of_not_wide {vec : List (Int × Int)} (hwide : ∀ r ∈ vec, r.1 ≠ 960) :
    selectResolution vec = (nearest vec 0 (-1) 99999).bind fun idx =>
      if 0 ≤ idx then vec[idx.toNat]? else none := by
  have hbest : (960, 540) ∉ vec := fun h => hwide _ h rfl
  have hnone : vec.filter (·.1 = 960) = [] := by
    rw [List.filter_eq_nil_iff]
    intro r hr
    simpa using hwide r hr
  unfold selectResolution
  rw [firstLoop_eq, if_neg hbest, hnone]

/-- Where there is nothing to select, nothing is. -/
theorem selectable_of_selectResolution {vec : List (Int × Int)} {r : Int × Int}
    (h : selectResolution vec = some r) : Selectable vec := by
  by_contra hnot
  unfold Selectable at hnot
  push Not at hnot
  obtain ⟨hwide, hfar⟩ := hnot
  rw [selectResolution_of_not_wide hwide] at h
  by_cases hfits : ∀ r ∈ vec, 960 - r.1 < 2 ^ 31
  · rw [nearest_keeps hfits (hfar hfits)] at h
    simp at h
  · push Not at hfits
    obtain ⟨x, hx, hover⟩ := hfits
    rw [nearest_overflows ⟨x, hx, not_lt.mpr hover⟩] at h
    cases h

/-- A choice that can be made is the foremost of the most preferred. -/
theorem selectResolution_of_foremost {vec : List (Int × Int)} {r : Int × Int}
    (h : Selectable vec) (hr : Foremost rank vec r) : selectResolution vec = some r := by
  by_cases hbest : (960, 540) ∈ vec
  -- 960x540 is there, and is chosen at once
  · have hle := hr.le hbest
    rw [rank_eq_zero_iff.mpr rfl] at hle
    have hselected : r = (960, 540) := rank_eq_zero_iff.mp (le_antisymm hle (rank_nonneg r))
    unfold selectResolution
    rw [firstLoop_eq, if_pos hbest, hselected]
  have hpos : ∀ b ∈ vec, 1 ≤ rank b := fun b hb =>
    (rank_nonneg b).lt_of_ne fun hzero => hbest (rank_eq_zero_iff.mp hzero.symm ▸ hb)
  by_cases hwide : ∃ o ∈ vec, o.1 = 960
  -- something is 960 wide, and the first such is chosen
  · obtain ⟨o, ho, hwidth⟩ := hwide
    have hmem : o ∈ vec.filter (·.1 = 960) := List.mem_filter.mpr ⟨ho, decide_eq_true hwidth⟩
    obtain ⟨x, rest, hfilter⟩ := List.exists_cons_of_ne_nil (List.ne_nil_of_mem hmem)
    obtain ⟨before, after, rfl, hbefore, hx, -⟩ := List.filter_eq_cons_iff.mp hfilter
    have hxrank : rank x ≤ 1 := rank_le_one_iff.mpr (of_decide_eq_true hx)
    have hforemost : Foremost rank (before ++ x :: after) x := by
      refine ⟨before, after, rfl, fun b hb => ?_, fun b hb => hxrank.trans (hpos b (by simp [hb]))⟩
      have hnarrow : ¬ b.1 = 960 := by simpa using hbefore b hb
      rw [← rank_le_one_iff, not_le] at hnarrow
      exact hxrank.trans_lt hnarrow
    unfold selectResolution
    rw [firstLoop_eq, if_neg hbest, hfilter, hr.unique hforemost]
  -- the nearest width is chosen
  · push Not at hwide
    have hfar : (∀ r ∈ vec, 960 - r.1 < 2 ^ 31) ∧ ∃ r ∈ vec, |960 - r.1| < 99999 := by
      rcases h with ⟨o, ho, hwidth⟩ | h
      · exact absurd hwidth (hwide o ho)
      · exact h
    obtain ⟨hfits, o, ho, hnear⟩ := hfar
    rw [foremost_of_not_wide hwide] at hr
    have hle : distance r ≤ distance o := hr.le ho
    obtain ⟨before, after, rfl, hbefore, hafter⟩ := hr
    rw [selectResolution_of_not_wide hwide,
      nearest_finds hafter hfits hbefore (hle.trans_lt hnear), zero_add]
    simp

/-- **The choice**: when there is something to select, the foremost of the most preferred.

The two loops are `firstLoop_eq` and `nearest_finds`; which of them decides depends on whether
something is 960 wide. -/
theorem selectResolution_eq_some_iff {vec : List (Int × Int)} {r : Int × Int} :
    selectResolution vec = some r ↔ Selectable vec ∧ Foremost rank vec r := by
  constructor
  · intro h
    have hselectable := selectable_of_selectResolution h
    obtain ⟨a, ha⟩ := exists_foremost (f := rank) hselectable.ne_nil
    rw [selectResolution_of_foremost hselectable ha] at h
    obtain rfl := Option.some.inj h
    exact ⟨hselectable, ha⟩
  · rintro ⟨hselectable, hr⟩
    exact selectResolution_of_foremost hselectable hr

/-- **When the choice fits** what is offered, among all that was collected.

The foremost of all is one that the camera offers, or is left over from others. In the second case it
may still be equal to one that the camera offers, which then stands behind it. -/
theorem choice_fits_iff {vec offered : List (Int × Int)} (hsub : ∀ o ∈ offered, o ∈ vec) :
    (∃ r, selectResolution vec = some r ∧ Fits offered r) ↔ NotMisled vec offered := by
  simp only [selectResolution_eq_some_iff, fits_iff]
  constructor
  · rintro ⟨r, ⟨hselectable, hforemost⟩, hr, -⟩
    refine ⟨hselectable, ?_⟩
    intro before a after hsplit ha
    by_contra hnot
    push Not at hnot
    obtain ⟨hbefore, hafter⟩ := hnot
    -- what is not beaten is chosen, and would be offered
    obtain rfl : r = a := hforemost.unique ⟨before, after, hsplit, hbefore, hafter⟩
    exact ha hr
  · rintro ⟨hselectable, hbeaten⟩
    obtain ⟨r, hr⟩ := exists_foremost (f := rank) hselectable.ne_nil
    refine ⟨r, ⟨hselectable, hr⟩, ?_, fun o ho => hr.le (hsub o ho)⟩
    by_contra hmissing
    obtain ⟨before, after, hsplit, hbefore, hafter⟩ := hr
    rcases hbeaten before r after hsplit hmissing with ⟨b, hb, hle⟩ | ⟨b, hb, hlt⟩
    · exact absurd (hbefore b hb) (not_lt.mpr hle)
    · exact absurd (hafter b hb) (not_le.mpr hlt)

/-! ## One call of `infoCamera` -/

/-- **The nested loops** push one resolution for every frame size they count. -/
theorem enumerate_resolutions {fd : Int} {replies : List Reply} : ∀ {loop : Loop} {s s' : Found}
    {rest : List Reply}, s.resolutions.length = s.frmsizeNum →
      enumerate fd replies loop s = some (s', rest) → s'.resolutions.length = s'.frmsizeNum := by
  induction replies with
  | nil =>
    intro loop s s' rest _ h
    cases h
  | cons r replies ih =>
    intro loop s s' rest hs h
    have hcall : (s.call (.ioctl fd loop.request)).resolutions.length =
        (s.call (.ioctl fd loop.request)).frmsizeNum := hs
    unfold enumerate at h
    dsimp only at h
    split at h
    · split at h
      · cases h
        exact hcall
      · exact ih hcall h
    · refine ih ?_ h
      cases loop <;> simp [Found.count, hcall]

/-- A device that is accepted has offered a resolution. -/
theorem resolutions_ne_nil {devName : Bytes} {replies rest : List Reply} {answer : Answer}
    (h : infoCamera devName replies = some (answer, rest)) (haccepted : answer.accepted = true) :
    answer.resolutions ≠ [] := by
  cases infoCamera_returns h with
  | enumerated hname hopen hcap hvideo hinputs hsome henumerate =>
    simp only [Bool.and_eq_true, decide_eq_true_eq] at haccepted
    have hlength := enumerate_resolutions rfl henumerate
    exact List.ne_nil_of_length_pos (hlength.symm ▸ haccepted.1.2)
  | _ => cases haccepted

/-! ## Runs -/

/-- Nothing was pushed but by the probes. -/
def Collected (s : Scanner) : Prop :=
  s.suppered_resolution_vec_ = s.probes.flatMap (·.answer.resolutions)

/-- What asking a device does to a scanner. -/
theorem Scanner.infoCamera_spec {s s' : Scanner} {devName : Bytes} {b : Bool}
    (h : s.infoCamera devName = some (b, s')) :
    ∃ answer rest, Capture.infoCamera devName s.replies = some (answer, rest) ∧
      b = answer.accepted ∧
      s'.suppered_resolution_vec_ = s.suppered_resolution_vec_ ++ answer.resolutions ∧
      s'.probes = s.probes ++ [⟨devName, s.replies, answer⟩] := by
  unfold Scanner.infoCamera at h
  obtain ⟨⟨answer, rest⟩, hanswer, h⟩ := Option.bind_eq_some_iff.mp h
  cases h
  exact ⟨answer, rest, hanswer, rfl, rfl, rfl⟩

/-- It pushes nothing else. -/
theorem Scanner.infoCamera_collected {s s' : Scanner} {devName : Bytes} {b : Bool}
    (hs : Collected s) (h : s.infoCamera devName = some (b, s')) : Collected s' := by
  obtain ⟨answer, rest, -, -, hvec, hprobes⟩ := Scanner.infoCamera_spec h
  unfold Collected at hs ⊢
  rw [hvec, hprobes, List.flatMap_append, hs]
  simp

/-- The probes of a run are those of its scans. -/
theorem probes_of_trace {signed : Bool} {replies : List Reply} {scans : List Scan} {s : Scanner}
    (h : Trace (Scans signed) { replies := replies } scans s) :
    s.probes = scans.flatMap (·.probes) := by
  refine Trace.history (H := fun scans (s : Scanner) => s.probes = scans.flatMap (·.probes)) rfl ?_ h
  intro scans s scan s' _ ih hscan
  rw [hscan.2, ih]
  simp

/-- **What `suppered_resolution_vec_` holds**: everything that any scan has enumerated. -/
theorem vec_of_trace {signed : Bool} {replies : List Reply} {scans : List Scan} {s : Scanner}
    (h : Trace (Scans signed) { replies := replies } scans s) :
    s.suppered_resolution_vec_ = scans.flatMap Scan.enumerated := by
  have hcollected : Collected s := by
    refine Trace.invariant (I := Collected) ?_ ?_ h
    · intro s scan s' hs hscan
      exact findCamera_keeps (fun _ _ _ _ hs h => Scanner.infoCamera_collected hs h) hs hscan.1
    · rfl
  rw [hcollected, probes_of_trace h, List.flatMap_assoc]
  rfl

/-- A scan that returns a camera returned it because `infoCamera` accepted it. -/
theorem scanEntries_accepts {signed : Bool} {s₀ : Scanner} {entries : List Bytes} :
    ∀ {s s' : Scanner} {n : Int}, s₀.probes <+: s.probes →
      scanEntries Scanner.infoCamera signed s entries = some (n, s') →
        n = -1 ∨ ∃ s₁ : Scanner, s₀.probes <+: s₁.probes ∧
          s₁.infoCamera (devicePath n) = some (true, s') := by
  induction entries with
  | nil =>
    intro s s' n _ h
    cases h
    exact Or.inl rfl
  | cons d_name entries ih =>
    intro s s' n hs h
    unfold scanEntries at h
    dsimp only at h
    split at h
    · split at h
      · cases h
      · rename_i hasked
        cases h
        exact Or.inr ⟨s, hs, hasked⟩
      · rename_i hasked
        obtain ⟨answer, rest, -, -, -, hprobes⟩ := Scanner.infoCamera_spec hasked
        exact ih (hs.trans ⟨_, hprobes.symm⟩) h
    · exact ih hs h

/-- The camera that a scan returns has offered a resolution. -/
theorem offered_ne_nil {signed : Bool} {s s' : Scanner} {scan : Scan} (h : Scans signed s scan s')
    (hcam : 0 ≤ scan.cam_id) : scan.offered ≠ [] := by
  obtain ⟨listing, cam_id, probes⟩ := scan
  obtain ⟨hfind, hprobes⟩ := h
  dsimp only at hfind hprobes hcam
  unfold findCamera at hfind
  split at hfind
  · cases hfind
    exact absurd hcam (by decide)
  rcases scanEntries_accepts (List.prefix_refl s.probes) hfind with hnone | ⟨s₁, hbefore, hasked⟩
  · omega
  obtain ⟨answer, rest, hanswer, haccepted, -, hprobes'⟩ := Scanner.infoCamera_spec hasked
  obtain ⟨earlier, hearlier⟩ := hbefore
  rw [hprobes, ← hearlier, List.append_assoc, List.append_cancel_left_eq] at hprobes'
  obtain ⟨r, hr⟩ := List.exists_mem_of_ne_nil _ (resolutions_ne_nil hanswer haccepted.symm)
  refine List.ne_nil_of_mem (a := r) (List.mem_flatMap.mpr
    ⟨⟨devicePath cam_id, s₁.replies, answer⟩, List.mem_filter.mpr ⟨?_, ?_⟩, hr⟩)
  · rw [hprobes']
    exact List.mem_append_right _ List.mem_cons_self
  · exact beq_self_eq_true _

/-- **When the resolution fits the camera**: after any run of scans, what is selected for the camera
that a scan returns is what it should be of all that the camera has offered in this scan, exactly
when a resolution can be selected, and each one left over that the camera does not offer is beaten.

It is `choice_fits_iff` for the vector that `vec_of_trace` gives, and for what the scan has
enumerated for its camera. -/
theorem resolution_fits_iff {signed : Bool} {replies : List Reply} {scans : List Scan}
    {s : Scanner} {scan : Scan} {s' : Scanner}
    (h : Trace (Scans signed) { replies := replies } scans s) (hscan : Scans signed s scan s') :
    (0 ≤ scan.cam_id → scan.offered ≠ []) ∧
      ((∃ r, selectResolution s'.suppered_resolution_vec_ = some r ∧ Fits scan.offered r) ↔
        NotMisled ((scans ++ [scan]).flatMap Scan.enumerated) scan.offered) := by
  have hrun : Trace (Scans signed) { replies := replies } (scans ++ [scan]) s' :=
    trace_snoc.mpr ⟨s, h, hscan⟩
  refine ⟨offered_ne_nil hscan, ?_⟩
  rw [vec_of_trace hrun]
  refine choice_fits_iff ?_
  intro o ho
  obtain ⟨p, hp, ho⟩ := List.mem_flatMap.mp ho
  refine List.mem_flatMap.mpr ⟨scan, by simp, ?_⟩
  exact List.mem_flatMap.mpr ⟨p, (List.mem_filter.mp hp).1, ho⟩

/-! ## Two cameras -/

/-- The replies of a camera with one format, one frame size and one interval. -/
def camera (width height : UInt32) : List Reply :=
  [{ ret := 7 }, { ret := 0, capabilities := V4L2_CAP_VIDEO_CAPTURE }, { ret := 0 }, { ret := -1 },
    { ret := 0 }, { ret := 0, width := width, height := height }, { ret := 0 }, { ret := -1 },
    { ret := -1 }, { ret := -1 }]

/-- The probe of /dev/video0 that it answers. -/
def probed (width height : UInt32) (later : List Reply) : Probe where
  devName := str "/dev/video0"
  replies := camera width height ++ later
  answer :=
    { accepted := true
      resolutions := [(asInt width, asInt height)]
      calls := [.open (str "/dev/video0") 7, .ioctl 7 .queryCap, .ioctl 7 (.enumInput 0),
        .ioctl 7 (.enumInput 1), .ioctl 7 (.enumFmt 0), .ioctl 7 (.enumFrameSizes 0 0),
        .ioctl 7 (.enumFrameIntervals 0 0 width height),
        .ioctl 7 (.enumFrameIntervals 1 0 width height), .ioctl 7 (.enumFrameSizes 1 0),
        .ioctl 7 (.enumFmt 1), .close 7] }

/-- The scan that finds it. -/
def found (width height : UInt32) (later : List Reply) : Scan where
  listing := some [str "video0"]
  cam_id := 0
  probes := [probed width height later]

/-- **A second camera** of 640x480 is told the 960x540 of the first. -/
theorem first_camera_misleads : ∃ s s' : Scanner,
    Trace (Scans true) { replies := camera 960 540 ++ camera 640 480 }
      [found 960 540 (camera 640 480)] s ∧
    Scans true s (found 640 480 []) s' ∧ (found 640 480 []).offered = [(640, 480)] ∧
    selectResolution s'.suppered_resolution_vec_ = some (960, 540) ∧
    ¬ Fits (found 640 480 []).offered (960, 540) := by
  refine ⟨⟨[(960, 540)], camera 640 480, [probed 960 540 (camera 640 480)]⟩,
    ⟨[(960, 540), (640, 480)], [], [probed 960 540 (camera 640 480), probed 640 480 []]⟩,
    ⟨_, ⟨by decide +kernel, rfl⟩, rfl⟩, ⟨by decide +kernel, rfl⟩, by decide +kernel,
    by decide +kernel, ?_⟩
  intro h
  exact absurd h.1 (by decide +kernel)

/-- Alone, the first camera is told what it offers. -/
theorem resolution_fits_iff_first_camera : ∃ s' : Scanner,
    Scans true { replies := camera 1280 720 } (found 1280 720 []) s' ∧
      ∃ r, selectResolution s'.suppered_resolution_vec_ = some r ∧
        Fits (found 1280 720 []).offered r := by
  have hscan : Scans true { replies := camera 1280 720 } (found 1280 720 [])
      ⟨[(1280, 720)], [], [probed 1280 720 []]⟩ := ⟨by decide +kernel, rfl⟩
  have hinit : Trace (Scans true) { replies := camera 1280 720 } [] { replies := camera 1280 720 } :=
    rfl
  refine ⟨_, hscan, (resolution_fits_iff hinit hscan).2.mpr ?_⟩
  constructor
  · exact Or.inr ⟨by decide +kernel, by decide +kernel⟩
  · intro before a after hsplit ha
    refine absurd ?_ ha
    have hmem : a ∈ ([] ++ [found 1280 720 []]).flatMap Scan.enumerated := by
      rw [hsplit]
      simp
    exact hmem

end EdgeFrame.Capture
