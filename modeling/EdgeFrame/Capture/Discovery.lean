/-
# EdgeFrame.Capture.Discovery -- which device a scan of /dev finds

`findCamera` takes the sixth character of a name for the number of the device: it asks
/dev/video1 when /dev lists video10, and some negative number for a name that goes on with
something else. What the scan is for is the number of the first listed camera whose own
path is accepted. The two agree wherever a name has a single digit, and otherwise only by
coincidence: so the scan is right as long as no other name counts before the first camera
with a single digit that is accepted.

Both are searches of the listing for the first entry with a value: `asked` is what the code
gives an entry, `available` what it is for. `findCamera_asks` and `discovers_iff` say so, once
for the loop and once for its purpose. `Lib.Search` compares two such searches at the first
entry where either has a value.
-/
import EdgeFrame.Capture.Camera
import EdgeFrame.Lib.Search
import Mathlib

namespace EdgeFrame.Capture

open Lib

/-! ## What a scan is for -/

/-- The name is `video` and digits. -/
def Numbered (d_name : Bytes) : Prop :=
  d_name.take 5 = str "video" ∧ d_name.drop 5 ≠ [] ∧ ∀ b ∈ d_name.drop 5, isDigit b = true

instance (d_name : Bytes) : Decidable (Numbered d_name) :=
  inferInstanceAs (Decidable (_ ∧ _ ∧ _))

/-- The number in a name. -/
def numberOf (d_name : Bytes) : Int := decimal (d_name.drop 5)

/-- A listed camera that would be accepted. -/
def Available (accept : Bytes → Bool) (d_name : Bytes) : Prop :=
  Numbered d_name ∧ accept (str "/dev/" ++ d_name) = true

instance (accept : Bytes → Bool) (d_name : Bytes) : Decidable (Available accept d_name) :=
  inferInstanceAs (Decidable (_ ∧ _))

/-- `n` is not negative exactly when a camera is available, and is then the number of the first one;
otherwise it is -1. -/
structure Discovers (accept : Bytes → Bool) (listing : List Bytes) (n : Int) : Prop where
  found : 0 ≤ n ↔ ∃ d_name ∈ listing, Available accept d_name
  first : ∀ before d_name after, listing = before ++ d_name :: after → Available accept d_name →
    (∀ e ∈ before, ¬ Available accept e) → n = numberOf d_name
  nothing : (∀ d_name ∈ listing, ¬ Available accept d_name) → n = -1

/-! ## Two searches -/

/-- The number of a listed camera that would be accepted. -/
def available (accept : Bytes → Bool) (d_name : Bytes) : Option Int :=
  if Available accept d_name then some (numberOf d_name) else none

/-- The number that the code takes an entry for, when the device of that number is accepted. -/
def asked (signed : Bool) (accept : Bytes → Bool) (d_name : Bytes) : Option Int :=
  if isVideo d_name = true ∧ accept (devicePath (videoOf signed d_name)) = true then
    some (videoOf signed d_name)
  else none

/-- The name is `video` and one digit. -/
def OneDigit (d_name : Bytes) : Prop := ∃ b, isDigit b = true ∧ d_name = str "video" ++ [b]

/-- `infoCamera` as a predicate on paths. -/
def asks (accept : Bytes → Bool) (s : Unit) (devName : Bytes) : Option (Bool × Unit) :=
  some (accept devName, s)

variable {signed : Bool} {accept : Bytes → Bool}

/-- **The scan** is a search for an entry that the code takes for an accepted device. -/
theorem findCamera_asks (listing : List Bytes) : findCamera (asks accept) signed () (some listing) =
    some ((listing.findSome? (asked signed accept)).getD (-1), ()) := by
  unfold findCamera
  dsimp only
  induction listing with
  | nil => rfl
  | cons d_name listing ih =>
    unfold scanEntries
    by_cases hvideo : isVideo d_name = true
    · rw [if_pos hvideo]
      cases haccept : accept (devicePath (videoOf signed d_name)) with
      | true => simp [asks, asked, hvideo, haccept]
      | false => simpa [asks, asked, hvideo, haccept] using ih
    · rw [if_neg hvideo, ih]
      simp [asked, hvideo]

/-- **The purpose** is a search for an available camera. -/
theorem discovers_iff {listing : List Bytes} {n : Int} : Discovers accept listing n ↔
    n = (listing.findSome? (available accept)).getD (-1) := by
  have hvalue : ∀ d_name, available accept d_name = none ↔ ¬ Available accept d_name := by
    simp [available]
  have hpos : ∀ d_name, 0 ≤ numberOf d_name := fun d_name => Int.natCast_nonneg _
  cases hsearch : listing.findSome? (available accept) with
  | none =>
    -- nothing is available
    have hnot : ∀ d_name ∈ listing, ¬ Available accept d_name := fun d_name hd =>
      (hvalue d_name).mp (List.findSome?_eq_none_iff.mp hsearch d_name hd)
    constructor
    · intro h
      exact h.nothing hnot
    · rintro rfl
      refine ⟨iff_of_false (by decide) ?_, ?_, fun _ => rfl⟩
      · rintro ⟨d_name, hd, hav⟩
        exact hnot d_name hd hav
      · intro before d_name after hsplit hav
        exact absurd hav (hnot d_name (by simp [hsplit]))
  | some v =>
    -- the search has a first hit
    obtain ⟨before, d_name, after, rfl, hd, hbefore⟩ := List.findSome?_eq_some_iff.mp hsearch
    have hav : Available accept d_name := by
      by_contra hno
      rw [(hvalue d_name).mpr hno] at hd
      cases hd
    have hv : v = numberOf d_name := by
      rw [available, if_pos hav] at hd
      exact (Option.some.inj hd).symm
    have hnone : ∀ e ∈ before, ¬ Available accept e := fun e he => (hvalue e).mp (hbefore e he)
    constructor
    · intro h
      exact (h.first before d_name after rfl hav hnone).trans hv.symm
    · rintro rfl
      refine ⟨iff_of_true ?_ ⟨d_name, by simp, hav⟩, ?_, ?_⟩
      · rw [hv]
        exact hpos d_name
      -- two first available entries are the same one
      · intro before' d' after' hsplit hav' hbefore'
        have hsearch' : (before' ++ d' :: after').findSome? (available accept) =
            some (numberOf d') := by
          refine List.findSome?_eq_some_iff.mpr ⟨before', d', after', rfl, ?_, ?_⟩
          · rw [available, if_pos hav']
          · exact fun e he => (hvalue e).mpr (hbefore' e he)
        rw [← hsplit, hsearch] at hsearch'
        exact Option.some.inj hsearch'
      · intro hall
        exact absurd hav (hall d_name (by simp))

/-! ## One entry -/

/-- The slash is the only character that the code takes for -1. -/
theorem char_eq_slash {c : UInt8} (h : (if signed then c.toInt8.toInt else c.toNat) - 48 = -1) :
    c = 47 := by
  have hcases : c.toInt8.toInt = c.toNat ∨ c.toInt8.toInt = c.toNat - 256 := by
    have hcond := BitVec.toInt_eq_toNat_cond c.toBitVec
    rw [show c.toInt8.toInt = c.toBitVec.toInt from rfl, hcond]
    split
    · exact Or.inl rfl
    · exact Or.inr rfl
  have hlt := c.toNat_lt
  rw [← UInt8.toNat_inj]
  show c.toNat = 47
  split at h <;> omega

/-- No entry is taken for -1: the glob excludes the slash. -/
theorem asked_ne {d_name : Bytes} : asked signed accept d_name ≠ some (-1) := by
  intro h
  unfold asked at h
  split at h
  · rename_i hasked
    have hslash := char_eq_slash (Option.some.inj h)
    have hglob := hasked.1
    unfold isVideo at hglob
    simp only [Bool.and_eq_true, List.all_eq_true, bne_iff_ne] at hglob
    have hlen : 5 < d_name.length := by
      by_contra hshort
      rw [List.getD_eq_default _ _ (not_lt.mp hshort)] at hslash
      exact absurd hslash (by decide)
    rw [List.getD_eq_getElem _ _ hlen] at hslash
    refine hglob.2 d_name[5] ?_ hslash
    rw [List.drop_eq_getElem_cons hlen]
    exact List.mem_cons_self
  · cases h

theorem available_ne {d_name : Bytes} : available accept d_name ≠ some (-1) := by
  intro h
  unfold available at h
  split at h
  · have hnumber : numberOf d_name = -1 := Option.some.inj h
    have hpos : 0 ≤ numberOf d_name := Int.natCast_nonneg _
    omega
  · cases h

theorem mem_digits {b : UInt8} (h : isDigit b = true) : b ∈ (List.range' 48 10).map UInt8.ofNat := by
  unfold isDigit at h
  simp only [Bool.and_eq_true, decide_eq_true_eq, UInt8.le_iff_toNat_le] at h
  exact List.mem_map.mpr ⟨b.toNat, List.mem_range'_1.mpr ⟨h.1, Nat.lt_succ_of_le h.2⟩,
    UInt8.ofNat_toNat⟩

/-- What the code makes of the names with one digit. -/
theorem digits_read (signed : Bool) : ∀ b ∈ (List.range' 48 10).map UInt8.ofNat,
    Numbered (str "video" ++ [b]) ∧ isVideo (str "video" ++ [b]) = true ∧
      videoOf signed (str "video" ++ [b]) = numberOf (str "video" ++ [b]) ∧
      devicePath (numberOf (str "video" ++ [b])) = str "/dev/" ++ (str "video" ++ [b]) := by
  cases signed <;> decide +kernel

/-- **A name with one digit** is taken for what it is. -/
theorem asked_eq_available {d_name : Bytes} (h : OneDigit d_name) :
    asked signed accept d_name = available accept d_name := by
  obtain ⟨b, hb, rfl⟩ := h
  obtain ⟨hnumbered, hvideo, hread, hpath⟩ := digits_read signed b (mem_digits hb)
  unfold asked available Available
  rw [hread, hpath]
  simp [hnumbered, hvideo]

/-! ## When the right camera is found -/

/-- Two numbers that are not -1 agree when there is one, and which. -/
theorem getD_eq_iff {o o' : Option Int} (h : o ≠ some (-1)) (h' : o' ≠ some (-1)) :
    o.getD (-1) = o'.getD (-1) ↔ o = o' := by
  cases o <;> cases o' <;> simp_all [eq_comm]

/-- What a scan and its purpose hang on: at the first entry whose name is not `video` and one digit,
and for which the device that is asked or the entry's own is accepted, the two searches have to come
to the same number. Where only one of the two is accepted this speaks of the rest of the listing. -/
theorem findCamera_discovers_iff (signed : Bool) (accept : Bytes → Bool) (listing : List Bytes) :
    (∃ n, findCamera (asks accept) signed () (some listing) = some (n, ()) ∧
      Discovers accept listing n) ↔
    ∀ before d_name after, listing = before ++ d_name :: after → ¬ OneDigit d_name →
      (∀ e ∈ before, asked signed accept e = none ∧ available accept e = none) →
        Coincide (asked signed accept) (available accept) d_name after := by
  have hasked : listing.findSome? (asked signed accept) ≠ some (-1) :=
    findSome?_ne (fun _ => asked_ne) listing
  have havailable : listing.findSome? (available accept) ≠ some (-1) :=
    findSome?_ne (fun _ => available_ne) listing
  have hresult : (∃ n, findCamera (asks accept) signed () (some listing) = some (n, ()) ∧
      Discovers accept listing n) ↔
      listing.findSome? (asked signed accept) = listing.findSome? (available accept) := by
    rw [findCamera_asks, ← getD_eq_iff hasked havailable]
    simp [discovers_iff]
  rw [hresult, findSome?_eq_iff]
  constructor
  · intro h before d_name after hsplit _ hbefore
    exact h before d_name after hsplit hbefore
  · intro h before d_name after hsplit hbefore
    by_cases hdigit : OneDigit d_name
    · exact coincide_of_eq (asked_eq_available hdigit) after
    · exact h before d_name after hsplit hdigit hbefore

/-- The name counts in the scan without being `video` and one digit: the device that is asked for it
is accepted, or its own is. -/
def Misread (signed : Bool) (accept : Bytes → Bool) (d_name : Bytes) : Prop :=
  ¬ OneDigit d_name ∧
    (isVideo d_name = true ∧ accept (devicePath (videoOf signed d_name)) = true ∨
      Available accept d_name)

/-- A name that counts for one of the two searches is misread, or has one digit. -/
theorem misread_of_value {d_name : Bytes} (hdigit : ¬ OneDigit d_name)
    (hvalue : ¬ (asked signed accept d_name = none ∧ available accept d_name = none)) :
    Misread signed accept d_name := by
  refine ⟨hdigit, ?_⟩
  by_contra hneither
  obtain ⟨hasked, havailable⟩ := not_or.mp hneither
  exact hvalue ⟨if_neg hasked, if_neg havailable⟩

/-- **A scan finds the right camera** if every name that would be misread stands behind an accepted
camera with one digit. Up to that camera the two searches meet names that count for neither, or
names with one digit, which are taken for what they are (`asked_eq_available`). -/
theorem findCamera_discovers (signed : Bool) (accept : Bytes → Bool) (listing : List Bytes)
    (hbehind : ∀ before d_name after, listing = before ++ d_name :: after →
      Misread signed accept d_name →
        ∃ e ∈ before, OneDigit e ∧ accept (str "/dev/" ++ e) = true) :
    ∃ n, findCamera (asks accept) signed () (some listing) = some (n, ()) ∧
      Discovers accept listing n := by
  refine (findCamera_discovers_iff signed accept listing).mpr ?_
  intro before d_name after hsplit hdigit hbefore
  apply coincide_of_eq
  by_contra hdiffer
  -- an entry at which the searches differ counts for one of them
  have hmisread : Misread signed accept d_name := by
    apply misread_of_value hdigit
    rintro ⟨hasked, havailable⟩
    exact hdiffer (hasked.trans havailable.symm)
  obtain ⟨e, he, hone, haccept⟩ := hbehind before d_name after hsplit hmisread
  have hav : Available accept e := by
    obtain ⟨b, hb, rfl⟩ := hone
    exact ⟨(digits_read signed b (mem_digits hb)).1, haccept⟩
  have hnone := (hbefore e he).2
  rw [available, if_pos hav] at hnone
  cases hnone

/-- Three entries: one that is no camera, the third camera, and the eleventh, for which the second
would be asked. -/
theorem findCamera_discovers_video2 : ∃ n,
    findCamera (asks fun devName => devName == str "/dev/video1" || devName == str "/dev/video2") true
        () (some [str "tty0", str "video2", str "video10"]) = some (n, ()) ∧
      Discovers (fun devName => devName == str "/dev/video1" || devName == str "/dev/video2")
        [str "tty0", str "video2", str "video10"] n := by
  apply findCamera_discovers
  intro before d_name after hsplit hmisread
  have hvideo2 : OneDigit (str "video2") := ⟨50, by decide, by decide⟩
  match before with
  | [] =>
    obtain ⟨rfl, -⟩ := List.cons.inj hsplit
    obtain ⟨-, ⟨hvideo, -⟩ | ⟨hnumbered, -⟩⟩ := hmisread
    · exact absurd hvideo (by decide +kernel)
    · exact absurd hnumbered (by decide +kernel)
  | [e] =>
    obtain ⟨-, hrest⟩ := List.cons.inj hsplit
    obtain ⟨rfl, -⟩ := List.cons.inj hrest
    exact absurd hvideo2 hmisread.1
  | e :: e' :: before =>
    obtain ⟨-, hrest⟩ := List.cons.inj hsplit
    obtain ⟨rfl, -⟩ := List.cons.inj hrest
    exact ⟨str "video2", by simp, hvideo2, by decide +kernel⟩

/-- **The eleventh camera** is not found: the code asks the second one, which is not there. -/
theorem video10_is_not_found :
    findCamera (asks fun devName => devName == str "/dev/video10") true ()
        (some [str "video10"]) = some (-1, ()) ∧
      ¬ Discovers (fun devName => devName == str "/dev/video10") [str "video10"] (-1) := by
  refine ⟨by decide +kernel, ?_⟩
  intro h
  exact absurd (h.found.mpr ⟨str "video10", by simp, by decide +kernel⟩) (by decide)

end EdgeFrame.Capture
