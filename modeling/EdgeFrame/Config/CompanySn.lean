/-
# EdgeFrame.Config.CompanySn -- the generated serial number of a camera

`gen_company_sn` makes a camera's serial number from the client's: a prefix for the type
of the device, eleven characters of the source, and four digits of an MD5 sum. Its work
is done in arrays of 4, 2 and 19 bytes. The array for the check sum holds two hexadecimal
digits and not the zero that `sprintf` ends them with, and neither does the array for the
channel: no source that the guard lets through stays inside the arrays.

The function is modelled over buffers with bounds (`Lib.Buffers`), with the sizes of its
arrays as parameters. `genSn_eq` says, for any sizes, where it stays inside and where it leaves
them first; it is put together from one lemma for each block (`putChannel_eq`, `checkSum_eq`,
`putDigest_eq`). At the sizes that are declared the digits of the sum never fit, whatever the
source is. MD5 is a parameter.
-/
import EdgeFrame.Config.Items
import EdgeFrame.Lib.Buffers
import Mathlib

namespace EdgeFrame.Config

open Lib

/-- `WhaleDeviceType`. -/
inductive WhaleDeviceType where
  | kAICamera
  | kNVR
  | kHKCamera
  /-- none of the enumerators: an `enum class` holds any `int` -/
  | other
  deriving DecidableEq, Repr

/-- The arrays that `gen_company_sn` reads and writes. -/
inductive Region where
  | src
  | dst_sn
  | lastbuf
  | ch_buf
  | md5_sn
  deriving DecidableEq, Repr

/-- The sizes of the local arrays. -/
structure Sizes where
  lastbuf : Nat
  ch_buf : Nat
  md5_sn : Nat

/-- `char lastbuf[4]`, `char ch_buf[2]`, `char md5_sn[19]`. -/
def declared : Sizes := { lastbuf := 4, ch_buf := 2, md5_sn := 19 }

/-! ## The C library -/

/-- A digit of `%X`. -/
def hexChar (d : Nat) : UInt8 := UInt8.ofNat (if d < 10 then 48 + d else 55 + d)

/-- `%02X` of an `unsigned int`. -/
def hex02X (n : Nat) : Bytes :=
  let digits := (Nat.digits 16 n).reverse.map hexChar
  List.replicate (2 - digits.length) 48 ++ digits

/-- An `int` where `%X` expects an `unsigned int`. -/
def asUnsigned (n : Int) : Nat := (n % 2 ^ 32).toNat

/-- The value of a `char`, which is signed on some platforms. -/
def charValue (signed : Bool) (b : UInt8) : Int :=
  if signed ∧ 128 ≤ b.toNat then (b.toNat : Int) - 256 else b.toNat

/-- `sprintf` into an array, from an index on: the characters and a zero. -/
def sprintf (region : Region) (buf : Buffer UInt8) (pos : Nat) (text : Bytes) :
    Except (Fault Region) (Buffer UInt8) :=
  store region buf pos (text ++ [0])

/-- What `%s` reads: up to the first zero. -/
def loadStr (region : Region) : Buffer UInt8 → Except (Fault Region) Bytes
  | [] => .error (.outside region)
  | none :: _ => .error (.uninitialised region)
  | some b :: buf =>
    if b = 0 then .ok []
    else do
      let bs ← loadStr region buf
      .ok (b :: bs)

/-- `char buf[n] = {0}`. -/
def zeroed (n : Nat) : Buffer UInt8 := written (List.replicate n 0)

/-! ## gen_company_sn -/

section

variable (sz : Sizes) (signed : Bool) (md5 : Bytes → Fin 16 → UInt8)

/-- The first four characters. -/
def prefixOf (src : Bytes) : WhaleDeviceType → Except (Fault Region) Bytes
  | .kAICamera => .ok (str "WKA2")
  | .kNVR => .ok (str "WVR2")
  | .kHKCamera => .ok (str "WKL0")
  | .other => load .src (written src) 0 4

/-- The channel goes over the last four characters. -/
def putChannel (channel : Int) (dst_sn : Buffer UInt8) : Except (Fault Region) (Buffer UInt8) := do
  let lastbuf ← sprintf .lastbuf (zeroed sz.lastbuf) 0 (str "HK" ++ hex02X (asUnsigned channel))
  let last ← load .lastbuf lastbuf 0 4
  let dst_sn ← store .dst_sn dst_sn 11 last
  let _ ← loadStr .lastbuf lastbuf
  let _ ← loadStr .dst_sn dst_sn
  .ok dst_sn

/-- The block for a camera of type `kHKCamera`. -/
def channelBlock (type : WhaleDeviceType) (channel : Int) (dst_sn : Buffer UInt8) :
    Except (Fault Region) (Buffer UInt8) :=
  if type = .kHKCamera then putChannel sz channel dst_sn else .ok dst_sn

/-- `ch`, the low byte of the sum of the first `len - 4` characters. -/
def checkSum (len : Nat) (dst_sn : Buffer UInt8) : Except (Fault Region) UInt8 := do
  let chars ← load .dst_sn dst_sn 0 (len - 4)
  let total := (chars.map (charValue signed)).sum
  .ok (UInt8.ofNat (total % 256).toNat)

/-- From the check sum on: what is hashed, and the last four digits. -/
def putDigest (len : Nat) (ch : UInt8) (dst_sn : Buffer UInt8) :
    Except (Fault Region) (Buffer UInt8) := do
  let ch_buf ← sprintf .ch_buf (zeroed sz.ch_buf) 0 (hex02X (asUnsigned (charValue signed ch)))
  let head ← load .dst_sn dst_sn 0 (len - 4)
  let md5_sn ← store .md5_sn (unwritten sz.md5_sn) 0 head
  let digits ← load .ch_buf ch_buf 0 2
  let md5_sn ← store .md5_sn md5_sn (len - 4) digits
  let hashed ← load .md5_sn md5_sn 0 (len - 2)
  let md5_out := md5 hashed
  sprintf .dst_sn dst_sn 15 (hex02X (md5_out 14).toNat ++ hex02X (md5_out 15).toNat)

/-- `gen_company_sn` past its guard. -/
def genSn (src : Bytes) (len : Nat) (type : WhaleDeviceType) (channel : Int)
    (dst_sn : Buffer UInt8) : Except (Fault Region) (Buffer UInt8) := do
  let head ← prefixOf src type
  let dst_sn ← store .dst_sn dst_sn 0 head
  let body ← load .src (written src) 4 11
  let dst_sn ← store .dst_sn dst_sn 4 body
  let dst_sn ← channelBlock sz type channel dst_sn
  let ch ← checkSum signed len dst_sn
  putDigest sz signed md5 len ch dst_sn

/-- `gen_company_sn`, with its local arrays of these sizes: what it returns, and the destination. A
missing pointer is `none`. -/
def gen_company_sn_with (src : Option Bytes) (len : Nat) (type : WhaleDeviceType) (channel : Int)
    (dst_sn : Option (Buffer UInt8)) : Except (Fault Region) (Int × Option (Buffer UInt8)) :=
  match src, dst_sn with
  | some src, some dst_sn =>
    if len < 19 then .ok (-1, some dst_sn)
    else do
      let dst_sn ← genSn sz signed md5 src len type channel dst_sn
      .ok (0, some dst_sn)
  | _, dst_sn => .ok (-1, dst_sn)

/-- `gen_company_sn`. -/
def gen_company_sn (src : Option Bytes) (len : Nat) (type : WhaleDeviceType) (channel : Int)
    (dst_sn : Option (Buffer UInt8)) : Except (Fault Region) (Int × Option (Buffer UInt8)) :=
  gen_company_sn_with declared signed md5 src len type channel dst_sn

/-- What `EnvironmentInit::initDeviceSn` makes of the client's serial number where there is no file
of cameras. -/
def generatedCameraSn (client_sn : Bytes) : Except (Fault Region) Bytes := do
  let (_, camera_sn) ← gen_company_sn signed md5 (some client_sn) client_sn.length .kAICamera 0
    (some (zeroed 20))
  loadStr .dst_sn (camera_sn.getD [])

end

/-! ## What is written -/

/-- There are at least two digits. -/
theorem length_hex02X_ge (n : Nat) : 2 ≤ (hex02X n).length := by
  simp only [hex02X, List.length_append, List.length_replicate]
  omega

/-- A byte has two digits. -/
theorem length_hex02X_byte (b : UInt8) : (hex02X b.toNat).length = 2 := by
  have hdigits : (Nat.digits 16 b.toNat).length ≤ 2 := by
    rw [Nat.digits_length_le_iff (by norm_num)]
    exact b.toNat_lt
  simp only [hex02X, List.length_append, List.length_replicate, List.length_map,
    List.length_reverse]
  omega

/-- An array of written characters with a zero among them can be printed. -/
theorem loadStr_written (region : Region) {l : Bytes} (h : 0 ∈ l) :
    ∃ bs, loadStr region (written l) = .ok bs := by
  induction l with
  | nil => cases h
  | cons b l ih =>
    by_cases hb : b = 0
    · exact ⟨[], by simp [written, loadStr, hb]⟩
    · have hl : 0 ∈ l := by
        rcases List.mem_cons.mp h with hz | hl
        · exact absurd hz.symm hb
        · exact hl
      obtain ⟨bs, hbs⟩ := ih hl
      refine ⟨b :: bs, ?_⟩
      rw [written] at hbs
      simp [written, loadStr, hb, hbs, bind, Except.bind]

/-- **Printing** into a zeroed array leaves the text to be read from its start, and a zero behind it,
as long as there is room for both. -/
theorem sprintf_zeroed (region : Region) {n : Nat} {text : Bytes} (h : text.length < n) :
    ∃ held : Bytes, sprintf region (zeroed n) 0 text = .ok (written held) ∧ 0 ∈ held ∧
      ∀ k ≤ text.length, load region (written held) 0 k = .ok (text.take k) := by
  refine ⟨_, store_written region _ _ (by simp; omega), by simp, ?_⟩
  intro k hk
  rw [load_written region _ (by simp; omega), List.drop_zero, List.take_zero, List.nil_append,
    List.append_assoc, List.take_append_of_le_length hk]

/-- A text that has no room for its zero leaves the array. -/
theorem sprintf_outside (region : Region) {n : Nat} {text : Bytes} (h : n < text.length + 1) :
    sprintf region (zeroed n) 0 text = .error (.outside region) := by
  rw [sprintf, zeroed, store_outside _ _ _ _ (Nat.zero_le _) (by simp; omega)]

/-- The characters of the source that are kept as they are. -/
def bodyOf (src : Bytes) : Bytes := (src.drop 4).take 11

/-- The first four characters of the result. -/
def headOf (src : Bytes) : WhaleDeviceType → Bytes
  | .kAICamera => str "WKA2"
  | .kNVR => str "WVR2"
  | .kHKCamera => str "WKL0"
  | .other => src.take 4

/-- The fifteen characters that go before the digits of the sum. -/
def stem (src : Bytes) (type : WhaleDeviceType) (channel : Int) : Bytes :=
  if type = .kHKCamera then
    (headOf src type ++ bodyOf src).take 11 ++ (str "HK" ++ hex02X (asUnsigned channel)).take 4
  else headOf src type ++ bodyOf src

section

variable {src : Bytes} {type : WhaleDeviceType} {channel : Int}

/-- The first four characters, for a source that the guard lets through. -/
theorem prefixOf_eq (hsrc : 19 ≤ src.length) : prefixOf src type = .ok (headOf src type) := by
  cases type with
  | other =>
    have hload := load_written Region.src src (show 0 + 4 ≤ src.length by omega)
    rw [List.drop_zero] at hload
    exact hload
  | kAICamera => rfl
  | kNVR => rfl
  | kHKCamera => rfl

/-- There are four of them. -/
theorem length_headOf (hsrc : 19 ≤ src.length) : (headOf src type).length = 4 := by
  cases type with
  | other =>
    rw [headOf, List.length_take]
    omega
  | kAICamera => exact (by decide +kernel : (str "WKA2").length = 4)
  | kNVR => exact (by decide +kernel : (str "WVR2").length = 4)
  | kHKCamera => exact (by decide +kernel : (str "WKL0").length = 4)

/-- And eleven that are kept. -/
theorem length_bodyOf (hsrc : 19 ≤ src.length) : (bodyOf src).length = 11 := by
  rw [bodyOf, List.length_take, List.length_drop]
  omega

/-- The channel with its letters, as it is printed. -/
def channelText (channel : Int) : Bytes := str "HK" ++ hex02X (asUnsigned channel)

/-- The channel takes two letters and its digits. -/
theorem length_channelText (channel : Int) :
    (channelText channel).length = 2 + (hex02X (asUnsigned channel)).length := by
  rw [channelText, List.length_append]
  rfl

/-- **The channel** needs an array of its letters, its digits and a zero: five bytes at least. -/
theorem putChannel_eq (sz : Sizes) {l : Bytes} (hl : l.length = 20) (hzero : 0 ∈ l.drop 15) :
    putChannel sz channel (written l) =
      if sz.lastbuf < (channelText channel).length + 1 then .error (.outside .lastbuf)
      else .ok (written (l.take 11 ++ (channelText channel).take 4 ++ l.drop 15)) := by
  have htext := length_channelText channel
  have hdigits := length_hex02X_ge (asUnsigned channel)
  rw [putChannel, ← channelText]
  by_cases hsz : sz.lastbuf < (channelText channel).length + 1
  · rw [if_pos hsz, sprintf_outside _ hsz, error_bind]
  · obtain ⟨held, hheld, hend, hload⟩ := sprintf_zeroed Region.lastbuf
      (show (channelText channel).length < sz.lastbuf by omega)
    have hlast : ((channelText channel).take 4).length = 4 := by
      rw [List.length_take]
      omega
    have hstore := store_written Region.dst_sn l ((channelText channel).take 4)
      (show 11 + _ ≤ _ by omega)
    rw [hlast] at hstore
    obtain ⟨_, hprint⟩ := loadStr_written Region.lastbuf hend
    obtain ⟨_, hprint'⟩ := loadStr_written Region.dst_sn
      (List.mem_append_right (l.take 11 ++ (channelText channel).take 4) hzero)
    rw [if_neg hsz, hheld]
    simp only [ok_bind, hload 4 (by omega), hstore, hprint, hprint']

/-- **The check sum** reads as many characters as the source has, less four: they are there as long
as it has no more than 24. -/
theorem checkSum_eq (signed : Bool) (len : Nat) {l : Bytes} (hl : l.length = 20) :
    checkSum signed len (written l) =
      if 24 < len then .error (.outside .dst_sn)
      else .ok (UInt8.ofNat (((l.take (len - 4)).map (charValue signed)).sum % 256).toNat) := by
  rw [checkSum]
  by_cases hlen : 24 < len
  · rw [if_pos hlen, load_outside _ _ _ _ (Nat.zero_le _) (by omega)]
    rfl
  · rw [if_neg hlen, load_written _ _ (by omega), List.drop_zero]
    rfl

/-- The digits of the check sum, as they are printed. -/
def checkText (signed : Bool) (ch : UInt8) : Bytes := hex02X (asUnsigned (charValue signed ch))

/-- Two copies into a fresh array, one behind the other, and what is then read of it. -/
theorem copies_eq (region : Region) (n : Nat) (head digits : Bytes) (hne : digits ≠ []) :
    (do
      let buf ← store region (unwritten n) 0 head
      let buf ← store region buf head.length digits
      load region buf 0 (head.length + digits.length)) =
      if n < head.length + digits.length then .error (.outside region)
      else .ok (head ++ digits) := by
  have hpos := List.length_pos_of_ne_nil hne
  by_cases hhead : n < head.length
  · rw [if_pos (by omega), store_outside _ _ _ _ (Nat.zero_le _) (by simpa using hhead)]
    rfl
  · rw [store_fits _ _ _ _ (by simp; omega), List.take_zero, List.nil_append, Nat.zero_add, ok_bind]
    by_cases hdigits : n < head.length + digits.length
    · rw [if_pos hdigits, store_outside _ _ _ _ (by simp) (by simp; omega), error_bind]
    · have hrest : (written head ++ (unwritten n).drop head.length : Buffer UInt8).take head.length =
          written head := by
        rw [List.take_append_of_le_length (by simp), List.take_of_length_le (by simp)]
      rw [if_neg hdigits, store_fits _ _ _ _ (by simp; omega), hrest, ← written_append, ok_bind]
      rw [load_written_append _ _ _ _ _ (by simp), List.drop_zero, ← List.length_append,
        List.take_length]

/-- **What is hashed**: the copies into `md5_sn`, the second one of what `ch_buf` holds. -/
theorem hashed_eq (n : Nat) (head : Bytes) {digits : Bytes} {ch_buf : Buffer UInt8}
    (hdigits : load Region.ch_buf ch_buf 0 2 = .ok digits) (hlength : digits.length = 2)
    (k : Bytes → Except (Fault Region) (Buffer UInt8)) :
    (do
      let md5_sn ← store Region.md5_sn (unwritten n) 0 head
      let digits ← load Region.ch_buf ch_buf 0 2
      let md5_sn ← store Region.md5_sn md5_sn head.length digits
      let hashed ← load Region.md5_sn md5_sn 0 (head.length + 2)
      k hashed) = if n < head.length + 2 then .error (.outside .md5_sn) else k (head ++ digits) := by
  have hne : digits ≠ [] := by
    intro hnil
    rw [hnil] at hlength
    cases hlength
  have hcopies := congrArg (· >>= k) (copies_eq Region.md5_sn n head digits hne)
  simp only [bind_assoc, hlength] at hcopies
  simp only [hdigits, ok_bind]
  rw [hcopies]
  split
  · exact error_bind _ _
  · exact ok_bind _ _

/-- **The digest** needs an array for the digits of the check sum and a zero, three bytes at least, and
one for all but two of the characters of the source. -/
theorem putDigest_eq (sz : Sizes) (signed : Bool) (md5 : Bytes → Fin 16 → UInt8) {len : Nat}
    (ch : UInt8) {l : Bytes} (hl : l.length = 20) (hlen : 19 ≤ len) (hlen' : len ≤ 24) :
    putDigest sz signed md5 len ch (written l) =
      if sz.ch_buf < (checkText signed ch).length + 1 then .error (.outside .ch_buf)
      else if sz.md5_sn < len - 2 then .error (.outside .md5_sn)
      else
        let md5_out := md5 (l.take (len - 4) ++ (checkText signed ch).take 2)
        .ok (written (l.take 15 ++ (hex02X (md5_out 14).toNat ++ hex02X (md5_out 15).toNat ++ [0]))) := by
  have hdigits := length_hex02X_ge (asUnsigned (charValue signed ch))
  rw [← checkText] at hdigits
  rw [putDigest, ← checkText]
  by_cases hsz : sz.ch_buf < (checkText signed ch).length + 1
  · rw [if_pos hsz, sprintf_outside _ hsz, error_bind]
  -- the check text fits its buffer; `hashed_eq` is the copy into `md5_sn`
  · obtain ⟨held, hheld, -, hload⟩ := sprintf_zeroed Region.ch_buf
      (show (checkText signed ch).length < sz.ch_buf by omega)
    have hhead := load_written Region.dst_sn l (show 0 + (len - 4) ≤ l.length by omega)
    rw [List.drop_zero] at hhead
    have htake : (l.take (len - 4)).length = len - 4 := by
      rw [List.length_take]
      omega
    have hcheck : ((checkText signed ch).take 2).length = 2 := by
      rw [List.length_take]
      omega
    have hhashed := hashed_eq sz.md5_sn (l.take (len - 4)) (hload 2 hdigits) hcheck fun hashed =>
      sprintf .dst_sn (written l) 15
        (hex02X (md5 hashed 14).toNat ++ hex02X (md5 hashed 15).toNat)
    rw [htake, show len - 4 + 2 = len - 2 by omega] at hhashed
    rw [if_neg hsz, hheld, ok_bind, hhead, ok_bind]
    refine hhashed.trans ?_
    by_cases hmd5 : sz.md5_sn < len - 2
    · rw [if_pos hmd5, if_pos hmd5]
    -- the digest's last two bytes are printed behind the first fifteen of the number
    · rw [if_neg hmd5, if_neg hmd5]
      generalize l.take (len - 4) ++ (checkText signed ch).take 2 = hashed
      have hfour : (hex02X (md5 hashed 14).toNat ++ hex02X (md5 hashed 15).toNat).length = 4 := by
        rw [List.length_append, length_hex02X_byte, length_hex02X_byte]
      rw [sprintf, store_written _ _ _ (by simp only [List.length_append, hfour]; simp [hl])]
      rw [List.length_append, hfour, List.drop_of_length_le (by simp [hl]), List.append_nil]

/-- **What the destination holds** before the check sum is taken. -/
theorem stem_written (hsrc : 19 ≤ src.length) :
    ((do
      let dst_sn ← store Region.dst_sn (zeroed 20) 0 (headOf src type)
      store Region.dst_sn dst_sn 4 (bodyOf src)) : Except (Fault Region) (Buffer UInt8)) =
      .ok (written (headOf src type ++ bodyOf src ++ List.replicate 5 0)) := by
  have hhead : (headOf src type).length = 4 := length_headOf hsrc
  have hbody := length_bodyOf hsrc
  rw [zeroed, store_written _ _ _ (by rw [hhead]; simp), List.take_zero, List.nil_append, hhead,
    List.drop_replicate, ok_bind]
  have hfits : 4 + (bodyOf src).length ≤ (headOf src type ++ List.replicate 16 (0 : UInt8)).length := by
    rw [List.length_append, hhead, hbody]
    simp
  rw [store_written _ _ _ hfits, hbody, List.take_append_of_le_length (by omega),
    List.take_of_length_le (by omega), List.drop_append, List.drop_of_length_le (by omega), hhead,
    List.drop_replicate, List.nil_append]

/-- Before the sum there are fifteen characters. -/
theorem length_stem (hsrc : 19 ≤ src.length) : (stem src type channel).length = 15 := by
  have hhead : (headOf src type).length = 4 := length_headOf hsrc
  have hbody := length_bodyOf hsrc
  have htext := length_channelText channel
  have hdigits := length_hex02X_ge (asUnsigned channel)
  rw [stem, ← channelText]
  split
  · rw [List.length_append, List.length_take, List.length_take, List.length_append]
    omega
  · rw [List.length_append]
    omega

/-- What is in the destination when the check sum is taken. -/
def inDestination (src : Bytes) (type : WhaleDeviceType) (channel : Int) : Bytes :=
  stem src type channel ++ List.replicate 5 0

/-- The check sum of it. -/
def checkByte (signed : Bool) (src : Bytes) (type : WhaleDeviceType) (channel : Int) : UInt8 :=
  UInt8.ofNat
    ((((inDestination src type channel).take (src.length - 4)).map (charValue signed)).sum % 256).toNat

/-- **Up to the check sum**: the copies into the destination fit, and the block for the channel is the
first that may not. -/
theorem genSn_copies (sz : Sizes) (signed : Bool) (md5 : Bytes → Fin 16 → UInt8)
    (hsrc : 19 ≤ src.length) :
    genSn sz signed md5 src src.length type channel (zeroed 20) =
      if type = .kHKCamera ∧ sz.lastbuf < (channelText channel).length + 1 then
        .error (.outside .lastbuf)
      else checkSum signed src.length (written (inDestination src type channel)) >>= fun ch =>
        putDigest sz signed md5 src.length ch (written (inDestination src type channel)) := by
  have hbody : load Region.src (written src) 4 11 = .ok (bodyOf src) :=
    load_written _ _ (by omega)
  have hstem := congrArg (· >>= fun dst_sn => channelBlock sz type channel dst_sn >>= fun dst_sn =>
    checkSum signed src.length dst_sn >>= fun ch =>
      putDigest sz signed md5 src.length ch dst_sn) (@stem_written src type hsrc)
  simp only [bind_assoc, ok_bind] at hstem
  rw [genSn, prefixOf_eq hsrc, ok_bind, hbody]
  simp only [ok_bind]
  rw [hstem, channelBlock]
  by_cases htype : type = .kHKCamera
  · have hfifteen : (headOf src type ++ bodyOf src).length = 15 := by
      rw [List.length_append, length_headOf hsrc, length_bodyOf hsrc]
    have hdrop : (headOf src type ++ bodyOf src ++ List.replicate 5 0).drop 15 =
        List.replicate 5 0 := by
      rw [List.drop_append_of_le_length (by omega), List.drop_of_length_le (by omega),
        List.nil_append]
    rw [if_pos htype, putChannel_eq sz (by rw [List.length_append, hfifteen]; simp)
      (by rw [hdrop]; simp), hdrop, List.take_append_of_le_length (by omega)]
    by_cases hlast : sz.lastbuf < (channelText channel).length + 1
    · rw [if_pos hlast, if_pos ⟨htype, hlast⟩, error_bind]
    · rw [if_neg hlast, if_neg (fun h => hlast h.2), inDestination, stem, if_pos htype, ok_bind]
      rfl
  · rw [if_neg htype, if_neg (fun h => htype h.1), inDestination, stem, if_neg htype, ok_bind]

/-- **Where `gen_company_sn` stays inside arrays of these sizes**, and where it leaves them first.

The blocks are gone through in their order, and each either fits or is the first to leave its
array. -/
theorem genSn_eq (sz : Sizes) (signed : Bool) (md5 : Bytes → Fin 16 → UInt8)
    (hsrc : 19 ≤ src.length) :
    genSn sz signed md5 src src.length type channel (zeroed 20) =
      if type = .kHKCamera ∧ sz.lastbuf < (channelText channel).length + 1 then
        .error (.outside .lastbuf)
      else if 24 < src.length then .error (.outside .dst_sn)
      else if sz.ch_buf < (checkText signed (checkByte signed src type channel)).length + 1 then
        .error (.outside .ch_buf)
      else if sz.md5_sn < src.length - 2 then .error (.outside .md5_sn)
      else
        let md5_out := md5 ((inDestination src type channel).take (src.length - 4) ++
          (checkText signed (checkByte signed src type channel)).take 2)
        .ok (written (stem src type channel ++
          (hex02X (md5_out 14).toNat ++ hex02X (md5_out 15).toNat ++ [0]))) := by
  have hstem : (stem src type channel).length = 15 := length_stem hsrc
  have hlen : (inDestination src type channel).length = 20 := by
    rw [inDestination, List.length_append, hstem, List.length_replicate]
  have htake : (inDestination src type channel).take 15 = stem src type channel := by
    rw [inDestination, List.take_append_of_le_length (by omega), List.take_of_length_le (by omega)]
  rw [genSn_copies sz signed md5 hsrc]
  by_cases hlast : type = .kHKCamera ∧ sz.lastbuf < (channelText channel).length + 1
  · rw [if_pos hlast, if_pos hlast]
  · rw [if_neg hlast, if_neg hlast, checkSum_eq signed _ hlen]
    by_cases hlong : 24 < src.length
    · rw [if_pos hlong, if_pos hlong, error_bind]
    · rw [if_neg hlong, if_neg hlong, ← checkByte, ok_bind,
        putDigest_eq sz signed md5 _ hlen hsrc (by omega), htake]

end

/-! ## The arrays as they are declared -/

section

variable (signed : Bool) (md5 : Bytes → Fin 16 → UInt8) (src : Bytes) (type : WhaleDeviceType)
  (channel : Int)

/-- With a source and a destination of 20 bytes, `gen_company_sn` reads only what has been written, and
neither reads nor writes outside the arrays. -/
def StaysInside : Prop :=
  ∃ r, gen_company_sn signed md5 (some src) src.length type channel (some (zeroed 20)) = .ok r

/-- The array that is left first. -/
def firstLeft (type : WhaleDeviceType) (len : Nat) : Region :=
  if type = .kHKCamera then .lastbuf else if 24 < len then .dst_sn else .ch_buf

/-- The digits of the channel do not fit, then the source is too long to be summed up, and then the
digits of the sum do not fit. -/
theorem gen_company_sn_eq :
    gen_company_sn signed md5 (some src) src.length type channel (some (zeroed 20)) =
      if src.length < 19 then .ok (-1, some (zeroed 20))
      else .error (.outside (firstLeft type src.length)) := by
  rw [gen_company_sn, gen_company_sn_with]
  by_cases hlen : src.length < 19
  · rw [if_pos hlen, if_pos hlen]
  · have htext := length_channelText channel
    have hdigits := length_hex02X_ge (asUnsigned channel)
    have hcheck := length_hex02X_ge (asUnsigned (charValue signed (checkByte signed src type channel)))
    rw [← checkText] at hcheck
    have hlastbuf : declared.lastbuf = 4 := rfl
    have hch_buf : declared.ch_buf = 2 := rfl
    rw [if_neg hlen, if_neg hlen, genSn_eq declared signed md5 (by omega)]
    by_cases htype : type = .kHKCamera
    · rw [if_pos ⟨htype, by omega⟩, firstLeft, if_pos htype]
      rfl
    · rw [if_neg (fun h => htype h.1), firstLeft, if_neg htype]
      by_cases hlong : 24 < src.length
      · rw [if_pos hlong, if_pos hlong]
        rfl
      · rw [if_neg hlong, if_neg hlong, if_pos (by omega)]
        rfl

/-- There is no generated serial number: a client's that is long enough runs out of the arrays, and a
shorter one leaves the destination as it was. -/
theorem generatedCameraSn_eq (client_sn : Bytes) :
    generatedCameraSn signed md5 client_sn =
      if client_sn.length < 19 then .ok []
      else .error (.outside (firstLeft .kAICamera client_sn.length)) := by
  rw [generatedCameraSn, gen_company_sn_eq]
  by_cases hlen : client_sn.length < 19
  · rw [if_pos hlen, if_pos hlen]
    rfl
  · rw [if_neg hlen, if_neg hlen]
    rfl

/-- **No source stays inside**: whatever the type of the device, the channel and the digest, every
source that the guard lets through makes `gen_company_sn` leave an array.

It is `gen_company_sn_eq`: each of the three cases leaves an array. -/
theorem gen_company_sn_leaves (hlen : 19 ≤ src.length) :
    ¬ StaysInside signed md5 src type channel := by
  rintro ⟨r, hr⟩
  rw [gen_company_sn_eq, if_neg (by omega)] at hr
  cases hr

end

/-- A recorder, with a source of 21 characters. -/
theorem gen_company_sn_leaves_recorder :
    19 ≤ (str "WVR2000000000001A2B3C4").length ∧
      ¬ StaysInside true (fun _ _ => 0) (str "WVR2000000000001A2B3C4") .kNVR 7 :=
  ⟨by decide +kernel, gen_company_sn_leaves true (fun _ _ => 0) _ .kNVR 7 (by decide +kernel)⟩

/-- The call of `initDeviceSn`, with the shortest source: two digits and a zero are written into
`ch_buf`. -/
theorem camera_sn_leaves_ch_buf :
    19 ≤ (str "0123456789012345678").length ∧
      gen_company_sn true (fun _ _ => 0) (some (str "0123456789012345678")) 19 .kAICamera 0
        (some (zeroed 20)) = .error (.outside .ch_buf) := by
  have hlen : (str "0123456789012345678").length = 19 := by decide +kernel
  have heq := gen_company_sn_eq true (fun _ _ => 0) (str "0123456789012345678") .kAICamera 0
  rw [hlen] at heq
  exact ⟨hlen.ge, heq⟩

end EdgeFrame.Config
