/-
# EdgeFrame.Config.SerialFiles -- the files of serial numbers

At start-up `EnvironmentInit::initDeviceSn` reads two files of tokens such as
`camera_sn=WKA2…`: a loop extracts until the end of the file, and cuts off the first ten
characters of every token with the right prefix. The position 10 lies past the end of a
token that is the prefix and nothing else, and `substr` throws there; for every other
content the loop yields the rest of each such token, in order.

A stream is what is left to read and whether its end has been met, as `eof` reports it: the
last token may or may not have met it, and a round that extracts nothing does. Each round
takes something away (`length_extract_lt`), so that the loop ends for every content, and
`readSns_eq` says what it yields. The two files differ in their key and in what is kept: all
of the serial numbers, or the last one.
-/
import EdgeFrame.Abort
import EdgeFrame.Config.Items
import EdgeFrame.Lib.Tokens

namespace EdgeFrame.Config

open Lib

/-! ## Streams -/

/-- An input stream: what is left to read, and whether its end has been met. -/
structure Stream where
  rest : Bytes
  eof : Bool

/-- `stream >> lineTxt`: a token is complete at white space or at the end of the stream, and only
the latter is noticed. -/
def Stream.extract (f : Stream) : Bytes × Stream :=
  let rest := (f.rest.dropWhile isSpace).dropWhile fun b => !isSpace b
  (token f.rest, { rest, eof := rest.isEmpty })

/-- `std::string::substr`, which throws for a position past the end. -/
def substr (s : Bytes) (pos len : Nat) : Except Abort Bytes :=
  if pos ≤ s.length then .ok ((s.drop pos).take len) else .error .outOfRange

/-- The loop both files are read with; `keep` is what is done with a serial number. -/
def readSns {σ : Type} (key : Bytes) (keep : σ → Bytes → σ) : Nat → Stream → σ → Except Abort σ
  | 0, _, _ => .error .outOfFuel
  | fuel + 1, f, sns =>
    if f.eof then .ok sns
    else
      let (lineTxt, f) := f.extract
      if lineTxt.take 9 = key then do
        let sn ← substr lineTxt 10 (lineTxt.length - 9)
        readSns key keep fuel f (keep sns sn)
      else readSns key keep fuel f sns

/-- `EnvironmentInit::readCameraSnFromFile`. -/
def readCameraSnFromFile (D : Disk) (file : Bytes) : Except Abort (List Bytes) :=
  match D.read file with
  | none => .ok []
  | some content =>
    readSns (str "camera_sn") (fun sn_vec sn => sn_vec ++ [sn]) (content.length + 2)
      ⟨content, false⟩ []

/-- The part of `EnvironmentInit::initDeviceSn` that reads the file `sys_sn`. -/
def readClientSn (D : Disk) (clientSnFile client_sn : Bytes) : Except Abort Bytes :=
  match D.read clientSnFile with
  | none => .ok (str "default")
  | some content =>
    readSns (str "client_sn") (fun _ sn => sn) (content.length + 2) ⟨content, false⟩ client_sn

/-- The global variables that `initDeviceSn` sets. -/
structure Globals where
  client_sn : Bytes
  camera_sns : Bytes
  video_inputs : Bytes
  group_id : Bytes
  company_id : Bytes
  shop_id : Bytes

/-- `gt->video_inputs` after the loop over the devices: the last one that has a serial number. -/
def videoInputs (camera_sn_vec device_name_vec : List Bytes) (video_inputs : Bytes) : Bytes :=
  (List.range device_name_vec.length).foldl
    (fun held i => if camera_sn_vec.length ≥ i + 1 then device_name_vec.getD i [] else held)
    video_inputs

/-- `EnvironmentInit::initDeviceSn`, with the configured system path and video inputs. -/
def initDeviceSn (D : Disk) (sys_path : Bytes) (video_input : List Bytes) (gt : Globals) :
    Except Abort Globals := do
  let client_sn ← readClientSn D (sys_path ++ str "/sys_sn") gt.client_sn
  let camera_sn_vec ← readCameraSnFromFile D (sys_path ++ str "/camera_sn")
  .ok
    { client_sn
      camera_sns := if camera_sn_vec.length > 0 then camera_sn_vec.getD 0 [] else gt.camera_sns
      video_inputs := videoInputs camera_sn_vec video_input gt.video_inputs
      group_id := client_sn
      company_id := client_sn
      shop_id := client_sn }

/-! ## What the files say -/

/-- The serial numbers of a content: for each token that begins with the key, what follows its tenth
character. -/
def serials (key content : Bytes) : List Bytes :=
  ((tokens isSpace content).filter key.isPrefixOf).map (List.drop 10)

/-- What there is to read of a file; nothing, when it does not open. -/
def Disk.contentOf (D : Disk) (file : Bytes) : Bytes := (D.read file).getD []

/-- The client's serial number according to the file: the last one in it, and the one held before if
there is none. -/
def clientSnOf (D : Disk) (clientSnFile client_sn : Bytes) : Bytes :=
  match D.read clientSnFile with
  | none => str "default"
  | some content => (serials (str "client_sn") content).getLastD client_sn

/-- A token that is the key and nothing else: the line was cut off. -/
def CutOff (key content : Bytes) : Prop := key ∈ tokens isSpace content

instance (key content : Bytes) : Decidable (CutOff key content) :=
  inferInstanceAs (Decidable (key ∈ tokens isSpace content))

/-! ## The loop -/

/-- Without a token there are none. -/
theorem tokens_of_token_nil {s : Bytes} (h : token s = []) : tokens isSpace s = [] := by
  have hspace := token_eq_nil_iff.mp h
  rw [← tokens_dropWhile, List.dropWhile_eq_nil_iff.mpr hspace, tokens_nil]

/-- The first token, and those of what it leaves. -/
theorem tokens_of_token_ne_nil {s : Bytes} (h : token s ≠ []) :
    tokens isSpace s = token s ::
      tokens isSpace ((s.dropWhile isSpace).dropWhile fun b => !isSpace b) := by
  have hsplit : s.dropWhile isSpace =
      token s ++ (s.dropWhile isSpace).dropWhile fun b => !isSpace b :=
    (List.takeWhile_append_dropWhile ..).symm
  rw [← tokens_dropWhile, hsplit]
  rw [tokens_append_of_run h (fun b hb => not_isSpace_of_mem_token hb), ← hsplit]
  intro b hb
  have hhead := List.head?_dropWhile_not (fun b => !isSpace b) (s.dropWhile isSpace)
  rw [hb] at hhead
  simpa using hhead

/-- A token takes something away from the stream. -/
theorem length_extract_lt {s : Bytes} (h : token s ≠ []) :
    ((s.dropWhile isSpace).dropWhile fun b => !isSpace b).length < s.length := by
  have hsplit : (token s ++ (s.dropWhile isSpace).dropWhile fun b => !isSpace b) =
      s.dropWhile isSpace := List.takeWhile_append_dropWhile ..
  have hle : (s.dropWhile isSpace).length ≤ s.length := (List.dropWhile_sublist _).length_le
  have hpos := List.length_pos_of_ne_nil h
  have hlen := congrArg List.length hsplit
  rw [List.length_append] at hlen
  omega

/-- One extraction: nothing was left but white space, or there is one token less. -/
theorem extract_cases {f f' : Stream} {t : Bytes} (h : f.extract = (t, f')) :
    (t = [] ∧ tokens isSpace f.rest = [] ∧ f'.rest = []) ∨
      (tokens isSpace f.rest = t :: tokens isSpace f'.rest ∧ f'.rest.length < f.rest.length) := by
  obtain ⟨rfl, rfl⟩ := Prod.mk.inj h
  by_cases ht : token f.rest = []
  · refine Or.inl ⟨ht, tokens_of_token_nil ht, ?_⟩
    simp only [List.dropWhile_eq_nil_iff.mpr (token_eq_nil_iff.mp ht), List.dropWhile_nil]
  · exact Or.inr ⟨tokens_of_token_ne_nil ht, length_extract_lt ht⟩

/-- The end is met where nothing is left. -/
theorem extract_eof {f f' : Stream} {t : Bytes} (h : f.extract = (t, f')) :
    f'.eof = true ↔ f'.rest = [] := by
  obtain ⟨rfl, rfl⟩ := Prod.mk.inj h
  exact List.isEmpty_iff

section

variable {σ : Type} {key : Bytes} (keep : σ → Bytes → σ)

omit σ keep in
/-- One token more: it is skipped, or its rest is a serial number. -/
theorem serials_of_tokens {s rest t : Bytes} (hkey : key.length = 9)
    (hs : tokens isSpace s = t :: tokens isSpace rest) :
    serials key s = if t.take 9 = key then t.drop 10 :: serials key rest else serials key rest := by
  have hbegins : key.isPrefixOf t = true ↔ t.take 9 = key := by
    rw [List.isPrefixOf_iff_prefix, List.prefix_iff_eq_take, hkey, eq_comm]
  rw [serials, hs, List.filter_cons]
  by_cases h : t.take 9 = key
  · rw [if_pos (hbegins.mpr h), if_pos h, List.map_cons]
    rfl
  · rw [if_neg (mt hbegins.mp h), if_neg h]
    rfl

omit σ keep in
/-- A token with the prefix has a tenth position, unless it is the prefix. -/
theorem substr_of_prefix {t : Bytes} (hkey : key.length = 9) (hbegins : t.take 9 = key) :
    substr t 10 (t.length - 9) = if key = t then .error .outOfRange else .ok (t.drop 10) := by
  have htake := congrArg List.length hbegins
  rw [List.length_take, hkey] at htake
  by_cases hlen : 10 ≤ t.length
  · have hne : key ≠ t := by
      intro h
      rw [← h, hkey] at hlen
      omega
    have hall : (t.drop 10).take (t.length - 9) = t.drop 10 := by
      apply List.take_of_length_le
      rw [List.length_drop]
      omega
    rw [substr, if_pos hlen, if_neg hne, hall]
  · have hall : t.take 9 = t := List.take_of_length_le (by omega)
    rw [substr, if_neg hlen, if_pos (hbegins.symm.trans hall)]

/-- One round of the loop. -/
theorem readSns_round (fuel : Nat) {f f' : Stream} {t : Bytes} (sns : σ) (heof : f.eof = false)
    (hextract : f.extract = (t, f')) :
    readSns key keep (fuel + 1) f sns =
      if t.take 9 = key then
        substr t 10 (t.length - 9) >>= fun sn => readSns key keep fuel f' (keep sns sn)
      else readSns key keep fuel f' sns := by
  simp [readSns, heof, hextract]

/-- **The loop** reads a stream to its end, unless one of the tokens is the bare key.

By induction on the fuel: each round extracts a token, or meets the end. -/
theorem readSns_eq (hkey : key.length = 9) :
    ∀ (fuel : Nat) (f : Stream) (sns : σ), (f.eof = true → f.rest = []) →
      f.rest.length + (if f.eof then 1 else 2) ≤ fuel →
      readSns key keep fuel f sns =
        if CutOff key f.rest then .error .outOfRange
        else .ok ((serials key f.rest).foldl keep sns) := by
  intro fuel
  induction fuel with
  | zero =>
    intro f sns _ hfuel
    split at hfuel <;> omega
  | succ fuel ih =>
    intro f sns hend hfuel
    cases heof : f.eof with
    | true => simp [readSns, heof, hend heof, CutOff, serials]
    | false =>
      simp only [heof, Bool.false_eq_true, if_false] at hfuel
      obtain ⟨t, f', hextract⟩ : ∃ t f', f.extract = (t, f') := ⟨_, _, rfl⟩
      have hend' := extract_eof hextract
      rw [readSns_round keep fuel sns heof hextract]
      rcases extract_cases hextract with ⟨ht, htokens, hrest⟩ | ⟨htokens, hlt⟩
      · -- the last round finds no token
        have hskip : t.take 9 ≠ key := by
          rw [ht, List.take_nil]
          intro h
          rw [← h] at hkey
          cases hkey
        rw [if_neg hskip, ih f' sns hend'.mp (by simp [hend'.mpr hrest, hrest]; omega)]
        simp [CutOff, serials, htokens, hrest]
      -- a token was read, and there is less left
      · have hnext := fun sns => ih f' sns hend'.mp (by split <;> omega)
        have hcut : CutOff key f.rest ↔ key = t ∨ CutOff key f'.rest := by
          rw [CutOff, htokens, List.mem_cons, CutOff]
        rw [serials_of_tokens hkey htokens, if_congr hcut rfl rfl]
        by_cases hbegins : t.take 9 = key
        · rw [if_pos hbegins, if_pos hbegins, substr_of_prefix hkey hbegins]
          -- the bare key makes `substr` throw, whatever comes after it
          by_cases hbare : key = t
          · rw [if_pos hbare, if_pos (Or.inl hbare)]
            rfl
          · rw [if_neg hbare]
            simp only [hbare, false_or]
            exact hnext _
        -- a token that is skipped is not the key
        · have hbare : key ≠ t := by
            intro h
            rw [← h, ← hkey, List.take_length] at hbegins
            exact hbegins rfl
          rw [if_neg hbegins, if_neg hbegins, hnext]
          simp only [hbare, false_or]

end

/-! ## The files -/

/-- All serial numbers are kept, in order. -/
theorem foldl_push (sn_vec sns : List Bytes) :
    sns.foldl (fun sn_vec sn => sn_vec ++ [sn]) sn_vec = sn_vec ++ sns := by
  induction sns generalizing sn_vec with
  | nil => rw [List.foldl_nil, List.append_nil]
  | cons sn sns ih => rw [List.foldl_cons, ih, List.append_assoc, List.singleton_append]

/-- The last one is kept. -/
theorem foldl_assign (client_sn : Bytes) (sns : List Bytes) :
    sns.foldl (fun _ sn => sn) client_sn = sns.getLastD client_sn := by
  induction sns generalizing client_sn with
  | nil => rfl
  | cons sn sns ih => rw [List.foldl_cons, ih, List.getLastD_cons]

/-- The file of the cameras. -/
theorem readCameraSnFromFile_eq (D : Disk) (file : Bytes) :
    readCameraSnFromFile D file =
      if CutOff (str "camera_sn") (D.contentOf file) then .error .outOfRange
      else .ok (serials (str "camera_sn") (D.contentOf file)) := by
  unfold readCameraSnFromFile Disk.contentOf
  cases D.read file with
  | none => simp [CutOff, serials]
  | some content =>
    simp only [Option.getD_some]
    rw [readSns_eq _ (by decide +kernel) _ _ _ (by simp) (by simp), foldl_push, List.nil_append]

/-- The file of the client. -/
theorem readClientSn_eq (D : Disk) (clientSnFile client_sn : Bytes) :
    readClientSn D clientSnFile client_sn =
      if CutOff (str "client_sn") (D.contentOf clientSnFile) then .error .outOfRange
      else .ok (clientSnOf D clientSnFile client_sn) := by
  unfold readClientSn Disk.contentOf clientSnOf
  cases D.read clientSnFile with
  | none => simp [CutOff]
  | some content =>
    simp only [Option.getD_some]
    rw [readSns_eq _ (by decide +kernel) _ _ _ (by simp) (by simp), foldl_assign]

/-- A test that throws returns where it does not hold. -/
theorem ite_error_eq_ok_iff {α : Type} {p : Prop} [Decidable p] {e : Abort} {a : α} :
    (if p then .error e else .ok a : Except Abort α) = .ok a ↔ ¬ p := by
  by_cases h : p
  · simp [h]
  · simp [h]

/-- The start-up gets past the serial numbers exactly when neither file has a line cut off. -/
theorem initDeviceSn_returns_iff (D : Disk) (sys_path : Bytes) (video_input : List Bytes)
    (gt : Globals) :
    (∃ gt', initDeviceSn D sys_path video_input gt = .ok gt') ↔
      ¬ CutOff (str "client_sn") (D.contentOf (sys_path ++ str "/sys_sn")) ∧
        ¬ CutOff (str "camera_sn") (D.contentOf (sys_path ++ str "/camera_sn")) := by
  rw [initDeviceSn, readClientSn_eq, readCameraSnFromFile_eq]
  by_cases hclient : CutOff (str "client_sn") (D.contentOf (sys_path ++ str "/sys_sn"))
  · simp [hclient, bind, Except.bind]
  · by_cases hcamera : CutOff (str "camera_sn") (D.contentOf (sys_path ++ str "/camera_sn"))
    · simp [hclient, hcamera, bind, Except.bind]
    · simp [hclient, hcamera, bind, Except.bind]

/-- **The files are read as they should be** exactly when no token is the bare key: for every other
content the loops end without an exception, and yield what follows the tenth character of each token
that begins with the key, in order.

`CutOff` is about the tokens of a content; it is the one way in which a loop fails, by
`readSns_eq`. -/
theorem serials_read_iff (D : Disk) (file client_sn : Bytes) :
    (readCameraSnFromFile D file = .ok (serials (str "camera_sn") (D.contentOf file)) ↔
      str "camera_sn" ∉ tokens isSpace (D.contentOf file)) ∧
    (readClientSn D file client_sn = .ok (clientSnOf D file client_sn) ↔
      str "client_sn" ∉ tokens isSpace (D.contentOf file)) := by
  rw [readCameraSnFromFile_eq, readClientSn_eq]
  exact ⟨ite_error_eq_ok_iff, ite_error_eq_ok_iff⟩

/-- A disk on which every file has this content. -/
def Disk.holding (content : Bytes) : Disk :=
  { content := fun _ => some content, readable := fun _ => true, writable := fun _ => true }

/-- A second line that ends after its key: `substr` throws, and the first line is lost with it. -/
theorem camera_sn_cut_off :
    readCameraSnFromFile (Disk.holding (str "camera_sn=WKA2\ncamera_sn")) [] = .error .outOfRange ∧
      readCameraSnFromFile (Disk.holding (str "camera_sn=WKA2\ncamera_sn")) [] ≠
        .ok (serials (str "camera_sn")
          ((Disk.holding (str "camera_sn=WKA2\ncamera_sn")).contentOf [])) := by
  have hcut : CutOff (str "camera_sn")
      ((Disk.holding (str "camera_sn=WKA2\ncamera_sn")).contentOf []) := by decide +kernel
  rw [readCameraSnFromFile_eq, if_pos hcut]
  exact ⟨rfl, by simp⟩

end EdgeFrame.Config
