/-
# EdgeFrame.Config.Items -- configuration items in files

`SysPublicTool` keeps single strings in files: `writeConfigItem` inserts a whole string
into a truncated file, `loadConfigItem` extracts a token, and writes its default when
there is no file to read. What comes back is what went in only as long as no string has
white space in it; the reader falls back on its default when the file has nothing else.
-/
import EdgeFrame.Lib.Bytes
import Mathlib

namespace EdgeFrame.Config

open Lib

/-- The files, and which names can be opened. -/
structure Disk where
  content : Bytes → Option Bytes
  readable : Bytes → Bool
  writable : Bytes → Bool

/-- `SysPublicTool::writeConfigItem`; nothing is written when the file does not open. -/
def writeConfigItem (D : Disk) (file item : Bytes) : Disk :=
  if D.writable file then { D with content := Function.update D.content file (some item) } else D

/-- What an `ifstream` finds: nothing when the file is missing or does not open. -/
def Disk.read (D : Disk) (file : Bytes) : Option Bytes :=
  if D.readable file then D.content file else none

/-- `SysPublicTool::loadConfigItem`: the files afterwards, and the item. -/
def loadConfigItem (D : Disk) (file str_default : Bytes) : Disk × Bytes :=
  let (D, config_item) :=
    match D.read file with
    | none => (writeConfigItem D file str_default, str_default)
    | some content => (D, token content)
  (D, if config_item.isEmpty then str_default else config_item)

/-- The items that calls of `loadConfigItem` with these defaults return, one after the other. -/
def loads (file : Bytes) : Disk → List Bytes → List Bytes
  | _, [] => []
  | D, str_default :: defaults =>
    (loadConfigItem D file str_default).2 :: loads file (loadConfigItem D file str_default).1 defaults

/-- What is written to this file is there to be read. -/
def Disk.Keeps (D : Disk) (file : Bytes) : Prop := D.readable file = true ∧ D.writable file = true

/-- No white space. -/
def Solid (s : Bytes) : Prop := ∀ b ∈ s, isSpace b = false

/-- Nothing but white space. -/
def Blank (s : Bytes) : Prop := ∀ b ∈ s, isSpace b = true

instance (s : Bytes) : Decidable (Solid s) :=
  inferInstanceAs (Decidable (∀ b ∈ s, isSpace b = false))

/-! ## One call -/

section

variable {D : Disk} {file : Bytes}

/-- A file that is kept has what was written. -/
theorem read_writeConfigItem (h : D.Keeps file) (item : Bytes) :
    (writeConfigItem D file item).read file = some item := by
  obtain ⟨hread, hwrite⟩ := h
  simp [writeConfigItem, Disk.read, hread, hwrite]

/-- A file that is not kept is not read either, whatever is written. -/
theorem read_writeConfigItem_of_not_keeps (h : ¬ D.Keeps file) (hmissing : D.read file = none)
    (item : Bytes) : (writeConfigItem D file item).read file = none := by
  unfold writeConfigItem
  split
  · rename_i hwrite
    have hread : D.readable file = false := by
      cases hread : D.readable file with
      | false => rfl
      | true => exact absurd ⟨hread, hwrite⟩ h
    simp [Disk.read, hread]
  · exact hmissing

/-- Writing does not change which files are kept. -/
theorem keeps_writeConfigItem (item : Bytes) :
    (writeConfigItem D file item).Keeps file ↔ D.Keeps file := by
  unfold writeConfigItem
  split <;> rfl

/-- Without a file the default is written and returned. -/
theorem loadConfigItem_missing (h : D.read file = none) (str_default : Bytes) :
    loadConfigItem D file str_default = (writeConfigItem D file str_default, str_default) := by
  simp [loadConfigItem, h]

/-- With one, it is its first token, or the default if it has none. -/
theorem loadConfigItem_present {content : Bytes} (h : D.read file = some content)
    (str_default : Bytes) : loadConfigItem D file str_default =
      (D, if token content = [] then str_default else token content) := by
  simp [loadConfigItem, h]

/-- **What is read back**: the string itself if it is solid, or if it is blank and is the default. -/
theorem load_eq_iff {content : Bytes} (hne : content ≠ []) (h : D.read file = some content)
    (str_default : Bytes) : (loadConfigItem D file str_default).2 = content ↔
      Solid content ∨ Blank content ∧ str_default = content := by
  rw [loadConfigItem_present h]
  dsimp only
  by_cases hblank : token content = []
  · have hnotSolid : ¬ Solid content := by
      intro hsolid
      exact hne ((token_eq_self_iff.mpr hsolid).symm.trans hblank)
    rw [if_pos hblank]
    constructor
    · intro heq
      exact Or.inr ⟨token_eq_nil_iff.mp hblank, heq⟩
    · rintro (hsolid | ⟨-, heq⟩)
      · exact absurd hsolid hnotSolid
      · exact heq
  · rw [if_neg hblank, token_eq_self_iff]
    constructor
    · exact Or.inl
    · rintro (hsolid | ⟨hall, -⟩)
      · exact hsolid
      · exact absurd (token_eq_nil_iff.mpr hall) hblank

/-! ## Later calls -/

/-- Calls for a file that is there leave it as it is. -/
theorem loads_present {content : Bytes} (hne : content ≠ []) (h : D.read file = some content) :
    ∀ defaults : List Bytes, (∀ item ∈ loads file D defaults, item = content) ↔
      ∀ e ∈ defaults, Solid content ∨ Blank content ∧ e = content := by
  intro defaults
  induction defaults with
  | nil => simp [loads]
  | cons e defaults ih =>
    have hsame : (loadConfigItem D file e).1 = D := by rw [loadConfigItem_present h]
    rw [loads, hsame, List.forall_mem_cons, List.forall_mem_cons, load_eq_iff hne h, ih]

/-- Calls for a file that is not kept return their defaults. -/
theorem loads_missing (defaults : List Bytes) : ∀ {D : Disk}, ¬ D.Keeps file →
    D.read file = none → loads file D defaults = defaults := by
  induction defaults with
  | nil =>
    intro D _ _
    rfl
  | cons e defaults ih =>
    intro D hkeeps h
    rw [loads, loadConfigItem_missing h, ih (by rwa [keeps_writeConfigItem])
      (read_writeConfigItem_of_not_keeps hkeeps h e)]

end

/-! ## The round trip -/

/-- **When configuration items round-trip.** A string that was written comes back exactly when it has
no white space, or nothing else and is the reader's default. For a file that does not exist, the
first default comes back from every later call exactly when, for each of them, it has no white space
and the file keeps it, or the call brings the same default and the file does not keep it or keeps
nothing but white space.

One reading gives the first token (`load_eq_iff`), and the later calls read what the first one has
left (`loads_present`), or find nothing (`loads_missing`). -/
theorem configItem_roundTrip_iff (D : Disk) (file : Bytes) :
    (D.Keeps file → ∀ item str_default, item ≠ [] →
      ((loadConfigItem (writeConfigItem D file item) file str_default).2 = item ↔
        Solid item ∨ Blank item ∧ str_default = item)) ∧
    (D.content file = none → ∀ d defaults, d ≠ [] →
      ((loadConfigItem D file d).2 = d ∧
          (∀ item ∈ loads file (loadConfigItem D file d).1 defaults, item = d) ↔
        ∀ e ∈ defaults, D.Keeps file ∧ Solid d ∨ e = d ∧ (D.Keeps file → Blank d))) := by
  constructor
  · intro hkeeps item str_default hne
    exact load_eq_iff hne (read_writeConfigItem hkeeps item) str_default
  · intro hnone d defaults hne
    have hmissing : D.read file = none := by simp [Disk.read, hnone]
    rw [loadConfigItem_missing hmissing, and_iff_right rfl]
    by_cases hkeeps : D.Keeps file
    · rw [loads_present hne (read_writeConfigItem hkeeps d)]
      simp [hkeeps, and_comm]
    · rw [loads_missing defaults (by rwa [keeps_writeConfigItem])
        (read_writeConfigItem_of_not_keeps hkeeps hmissing d)]
      simp [hkeeps]

/-- An empty disk. -/
def emptyDisk : Disk := ⟨fun _ => none, fun _ => true, fun _ => true⟩

/-- **A group name with a blank** comes back as its first word, written or as a default. -/
theorem meeting_room_loses_room :
    (loadConfigItem (writeConfigItem emptyDisk (str "group_name") (str "meeting room"))
      (str "group_name") (str "0")).2 = str "meeting" ∧
    loads (str "group_name") emptyDisk [str "meeting room", str "meeting room"] =
      [str "meeting room", str "meeting"] ∧ str "meeting" ≠ str "meeting room" := by
  decide

theorem configItem_roundTrip_iff_group_name :
    (loadConfigItem (writeConfigItem emptyDisk (str "group_name") (str "lobby"))
      (str "group_name") (str "default_device_group")).2 = str "lobby" ∧
    ∀ item ∈ loads (str "group_name")
      (loadConfigItem emptyDisk (str "group_name") (str "default_device_group")).1
      [str "default_device_group", str "0"], item = str "default_device_group" := by
  obtain ⟨hwritten, hmissing⟩ := configItem_roundTrip_iff emptyDisk (str "group_name")
  constructor
  · exact (hwritten ⟨rfl, rfl⟩ (str "lobby") _ (by decide)).mpr (Or.inl (by decide +kernel))
  · refine ((hmissing rfl (str "default_device_group") _ (by decide)).mpr ?_).2
    intro e _
    exact Or.inl ⟨⟨rfl, rfl⟩, by decide +kernel⟩

end EdgeFrame.Config
