/-
# EdgeFrame.Lib.Bytes -- byte strings

Strings as the machine has them: lists of bytes, with the classes of the C locale.
`token` is what the extraction operator of a stream reads into a string.
-/
import Mathlib.Data.List.Basic
import Mathlib.Data.List.TakeWhile

namespace EdgeFrame.Lib

abbrev Bytes := List UInt8

/-- The bytes of an ASCII literal. -/
def str (s : String) : Bytes := s.toList.map fun c => UInt8.ofNat c.toNat

/-! ## Numbers -/

def isDigit (b : UInt8) : Bool := 48 ≤ b && b ≤ 57

/-- The number that a string of digits denotes. -/
def decimal (digits : Bytes) : Nat := digits.foldl (fun n d => 10 * n + (d.toNat - 48)) 0

/-! ## Tokens -/

/-- White space: the blank, and the bytes from the tabulator to the carriage return. -/
def isSpace (b : UInt8) : Bool := b = 32 || (9 ≤ b && b ≤ 13)

/-- The first run of bytes that are not white space. -/
def token (s : Bytes) : Bytes := (s.dropWhile isSpace).takeWhile fun b => !isSpace b

/-- A token has no white space. -/
theorem not_isSpace_of_mem_token {s : Bytes} {b : UInt8} (h : b ∈ token s) : isSpace b = false := by
  simpa using List.mem_takeWhile_imp h

/-- A string is its own token exactly when it has no white space. -/
theorem token_eq_self_iff {s : Bytes} : token s = s ↔ ∀ b ∈ s, isSpace b = false := by
  constructor
  · intro h b hb
    rw [← h] at hb
    exact not_isSpace_of_mem_token hb
  · intro h
    have hdrop : s.dropWhile isSpace = s := by
      cases s with
      | nil => rfl
      | cons b s => exact List.dropWhile_cons_of_neg (by simp [h b List.mem_cons_self])
    rw [token, hdrop, List.takeWhile_eq_self_iff]
    simpa using h

/-- White space alone has no token. -/
theorem token_eq_nil_iff {s : Bytes} : token s = [] ↔ ∀ b ∈ s, isSpace b = true := by
  rw [token, ← List.dropWhile_eq_nil_iff]
  constructor
  · intro h
    cases hdrop : s.dropWhile isSpace with
    | nil => rfl
    | cons b rest =>
      have hb : ¬ isSpace b = true := by
        have hhead := List.head?_dropWhile_not isSpace s
        rw [hdrop] at hhead
        simpa using hhead
      rw [hdrop, List.takeWhile_cons_of_pos (by simpa using hb)] at h
      cases h
  · intro h
    rw [h]
    rfl

end EdgeFrame.Lib
