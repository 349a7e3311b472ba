/-
# EdgeFrame.Lib.Buffers -- memory with bounds

A buffer has a size that stays, and cells that may not have been written yet. Every
access is checked: outside the buffer, or on a cell that holds nothing, it is a fault in
the region it was made in. Copies go cell by cell. Indexes are `int`s, checked as well.

A function on buffers returns in `Except`, so that a call that has returned has stayed inside
all of them, and has read nothing that was not written. The lemmas say what is read back
of what was written (`load_written_append`, `store_fits`), and when an access is a fault
(`peek_outside`, `load_outside`, `store_outside`).
-/
import Mathlib

namespace EdgeFrame.Lib

variable {ρ β : Type}

/-- What the language does not define. -/
inductive Fault (ρ : Type) where
  /-- an access outside its region -/
  | outside (region : ρ)
  /-- a read of a cell that has not been written -/
  | uninitialised (region : ρ)
  /-- an `int` out of its range -/
  | overflow
  deriving DecidableEq, Repr

/-- A fixed number of cells. -/
abbrev Buffer (β : Type) := List (Option β)

/-- A sum or product of `int`s that are not negative: it is in range when the whole is. -/
def int32 {ρ : Type} (n : Nat) : Except (Fault ρ) Nat :=
  if n < 2 ^ 31 then .ok n else .error .overflow

/-- A buffer that holds these values. -/
def written (l : List β) : Buffer β := l.map some

/-- A buffer in which nothing has been written. -/
def unwritten (n : Nat) : Buffer β := List.replicate n none

/-- Read one cell. -/
def peek (region : ρ) (buf : Buffer β) (pos : Nat) : Except (Fault ρ) β :=
  match buf[pos]? with
  | none => .error (.outside region)
  | some none => .error (.uninitialised region)
  | some (some b) => .ok b

/-- Write one cell. -/
def poke (region : ρ) (buf : Buffer β) (pos : Nat) (b : β) : Except (Fault ρ) (Buffer β) :=
  if pos < buf.length then .ok (buf.set pos (some b)) else .error (.outside region)

/-- Read `len` cells from `pos` on. -/
def load (region : ρ) (buf : Buffer β) : Nat → Nat → Except (Fault ρ) (List β)
  | _, 0 => .ok []
  | pos, len + 1 => do
    let b ← peek region buf pos
    let bs ← load region buf (pos + 1) len
    .ok (b :: bs)

/-- Write these values from `pos` on. -/
def store (region : ρ) : Buffer β → Nat → List β → Except (Fault ρ) (Buffer β)
  | buf, _, [] => .ok buf
  | buf, pos, b :: bs => do
    let buf ← poke region buf pos b
    store region buf (pos + 1) bs

/-- What a call that has returned goes on with. -/
theorem ok_bind {ε α γ : Type} (a : α) (f : α → Except ε γ) : (Except.ok a >>= f) = f a := rfl

/-- A call that has failed goes on with nothing. -/
theorem error_bind {ε α γ : Type} (e : ε) (f : α → Except ε γ) :
    (Except.error e >>= f) = Except.error e := rfl

/-- It has room for them. -/
@[simp] theorem length_written (l : List β) : (written l).length = l.length := List.length_map _

/-- Its size is what it was made with. -/
@[simp] theorem length_unwritten (n : Nat) : (unwritten n : Buffer β).length = n :=
  List.length_replicate

/-- Two lists, one behind the other. -/
theorem written_append (l l' : List β) : written (l ++ l') = written l ++ written l' :=
  List.map_append

section

variable (region : ρ)

/-! ## Reading -/

/-- A written cell is read back. -/
theorem peek_written {l : List β} (rest : Buffer β) {pos : Nat} {b : β} (h : l[pos]? = some b) :
    peek region (written l ++ rest) pos = .ok b := by
  have hlt := (List.getElem?_eq_some_iff.mp h).1
  rw [peek, List.getElem?_append_left (by simpa using hlt), written, List.getElem?_map, h]
  rfl

/-- A cell past the end is a fault. -/
theorem peek_outside {buf : Buffer β} {pos : Nat} (h : buf.length ≤ pos) :
    peek region buf pos = .error (.outside region) := by
  rw [peek, List.getElem?_eq_none h]

/-- Values that have been written are read back, whatever the cells after them hold. -/
theorem load_written_append (l : List β) (rest : Buffer β) :
    ∀ (len pos : Nat), pos + len ≤ l.length →
      load region (written l ++ rest) pos len = .ok ((l.drop pos).take len) := by
  intro len
  induction len with
  | zero =>
    intro pos _
    rw [load, List.take_zero]
  | succ len ih =>
    intro pos hle
    have hlt : pos < l.length := by omega
    rw [load, peek_written region rest (List.getElem?_eq_getElem hlt), ih (pos + 1) (by omega),
      List.drop_eq_getElem_cons hlt, List.take_succ_cons]
    rfl

/-- A stretch of written cells is read back. -/
theorem load_written (l : List β) {len pos : Nat} (h : pos + len ≤ l.length) :
    load region (written l) pos len = .ok ((l.drop pos).take len) := by
  have hload := load_written_append region l [] len pos h
  rwa [List.append_nil] at hload

/-- Reading on past the end is a fault, whatever was read before. -/
theorem load_outside (l : List β) :
    ∀ (len pos : Nat), pos ≤ l.length → l.length < pos + len →
      load region (written l) pos len = .error (.outside region) := by
  intro len
  induction len with
  | zero =>
    intro pos hle hlt
    omega
  | succ len ih =>
    intro pos hle hlt
    rcases Nat.eq_or_lt_of_le hle with he | hpos
    · rw [load, peek_outside region (by simp [he])]
      rfl
    · have hpeek := peek_written region [] (List.getElem?_eq_getElem hpos)
      rw [List.append_nil] at hpeek
      rw [load, hpeek, ih (pos + 1) hpos (by omega)]
      rfl

/-! ## Writing -/

/-- Values that fit replace what was there, and nothing else. -/
theorem store_fits :
    ∀ (bs : List β) (buf : Buffer β) (pos : Nat), pos + bs.length ≤ buf.length →
      store region buf pos bs = .ok (buf.take pos ++ written bs ++ buf.drop (pos + bs.length)) := by
  intro bs
  induction bs with
  | nil =>
    intro buf pos _
    simp [store, written]
  | cons b bs ih =>
    intro buf pos hle
    rw [List.length_cons] at hle
    have hlt : pos < buf.length := by omega
    have htake : (buf.set pos (some b)).take (pos + 1) = buf.take pos ++ [some b] := by
      rw [List.take_add_one, List.take_set_of_le (Nat.le_refl pos), List.getElem?_set_self hlt]
      rfl
    have hdrop : (buf.set pos (some b)).drop (pos + 1 + bs.length) =
        buf.drop (pos + (b :: bs).length) := by
      rw [List.drop_set_of_lt (by omega), List.length_cons]
      congr 1
      omega
    rw [store, poke, if_pos hlt]
    show store region (buf.set pos (some b)) (pos + 1) bs = _
    rw [ih _ _ (by rw [List.length_set]; omega), htake, hdrop]
    simp [written]

/-- Values that fit into a written buffer. -/
theorem store_written (l bs : List β) {pos : Nat} (h : pos + bs.length ≤ l.length) :
    store region (written l) pos bs =
      .ok (written (l.take pos ++ bs ++ l.drop (pos + bs.length))) := by
  rw [store_fits region bs (written l) pos (by simpa using h)]
  simp [written]

/-- Values that do not fit are a fault. -/
theorem store_outside :
    ∀ (bs : List β) (buf : Buffer β) (pos : Nat), pos ≤ buf.length →
      buf.length < pos + bs.length →
      store region buf pos bs = .error (.outside region) := by
  intro bs
  induction bs with
  | nil =>
    intro buf pos hle hlt
    rw [List.length_nil] at hlt
    omega
  | cons b bs ih =>
    intro buf pos hle hlt
    rw [List.length_cons] at hlt
    rw [store, poke]
    rcases Nat.eq_or_lt_of_le hle with he | hpos
    · rw [if_neg (by omega)]
      rfl
    · rw [if_pos hpos]
      exact ih _ _ (by rw [List.length_set]; exact hpos) (by rw [List.length_set]; omega)

end

end EdgeFrame.Lib
