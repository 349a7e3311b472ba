/-
# EdgeFrame.Flow.Crash -- the cache directory when the process dies at any moment

`saveCache` writes a file under one name and gives it another when it is done;
`resendCache` only looks at files with the second name; and `run` begins by removing
the files with the first. Here each of these is a step of its own, a message may be
written in any number of pieces, any number of threads may be saving, and the process
may die and start again between any two steps: what it was at is forgotten, and the
directory stays.

A clock that gives two saves one millisecond, or a file that cannot be opened, are
the subjects of `Flow.Spill` and `Flow.Resend`, and are left out by hypotheses.
-/
import EdgeFrame.Flow.CacheDir
import EdgeFrame.Lib.Runs
import Mathlib

namespace EdgeFrame.Flow

open EdgeFrame.Lib

/-! ## File names -/

/-- What `.` matches: any byte that does not end a line. -/
def isPoint (c : Char) : Bool := c.toNat < 128 && c != '\n' && c != '\r'

/-- `regex_match` with `(.*)` and a piece of a regular expression, both read from the end on; `none` is
the point of the piece. A character of several bytes is several points, so `(.*)` takes it, and a
single point does not. -/
def endsWith : List (Option Char) → List Char → Bool
  | [], cs => cs.all fun c => c != '\n' && c != '\r'
  | _ :: _, [] => false
  | p :: ps, c :: cs => p.elim (isPoint c) (· == c) && endsWith ps cs

/-- A piece of a regular expression in which only the point is special. -/
def pattern (s : String) : List (Option Char) :=
  s.toList.map fun c => if c = '.' then none else some c

/-- `regex_match` with `(.*)(flow_failed.dat)`. -/
def unfinished (name : String) : Bool :=
  endsWith (pattern "flow_failed.dat").reverse name.toList.reverse

/-- `regex_match` with `(.*)(flow_failed.dat.over)`. -/
def finished (name : String) : Bool :=
  endsWith (pattern ("flow_failed.dat" ++ getCompletionStamp)).reverse name.toList.reverse

/-- The name of an unfinished file, without its directory. -/
def fileName (now : Int) : String := now.repr ++ "_request_grpc_flow_failed.dat"

/-- The name of an unfinished file is in the cache directory. -/
theorem cacheName_eq (cache_path : String) (now : Int) :
    cacheName cache_path now = cache_path ++ fileName now := String.append_assoc ..

/-- And so is that of a finished one. -/
theorem completedName_eq (cache_path : String) (now : Int) :
    completedName cache_path now = cache_path ++ (fileName now ++ getCompletionStamp) := by
  rw [completedName, cacheName_eq, String.append_assoc]

/-- Two milliseconds have two names. -/
theorem fileName_inj {t u : Int} : fileName t = fileName u ↔ t = u := by
  rw [fileName, fileName, String.append_left_inj, Int.repr_inj]

/-- A number is written on one line. -/
theorem repr_oneLine (now : Int) : ∀ c ∈ now.repr.toList, c ≠ '\n' ∧ c ≠ '\r' := by
  have hdigits : ∀ (n : Nat), ∀ c ∈ n.repr.toList, c ≠ '\n' ∧ c ≠ '\r' := by
    intro n c hc
    rw [Nat.repr_eq_ofList_toDigits, String.toList_ofList] at hc
    have hdigit := Nat.isDigit_of_mem_toDigits (by decide) (by decide) hc
    constructor
    · rintro rfl
      exact absurd hdigit (by decide)
    · rintro rfl
      exact absurd hdigit (by decide)
  cases now with
  | ofNat n => exact hdigits n
  | negSucc n =>
    intro c hc
    have hminus : (Int.negSucc n).repr.toList = '-' :: (n + 1).repr.toList :=
      String.toList_append
    rw [hminus] at hc
    obtain rfl | hc := List.mem_cons.mp hc
    · decide
    · exact hdigits (n + 1) c hc

/-- The name that `saveCache` opens is found by the sweep, -/
theorem unfinished_fileName (now : Int) : unfinished (fileName now) = true := by
  have hline := repr_oneLine now
  simpa [unfinished, fileName, pattern, endsWith, isPoint] using hline

/-- and the one that it stamps by `resendCache`. -/
theorem finished_fileName (now : Int) : finished (fileName now ++ getCompletionStamp) = true := by
  have hline := repr_oneLine now
  simpa [finished, fileName, pattern, endsWith, isPoint, getCompletionStamp] using hline

/-- A line break is in no name of the cache, and a point is one byte. -/
example : finished "a\nflow_failed.dat.over" = false ∧ finished "é_flow_failed.dat.over" = true ∧
    finished "flow_failedédat.over" = false := by decide +kernel

/-- The name of an unfinished file ends in `t`, and that of a finished one in `r`. -/
theorem unfinished_not_finished {name : String} (h : unfinished name = true) :
    finished name = false := by
  have ht : (pattern "flow_failed.dat").reverse = some 't' :: (pattern "flow_failed.da").reverse := by
    decide +kernel
  have hr : (pattern ("flow_failed.dat" ++ getCompletionStamp)).reverse =
      some 'r' :: (pattern "flow_failed.dat.ove").reverse := by
    decide +kernel
  rw [unfinished, ht] at h
  rw [finished, hr]
  cases hrev : name.toList.reverse with
  | nil => rfl
  | cons c cs =>
    rw [hrev, endsWith, Bool.and_eq_true] at h
    have hlast : 't' = c := by simpa using h.1
    rw [← hlast]
    rfl

/-! ## Steps -/

/-- What a call of `saveCache` is at: its millisecond, what it has written, and what is left. -/
structure Saving where
  now : Int
  written : String
  rest : String
  deriving DecidableEq, Repr

/-- The directory, and what the threads are at. -/
structure Station where
  dir : CacheDir
  /-- the calls of `saveCache`, by thread -/
  saving : Nat → Option Saving
  /-- `filelist` in `resendCache` -/
  filelist : List String
  /-- the file that has been sent and is to be removed -/
  sent : Option String

/-- The process starts: nothing is under way. -/
def Station.start (dir : CacheDir) : Station := ⟨dir, fun _ => none, [], none⟩

/-- What is done to the directory. -/
inductive Deed where
  /-- thread `i` calls `saveCache`, which opens its file -/
  | open (i : Nat) (now : Int) (data : String)
  /-- a piece of the message gets to the file -/
  | write (i : Nat) (chunk rest : String)
  /-- everything is written: `addCompletionStamp`, and whether the file was there -/
  | stamp (i : Nat) (now : Int) (data : String) (there : Bool)
  /-- `resendCache` lists the finished files, or some of them, each once -/
  | search (names : List String)
  /-- `sendMessage(readFile(..))`: whether the file could be opened, what was read, and the result -/
  | send (name data : String) (opens ret : Bool)
  /-- the file that was sent is removed, if that succeeds -/
  | remove (name : String) (done : Bool)
  /-- `run` removes an unfinished file, if that succeeds -/
  | sweep (name : String) (done : Bool)
  /-- the process dies -/
  | crash
  deriving DecidableEq, Repr

/-- `readFile`: a file that cannot be opened reads as the empty string. -/
def Station.readFile (cache_path : String) (s : Station) (name : String) (opens : Bool) : String :=
  if opens then (s.dir.content (cache_path ++ name)).getD "" else ""

/-- One step, where it can be taken. Nothing is opened or removed that is not there. -/
def Station.step (cache_path : String) (s : Station) : Deed → Option Station
  | .open i now data =>
    if s.saving i = none then
      some { s with
        dir := s.dir.openTrunc (cacheName cache_path now)
        saving := Function.update s.saving i (some ⟨now, "", data⟩) }
    else none
  | .write i chunk rest =>
    match s.saving i with
    | some v =>
      if v.rest = chunk ++ rest then
        some { s with
          dir := s.dir.put (cacheName cache_path v.now) chunk
          saving := Function.update s.saving i (some ⟨v.now, v.written ++ chunk, rest⟩) }
      else none
    | none => none
  | .stamp i now data there =>
    if s.saving i = some ⟨now, data, ""⟩ ∧
        there = (s.dir.content (cacheName cache_path now)).isSome then
      some { s with
        dir := addCompletionStamp (cacheName cache_path now) s.dir
        saving := Function.update s.saving i none }
    else none
  | .search names =>
    if s.filelist = [] ∧ s.sent = none ∧ names.Nodup ∧
        names.all fun name => finished name && (s.dir.content (cache_path ++ name)).isSome then
      some { s with filelist := names }
    else none
  | .send name data opens ret =>
    if s.filelist.head? = some name ∧ s.sent = none ∧
        (opens = true → (s.dir.content (cache_path ++ name)).isSome) ∧
        data = s.readFile cache_path name opens ∧ (data = "" → ret = true) then
      -- the first failure ends the call
      some { s with
        filelist := if ret then s.filelist else []
        sent := if ret then some name else none }
    else none
  | .remove name done =>
    if s.sent = some name ∧ (done = true → (s.dir.content (cache_path ++ name)).isSome) then
      some { s with
        dir := if done then s.dir.remove (cache_path ++ name) else s.dir
        filelist := s.filelist.tail
        sent := none }
    else none
  | .sweep name done =>
    if unfinished name ∧ (done = true → (s.dir.content (cache_path ++ name)).isSome) then
      some { s with dir := if done then s.dir.remove (cache_path ++ name) else s.dir }
    else none
  | .crash => some (.start s.dir)

/-- Some sequence of steps leads from `s` to `s'`. -/
abbrev Station.Steps (cache_path : String) (s : Station) (es : List Deed) (s' : Station) : Prop :=
  Trace (fun s e s' => Station.step cache_path s e = some s') s es s'

/-! ## What the steps do to the files -/

section

variable {cache_path : String} {d : CacheDir}

/-- What a file holds after another one, or itself, has been opened. -/
theorem content_openTrunc (path f : String) :
    (d.openTrunc path).content f = if f = path then some "" else d.content f :=
  Function.update_apply ..

/-- What a file holds after something was written to one. -/
theorem content_put (path data f : String) : (d.put path data).content f =
    if f = path then (d.content path).map (· ++ data) else d.content f :=
  Function.update_apply ..

/-- What a file holds after one was removed. -/
theorem content_remove (path f : String) :
    (d.remove path).content f = if f = path then none else d.content f :=
  Function.update_apply ..

/-- The stamp takes a file that is there to its finished name, and does nothing otherwise. -/
theorem content_addCompletionStamp (now : Int) (f : String) :
    (addCompletionStamp (cacheName cache_path now) d).content f =
      match d.content (cacheName cache_path now) with
      | none => d.content f
      | some c => if f = completedName cache_path now then some c
        else if f = cacheName cache_path now then none else d.content f := by
  unfold addCompletionStamp CacheDir.rename
  cases d.content (cacheName cache_path now) with
  | none => rfl
  | some c =>
    show Function.update (Function.update d.content _ none) _ (some c) f = _
    rw [Function.update_apply, Function.update_apply]
    rfl

/-- A finished file is not the unfinished one of any save. -/
theorem finished_ne_cacheName {name : String} (h : finished name = true) (now : Int) :
    cache_path ++ name ≠ cacheName cache_path now := by
  intro heq
  rw [cacheName_eq, String.append_right_inj] at heq
  rw [heq, unfinished_not_finished (unfinished_fileName now)] at h
  cases h

/-- No file is both. -/
theorem finished_ne_unfinished {name name' : String} (h : finished name = true)
    (h' : unfinished name' = true) : cache_path ++ name ≠ cache_path ++ name' := by
  intro heq
  rw [String.append_right_inj] at heq
  rw [heq, unfinished_not_finished h'] at h
  cases h

/-- Two milliseconds have two files. -/
theorem cacheName_inj {t u : Int} : cacheName cache_path t = cacheName cache_path u ↔ t = u := by
  rw [cacheName_eq, cacheName_eq, String.append_right_inj, fileName_inj]

end

/-! ## One save, undisturbed -/

/-- A save in its course: what has been written is in the file, and the rest is still to come. -/
structure Writing (cache_path : String) (i : Nat) (now : Int) (data : String) (d : CacheDir)
    (s : Station) : Prop where
  saving : ∃ written rest, s.saving i = some ⟨now, written, rest⟩ ∧ written ++ rest = data ∧
    s.dir = ⟨Function.update d.content (cacheName cache_path now) (some written)⟩

theorem Writing.writes {cache_path : String} {i : Nat} {now : Int} {data : String} {d : CacheDir}
    {chunks : List (String × String)} : ∀ {s s' : Station}, Writing cache_path i now data d s →
    s.Steps cache_path (chunks.map fun c => .write i c.1 c.2) s' →
    Writing cache_path i now data d s' := by
  induction chunks with
  | nil =>
    rintro s _ h rfl
    exact h
  | cons c chunks ih =>
    rintro s s'' ⟨written, rest, hsaving, hdata, hdir⟩ ⟨s', hstep, hrest⟩
    refine ih ?_ hrest
    simp only [Station.step, hsaving] at hstep
    split at hstep
    · rename_i hchunk
      cases hstep
      refine ⟨written ++ c.1, c.2, Function.update_self .., ?_, ?_⟩
      · rw [String.append_assoc, ← hchunk, hdata]
      · simp only [hdir, CacheDir.put, Function.update_self, Option.map_some, Function.update_idem]
    · cases hstep

/-- **The pieces do not matter**: a save whose steps follow each other does what `saveCache` does,
however the message gets to the file. -/
theorem Station.Steps.save {cache_path : String} {i : Nat} {now : Int} {data : String}
    {chunks : List (String × String)} {there : Bool} {s s' : Station}
    (h : s.Steps cache_path (.open i now data ::
      ((chunks.map fun c => .write i c.1 c.2) ++ [.stamp i now data there])) s') :
    s'.dir = saveCache cache_path now data s.dir ∧ there = true := by
  obtain ⟨s₁, hopen, h⟩ := h
  obtain ⟨s₂, hwrites, hstamp⟩ := trace_snoc.mp h
  have hwriting : Writing cache_path i now data s.dir s₁ := by
    simp only [Station.step] at hopen
    split at hopen
    · cases hopen
      exact ⟨"", data, Function.update_self .., String.empty_append, rfl⟩
    · cases hopen
  obtain ⟨written, rest, hsaving, hdata, hdir⟩ := hwriting.writes hwrites
  simp only [Station.step, hsaving, Option.some.injEq, Saving.mk.injEq, true_and] at hstamp
  split at hstamp
  · rename_i hguard
    obtain ⟨⟨rfl, rfl⟩, rfl⟩ := hguard
    cases hstamp
    simp [hdir, saveCache, CacheDir.put, CacheDir.openTrunc]
  · cases hstamp

end EdgeFrame.Flow
