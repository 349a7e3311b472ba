/-
# EdgeFrame.Flow.Durable -- a saved message is whole, and is there until it has been sent

Whatever the threads are at when the process dies, a finished file holds the whole
message of one call of `saveCache`: a file gets its finished name only when all of the
message is in it. And a finished file stays until its message has been sent, so that a
message may be sent again after a crash, but is not lost.

`Saves` is what holds of the calls of `saveCache` that are under way, and `Files` what
holds of the finished files. Both are kept by every step of the station, each deed by its
own lemma:

  * a save that is opened or written changes no finished file (`Saves.open`, `Saves.write`,
    `Files.quiet`);
  * a stamp turns the file of a save, which holds all of the message, into a finished file
    (`Saves.stamp`, `Files.stamp`), or finds no file, and then a sweep has removed it;
  * a send reads a finished file, and what it reads is the whole message (`Files.send`);
  * a removal takes the file that has just been sent, or an unfinished one that a start of the
    process found (`Saves.remove`, `Files.remove`).

A crash forgets the saves that are under way and nothing else: their files stay, under names
that no send will take.

What is assumed is `Orderly`: no two saves fall into one millisecond, since the name of a
file is its millisecond, and a file that is sent can be opened. `Flow.Resend` says what
becomes of a file that cannot.
-/
import EdgeFrame.Flow.Crash
import Mathlib

namespace EdgeFrame.Flow

open EdgeFrame.Lib

variable {cache_path : String} {d₀ : CacheDir} {es : List Deed} {e : Deed} {s s' : Station}

/-! ## The assumptions -/

/-- The millisecond of a call of `saveCache`. -/
def Deed.opened : Deed → Option Int
  | .open _ now _ => some now
  | _ => none

/-- Every save has a millisecond of its own, which is not that of a finished file that was there at
the start; and every file that is sent can be opened.

Both are read off the deeds of the run, not off its states, so that the assumption is about the clock
and the disk and about nothing that the code computes. -/
structure Orderly (cache_path : String) (d₀ : CacheDir) (es : List Deed) : Prop where
  apart : (es.filterMap Deed.opened).Nodup
  fresh : ∀ now ∈ es.filterMap Deed.opened, d₀.content (completedName cache_path now) = none
  legible : ∀ name data opens ret, .send name data opens ret ∈ es → opens = true

/-- What is assumed of a run is assumed of each part of it that ends earlier. -/
theorem Orderly.before (h : Orderly cache_path d₀ (es ++ [e])) : Orderly cache_path d₀ es where
  apart := h.apart.sublist ((List.sublist_append_left es [e]).filterMap _)
  fresh := by
    intro now hnow
    refine h.fresh now ?_
    rw [List.filterMap_append]
    exact List.mem_append_left _ hnow
  legible := fun name data opens ret hmem => h.legible name data opens ret (List.mem_append_left _ hmem)

/-- The millisecond of a save that was opened is among those of the run. -/
theorem mem_opened {i : Nat} {now : Int} {data : String} (h : .open i now data ∈ es) :
    now ∈ es.filterMap Deed.opened := List.mem_filterMap.mpr ⟨_, h, rfl⟩

/-- The millisecond of a new save is a new one. -/
theorem Orderly.new {i : Nat} {now : Int} {data : String}
    (h : Orderly cache_path d₀ (es ++ [.open i now data])) : now ∉ es.filterMap Deed.opened := by
  have hapart := h.apart
  rw [List.filterMap_append, List.nodup_append] at hapart
  intro hmem
  exact hapart.2.2 now hmem now (by simp [Deed.opened]) rfl

/-! ## The saves under way -/

/-- What holds of the saves: each is of a message that `saveCache` was called with; no two have one
millisecond; the file of a save holds what it has written, unless `run` has removed it; no save has
been stamped yet; and a stamp failed only where the file had been removed.

The last part is what the exact law needs: a stamp that finds no file tells that the deed `.sweep`
has taken this very file. -/
structure Saves (cache_path : String) (es : List Deed) (s : Station) : Prop where
  opened : ∀ i v, s.saving i = some v → .open i v.now (v.written ++ v.rest) ∈ es
  apart : ∀ i j v w, s.saving i = some v → s.saving j = some w → v.now = w.now → i = j
  temp : ∀ i v, s.saving i = some v →
    s.dir.content (cacheName cache_path v.now) = some v.written ∨
      (s.dir.content (cacheName cache_path v.now) = none ∧ .sweep (fileName v.now) true ∈ es)
  unstamped : ∀ i v, s.saving i = some v → ∀ j data, .stamp j v.now data true ∉ es
  stamped : ∀ i now data there, .stamp i now data there ∈ es → .open i now data ∈ es
  failed : ∀ i now data, .stamp i now data false ∈ es → .sweep (fileName now) true ∈ es

/-- Where nothing is done to the saves or to their files.

This is the case of everything `run` does with finished files, and of a crash, after which no save is
under way. -/
theorem Saves.quiet (h : Saves cache_path es s)
    (hsaving : ∀ i v, s'.saving i = some v → s.saving i = some v)
    (hdir : ∀ i v, s'.saving i = some v →
      s'.dir.content (cacheName cache_path v.now) = s.dir.content (cacheName cache_path v.now) ∨
      (s'.dir.content (cacheName cache_path v.now) = none ∧ .sweep (fileName v.now) true ∈ es ++ [e]))
    (hstamp : ∀ i now data there, e = .stamp i now data there →
      .open i now data ∈ es ∧ (∀ j v, s'.saving j = some v → v.now ≠ now) ∧
        (there = false → .sweep (fileName now) true ∈ es)) :
    Saves cache_path (es ++ [e]) s' where
  opened i v hv := List.mem_append_left _ (h.opened i v (hsaving i v hv))
  apart i j v w hv hw := h.apart i j v w (hsaving i v hv) (hsaving j w hw)
  temp := by
    intro i v hv
    rcases hdir i v hv with hsame | hswept
    · rw [hsame]
      refine (h.temp i v (hsaving i v hv)).imp_right fun hnone => ?_
      exact ⟨hnone.1, List.mem_append_left _ hnone.2⟩
    · exact Or.inr hswept
  unstamped := by
    intro i v hv j data hmem
    rcases List.mem_append.mp hmem with hmem | hmem
    · exact h.unstamped i v (hsaving i v hv) j data hmem
    · exact (hstamp j v.now data true (List.mem_singleton.mp hmem).symm).2.1 i v hv rfl
  stamped := by
    intro i now data there hmem
    rcases List.mem_append.mp hmem with hmem | hmem
    · exact List.mem_append_left _ (h.stamped i now data there hmem)
    · exact List.mem_append_left _
        (hstamp i now data there (List.mem_singleton.mp hmem).symm).1
  failed := by
    intro i now data hmem
    rcases List.mem_append.mp hmem with hmem | hmem
    · exact List.mem_append_left _ (h.failed i now data hmem)
    · exact List.mem_append_left _
        ((hstamp i now data false (List.mem_singleton.mp hmem).symm).2.2 rfl)

/-- Where the save of one thread is replaced. -/
theorem saving_update (saving : Nat → Option Saving) (i : Nat) (x : Saving) (j : Nat) (v : Saving)
    (h : Function.update saving i (some x) j = some v) :
    (j = i ∧ v = x) ∨ (j ≠ i ∧ saving j = some v) := by
  by_cases hij : j = i
  · rw [hij, Function.update_self, Option.some_inj] at h
    exact Or.inl ⟨hij, h.symm⟩
  · rw [Function.update_of_ne hij] at h
    exact Or.inr ⟨hij, h⟩

/-- Where the save of one thread ends. -/
theorem saving_end (saving : Nat → Option Saving) (i j : Nat) (v : Saving)
    (h : Function.update saving i none j = some v) : j ≠ i ∧ saving j = some v := by
  have hij : j ≠ i := by
    rintro rfl
    rw [Function.update_self] at h
    cases h
  rw [Function.update_of_ne hij] at h
  exact ⟨hij, h⟩

/-- A new save. -/
theorem Saves.open (h : Saves cache_path es s) {i : Nat} {now : Int} {data : String}
    (hnew : now ∉ es.filterMap Deed.opened) : Saves cache_path (es ++ [.open i now data])
      { s with
        dir := s.dir.openTrunc (cacheName cache_path now)
        saving := Function.update s.saving i (some ⟨now, "", data⟩) } := by
  -- no other save has this millisecond
  have hother : ∀ j v, s.saving j = some v → v.now ≠ now := by
    rintro j v hv rfl
    exact hnew (mem_opened (h.opened j v hv))
  have hcases := saving_update s.saving i ⟨now, "", data⟩
  constructor
  case opened =>
    intro j v hv
    rcases hcases j v hv with ⟨rfl, rfl⟩ | ⟨-, hv⟩
    · simp
    · exact List.mem_append_left _ (h.opened j v hv)
  case apart =>
    intro j k v w hv hw hvw
    rcases hcases j v hv with ⟨rfl, rfl⟩ | ⟨-, hv'⟩ <;> rcases hcases k w hw with ⟨rfl, rfl⟩ | ⟨-, hw'⟩
    · rfl
    · exact absurd hvw.symm (hother k w hw')
    · exact absurd hvw (hother j v hv')
    · exact h.apart j k v w hv' hw' hvw
  case temp =>
    intro j v hv
    rw [content_openTrunc]
    rcases hcases j v hv with ⟨rfl, rfl⟩ | ⟨-, hv⟩
    · exact Or.inl (if_pos rfl)
    -- another save has another file
    · rw [if_neg fun heq => hother j v hv (cacheName_inj.mp heq)]
      refine (h.temp j v hv).imp_right fun hnone => ?_
      exact ⟨hnone.1, List.mem_append_left _ hnone.2⟩
  case unstamped =>
    intro j v hv k data' hmem
    have hbefore : .stamp k v.now data' true ∈ es := by simpa using hmem
    rcases hcases j v hv with ⟨rfl, rfl⟩ | ⟨-, hv⟩
    -- nobody has stamped a save that has not been opened
    · exact hnew (mem_opened (h.stamped k now data' true hbefore))
    · exact h.unstamped j v hv k data' hbefore
  case stamped =>
    intro j now' data' there hmem
    have hmem : .stamp j now' data' there ∈ es := by simpa using hmem
    exact List.mem_append_left _ (h.stamped j now' data' there hmem)
  case failed =>
    intro j now' data' hmem
    have hmem : .stamp j now' data' false ∈ es := by simpa using hmem
    exact List.mem_append_left _ (h.failed j now' data' hmem)

/-- A piece more of a message. -/
theorem Saves.write (h : Saves cache_path es s) {i : Nat} {v₀ : Saving} {chunk rest : String}
    (hv₀ : s.saving i = some v₀) (hchunk : v₀.rest = chunk ++ rest) :
    Saves cache_path (es ++ [.write i chunk rest])
      { s with
        dir := s.dir.put (cacheName cache_path v₀.now) chunk
        saving := Function.update s.saving i (some ⟨v₀.now, v₀.written ++ chunk, rest⟩) } := by
  have hcases := saving_update s.saving i ⟨v₀.now, v₀.written ++ chunk, rest⟩
  -- the same saves as before, by their milliseconds
  have hnow : ∀ j v, Function.update s.saving i (some ⟨v₀.now, v₀.written ++ chunk, rest⟩) j = some v →
      ∃ w, s.saving j = some w ∧ v.now = w.now := by
    intro j v hv
    rcases hcases j v hv with ⟨rfl, rfl⟩ | ⟨-, hv⟩
    · exact ⟨v₀, hv₀, rfl⟩
    · exact ⟨v, hv, rfl⟩
  constructor
  case opened =>
    intro j v hv
    rcases hcases j v hv with ⟨rfl, rfl⟩ | ⟨-, hv⟩
    · have hmem := h.opened j v₀ hv₀
      rw [hchunk, ← String.append_assoc] at hmem
      exact List.mem_append_left _ hmem
    · exact List.mem_append_left _ (h.opened j v hv)
  case apart =>
    intro j k v w hv hw hvw
    obtain ⟨v', hv', hvnow⟩ := hnow j v hv
    obtain ⟨w', hw', hwnow⟩ := hnow k w hw
    exact h.apart j k v' w' hv' hw' (by rw [← hvnow, ← hwnow, hvw])
  case temp =>
    intro j v hv
    rw [content_put]
    rcases hcases j v hv with ⟨rfl, rfl⟩ | ⟨hji, hv⟩
    · rw [if_pos rfl]
      rcases h.temp j v₀ hv₀ with hsome | ⟨hnone, hswept⟩
      · exact Or.inl (by rw [hsome]; rfl)
      · exact Or.inr ⟨by rw [hnone]; rfl, List.mem_append_left _ hswept⟩
    · rw [if_neg fun heq => hji (h.apart j i v v₀ hv hv₀ (cacheName_inj.mp heq))]
      refine (h.temp j v hv).imp_right fun hnone => ?_
      exact ⟨hnone.1, List.mem_append_left _ hnone.2⟩
  case unstamped =>
    intro j v hv k data hmem
    have hmem : .stamp k v.now data true ∈ es := by simpa using hmem
    obtain ⟨w, hw, hvw⟩ := hnow j v hv
    exact h.unstamped j w hw k data (hvw ▸ hmem)
  case stamped =>
    intro j now data there hmem
    have hmem : .stamp j now data there ∈ es := by simpa using hmem
    exact List.mem_append_left _ (h.stamped j now data there hmem)
  case failed =>
    intro j now data hmem
    have hmem : .stamp j now data false ∈ es := by simpa using hmem
    exact List.mem_append_left _ (h.failed j now data hmem)

/-- A save gets its stamp. -/
theorem Saves.stamp (h : Saves cache_path es s) {i : Nat} {now : Int} {data : String} {there : Bool}
    (hv₀ : s.saving i = some ⟨now, data, ""⟩)
    (hthere : there = (s.dir.content (cacheName cache_path now)).isSome) :
    Saves cache_path (es ++ [.stamp i now data there])
      { s with
        dir := addCompletionStamp (cacheName cache_path now) s.dir
        saving := Function.update s.saving i none } := by
  have hother : ∀ j v, Function.update s.saving i none j = some v →
      s.saving j = some v ∧ v.now ≠ now := by
    intro j v hv
    obtain ⟨hji, hv⟩ := saving_end s.saving i j v hv
    exact ⟨hv, fun hnow => hji (h.apart j i v _ hv hv₀ hnow)⟩
  refine h.quiet (fun j v hv => (hother j v hv).1) (fun j v hv => ?_) ?_
  · obtain ⟨hv, hne⟩ := hother j v hv
    refine Or.inl ?_
    have hcompleted : cacheName cache_path v.now ≠ completedName cache_path now := by
      rw [completedName_eq]
      exact (finished_ne_cacheName (finished_fileName now) v.now).symm
    rw [content_addCompletionStamp]
    cases s.dir.content (cacheName cache_path now) with
    | none => rfl
    | some c =>
      dsimp only
      rw [if_neg hcompleted, if_neg fun heq => hne (cacheName_inj.mp heq)]
  · rintro j now' data' there' hstamp
    obtain ⟨rfl, rfl, rfl, rfl⟩ := Deed.stamp.inj hstamp
    have hopened := h.opened i _ hv₀
    rw [String.append_empty] at hopened
    refine ⟨hopened, fun k v hv => (hother k v hv).2, fun hfalse => ?_⟩
    rcases h.temp i _ hv₀ with hsome | ⟨-, hswept⟩
    · rw [hsome, hfalse] at hthere
      cases hthere
    · exact hswept

/-- A file that is removed is the file of no save, or it has been swept.

The names tell which: an unfinished name is never a finished one, so that the removal after a send
does not touch the file of a save. -/
theorem Saves.remove (h : Saves cache_path es s) {name : String} (hstamp : ∀ i now data there,
      e ≠ .stamp i now data there)
    (hname : finished name = true ∨ e = .sweep name true) {filelist : List String}
    {sent : Option String} : Saves cache_path (es ++ [e])
      { s with dir := s.dir.remove (cache_path ++ name), filelist := filelist, sent := sent } := by
  refine h.quiet (fun j v hv => hv) (fun j v hv => ?_)
    (fun i now data there he => absurd he (hstamp i now data there))
  rw [content_remove]
  split
  · rename_i heq
    rcases hname with hfinished | rfl
    · exact absurd heq.symm (finished_ne_cacheName hfinished v.now)
    · rw [cacheName_eq, String.append_right_inj] at heq
      exact Or.inr ⟨rfl, by simp [heq]⟩
  · exact Or.inl rfl

/-! ## The finished files -/

/-- The message `c` is that of the finished file `name`: it was there at the start, or it has been
stamped. -/
def Saved (cache_path : String) (d₀ : CacheDir) (es : List Deed) (name c : String) : Prop :=
  d₀.content (cache_path ++ name) = some c ∨
    ∃ i now, name = fileName now ++ getCompletionStamp ∧ .stamp i now c true ∈ es

/-- What was saved remains saved: a deed more takes nothing back. -/
theorem Saved.later {name c : String} (h : Saved cache_path d₀ es name c) (e : Deed) :
    Saved cache_path d₀ (es ++ [e]) name c := by
  refine h.imp_right ?_
  rintro ⟨i, now, hname, hmem⟩
  exact ⟨i, now, hname, List.mem_append_left _ hmem⟩

/-- What holds of the finished files: each holds the whole of a message; a message is in its file, or
has been sent; so has the file that is to be removed; and nothing but whole messages has been read.

The second part is the promise that nothing is lost; the third covers the moment between the send and
the removal, at which a crash leaves a file whose message has been sent. -/
structure Files (cache_path : String) (d₀ : CacheDir) (es : List Deed) (s : Station) : Prop where
  whole : ∀ name c, finished name = true → s.dir.content (cache_path ++ name) = some c →
    Saved cache_path d₀ es name c
  kept : ∀ name c, finished name = true → Saved cache_path d₀ es name c →
    s.dir.content (cache_path ++ name) = some c ∨ .send name c true true ∈ es
  sent : ∀ name, s.sent = some name → name ∈ s.filelist ∧
    ∀ c, s.dir.content (cache_path ++ name) = some c → .send name c true true ∈ es
  listed : ∀ name ∈ s.filelist, finished name = true ∧ ∃ c, Saved cache_path d₀ es name c
  read : ∀ name data opens ret, .send name data opens ret ∈ es →
    finished name = true ∧ Saved cache_path d₀ es name data

/-- Where nothing is done to the finished files. -/
theorem Files.quiet (h : Files cache_path d₀ es s)
    (hdir : ∀ name, finished name = true →
      s'.dir.content (cache_path ++ name) = s.dir.content (cache_path ++ name))
    (hstamp : ∀ i now data, e ≠ .stamp i now data true)
    (hsend : ∀ name data opens ret, e ≠ .send name data opens ret)
    (hsent : ∀ name, s'.sent = some name → s.sent = some name ∧ s'.filelist = s.filelist)
    (hlisted : ∀ name ∈ s'.filelist, name ∈ s.filelist ∨
      (finished name = true ∧ (s.dir.content (cache_path ++ name)).isSome = true)) :
    Files cache_path d₀ (es ++ [e]) s' where
  whole name c hname hc := (h.whole name c hname (hdir name hname ▸ hc)).later e
  kept := by
    intro name c hname hsaved
    -- a deed that is no stamp saves no message
    have hbefore : Saved cache_path d₀ es name c := by
      refine hsaved.imp_right ?_
      rintro ⟨i, now, hfile, hmem⟩
      rcases List.mem_append.mp hmem with hmem | hmem
      · exact ⟨i, now, hfile, hmem⟩
      · exact absurd (List.mem_singleton.mp hmem).symm (hstamp i now c)
    rw [hdir name hname]
    exact (h.kept name c hname hbefore).imp_right (List.mem_append_left _)
  sent := by
    intro name hname
    obtain ⟨hsame, hlist⟩ := hsent name hname
    obtain ⟨hmem, hsend⟩ := h.sent name hsame
    refine ⟨hlist ▸ hmem, fun c hc => List.mem_append_left _ (hsend c ?_)⟩
    rw [← hdir name (h.listed name hmem).1]
    exact hc
  listed := by
    intro name hname
    -- what a search lists is a finished file that is there
    rcases hlisted name hname with hmem | ⟨hfinished, hthere⟩
    · obtain ⟨hfinished, c, hsaved⟩ := h.listed name hmem
      exact ⟨hfinished, c, hsaved.later e⟩
    · obtain ⟨c, hc⟩ := Option.isSome_iff_exists.mp hthere
      exact ⟨hfinished, c, (h.whole name c hfinished hc).later e⟩
  read := by
    intro name data opens ret hmem
    rcases List.mem_append.mp hmem with hmem | hmem
    · exact (h.read name data opens ret hmem).imp_right fun hread => hread.later e
    · exact absurd (List.mem_singleton.mp hmem).symm (hsend name data opens ret)

/-- A finished file appears, with the whole message.

The name is a new one by `Orderly.new`, so that no other message is overwritten. -/
theorem Files.stamp (h : Files cache_path d₀ es s) (hsaves : Saves cache_path es s)
    (horderly : Orderly cache_path d₀ es) {i : Nat} {now : Int} {data : String}
    (hv₀ : s.saving i = some ⟨now, data, ""⟩)
    (hthere : (s.dir.content (cacheName cache_path now)).isSome = true) :
    Files cache_path d₀ (es ++ [.stamp i now data true])
      { s with
        dir := addCompletionStamp (cacheName cache_path now) s.dir
        saving := Function.update s.saving i none } := by
  have hopened : .open i now data ∈ es := by
    have hmem := hsaves.opened i _ hv₀
    rw [String.append_empty] at hmem
    exact hmem
  have htemp : s.dir.content (cacheName cache_path now) = some data := by
    rcases hsaves.temp i _ hv₀ with hsome | ⟨hnone, -⟩
    · exact hsome
    · rw [hnone] at hthere
      cases hthere
  -- the finished file is new
  have hnew : ∀ c, ¬ Saved cache_path d₀ es (fileName now ++ getCompletionStamp) c := by
    rintro c (hstart | ⟨j, now', hname, hmem⟩)
    · rw [← completedName_eq, horderly.fresh now (mem_opened hopened)] at hstart
      cases hstart
    · rw [String.append_left_inj, fileName_inj] at hname
      exact hsaves.unstamped i _ hv₀ j c (hname ▸ hmem)
  have hcontent : ∀ name, finished name = true →
      (addCompletionStamp (cacheName cache_path now) s.dir).content (cache_path ++ name) =
        if name = fileName now ++ getCompletionStamp then some data
        else s.dir.content (cache_path ++ name) := by
    intro name hname
    rw [content_addCompletionStamp, htemp]
    dsimp only
    rw [if_neg (finished_ne_cacheName hname now), completedName_eq]
    simp only [String.append_right_inj]
  constructor
  case whole =>
    intro name c hname hc
    rw [hcontent name hname] at hc
    split at hc
    · rename_i heq
      cases hc
      exact Or.inr ⟨i, now, heq, by simp⟩
    · exact (h.whole name c hname hc).later _
  case kept =>
    intro name c hname hsaved
    rw [hcontent name hname]
    by_cases heq : name = fileName now ++ getCompletionStamp
    · rw [if_pos heq]
      rcases hsaved with hstart | ⟨j, now', hfile, hmem⟩
      · exact absurd (Or.inl hstart) (heq ▸ hnew c)
      rcases List.mem_append.mp hmem with hmem | hmem
      · exact absurd (Or.inr ⟨j, now', hfile, hmem⟩) (heq ▸ hnew c)
      · obtain ⟨-, -, rfl, -⟩ := Deed.stamp.inj (List.mem_singleton.mp hmem)
        exact Or.inl rfl
    · rw [if_neg heq]
      refine (h.kept name c hname ?_).imp_right (List.mem_append_left _)
      refine hsaved.imp_right ?_
      rintro ⟨j, now', hfile, hmem⟩
      rcases List.mem_append.mp hmem with hmem | hmem
      · exact ⟨j, now', hfile, hmem⟩
      · obtain ⟨-, rfl, -, -⟩ := Deed.stamp.inj (List.mem_singleton.mp hmem)
        exact absurd hfile heq
  case sent =>
    intro name hname
    obtain ⟨hmem, hsend⟩ := h.sent name hname
    obtain ⟨hfinished, c₀, hsaved⟩ := h.listed name hmem
    refine ⟨hmem, fun c hc => List.mem_append_left _ (hsend c ?_)⟩
    rw [hcontent name hfinished] at hc
    split at hc
    · rename_i heq
      exact absurd hsaved (heq ▸ hnew c₀)
    · exact hc
  case listed =>
    intro name hname
    obtain ⟨hfinished, c, hsaved⟩ := h.listed name hname
    exact ⟨hfinished, c, hsaved.later _⟩
  case read =>
    intro name data' opens ret hmem
    have hmem : .send name data' opens ret ∈ es := by simpa using hmem
    exact (h.read name data' opens ret hmem).imp_right fun hread => hread.later _

/-- A file is read and sent. -/
theorem Files.send (h : Files cache_path d₀ es s) {name data : String} {opens ret : Bool}
    (hopens : opens = true) (hhead : s.filelist.head? = some name)
    (hthere : (s.dir.content (cache_path ++ name)).isSome = true)
    (hdata : data = s.readFile cache_path name opens) :
    Files cache_path d₀ (es ++ [.send name data opens ret])
      { s with
        filelist := if ret then s.filelist else []
        sent := if ret then some name else none } := by
  have hmem : name ∈ s.filelist := List.mem_of_mem_head? hhead
  have hfinished := (h.listed name hmem).1
  rw [Station.readFile, hopens, if_pos rfl] at hdata
  -- no message is saved by sending
  have hlater : ∀ name' c, Saved cache_path d₀ (es ++ [.send name data opens ret]) name' c →
      Saved cache_path d₀ es name' c := by
    rintro name' c (hstart | ⟨i, now, hfile, hstamp⟩)
    · exact Or.inl hstart
    · exact Or.inr ⟨i, now, hfile, by simpa using hstamp⟩
  constructor
  case whole => exact fun name' c hname hc => (h.whole name' c hname hc).later _
  case kept =>
    intro name' c hname hsaved
    -- what is in the directory stays there
    exact (h.kept name' c hname (hlater name' c hsaved)).imp_right (List.mem_append_left _)
  case sent =>
    intro name' hname
    cases ret with
    | false => cases hname
    | true =>
      obtain rfl : name = name' := Option.some_inj.mp hname
      refine ⟨hmem, fun c hc => ?_⟩
      have hc : s.dir.content (cache_path ++ name) = some c := hc
      rw [hc] at hdata
      rw [hopens, show data = c from hdata]
      exact List.mem_append_right _ (List.mem_singleton_self _)
  case listed =>
    intro name' hname
    have hname : name' ∈ s.filelist := by
      cases ret with
      | false => cases hname
      | true => exact hname
    obtain ⟨hfinished', c, hsaved⟩ := h.listed name' hname
    exact ⟨hfinished', c, hsaved.later _⟩
  case read =>
    intro name' data' opens' ret' hmem'
    rcases List.mem_append.mp hmem' with hmem' | hmem'
    · exact (h.read name' data' opens' ret' hmem').imp_right fun hread => hread.later _
    · obtain ⟨rfl, rfl, -, -⟩ := Deed.send.inj (List.mem_singleton.mp hmem')
      -- what has been read is what the file held, which is whole
      obtain ⟨c, hc⟩ := Option.isSome_iff_exists.mp hthere
      rw [hc] at hdata
      rw [show data' = c from hdata]
      exact ⟨hfinished, (h.whole name' c hfinished hc).later _⟩

/-- The file that has been sent is removed, or stays for another time.

A removal that the file system refuses leaves the file as it was, and the message is sent once more
at the next start. -/
theorem Files.remove (h : Files cache_path d₀ es s) {name : String} {done : Bool}
    (hsent : s.sent = some name) : Files cache_path d₀ (es ++ [.remove name done])
      { s with
        dir := if done then s.dir.remove (cache_path ++ name) else s.dir
        filelist := s.filelist.tail
        sent := none } := by
  obtain ⟨-, hsend⟩ := h.sent name hsent
  -- the removal may be refused; otherwise this one file is gone
  have hcontent : ∀ name', (if done then s.dir.remove (cache_path ++ name) else s.dir).content
      (cache_path ++ name') = s.dir.content (cache_path ++ name') ∨
      (name' = name ∧ (if done then s.dir.remove (cache_path ++ name) else s.dir).content
        (cache_path ++ name') = none) := by
    intro name'
    cases done with
    | false => exact Or.inl rfl
    | true =>
      rw [if_pos rfl, content_remove]
      split
      · rename_i heq
        exact Or.inr ⟨(String.append_right_inj _).mp heq, rfl⟩
      · exact Or.inl rfl
  constructor
  case whole =>
    intro name' c hname hc
    rcases hcontent name' with hsame | ⟨-, hnone⟩
    · exact (h.whole name' c hname (hsame ▸ hc)).later _
    · exact absurd (hnone.symm.trans hc) (by simp)
  case kept =>
    intro name' c hname hsaved
    have hbefore : Saved cache_path d₀ es name' c := by
      refine hsaved.imp_right ?_
      rintro ⟨i, now, hfile, hstamp⟩
      exact ⟨i, now, hfile, by simpa using hstamp⟩
    rcases h.kept name' c hname hbefore with hc | hc
    · rcases hcontent name' with hsame | ⟨rfl, -⟩
      · exact Or.inl (hsame.trans hc)
      -- the file that is gone has been sent with what it held
      · exact Or.inr (List.mem_append_left _ (hsend c hc))
    · exact Or.inr (List.mem_append_left _ hc)
  case sent => exact fun name' hname => by cases hname
  case listed =>
    intro name' hname
    obtain ⟨hfinished, c, hsaved⟩ := h.listed name' (List.mem_of_mem_tail hname)
    exact ⟨hfinished, c, hsaved.later _⟩
  case read =>
    intro name' data opens ret hmem
    have hmem : .send name' data opens ret ∈ es := by simpa using hmem
    exact (h.read name' data opens ret hmem).imp_right fun hread => hread.later _

/-! ## Runs -/

/-- **One step** keeps what is known of the saves and of the files.

The cases are those of `Station.step`. A step of a thread that does nothing to a file falls under
`quiet`; a crash ends every save, and the start after it finds the directory as it is. -/
theorem Station.step_keeps (horderly : Orderly cache_path d₀ (es ++ [e]))
    (hsaves : Saves cache_path es s) (hfiles : Files cache_path d₀ es s)
    (hstep : s.step cache_path e = some s') :
    Saves cache_path (es ++ [e]) s' ∧ Files cache_path d₀ (es ++ [e]) s' := by
  cases e with
  | «open» i now data =>
    simp only [Station.step] at hstep
    split at hstep
    · cases hstep
      -- the new file has an unfinished name, so that no finished one is touched
      refine ⟨hsaves.open horderly.new, hfiles.quiet (fun name hname => ?_) (by simp) (by simp)
        (fun name hname => ⟨hname, rfl⟩) (fun name hname => Or.inl hname)⟩
      rw [content_openTrunc, if_neg (finished_ne_cacheName hname now)]
    · cases hstep
  | write i chunk rest =>
    simp only [Station.step] at hstep
    split at hstep
    · rename_i v hv
      split at hstep
      · rename_i hchunk
        cases hstep
        refine ⟨hsaves.write hv hchunk, hfiles.quiet (fun name hname => ?_) (by simp) (by simp)
          (fun name hname => ⟨hname, rfl⟩) (fun name hname => Or.inl hname)⟩
        rw [content_put, if_neg (finished_ne_cacheName hname v.now)]
      · cases hstep
    · cases hstep
  | stamp i now data there =>
    simp only [Station.step] at hstep
    split at hstep
    · rename_i hguard
      obtain ⟨hv, hthere⟩ := hguard
      cases hstep
      refine ⟨hsaves.stamp hv hthere, ?_⟩
      cases there with
      | true => exact hfiles.stamp hsaves horderly.before hv hthere.symm
      -- a stamp that finds no file leaves the directory as it is
      | false =>
        refine hfiles.quiet (fun name hname => ?_) (by simp) (by simp)
          (fun name hname => ⟨hname, rfl⟩) (fun name hname => Or.inl hname)
        have hnone : s.dir.content (cacheName cache_path now) = none :=
          Option.isSome_eq_false_iff.mp hthere.symm |> Option.isNone_iff_eq_none.mp
        rw [content_addCompletionStamp, hnone]
    · cases hstep
  | search names =>
    simp only [Station.step] at hstep
    split at hstep
    · rename_i hguard
      obtain ⟨hnil, hnone, -, hnames⟩ := hguard
      cases hstep
      -- what the listing names is there, and finished
      refine ⟨hsaves.quiet (fun i v hv => hv) (fun i v hv => Or.inl rfl) (by simp),
        hfiles.quiet (fun name hname => rfl) (by simp) (by simp) (fun name hname => ?_)
          (fun name hname => Or.inr ?_)⟩
      · rw [hnone] at hname
        cases hname
      · exact (Bool.and_eq_true _ _).mp (List.all_eq_true.mp hnames name hname)
    · cases hstep
  | send name data opens ret =>
    simp only [Station.step] at hstep
    split at hstep
    · rename_i hguard
      obtain ⟨hhead, -, hthere, hdata, -⟩ := hguard
      cases hstep
      have hopens := horderly.legible name data opens ret (by simp)
      exact ⟨hsaves.quiet (fun i v hv => hv) (fun i v hv => Or.inl rfl) (by simp),
        hfiles.send hopens hhead (hthere hopens) hdata⟩
    · cases hstep
  | remove name done =>
    simp only [Station.step] at hstep
    split at hstep
    · rename_i hguard
      have hsent := hguard.1
      cases hstep
      -- the file that goes has a finished name, and those of the saves have not
      have hfinished := (hfiles.listed name (hfiles.sent name hsent).1).1
      refine ⟨?_, hfiles.remove hsent⟩
      cases done with
      | true => exact hsaves.remove (by simp) (Or.inl hfinished)
      | false => exact hsaves.quiet (fun i v hv => hv) (fun i v hv => Or.inl rfl) (by simp)
    · cases hstep
  | sweep name done =>
    simp only [Station.step] at hstep
    split at hstep
    · rename_i hguard
      have hname := hguard.1
      cases hstep
      cases done with
      | true =>
        -- the file that is swept has an unfinished name; it may be that of a save
        refine ⟨hsaves.remove (by simp) (Or.inr rfl), hfiles.quiet (fun name' hname' => ?_) (by simp)
          (by simp) (fun name hname => ⟨hname, rfl⟩) (fun name hname => Or.inl hname)⟩
        rw [if_pos rfl, content_remove, if_neg (finished_ne_unfinished hname' hname)]
      | false =>
        exact ⟨hsaves.quiet (fun i v hv => hv) (fun i v hv => Or.inl rfl) (by simp),
          hfiles.quiet (fun name' hname' => rfl) (by simp) (by simp)
            (fun name hname => ⟨hname, rfl⟩) (fun name hname => Or.inl hname)⟩
    · cases hstep
  | crash =>
    cases hstep
    -- the threads are gone, and the files are as they were
    exact ⟨hsaves.quiet (fun i v hv => by cases hv) (fun i v hv => by cases hv) (by simp),
      hfiles.quiet (fun name hname => rfl) (by simp) (by simp) (fun name hname => by cases hname)
        (fun name hname => by cases hname)⟩

/-- **Every run** keeps it, by induction on the steps. `Orderly` is handed down with
`Orderly.before`. -/
theorem Station.Steps.keeps (h : (Station.start d₀).Steps cache_path es s)
    (horderly : Orderly cache_path d₀ es) :
    Saves cache_path es s ∧ Files cache_path d₀ es s := by
  revert horderly
  refine Trace.history (H := fun es s => Orderly cache_path d₀ es →
    Saves cache_path es s ∧ Files cache_path d₀ es s) ?_ ?_ h
  · intro _
    constructor
    · constructor <;> simp [Station.start]
    · constructor <;> simp [Station.start, Saved]
  · intro es s e s' _ ih hstep horderly
    obtain ⟨hsaves, hfiles⟩ := ih horderly.before
    exact Station.step_keeps horderly hsaves hfiles hstep

/-- **A saved message is whole and is not lost**, in whatever order the threads take their steps and
however often the process dies and starts again. A finished file holds the whole of a message that
`saveCache` was called with, or what it held at the start; what is read to be sent is a finished file,
and holds the same. A message whose stamp found its file is in the finished file until it has been sent
with success, and so is what was there at the start. A stamp finds no file only where `run` has
removed it at a start.

It rests on the two invariants of this module: `Saves`, that the file of a save holds what it has
written or was swept, and `Files`, that a finished file appears with a whole message and goes only
after it was sent. -/
theorem Station.Steps.durable (h : (Station.start d₀).Steps cache_path es s)
    (horderly : Orderly cache_path d₀ es) :
    (∀ name c, finished name = true → s.dir.content (cache_path ++ name) = some c →
      d₀.content (cache_path ++ name) = some c ∨
        ∃ i now, cache_path ++ name = completedName cache_path now ∧ .open i now c ∈ es) ∧
    (∀ name c opens ret, .send name c opens ret ∈ es → finished name = true ∧
      (d₀.content (cache_path ++ name) = some c ∨
        ∃ i now, cache_path ++ name = completedName cache_path now ∧ .open i now c ∈ es)) ∧
    (∀ name c, finished name = true → d₀.content (cache_path ++ name) = some c →
      s.dir.content (cache_path ++ name) = some c ∨ .send name c true true ∈ es) ∧
    (∀ i now c, .stamp i now c true ∈ es →
      s.dir.content (completedName cache_path now) = some c ∨
        .send (fileName now ++ getCompletionStamp) c true true ∈ es) ∧
    (∀ i now c, .stamp i now c false ∈ es → .sweep (fileName now) true ∈ es) := by
  obtain ⟨hsaves, hfiles⟩ := h.keeps horderly
  have horigin : ∀ name c, Saved cache_path d₀ es name c → d₀.content (cache_path ++ name) = some c ∨
      ∃ i now, cache_path ++ name = completedName cache_path now ∧ .open i now c ∈ es := by
    rintro name c (hstart | ⟨i, now, rfl, hmem⟩)
    · exact Or.inl hstart
    · exact Or.inr ⟨i, now, (completedName_eq cache_path now).symm, hsaves.stamped i now c true hmem⟩
  refine ⟨?_, ?_, ?_, ?_, hsaves.failed⟩
  · exact fun name c hname hc => horigin name c (hfiles.whole name c hname hc)
  · intro name c opens ret hmem
    exact (hfiles.read name c opens ret hmem).imp_right (horigin name c)
  · exact fun name c hname hc => hfiles.kept name c hname (Or.inl hc)
  · intro i now c hstamp
    have hkept := hfiles.kept _ c (finished_fileName now) (Or.inr ⟨i, now, rfl, hstamp⟩)
    rwa [← completedName_eq] at hkept

/-- The process dies in the middle of a save, is started again, saves a message, sends it, and dies
before the file is removed. -/
def twoCrashes : List Deed :=
  [.open 0 5 "lost", .write 0 "lo" "st", .crash, .sweep (fileName 5) true, .open 0 6 "kept",
    .write 0 "ke" "pt", .write 0 "pt" "", .stamp 0 6 "kept" true,
    .search [fileName 6 ++ getCompletionStamp],
    .send (fileName 6 ++ getCompletionStamp) "kept" true true, .crash]

/-- The message is still there, to be sent again. -/
theorem Station.Steps.durable_twoCrashes : ∃ s,
    (Station.start ⟨fun _ => none⟩).Steps "/data/" twoCrashes s ∧
    s.dir.content (completedName "/data/" 6) = some "kept" ∧
    ∃ i now, "/data/" ++ (fileName 6 ++ getCompletionStamp) = completedName "/data/" now ∧
      .open i now "kept" ∈ twoCrashes := by
  obtain ⟨s, hexec, hcheck⟩ : ∃ s, twoCrashes.foldlM (Station.step "/data/")
      (Station.start ⟨fun _ => none⟩) = some s ∧
      decide (s.dir.content (completedName "/data/" 6) = some "kept") = true :=
    (Option.any_eq_true _ _).mp (by decide +kernel)
  have hthere := of_decide_eq_true hcheck
  have horderly : Orderly "/data/" ⟨fun _ => none⟩ twoCrashes := by
    refine ⟨by decide, fun _ _ => rfl, fun name data opens ret hmem => ?_⟩
    simp only [twoCrashes, List.mem_cons, Deed.send.injEq, reduceCtorEq, false_or, List.not_mem_nil,
      or_false] at hmem
    exact hmem.2.2.1
  refine ⟨s, Trace.of_foldlM hexec, hthere, ?_⟩
  rw [completedName_eq] at hthere
  rcases (Station.Steps.durable (Trace.of_foldlM hexec) horderly).1 _ "kept" (finished_fileName 6)
    hthere with hstart | hopened
  · cases hstart
  · exact hopened

end EdgeFrame.Flow
