/-
# EdgeFrame.Flow.Spill -- what a sequence of `saveCache` calls leaves on disk

The flush loop of `run` and the overflow branch of `SendToFlowServer` hand
messages to `saveCache` one after the other. A completed file is named after the
millisecond of its call and nothing else, so two calls in one millisecond share
a file and the second replaces the first. `saveAll_nothingLost_iff` says that
this, and a completed file of that millisecond already being there, are the only
ways to lose anything.
-/
import EdgeFrame.Flow.CacheDir
import Mathlib

namespace EdgeFrame.Flow

/-! ## Completed files -/

/-- What `resendCache` searches for: `(.*)(flow_failed.dat.over)` in the cache directory. -/
def IsCompleted (cache_path f : String) : Prop :=
  ∃ p, f = cache_path ++ p ++ "flow_failed.dat" ++ getCompletionStamp

theorem isCompleted_completedName (cache_path : String) (t : Int) :
    IsCompleted cache_path (completedName cache_path t) := by
  refine ⟨t.repr ++ "_request_grpc_", ?_⟩
  have hname : "_request_grpc_flow_failed.dat" = "_request_grpc_" ++ "flow_failed.dat" := by decide
  simp only [completedName, cacheName, hname, String.append_assoc]

/-- An unfinished file never counts as a completed one: its name ends in `.dat`. -/
theorem not_isCompleted_cacheName (cache_path : String) (t : Int) :
    ¬ IsCompleted cache_path (cacheName cache_path t) := by
  rintro ⟨p, hp⟩
  have hlast := congrArg (fun s => s.toList.getLast?) hp
  simp [cacheName, getCompletionStamp, List.getLast?_append] at hlast

/-! ## Sequences of saves -/

/-- `saveCache` called once for every clock reading and message, in order. -/
def saveAll (cache_path : String) (calls : List (Int × String)) (d : CacheDir) : CacheDir :=
  calls.foldl (fun d c => saveCache cache_path c.1 c.2 d) d

@[simp] theorem saveAll_nil (cache_path : String) (d : CacheDir) :
    saveAll cache_path [] d = d := rfl

@[simp] theorem saveAll_cons (cache_path : String) (c : Int × String)
    (calls : List (Int × String)) (d : CacheDir) :
    saveAll cache_path (c :: calls) d = saveAll cache_path calls (saveCache cache_path c.1 c.2 d) :=
  rfl

/-- One save leaves every completed file of another millisecond alone. -/
theorem saveCache_completed_of_ne {cache_path f : String} {t : Int} {m : String} {d : CacheDir}
    (hf : IsCompleted cache_path f) (hne : f ≠ completedName cache_path t) :
    (saveCache cache_path t m d).content f = d.content f := by
  have hdat : f ≠ cacheName cache_path t := by
    rintro rfl
    exact not_isCompleted_cacheName cache_path t hf
  rw [saveCache_content, if_neg hne, if_neg hdat]

/-- Completed files whose millisecond no call uses are untouched by the whole sequence. -/
theorem saveAll_completed_of_notMem {cache_path f : String} {calls : List (Int × String)}
    {d : CacheDir} (hf : IsCompleted cache_path f)
    (hne : ∀ c ∈ calls, f ≠ completedName cache_path c.1) :
    (saveAll cache_path calls d).content f = d.content f := by
  induction calls generalizing d with
  | nil => rfl
  | cons c calls ih =>
    rw [saveAll_cons, ih fun c' hc' => hne c' (List.mem_cons_of_mem _ hc')]
    exact saveCache_completed_of_ne hf (hne c List.mem_cons_self)

/-- With a millisecond for every call, each message is found in the file of its call. -/
theorem saveAll_content_of_nodup {cache_path : String} {calls : List (Int × String)}
    (hnd : (calls.map Prod.fst).Nodup) (d : CacheDir) {c : Int × String} (hc : c ∈ calls) :
    (saveAll cache_path calls d).content (completedName cache_path c.1) = some c.2 := by
  induction calls generalizing d with
  | nil => cases hc
  | cons a calls ih =>
    obtain ⟨ha, hnd'⟩ := List.nodup_cons.mp hnd
    rcases List.mem_cons.mp hc with rfl | hc
    · -- later calls use other milliseconds, so they cannot touch this file
      have hlater : ∀ c' ∈ calls, completedName cache_path c.1 ≠ completedName cache_path c'.1 := by
        intro c' hc' h
        exact ha (List.mem_map.mpr ⟨c', hc', (completedName_inj.mp h).symm⟩)
      rw [saveAll_cons, saveAll_completed_of_notMem (isCompleted_completedName _ _) hlater,
        saveCache_content, if_pos rfl]
    · exact ih hnd' _ hc

/-- **Nothing is lost** between the directories `d` (before) and `d'` (after): every saved message
has a completed file of its own that was not there before and holds exactly the message, and the
completed files that were there are intact. -/
structure NothingLost (cache_path : String) (calls : List (Int × String)) (d d' : CacheDir) :
    Prop where
  saved : ∃ file : Fin calls.length → String, Function.Injective file ∧
    ∀ i, IsCompleted cache_path (file i) ∧ d.content (file i) = none ∧
      d'.content (file i) = some (calls.get i).2
  intact : ∀ f c, IsCompleted cache_path f → d.content f = some c → d'.content f = some c

/-- A completed file that appears during the saves is the file of one of the calls. -/
theorem new_completed_mem {cache_path f : String} {calls : List (Int × String)} {d : CacheDir}
    {m : String} (hf : IsCompleted cache_path f) (hnew : d.content f = none)
    (hm : (saveAll cache_path calls d).content f = some m) :
    f ∈ calls.map (fun c => completedName cache_path c.1) := by
  by_contra hmem
  have hne : ∀ c ∈ calls, f ≠ completedName cache_path c.1 := by
    intro c hc h
    exact hmem (List.mem_map.mpr ⟨c, hc, h.symm⟩)
  rw [saveAll_completed_of_notMem hf hne, hnew] at hm
  cases hm

/-- **Exactly when spilling loses nothing**: every call reads a millisecond of its own, and none of
them is the millisecond of a completed file that already exists.

With a millisecond for each call no later call touches the file of an earlier one
(`saveAll_content_of_nodup`). Without, it is a count: new completed files are files of the calls
(`new_completed_mem`), and messages with a file each need as many names as there are calls. -/
theorem saveAll_nothingLost_iff (cache_path : String) (calls : List (Int × String))
    (d : CacheDir) :
    NothingLost cache_path calls d (saveAll cache_path calls d) ↔
      (calls.map Prod.fst).Nodup ∧
        ∀ c ∈ calls, d.content (completedName cache_path c.1) = none := by
  constructor
  · rintro ⟨⟨file, hinj, hfile⟩, -⟩
    -- n messages in pairwise different new files, all of them among the names of the n calls
    set names := calls.map (fun c => completedName cache_path c.1) with hnames
    have himage : Finset.univ.image file ⊆ names.toFinset := by
      intro f hf
      obtain ⟨i, -, rfl⟩ := Finset.mem_image.mp hf
      obtain ⟨hcomp, hnew, hcontent⟩ := hfile i
      exact List.mem_toFinset.mpr (new_completed_mem hcomp hnew hcontent)
    have hcard : (Finset.univ.image file).card = calls.length := by
      rw [Finset.card_image_of_injective _ hinj, Finset.card_univ, Fintype.card_fin]
    have hle : names.toFinset.card ≤ calls.length := by
      simpa [hnames] using names.toFinset_card_le
    have heq : Finset.univ.image file = names.toFinset :=
      Finset.eq_of_subset_of_card_le himage (by rw [hcard]; exact hle)
    constructor
    · have hnodup : names.Nodup := by
        have hlen : names.toFinset.card = (names : Multiset String).card := by
          rw [← heq, hcard, Multiset.coe_card, hnames, List.length_map]
        exact Multiset.coe_nodup.mp (Multiset.toFinset_card_eq_card_iff_nodup.mp hlen)
      rw [hnames] at hnodup
      refine List.Nodup.of_map (fun t => completedName cache_path t) ?_
      rwa [List.map_map]
    · intro c hc
      have hmem : completedName cache_path c.1 ∈ Finset.univ.image file := by
        rw [heq, List.mem_toFinset, hnames]
        exact List.mem_map.mpr ⟨c, hc, rfl⟩
      obtain ⟨i, -, hi⟩ := Finset.mem_image.mp hmem
      rw [← hi]
      exact (hfile i).2.1
  · rintro ⟨hnd, hfree⟩
    refine ⟨⟨fun i => completedName cache_path (calls.get i).1, ?_, ?_⟩, ?_⟩
    · intro i j hij
      have hget : (calls.map Prod.fst).get ⟨i, by simp⟩ = (calls.map Prod.fst).get ⟨j, by simp⟩ := by
        simpa using completedName_inj.mp hij
      have := List.nodup_iff_injective_get.mp hnd hget
      exact Fin.ext (Fin.mk.inj_iff.mp this)
    · intro i
      exact ⟨isCompleted_completedName _ _, hfree _ (List.get_mem _ _),
        saveAll_content_of_nodup hnd d (List.get_mem _ _)⟩
    · intro f c hf hc
      have hne : ∀ a ∈ calls, f ≠ completedName cache_path a.1 := by
        rintro a ha rfl
        rw [hfree a ha] at hc
        cases hc
      rw [saveAll_completed_of_notMem hf hne, hc]

/-- The empty cache directory. -/
def emptyDir : CacheDir := ⟨fun _ => none⟩

/-- **Two messages in one millisecond**: of `"a"` and `"b"`, saved at reading 7, only `"b"` is
left anywhere in the directory. -/
theorem same_millisecond_loses_message :
    ([7, 7] : List Int).Pairwise (· ≤ ·) ∧
      (∀ f, (saveAll "/data/" [(7, "a"), (7, "b")] emptyDir).content f ≠ some "a") ∧
      ¬ NothingLost "/data/" [(7, "a"), (7, "b")] emptyDir
          (saveAll "/data/" [(7, "a"), (7, "b")] emptyDir) := by
  refine ⟨by decide, ?_, ?_⟩
  · intro f
    simp only [saveAll_cons, saveAll_nil, saveCache_content, emptyDir]
    split
    · decide
    · split <;> simp_all
  · rintro ⟨⟨file, hinj, hfile⟩, -⟩
    have hone : ∀ i, file i = completedName "/data/" 7 := by
      intro i
      obtain ⟨hcomp, hnew, hcontent⟩ := hfile i
      simpa using new_completed_mem hcomp hnew hcontent
    have h01 : (0 : Fin 2) = 1 := hinj ((hone 0).trans (hone 1).symm)
    exact absurd h01 (by decide)

end EdgeFrame.Flow
