/-
# EdgeFrame.Flow.Resend -- what resending the cache removes

`resendCache` walks down a directory listing: read a file, post it, remove it, until
a post fails. This module keeps the order in which it posts and removes, as a list of
`Act`s, and settles when a removal is backed by a post of what the file holds.

The call is safe except for one thing it does not tell apart. `readFile` answers an
open error with the empty string and `sendMessage` answers the empty string with
success, so a file that cannot be read (or is empty) is removed without a post.

Safety has three parts (`SafeResend`), and only the first depends on what is in the
directory:

  * every removal comes right after a successful post of the content (`RemovedPosted`);
    it holds exactly for a `Legible` listing (`removedPosted_iff`);
  * the first post that fails is the last act (`resendActs_stops`);
  * that file and all after it are left as they were (`resendActs_leaves`).

Both directions of `removedPosted_iff` go down the listing one pass at a time
(`removedPosted_pass`), from the directory that the passes before have left.
-/
import EdgeFrame.Flow.CacheDir
import Mathlib

namespace EdgeFrame.Flow

/-! ## One pass of the loop -/

variable (env : FlowEnv)

/-- `ret = sendMessage(readFile(path))`. -/
def sendsFile (path : String) (posts : Nat) (d : CacheDir) : Bool :=
  (sendMessage env posts (readFile env posts d path)).1

/-- The number of posts once the file has been sent. -/
def postsAfter (path : String) (posts : Nat) (d : CacheDir) : Nat :=
  (sendMessage env posts (readFile env posts d path)).2

/-- The directory after the `remove` of a pass.

`remove` may be refused by the file system, and the loop does not look at its result. -/
def removeSent (path : String) (posts : Nat) (d : CacheDir) : CacheDir :=
  if env.removes posts path then d.remove path else d

/-- A pass whose send succeeds removes the file, counts, and goes on with the rest of the listing. -/
theorem resendFiles_cons_sent {cache_path f : String} {filelist : List String} {s : Spool}
    (h : sendsFile env (cache_path ++ f) s.posts s.dir = true) :
    resendFiles env cache_path (f :: filelist) s = resendFiles env cache_path filelist
      ⟨removeSent env (cache_path ++ f) s.posts s.dir,
        { s.metrics with
          cv_flow_reupload_success_count_ := s.metrics.cv_flow_reupload_success_count_ + 1 },
        postsAfter env (cache_path ++ f) s.posts s.dir⟩ := by
  rw [sendsFile] at h
  simp only [resendFiles, h, if_true]
  rfl

/-- A pass whose send fails ends the loop, and the directory stays as it is. -/
theorem resendFiles_cons_dir {cache_path f : String} {filelist : List String} {s : Spool}
    (h : sendsFile env (cache_path ++ f) s.posts s.dir = false) :
    (resendFiles env cache_path (f :: filelist) s).dir = s.dir := by
  rw [sendsFile] at h
  simp only [resendFiles, h, Bool.false_eq_true, if_false]

/-! ## The order of posts and removals -/

/-- What `resendCache` does outside itself.

A post carries what was sent and the answer, a removal whether the file system did it. -/
inductive Act where
  /-- `HttpPost` of the `data` read from `path`, and its result -/
  | post (path data : String) (ret : Bool)
  /-- `remove(path)`, and whether it succeeded -/
  | remove (path : String) (done : Bool)
  deriving DecidableEq, Repr

/-- The post of one pass: none for empty data. -/
def postActs (path : String) (posts : Nat) (d : CacheDir) : List Act :=
  let data := readFile env posts d path
  if data.length = 0 then [] else [.post path data (sendsFile env path posts d)]

/-- What the loop of `resendCache` does, in order.

It follows `resendFiles` pass by pass, and `resendFiles_dir` ties the two: the acts are not a second
account that could differ from the first. -/
def resendActs (cache_path : String) : List String → Nat → CacheDir → List Act
  | [], _, _ => []
  | f :: filelist, posts, d =>
    let path := cache_path ++ f
    if sendsFile env path posts d then
      postActs env path posts d ++ .remove path (env.removes posts path) ::
        resendActs cache_path filelist (postsAfter env path posts d) (removeSent env path posts d)
    else postActs env path posts d

/-- The effect of one act on the directory. -/
def Act.apply (d : CacheDir) : Act → CacheDir
  | .post _ _ _ => d
  | .remove path done => if done then d.remove path else d

/-- The directory after some acts. -/
def dirAfter (d : CacheDir) (acts : List Act) : CacheDir :=
  acts.foldl Act.apply d

/-- Acts that are done one after the other. -/
theorem dirAfter_append (d : CacheDir) (acts acts' : List Act) :
    dirAfter d (acts ++ acts') = dirAfter (dirAfter d acts) acts' :=
  List.foldl_append

/-- A post does nothing to the directory. -/
@[simp] theorem dirAfter_postActs (d d' : CacheDir) (path : String) (posts : Nat) :
    dirAfter d (postActs env path posts d') = d := by
  by_cases h : (readFile env posts d' path).length = 0
  · simp [postActs, h, dirAfter]
  · simp [postActs, h, dirAfter, Act.apply]

/-- A pass leaves the directory that the loop goes on with. -/
theorem dirAfter_pass (d : CacheDir) (path : String) (posts : Nat) :
    dirAfter d (postActs env path posts d ++ [.remove path (env.removes posts path)]) =
      removeSent env path posts d := by
  rw [dirAfter_append, dirAfter_postActs]
  rfl

/-- **The acts are what the loop does**: the directory it leaves is the one they make. -/
theorem resendFiles_dir (cache_path : String) : ∀ (filelist : List String) (s : Spool),
    (resendFiles env cache_path filelist s).dir =
      dirAfter s.dir (resendActs env cache_path filelist s.posts s.dir) := by
  intro filelist
  induction filelist with
  | nil =>
    intro s
    exact rfl
  | cons f filelist ih =>
    intro s
    by_cases h : sendsFile env (cache_path ++ f) s.posts s.dir = true
    · rw [resendFiles_cons_sent env h, ih]
      have hpass := dirAfter_pass env s.dir (cache_path ++ f) s.posts
      rw [resendActs, if_pos h, List.append_cons, dirAfter_append, hpass]
    · rw [resendFiles_cons_dir env (by simpa using h), resendActs, if_neg h]
      exact (dirAfter_postActs env s.dir s.dir _ _).symm

/-- What one call of `resendCache` does, in order. -/
def resendCacheActs (cache_path : String) (s : Spool) : List Act :=
  resendActs env cache_path (env.searchFile s.posts s.dir) s.posts s.dir

/-- The acts of a whole call make the directory it leaves. -/
theorem resendCache_dir (cache_path : String) (s : Spool) :
    (resendCache env cache_path s).dir = dirAfter s.dir (resendCacheActs env cache_path s) :=
  resendFiles_dir env cache_path (env.searchFile s.posts s.dir) _

/-! ## Safety and its exact condition -/

/-- Every removal of a file comes right after a successful post of what the file holds.

The data is compared with what the directory holds at that moment, so that a post of the empty string
for a file with content does not count. -/
def RemovedPosted (d : CacheDir) (acts : List Act) : Prop :=
  ∀ before path after, acts = before ++ .remove path true :: after →
    ∀ c, (dirAfter d before).content path = some c →
      ∃ earlier, before = earlier ++ [.post path c true]

/-- **Resending is safe** in the state `s`. -/
structure SafeResend (cache_path : String) (s : Spool) : Prop where
  removed_posted : RemovedPosted s.dir (resendCacheActs env cache_path s)
  /-- a failed post is the last thing the call does -/
  stops : ∀ before path data after,
    resendCacheActs env cache_path s = before ++ .post path data false :: after → after = []
  /-- the file it failed on and all later ones stay as they are -/
  leaves : (env.searchFile s.posts s.dir).Nodup → ∀ before f after,
    env.searchFile s.posts s.dir = before ++ f :: after → ∀ data,
      .post (cache_path ++ f) data false ∈ resendCacheActs env cache_path s →
        ∀ g ∈ f :: after, (resendCache env cache_path s).dir.content (cache_path ++ g) =
          s.dir.content (cache_path ++ g)

/-- Down the listing, as far as the sends succeed: a file that is there and lets itself be removed
can be opened and is not empty.

The condition is about the files, the listing and the answers of the server. It follows the passes,
since only the files before the first failing send are removed. -/
def Legible (cache_path : String) : List String → Nat → CacheDir → Prop
  | [], _, _ => True
  | f :: filelist, posts, d =>
    let path := cache_path ++ f
    (env.removes posts path = true → ∀ c, d.content path = some c →
      env.opens posts path = true ∧ c ≠ "") ∧
    (sendsFile env path posts d = true →
      Legible cache_path filelist (postsAfter env path posts d) (removeSent env path posts d))

/-! ## The posts of a pass -/

/-- No file is removed by the post of a pass. -/
theorem remove_notMem_postActs (path path' : String) (posts : Nat) (d : CacheDir) (done : Bool) :
    Act.remove path' done ∉ postActs env path posts d := by
  by_cases h : (readFile env posts d path).length = 0
  · simp [postActs, h]
  · simp [postActs, h]

/-- Among the acts of a pass the only post is that of the pass, with the data it read. -/
theorem mem_postActs {a : Act} {path : String} {posts : Nat} {d : CacheDir}
    (h : a ∈ postActs env path posts d) :
    a = .post path (readFile env posts d path) (sendsFile env path posts d) := by
  by_cases hlen : (readFile env posts d path).length = 0
  · simp [postActs, hlen] at h
  · simpa [postActs, hlen] using h

/-- A pass whose send succeeded has no failed post. -/
theorem failed_notMem_postActs {path path' data : String} {posts : Nat} {d : CacheDir}
    (hsent : sendsFile env path posts d = true) :
    Act.post path' data false ∉ postActs env path posts d := by
  intro hmem
  obtain ⟨_, _, hret⟩ := Act.post.inj (mem_postActs env hmem)
  rw [hsent] at hret
  exact absurd hret (by decide)

/-- Empty data counts as sent. -/
theorem sendsFile_of_empty {path : String} {posts : Nat} {d : CacheDir}
    (h : (readFile env posts d path).length = 0) : sendsFile env path posts d = true := by
  simp [sendsFile, sendMessage, h]

/-- A file that is there was posted in full exactly when it could be opened and is not empty. -/
theorem posted_full_iff {path c : String} {posts : Nat} {d : CacheDir}
    (hsent : sendsFile env path posts d = true) (hc : d.content path = some c) :
    (∃ earlier, postActs env path posts d = earlier ++ [.post path c true]) ↔
      env.opens posts path = true ∧ c ≠ "" := by
  by_cases hopen : env.opens posts path = true
  · have hread : readFile env posts d path = c := by simp [readFile, hopen, hc]
    by_cases hempty : c = ""
    · simp [postActs, hread, hempty]
    · have hlen : c.length ≠ 0 := fun h => hempty (String.length_eq_zero_iff.mp h)
      simp only [postActs, hread, hlen, if_false, hsent, hopen, hempty, ne_eq, not_false_eq_true,
        and_self, iff_true]
      exact ⟨[], rfl⟩
  · have hread : readFile env posts d path = "" := by simp [readFile, hopen]
    simp [postActs, hread, hopen]

/-! ## Splitting the acts -/

/-- Where `b` can stand in `l ++ a :: r` when it is not in `l`: at `a`, or later. -/
theorem split_after {α : Type} {a b : α} {r after : List α} : ∀ {l before : List α}, b ∉ l →
    l ++ a :: r = before ++ b :: after →
      (before = l ∧ a = b ∧ r = after) ∨
        ∃ more, before = l ++ a :: more ∧ r = more ++ b :: after := by
  intro l
  induction l with
  | nil =>
    intro before _ h
    cases before with
    | nil =>
      obtain ⟨rfl, rfl⟩ := List.cons.inj h
      exact Or.inl ⟨rfl, rfl, rfl⟩
    | cons x before =>
      obtain ⟨rfl, hr⟩ := List.cons.inj h
      exact Or.inr ⟨before, rfl, hr⟩
  | cons x l ih =>
    intro before hb h
    cases before with
    | nil =>
      obtain ⟨rfl, _⟩ := List.cons.inj h
      exact absurd List.mem_cons_self hb
    | cons y before =>
      obtain ⟨rfl, hr⟩ := List.cons.inj h
      rcases ih (fun hmem => hb (List.mem_cons_of_mem _ hmem)) hr with
        ⟨rfl, hab, hr'⟩ | ⟨more, rfl, hr'⟩
      · exact Or.inl ⟨rfl, hab, hr'⟩
      · exact Or.inr ⟨more, rfl, hr'⟩

/-- The acts of a pass that removes nothing are in order. -/
theorem removedPosted_postActs (path : String) (posts : Nat) (d d' : CacheDir) :
    RemovedPosted d (postActs env path posts d') := by
  intro before path' after h
  have hmem : Act.remove path' true ∈ postActs env path posts d' := by
    rw [h]
    exact List.mem_append_right _ List.mem_cons_self
  exact absurd hmem (remove_notMem_postActs env path path' posts d' true)

/-- `RemovedPosted` pass by pass.

A removal stands in the pass or in the rest (`split_after`); in the pass the only post before it is
its own. -/
theorem removedPosted_pass {path : String} {posts : Nat} {d : CacheDir} {rest : List Act} :
    RemovedPosted d (postActs env path posts d ++
        .remove path (env.removes posts path) :: rest) ↔
      (env.removes posts path = true → ∀ c, d.content path = some c →
        ∃ earlier, postActs env path posts d = earlier ++ [.post path c true]) ∧
      RemovedPosted (removeSent env path posts d) rest := by
  have hpass := dirAfter_pass env d path posts
  constructor
  · intro h
    refine ⟨fun hdone c hc => ?_, fun before path' after hrest c hc => ?_⟩
    · rw [hdone] at h
      exact h _ path rest rfl c (by rwa [dirAfter_postActs])
    · have hsplit : (postActs env path posts d ++ Act.remove path (env.removes posts path) :: before)
          ++ Act.remove path' true :: after = postActs env path posts d ++
            Act.remove path (env.removes posts path) :: rest := by
        rw [hrest, List.append_assoc, List.cons_append]
      obtain ⟨earlier, hearlier⟩ := h _ path' after hsplit.symm c (by
        rwa [List.append_cons, dirAfter_append, hpass])
      -- the last act before the removal is a post, so it belongs to a later pass
      rcases List.eq_nil_or_concat' before with rfl | ⟨init, a, rfl⟩
      · exact absurd (List.append_inj' hearlier rfl).2 (by simp)
      · rw [← List.cons_append, ← List.append_assoc] at hearlier
        exact ⟨init, by rw [(List.append_inj' hearlier rfl).2]⟩
  · rintro ⟨hfirst, hrest⟩ before path' after h c hc
    rcases split_after (remove_notMem_postActs env path path' posts d true) h with
      ⟨rfl, hact, _⟩ | ⟨more, rfl, hmore⟩
    · obtain ⟨rfl, hdone⟩ := Act.remove.inj hact
      exact hfirst hdone c (by rwa [dirAfter_postActs] at hc)
    · rw [List.append_cons, dirAfter_append, hpass] at hc
      obtain ⟨earlier, rfl⟩ := hrest more path' after hmore c hc
      exact ⟨postActs env path posts d ++ .remove path (env.removes posts path) :: earlier, by simp⟩

/-- Removals are backed by posts exactly as far as the files are legible.

By induction on the listing, over all directories and numbers of posts: a pass whose send succeeds
hands both on, and one whose send fails ends both. -/
theorem removedPosted_iff (cache_path : String) : ∀ (filelist : List String) (posts : Nat)
    (d : CacheDir), RemovedPosted d (resendActs env cache_path filelist posts d) ↔
      Legible env cache_path filelist posts d := by
  intro filelist
  induction filelist with
  | nil =>
    intro posts d
    refine iff_of_true (fun before path after h => ?_) trivial
    exact absurd h (by simp [resendActs])
  | cons f filelist ih =>
    intro posts d
    by_cases hsent : sendsFile env (cache_path ++ f) posts d = true
    · rw [resendActs, if_pos hsent, removedPosted_pass, ih,
        Legible]
      refine and_congr ?_ ⟨fun h _ => h, fun h => h hsent⟩
      refine forall_congr' fun _ => forall_congr' fun c => forall_congr' fun hc => ?_
      exact posted_full_iff env hsent hc
    · rw [resendActs, if_neg hsent, Legible]
      refine iff_of_true (removedPosted_postActs env _ posts d d) ⟨fun _ c hc => ?_, ?_⟩
      · -- a send that failed was a post of something
        by_contra hbad
        refine hsent (sendsFile_of_empty env ?_)
        by_cases hopen : env.opens posts (cache_path ++ f) = true
        · have hempty : c = "" := by
            by_contra hne
            exact hbad ⟨hopen, hne⟩
          simp [readFile, hopen, hc, hempty]
        · simp [readFile, hopen]
      · exact fun h => absurd h hsent

/-! ## Stopping at the first failure -/

/-- A failed post ends the loop. -/
theorem resendActs_stops (cache_path : String) {path data : String} {after : List Act} :
    ∀ {filelist : List String} {posts : Nat} {d : CacheDir} {before : List Act},
      resendActs env cache_path filelist posts d = before ++ .post path data false :: after →
        after = [] := by
  intro filelist
  induction filelist with
  | nil =>
    intro _ _ _ h
    exact absurd h (by simp [resendActs])
  | cons f filelist ih =>
    intro posts d before h
    by_cases hsent : sendsFile env (cache_path ++ f) posts d = true
    · rw [resendActs, if_pos hsent] at h
      rcases split_after (failed_notMem_postActs env hsent) h with ⟨_, hact, _⟩ | ⟨more, _, hmore⟩
      · exact absurd hact (by simp)
      · exact ih hmore
    · rw [resendActs, if_neg hsent] at h
      by_cases hlen : (readFile env posts d (cache_path ++ f)).length = 0
      · exact absurd h (by simp [postActs, hlen])
      · rw [postActs, if_neg hlen] at h
        rcases List.cons_eq_append_iff.mp h with ⟨_, hcons⟩ | ⟨_, _, hnil⟩
        · exact (List.cons.inj hcons).2
        · exact absurd hnil (by simp)

/-- Only listed files are removed. -/
theorem removeSent_content_of_ne {path other : String} {posts : Nat} {d : CacheDir}
    (h : other ≠ path) : (removeSent env path posts d).content other = d.content other := by
  by_cases hdone : env.removes posts path = true
  · simp [removeSent, hdone, CacheDir.remove, h]
  · simp [removeSent, hdone]

/-- Files with different names have different paths. -/
theorem append_ne {cache_path f g : String} (h : f ≠ g) : cache_path ++ f ≠ cache_path ++ g :=
  fun heq => h ((String.append_right_inj _).mp heq)

/-- A post is of a file of the listing. -/
theorem mem_resendActs_post {cache_path path data : String} {ret : Bool} :
    ∀ {filelist : List String} {posts : Nat} {d : CacheDir},
      Act.post path data ret ∈ resendActs env cache_path filelist posts d →
        ∃ f ∈ filelist, path = cache_path ++ f := by
  intro filelist
  induction filelist with
  | nil =>
    intro _ _ h
    simp [resendActs] at h
  | cons f filelist ih =>
    intro posts d h
    have hpost : Act.post path data ret ∈ postActs env (cache_path ++ f) posts d →
        ∃ g ∈ f :: filelist, path = cache_path ++ g := fun hmem =>
      ⟨f, List.mem_cons_self, (Act.post.inj (mem_postActs env hmem)).1⟩
    by_cases hsent : sendsFile env (cache_path ++ f) posts d = true
    · rw [resendActs, if_pos hsent, List.mem_append, List.mem_cons] at h
      rcases h with h | h | h
      · exact hpost h
      · exact absurd h (by simp)
      · obtain ⟨g, hg, hpath⟩ := ih h
        exact ⟨g, List.mem_cons_of_mem _ hg, hpath⟩
    · rw [resendActs, if_neg hsent] at h
      exact hpost h

/-- **The file a post failed on and all later ones stay** as they were when the call began. -/
theorem resendActs_leaves (cache_path : String) {f data : String} {after : List String} :
    ∀ {before : List String} {posts : Nat} {d : CacheDir}, (before ++ f :: after).Nodup →
      .post (cache_path ++ f) data false ∈
        resendActs env cache_path (before ++ f :: after) posts d →
      ∀ g ∈ f :: after,
        (dirAfter d (resendActs env cache_path (before ++ f :: after) posts d)).content
          (cache_path ++ g) = d.content (cache_path ++ g) := by
  intro before
  induction before with
  | nil =>
    intro posts d hnodup hfail g hg
    rw [List.nil_append] at hnodup hfail ⊢
    -- it is the first file whose post has failed, so that nothing is removed
    have hsent : sendsFile env (cache_path ++ f) posts d ≠ true := by
      intro hsent
      rw [resendActs, if_pos hsent, List.mem_append, List.mem_cons] at hfail
      rcases hfail with h | h | h
      · exact failed_notMem_postActs env hsent h
      · exact absurd h (by simp)
      · -- a later post is of another file
        obtain ⟨f', hf', hpath⟩ := mem_resendActs_post env h
        rw [String.append_right_inj] at hpath
        exact (List.nodup_cons.mp hnodup).1 (hpath ▸ hf')
    rw [resendActs, if_neg hsent, dirAfter_postActs]
  | cons b before ih =>
    intro posts d hnodup hfail g hg
    rw [List.cons_append] at hnodup hfail ⊢
    obtain ⟨hb, hrest⟩ := List.nodup_cons.mp hnodup
    have hne : ∀ g ∈ f :: after, g ≠ b := fun g hg heq =>
      hb (heq ▸ List.mem_append_right _ hg)
    have hpost : Act.post (cache_path ++ f) data false ∉
        postActs env (cache_path ++ b) posts d := by
      intro hmem
      have hpath := (Act.post.inj (mem_postActs env hmem)).1
      exact hne f List.mem_cons_self ((String.append_right_inj _).mp hpath)
    -- the files before it have other paths
    by_cases hsent : sendsFile env (cache_path ++ b) posts d = true
    · rw [resendActs, if_pos hsent] at hfail ⊢
      rw [List.mem_append, List.mem_cons] at hfail
      have hfail' := (hfail.resolve_left hpost).resolve_left (by simp)
      rw [List.append_cons, dirAfter_append, dirAfter_pass,
        ih hrest hfail' g hg]
      exact removeSent_content_of_ne env (append_ne (hne g hg))
    · rw [resendActs, if_neg hsent] at hfail
      exact absurd hfail hpost

/-! ## The exact condition -/

/-- **Resending is safe exactly when the listed files are legible**: a removal without a post happens
if and only if the call comes to a file that is there, can be removed, and cannot be opened or is
empty.

The two other parts of safety hold of every call, so that what is left is `removedPosted_iff`. Only
the third of them needs that no name stands twice in the listing, and says so itself. -/
theorem resendCache_safe_iff (cache_path : String) (s : Spool) :
    SafeResend env cache_path s ↔
      Legible env cache_path (env.searchFile s.posts s.dir) s.posts s.dir := by
  constructor
  · intro h
    exact (removedPosted_iff env cache_path _ s.posts s.dir).mp h.removed_posted
  · intro h
    refine ⟨(removedPosted_iff env cache_path _ s.posts s.dir).mpr h, ?_, ?_⟩
    · intro before path data after hacts
      exact resendActs_stops env cache_path hacts
    · intro hnodup before f after hlist data hfail g hg
      rw [resendCache_dir]
      rw [resendCacheActs, hlist] at hfail ⊢
      rw [hlist] at hnodup
      exact resendActs_leaves env cache_path hnodup hfail g hg

/-- A completed file that cannot be opened. -/
def lockedFile : Spool where
  dir := ⟨fun path => if path = completedName "data/" 7 then some "pack" else none⟩
  metrics := {}
  posts := 0

/-- The surroundings of `lockedFile`: the server would take everything, the file cannot be read. -/
def unreadableEnv : FlowEnv where
  httpPost _ := true
  getCurrentTime _ := 8
  searchFile _ _ := ["7_request_grpc_flow_failed.dat.over"]
  opens _ _ := false
  removes _ _ := true

/-- **The unreadable file is lost**: it is removed and nothing was posted. -/
theorem resendCache_removes_unposted :
    resendCacheActs unreadableEnv "data/" lockedFile =
        [.remove "data/7_request_grpc_flow_failed.dat.over" true] ∧
      lockedFile.dir.content "data/7_request_grpc_flow_failed.dat.over" = some "pack" ∧
      (resendCache unreadableEnv "data/" lockedFile).dir.content
        "data/7_request_grpc_flow_failed.dat.over" = none ∧
      ¬ SafeResend unreadableEnv "data/" lockedFile := by
  have hacts : resendCacheActs unreadableEnv "data/" lockedFile =
      [.remove "data/7_request_grpc_flow_failed.dat.over" true] := by decide
  have hcontent : lockedFile.dir.content "data/7_request_grpc_flow_failed.dat.over" =
      some "pack" := by decide
  refine ⟨hacts, hcontent, by decide, fun h => ?_⟩
  obtain ⟨earlier, hnil⟩ := h.removed_posted [] _ [] hacts _ hcontent
  simp at hnil

end EdgeFrame.Flow
