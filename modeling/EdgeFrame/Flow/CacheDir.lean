/-
# EdgeFrame.Flow.CacheDir -- the on-disk cache of the flow uploader

`FlowRpcAsynProcessor` keeps what it could not upload in files of a cache
directory. `saveCache` names a file after the current millisecond, writes it and
renames it with the completion stamp `.over`; `resendCache` later reads the
completed files back, posts them and removes them.

The file system is modelled by what the code relies on: opening a file for
writing truncates it, and `rename` replaces an existing target. Everything the
code does not decide (the answers of the server, the clock, the directory
listing, whether a file can be opened or removed) is a field of `FlowEnv`.
-/
import Mathlib

namespace EdgeFrame.Flow

/-! ## Files -/

/-- The files that exist, by path, with their contents. -/
structure CacheDir where
  content : String → Option String

namespace CacheDir

/-- `std::ofstream fout(path)`: the file exists afterwards and is empty. -/
def openTrunc (d : CacheDir) (path : String) : CacheDir :=
  ⟨Function.update d.content path (some "")⟩

/-- `fout << data` on an open stream. -/
def put (d : CacheDir) (path data : String) : CacheDir :=
  ⟨Function.update d.content path ((d.content path).map (· ++ data))⟩

/-- `rename(old, new)`: the target takes the content over, whatever it held before. -/
def rename (d : CacheDir) (old new : String) : CacheDir :=
  match d.content old with
  | none => d
  | some c => ⟨Function.update (Function.update d.content old none) new (some c)⟩

/-- `remove(path)`. -/
def remove (d : CacheDir) (path : String) : CacheDir :=
  ⟨Function.update d.content path none⟩

end CacheDir

/-- `getCompletionStamp`. -/
def getCompletionStamp : String := ".over"

/-- `addCompletionStamp`: the finished file gets the stamp appended to its name. -/
def addCompletionStamp (filename : String) (d : CacheDir) : CacheDir :=
  d.rename filename (filename ++ getCompletionStamp)

/-! ## Saving -/

/-- The file name `saveCache` builds from the clock reading `now` (milliseconds). -/
def cacheName (cache_path : String) (now : Int) : String :=
  cache_path ++ now.repr ++ "_request_grpc_flow_failed.dat"

/-- The name of the same file once it is completed. -/
def completedName (cache_path : String) (now : Int) : String :=
  cacheName cache_path now ++ getCompletionStamp

/-- `saveCache`: open (truncating), write, close, rename. -/
def saveCache (cache_path : String) (now : Int) (data : String) (d : CacheDir) : CacheDir :=
  let name := cacheName cache_path now
  addCompletionStamp name ((d.openTrunc name).put name data)

/-- Stamping a name changes it. -/
theorem append_stamp_ne (name : String) : name ++ getCompletionStamp ≠ name := by
  intro h
  have hlen := congrArg String.length h
  simp [getCompletionStamp, String.length_append] at hlen

/-- Different milliseconds give different completed files. -/
theorem completedName_inj {cache_path : String} {t u : Int} :
    completedName cache_path t = completedName cache_path u ↔ t = u := by
  simp only [completedName, cacheName, String.append_left_inj, String.append_right_inj,
    Int.repr_inj]

/-- **What one `saveCache` does to every path**: the completed file of its
millisecond holds the message, the unfinished one is gone, nothing else changes. -/
theorem saveCache_content (cache_path : String) (now : Int) (data : String) (d : CacheDir)
    (f : String) :
    (saveCache cache_path now data d).content f =
      if f = completedName cache_path now then some data
      else if f = cacheName cache_path now then none
      else d.content f := by
  have hne : cacheName cache_path now ≠ completedName cache_path now :=
    (append_stamp_ne _).symm
  have hstamp : cacheName cache_path now ++ getCompletionStamp = completedName cache_path now :=
    rfl
  simp only [saveCache, addCompletionStamp, CacheDir.rename, CacheDir.put, CacheDir.openTrunc,
    Function.update_self, Option.map_some, String.empty_append, hstamp]
  by_cases hf : f = completedName cache_path now
  · subst hf
    simp
  · by_cases hg : f = cacheName cache_path now
    · subst hg
      simp [hne]
    · simp [hf, hg]

/-! ## Reading back and sending -/

/-- The four counters the uploader reports. -/
structure FlowMetrics where
  cv_flow_rt_upload_failed_count_ : Nat := 0
  cv_flow_reupload_success_count_ : Nat := 0
  cv_flow_reupload_retry_count_ : Nat := 0
  cv_flow_history_reupload_count_ : Nat := 0
  deriving DecidableEq, Repr

/-- What the surroundings answer. Calls are numbered, so that one environment
fixes the outcome of a whole run. -/
structure FlowEnv where
  /-- result of the n-th `HttpPost` -/
  httpPost : Nat → Bool
  /-- n-th clock reading taken for a file name -/
  getCurrentTime : Nat → Int
  /-- what `searchFile` finds in the directory when the n-th post is about to be made -/
  searchFile : Nat → CacheDir → List String
  /-- whether a file can be opened for reading -/
  opens : Nat → String → Bool
  /-- whether `remove` succeeds -/
  removes : Nat → String → Bool

/-- `sendMessage`: empty data counts as sent without a post. -/
def sendMessage (env : FlowEnv) (posts : Nat) (data : String) : Bool × Nat :=
  if data.length = 0 then (true, posts) else (env.httpPost posts, posts + 1)

/-- `readFile`: an unreadable file reads as the empty string. -/
def readFile (env : FlowEnv) (posts : Nat) (d : CacheDir) (path : String) : String :=
  if env.opens posts path then (d.content path).getD "" else ""

/-- The part of the uploader that `resendCache` works on. -/
structure Spool where
  dir : CacheDir
  metrics : FlowMetrics
  /-- number of posts made so far -/
  posts : Nat

/-- The `while (filelist.size() > 0)` loop of `resendCache`. -/
def resendFiles (env : FlowEnv) (cache_path : String) : List String → Spool → Spool
  | [], s => s
  | f :: filelist, s =>
    let path := cache_path ++ f
    let (ret, posts) := sendMessage env s.posts (readFile env s.posts s.dir path)
    if ret then
      let metrics := { s.metrics with
        cv_flow_reupload_success_count_ := s.metrics.cv_flow_reupload_success_count_ + 1 }
      let dir := if env.removes s.posts path then s.dir.remove path else s.dir
      resendFiles env cache_path filelist ⟨dir, metrics, posts⟩
    else
      -- the first failure ends the call; the file and all later ones stay
      ⟨s.dir, { s.metrics with
        cv_flow_reupload_retry_count_ := s.metrics.cv_flow_reupload_retry_count_ + 1 }, posts⟩

/-- `resendCache`. -/
def resendCache (env : FlowEnv) (cache_path : String) (s : Spool) : Spool :=
  let filelist := env.searchFile s.posts s.dir
  resendFiles env cache_path filelist { s with
    metrics := { s.metrics with
      cv_flow_history_reupload_count_ :=
        s.metrics.cv_flow_history_reupload_count_ + filelist.length } }

end EdgeFrame.Flow
