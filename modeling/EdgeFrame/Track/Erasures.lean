/-
# EdgeFrame.Track.Erasures -- the erase loops are stable partitions

Three functions of the tracker erase from a vector while an `int` index walks through it.
Each ends, looks at every object of the vector once, keeps what stays in its order, and
appends what moves to another vector in its order: a filter and an append with the
decisions of its body.

The index loops themselves are `eraseLoop` of `Lib.EraseLoop`, and the general theorem is
proved there for any decision. What is done here is to read the bodies of the three loops
as decisions on one object each (`staysTracked`, `expires`, `leavesValidly`), and to say
what the three functions return. The matched expired objects have been marked by
the pass before, and the third loop moves them to the end of the tracked ones.
-/
import EdgeFrame.Track.Specs
import Mathlib

namespace EdgeFrame.Track

open Lib

variable {K : Type} [Field K]

/-! ## The decisions -/

/-- `UpdateUnMatchedTrackedObjectsStatus` leaves the object with the tracked ones. -/
def staysTracked (P : Setup K) (frame_id : UInt64) (o : PersonObject K) : Bool :=
  o.is_current_frame_matched_or_new ||
    (o.object_status != .unconfirmed && !bothOlderThan frame_id o P.lost_track_thresh)

/-- `UpdateUnMatchedTrackedObjectsStatus` moves the object to the expired ones. -/
def expires (P : Setup K) (frame_id : UInt64) (o : PersonObject K) : Bool :=
  !o.is_current_frame_matched_or_new && o.object_status == .confirmed &&
    bothOlderThan frame_id o P.lost_track_thresh

/-- `UpdateUnMatchedExpiredObjectsStatus` reports the object as a valid leave. -/
def leavesValidly (P : Setup K) (frame_id : UInt64) (o : PersonObject K) : Bool :=
  bothOlderThan frame_id o P.expired_to_delete_thresh && CheckValidLeave P o

/-- To be kept is to stay tracked. -/
theorem decide_trackedVerdict_keep (P : Setup K) (frame_id : UInt64) (o : PersonObject K) :
    decide (trackedVerdict P frame_id o = .keep) = staysTracked P frame_id o := by
  unfold trackedVerdict staysTracked
  cases o.is_current_frame_matched_or_new <;> cases o.object_status <;>
    cases bothOlderThan frame_id o P.lost_track_thresh <;> rfl

/-- To be moved is to expire. -/
theorem decide_trackedVerdict_move (P : Setup K) (frame_id : UInt64) (o : PersonObject K) :
    decide (trackedVerdict P frame_id o = .move) = expires P frame_id o := by
  unfold trackedVerdict expires
  cases o.is_current_frame_matched_or_new <;> cases o.object_status <;>
    cases bothOlderThan frame_id o P.lost_track_thresh <;> rfl

/-- To be kept is to be recent enough in one of the two boxes. -/
theorem decide_expiredVerdict_keep (P : Setup K) (frame_id : UInt64) (o : PersonObject K) :
    decide (expiredVerdict P frame_id o = .keep) =
      !bothOlderThan frame_id o P.expired_to_delete_thresh := by
  unfold expiredVerdict
  cases bothOlderThan frame_id o P.expired_to_delete_thresh <;> cases CheckValidLeave P o <;> rfl

/-- To be moved is to be reported. -/
theorem decide_expiredVerdict_move (P : Setup K) (frame_id : UInt64) (o : PersonObject K) :
    decide (expiredVerdict P frame_id o = .move) = leavesValidly P frame_id o := by
  unfold expiredVerdict leavesValidly
  cases bothOlderThan frame_id o P.expired_to_delete_thresh <;> cases CheckValidLeave P o <;> rfl

omit [Field K] in
/-- To be kept is to have no match. -/
theorem decide_matchedVerdict_keep (o : PersonObject K) :
    decide (matchedVerdict o = .keep) = !o.is_current_frame_matched_or_new := by
  unfold matchedVerdict
  cases o.is_current_frame_matched_or_new <;> rfl

omit [Field K] in
/-- To be moved is to have one. -/
theorem decide_matchedVerdict_move (o : PersonObject K) :
    decide (matchedVerdict o = .move) = o.is_current_frame_matched_or_new := by
  unfold matchedVerdict
  cases o.is_current_frame_matched_or_new <;> rfl

/-! ## The loops -/

/-- The loop of `UpdateUnMatchedTrackedObjectsStatus`, with its `int` index. -/
def walkTracked (P : Setup K) (frame_id : UInt64)
    (trackedPersonObjects expiredPersonObjects : List (PersonObject K)) :
    Option (Walk (PersonObject K)) :=
  walk (trackedVerdict P frame_id) (trackedPersonObjects.length + 1) 0
    ⟨trackedPersonObjects, expiredPersonObjects, []⟩

/-- The loop of `UpdateUnMatchedExpiredObjectsStatus`. -/
def walkExpired (P : Setup K) (frame_id : UInt64)
    (expiredPersonObjects valid_leave_objects : List (PersonObject K)) :
    Option (Walk (PersonObject K)) :=
  walk (expiredVerdict P frame_id) (expiredPersonObjects.length + 1) 0
    ⟨expiredPersonObjects, valid_leave_objects, []⟩

/-- The second loop of `UpdateMatchedExpiredObjects`. -/
def walkMatched (expired_person_objects trackedPersonObjects : List (PersonObject K)) :
    Option (Walk (PersonObject K)) :=
  walk matchedVerdict (expired_person_objects.length + 1) 0
    ⟨expired_person_objects, trackedPersonObjects, []⟩

/-- The loop over the tracked objects is a partition by the two decisions. -/
theorem walkTracked_eq (P : Setup K) (frame_id : UInt64) (v out : List (PersonObject K)) :
    walkTracked P frame_id v out =
      some ⟨v.filter (staysTracked P frame_id), out ++ v.filter (expires P frame_id), v⟩ := by
  rw [walkTracked, walk_eq]
  simp only [decide_trackedVerdict_keep, decide_trackedVerdict_move]

/-- So is the loop over the expired ones. -/
theorem walkExpired_eq (P : Setup K) (frame_id : UInt64) (v out : List (PersonObject K)) :
    walkExpired P frame_id v out =
      some ⟨v.filter (fun o => !bothOlderThan frame_id o P.expired_to_delete_thresh),
        out ++ v.filter (leavesValidly P frame_id), v⟩ := by
  rw [walkExpired, walk_eq]
  simp only [decide_expiredVerdict_keep, decide_expiredVerdict_move]

omit [Field K] in
/-- And the one over those that were matched. -/
theorem walkMatched_eq (v out : List (PersonObject K)) :
    walkMatched v out =
      some ⟨v.filter (fun o => !o.is_current_frame_matched_or_new),
        out ++ v.filter (·.is_current_frame_matched_or_new), v⟩ := by
  rw [walkMatched, walk_eq]
  simp only [decide_matchedVerdict_keep, decide_matchedVerdict_move]

variable [LinearOrder K]

/-- `UpdateMatchedExpiredObjects` is its pass over the pairs, and then a partition. -/
theorem UpdateMatchedExpiredObjects_eq (P : Setup K) (cur : CurrentFrame)
    (match_pairs : List MatchPair) (es ds ts : List (PersonObject K)) :
    UpdateMatchedExpiredObjects P cur match_pairs es ds ts =
      (UpdateMatchedTrackedObjects P cur match_pairs es ds).map fun r =>
        (ts ++ r.1.filter (·.is_current_frame_matched_or_new),
          r.1.filter (fun o => !o.is_current_frame_matched_or_new), r.2) := by
  unfold UpdateMatchedExpiredObjects
  cases UpdateMatchedTrackedObjects P cur match_pairs es ds with
  | error e => rfl
  | ok r =>
    simp only [bind, Except.bind, eraseLoop_eq, Abort.ofFuel, decide_matchedVerdict_keep,
      decide_matchedVerdict_move]
    rfl

/-- **The erase loops are stable partitions.** For every vector, each of them ends, has looked at
every object of it once and in order, and leaves the objects that stay and the other vector with
those that move behind it, both in their order; what the functions return is no more than that.

It is the general theorem at the three decisions, and for each function the equation that it is its
loop. -/
theorem erase_loops_partition (P : Setup K) (cur : CurrentFrame) (frame_id : UInt64)
    (match_pairs : List MatchPair) (v ds out : List (PersonObject K)) :
    (walkTracked P frame_id v out =
        some ⟨v.filter (staysTracked P frame_id), out ++ v.filter (expires P frame_id), v⟩ ∧
      UpdateUnMatchedTrackedObjectsStatus P frame_id v out =
        .ok (v.filter (staysTracked P frame_id), out ++ v.filter (expires P frame_id))) ∧
    (walkExpired P frame_id v out =
        some ⟨v.filter (fun o => !bothOlderThan frame_id o P.expired_to_delete_thresh),
          out ++ v.filter (leavesValidly P frame_id), v⟩ ∧
      UpdateUnMatchedExpiredObjectsStatus P frame_id v out =
        .ok (v.filter (fun o => !bothOlderThan frame_id o P.expired_to_delete_thresh),
          out ++ v.filter (leavesValidly P frame_id))) ∧
    (walkMatched v out =
        some ⟨v.filter (fun o => !o.is_current_frame_matched_or_new),
          out ++ v.filter (·.is_current_frame_matched_or_new), v⟩ ∧
      UpdateMatchedExpiredObjects P cur match_pairs v ds out =
        (UpdateMatchedTrackedObjects P cur match_pairs v ds).map fun r =>
          (out ++ r.1.filter (·.is_current_frame_matched_or_new),
            r.1.filter (fun o => !o.is_current_frame_matched_or_new), r.2)) := by
  refine ⟨⟨walkTracked_eq P frame_id v out, ?_⟩, ⟨walkExpired_eq P frame_id v out, ?_⟩,
    walkMatched_eq v out, UpdateMatchedExpiredObjects_eq P cur match_pairs v ds out⟩
  · rw [UpdateUnMatchedTrackedObjectsStatus_eq]
    simp only [decide_trackedVerdict_keep, decide_trackedVerdict_move]
  · rw [UpdateUnMatchedExpiredObjectsStatus_eq]
    simp only [decide_expiredVerdict_keep, decide_expiredVerdict_move]

end EdgeFrame.Track
