import Mathlib.Data.List.Perm.Basic
import Mathlib.Data.List.Nodup
import Mathlib.Data.List.Range

/-!
Contract: resources that an owner obtains one after the other, and gives up by closing them
or by letting them go.

Owns: what has become of each resource, and the law that each is in one place: it is held,
or was closed, or was let go.
-/

namespace NtfCore.Foundation

open List

/-- The resources are numbered as they are obtained. At most one of them is held. -/
structure Ownership where
  obtained : Nat := 0
  held : Option Nat := none
  closed : List Nat := []
  released : List Nat := []

namespace Ownership

/-- A resource is obtained, unless one is held. -/
def acquire (ownership : Ownership) : Ownership :=
  match ownership.held with
  | some _ => ownership
  | none => { ownership with
      held := some ownership.obtained
      obtained := ownership.obtained + 1 }

/-- What is held is closed. -/
def close (ownership : Ownership) : Ownership :=
  { ownership with
    held := none
    closed := ownership.closed ++ ownership.held.toList }

/-- What is held is let go. -/
def release (ownership : Ownership) : Ownership :=
  { ownership with
    held := none
    released := ownership.released ++ ownership.held.toList }

/-- A resource is obtained and closed, while what is held is not touched. -/
def discard (ownership : Ownership) : Ownership :=
  { ownership with
    closed := ownership.closed ++ [ownership.obtained]
    obtained := ownership.obtained + 1 }

/-! ## Each resource is in one place -/

/-- Where the resources are. -/
def places (ownership : Ownership) : List Nat :=
  ownership.closed ++ ownership.released ++ ownership.held.toList

/-- Each resource that was obtained is in exactly one place. -/
def Settled (ownership : Ownership) : Prop :=
  ownership.places.Perm (List.range ownership.obtained)

variable {ownership : Ownership}

theorem settled_empty : Settled {} := Perm.refl []

section

variable (settled : ownership.Settled)
include settled

theorem Settled.acquire : ownership.acquire.Settled := by
  unfold Ownership.acquire
  cases isHeld : ownership.held with
  | some => exact settled
  | none =>
    unfold Settled places at settled ⊢
    rw [isHeld, Option.toList_none, append_nil] at settled
    rw [range_succ, Option.toList_some]
    exact settled.append_right [ownership.obtained]

theorem Settled.close : ownership.close.Settled := by
  unfold Settled places at settled ⊢
  unfold Ownership.close
  rw [Option.toList_none, append_nil, append_assoc]
  refine Perm.trans ?_ settled
  rw [append_assoc]
  exact perm_append_comm.append_left ownership.closed

theorem Settled.release : ownership.release.Settled := by
  unfold Settled places at settled ⊢
  unfold Ownership.release
  rw [Option.toList_none, append_nil, ← append_assoc]
  exact settled

theorem Settled.discard : ownership.discard.Settled := by
  unfold Settled places at settled ⊢
  unfold Ownership.discard
  rw [range_succ, append_assoc, append_assoc]
  refine Perm.trans (perm_append_comm.append_left ownership.closed) ?_
  rw [← append_assoc, ← append_assoc]
  exact settled.append_right [ownership.obtained]

theorem Settled.nodup : ownership.places.Nodup := settled.nodup_iff.mpr nodup_range

theorem Settled.closed_nodup : ownership.closed.Nodup := settled.nodup.of_append_left.of_append_left

end

end Ownership

end NtfCore.Foundation
