import Mathlib.Data.List.Perm.Basic
import NtfCore.Ntcq.ZeroCopy.Queue

/-!
Contract: the callbacks in the custody of the zero-copy queue.

Owns: the callbacks that the two lists of the queue hold, and that `push` takes one into
custody, `extend`, `frame` and `update` keep them all, and `pop` gives one out.
-/

namespace NtfCore.Ntcq

open List ZeroCopyEntry

variable {Data Context Callback : Type}

namespace ZeroCopyQueue

def callbacksOf (entries : List (ZeroCopyEntry Data Context Callback)) : List Callback :=
  entries.filterMap ZeroCopyEntry.callback

def callbacks (queue : ZeroCopyQueue Data Context Callback) : List Callback :=
  callbacksOf (queue.doneList ++ queue.waitList)

@[simp] theorem callbacksOf_append (left right : List (ZeroCopyEntry Data Context Callback)) :
    callbacksOf (left ++ right) = callbacksOf left ++ callbacksOf right :=
  filterMap_append

section

variable (entry : ZeroCopyEntry Data Context Callback)

theorem callbacksOf_singleton : callbacksOf [entry] = entry.callback.toList := by
  unfold callbacksOf
  cases isCallback : entry.callback with
  | none | some _ => simp [isCallback]

theorem callbacksOf_cons (rest : List (ZeroCopyEntry Data Context Callback)) :
    callbacksOf (entry :: rest) = entry.callback.toList ++ callbacksOf rest := by
  rw [← callbacksOf_singleton, ← callbacksOf_append]
  rfl

end

theorem create_callback (group : Nat) (data : Data) (context : Option Context)
    (callback : Option Callback) (counter : Nat) :
    (create group data context callback counter).callback = callback := by
  cases callback with
  | none | some _ => rfl

variable {queue next : ZeroCopyQueue Data Context Callback} {group number : Nat}

theorem push_callbacks {data : Data} {context : Option Context} {callback : Option Callback}
    (taken : queue.push group data context callback = some (number, next)) :
    next.callbacks = queue.callbacks ++ callback.toList := by
  unfold push at taken
  split at taken
  · rw [Option.some.injEq, Prod.mk.injEq] at taken
    rw [← taken.2]
    simp only [callbacks, callbacksOf_append, callbacksOf_singleton, create_callback, append_assoc]
  · contradiction

theorem extend_callbacks
    (taken : queue.extend group = some (number, next)) : next.callbacks = queue.callbacks := by
  unfold extend at taken
  split at taken
  · rename_i entry isLast
    obtain ⟨_, isWait⟩ := getLast?_eq_some_iff.mp isLast
    split at taken
    · rw [Option.some.injEq, Prod.mk.injEq] at taken
      rw [← taken.2]
      simp only [callbacks, isWait, dropLast_concat, callbacksOf_append, callbacksOf_singleton,
        (setMaxCounter_header entry _).callback]
    · contradiction
  · contradiction

theorem frame_callbacks
    (taken : queue.frame group = some next) : next.callbacks.Perm queue.callbacks := by
  unfold frame at taken
  split at taken
  · rename_i _ isLast
    obtain ⟨_, isWait⟩ := getLast?_eq_some_iff.mp isLast
    split at taken
    · dsimp only at taken
      split at taken
      · cases taken
        simp only [callbacks, isWait, dropLast_concat, callbacksOf_append,
          callbacksOf_singleton, append_assoc]
        exact perm_append_comm.append_left _
      · cases taken
        simp only [callbacks, isWait, dropLast_concat, callbacksOf_append, callbacksOf_singleton]
        exact Perm.refl _
    · contradiction
  · contradiction

theorem updateLoop_callbacks (range : ZeroCopyRange)
    (entries : List (ZeroCopyEntry Data Context Callback)) :
    (callbacksOf (updateLoop range entries).2 ++ callbacksOf (updateLoop range entries).1).Perm
      (callbacksOf entries) := by
  induction entries with
  | nil => exact Perm.refl _
  | cons entry _ ih =>
    rw [updateLoop]
    split
    · exact Perm.refl _
    · have sameCallback := (matchCompleted_header entry range).callback
      rw [callbacksOf_cons, ← sameCallback]
      dsimp only
      split
      · split
        · rw [callbacksOf_cons, append_assoc]
          exact ih.append_left _
        · rename_i noCallback
          have isNone : (entry.matchCompleted range).callback = none := by simpa using noCallback
          rw [isNone]
          exact ih
      · rw [callbacksOf_cons, ← append_assoc]
        refine (perm_append_comm.append_right _).trans ?_
        rw [append_assoc]
        exact ih.append_left _

theorem update_callbacks (queue : ZeroCopyQueue Data Context Callback) (zeroCopy : ZeroCopy) :
    (queue.update zeroCopy).callbacks.Perm queue.callbacks := by
  simp only [update, callbacks, callbacksOf_append, append_assoc]
  exact (updateLoop_callbacks _ _).append_left _

section

variable (entries : List (ZeroCopyEntry Data Context Callback))

theorem callbacksOf_eq_notifications :
    (entries.filterMap notification).map Prod.snd = callbacksOf entries := by
  induction entries with
  | nil => rfl
  | cons entry _ ih =>
    rw [callbacksOf_cons, ← ih]
    cases isCallback : entry.callback with
    | none | some _ => simp [notification, isCallback]

theorem popLoop_callbacks :
    (popLoop entries).1.toList.map Prod.snd ++ callbacksOf (popLoop entries).2 =
      callbacksOf entries := by
  induction entries with
  | nil => rfl
  | cons entry _ ih =>
    rw [popLoop, callbacksOf_cons]
    cases isCallback : entry.callback with
    | none => exact ih
    | some => rfl

end

theorem pop_callbacks (queue : ZeroCopyQueue Data Context Callback) :
    queue.pop.1.toList.map Prod.snd ++ queue.pop.2.callbacks = queue.callbacks := by
  simp only [pop, callbacks, callbacksOf_append, ← append_assoc, popLoop_callbacks]

end ZeroCopyQueue

end NtfCore.Ntcq
