import NtfCore.Ntcr.StreamSocket.WriteInterest

/-!
Contract: a sender that was told of the high watermark of its write queue is told of the
low watermark.

Owns: the exact condition on the steps of a run under which, whenever a high watermark
event has been authorized and no low watermark event since, the queue is above its low
watermark.

Writable events and changes of the watermarks authorize the low watermark event behind
them. The deadline timer and the cancellation of a send do not, and a send with a high
watermark of its own may be told of that one below the low watermark.
-/

namespace NtfCore.Ntcr.Sender

open NtfCore.Foundation NtfCore.Ntcq NtfCore.Ntcs List Option

variable {Token : Type}

/-- With the send direction open, and outside of a writable event: behind a high watermark
event that no low watermark event has followed, the size is above the low watermark. -/
def Followed (sender : Sender Token) : Prop :=
  sender.socket.canSend = true -> sender.finishing = false ->
    sender.authorized.getLast? = some .high ->
    sender.lowWatermark < sender.socket.sendQueue.size

structure Wanting (sender : Sender Token) : Prop where
  wanted : sender.watermarkLowWanted = true ↔ sender.authorized.getLast? = some .high
  ordered : sender.lowWatermark < sender.socket.highWatermark
  followed : sender.finishing = false -> sender.watermarkLowWanted = true ->
    sender.lowWatermark < sender.socket.sendQueue.size

/-- The entry where a removal ends, if it is taken off, leaves the queue above its low
watermark when a low watermark event is wanted. -/
def Spares (sender : Sender Token) (removable : Entry Token -> Bool) (index : Nat) : Prop :=
  sender.socket.canSend = true -> sender.finishing = false -> sender.watermarkLowWanted = true ->
    ∀ entry, sender.socket.sendQueue.entryList[index]? = some entry -> removable entry = true ->
      sender.lowWatermark + entry.dataLength < sender.socket.sendQueue.size

def Respects [DecidableEq Token] (sender : Sender Token) : Action Token -> Prop
  | .sendDeadline entryId =>
    sender.Spares (fun entry => entry.deadline.isSome && !entry.inProgress)
      (sender.socket.sendQueue.indexOfId entryId)
  | .cancel token =>
    sender.Spares (fun entry => !entry.inProgress) (sender.socket.sendQueue.indexOfToken token)
  | .send _ options _ _ _ =>
    sender.socket.canSend = true -> sender.finishing = false -> sender.socket.isOpen = true ->
      sender.watermarkHighWanted = true ->
      options.highWatermark.getD sender.socket.highWatermark ≤ sender.socket.sendQueue.size ->
      sender.lowWatermark < sender.socket.sendQueue.size
  | _ => True

variable {sender : Sender Token}

theorem authorizeLowWatermarkEvent_wanting
    (wanted : sender.watermarkLowWanted = true ↔ sender.authorized.getLast? = some .high)
    (ordered : sender.lowWatermark < sender.socket.highWatermark) :
    Wanting sender.authorizeLowWatermarkEvent := by
  unfold authorizeLowWatermarkEvent
  split
  · refine ⟨?_, ordered, nofun⟩
    dsimp only
    rw [getLast?_concat]
    decide
  · rename_i refused
    refine ⟨wanted, ordered, ?_⟩
    intro _ isWanted
    exact Nat.lt_of_not_le fun low => refused ⟨low, isWanted⟩

theorem authorizeHighWatermarkEvent_wanting (wanting : Wanting sender)
    {effectiveHighWatermark : Nat}
    (above : sender.finishing = false -> sender.watermarkHighWanted = true ->
      effectiveHighWatermark ≤ sender.socket.sendQueue.size ->
      sender.lowWatermark < sender.socket.sendQueue.size) :
    Wanting (sender.authorizeHighWatermarkEvent effectiveHighWatermark) := by
  unfold authorizeHighWatermarkEvent
  split
  · rename_i authorized
    refine ⟨?_, wanting.ordered, ?_⟩
    · dsimp only
      rw [getLast?_concat]
      decide
    · intro outside _
      exact above outside authorized.2 authorized.1
  · exact wanting

variable {next : StreamSocket Token}

theorem Keeps.wanting (keeps : Keeps sender.socket next) (wanting : Wanting sender) :
    Wanting { sender with socket := next } := by
  refine ⟨wanting.wanted, ?_, ?_⟩
  · dsimp only
    rw [keeps.highWatermark]
    exact wanting.ordered
  · dsimp only
    rw [keeps.sendQueue]
    exact wanting.followed

theorem Grows.wanting (grows : Grows sender.socket next) (wanting : Wanting sender) :
    Wanting { sender with socket := next } := by
  refine ⟨wanting.wanted, ?_, ?_⟩
  · dsimp only
    rw [grows.highWatermark]
    exact wanting.ordered
  · intro outside wanted
    exact Nat.lt_of_lt_of_le (wanting.followed outside wanted) grows.size

theorem relax_wanting (wanting : Wanting sender) (type : FlowControlType)
    (unlock : Bool) : Wanting (sender.relax type unlock) :=
  ⟨wanting.wanted, wanting.ordered, wanting.followed⟩

theorem apply_wanting (wanting : Wanting sender) (lock : Bool) : Wanting (sender.apply lock) :=
  ⟨wanting.wanted, wanting.ordered, wanting.followed⟩

theorem pushed_wanting (grows : Grows sender.socket next) (wanting : Wanting sender) :
    Wanting (sender.pushed next) := by
  unfold pushed
  dsimp only
  split
  · exact relax_wanting (grows.wanting wanting) .send false
  · exact grows.wanting wanting

theorem finishWritable_wanting (wanting : Wanting sender) : Wanting sender.finishWritable := by
  have authorized := authorizeLowWatermarkEvent_wanting wanting.wanted wanting.ordered
  have isFinished : Wanting { sender.authorizeLowWatermarkEvent with finishing := false } := by
    refine ⟨authorized.wanted, authorized.ordered, ?_⟩
    intro _ isWanted
    unfold authorizeLowWatermarkEvent at isWanted ⊢
    split at isWanted
    · contradiction
    · rename_i refused
      rw [if_neg refused]
      exact Nat.lt_of_not_le fun low => refused ⟨low, isWanted⟩
  unfold finishWritable
  dsimp only
  split
  · exact apply_wanting isFinished false
  · exact isFinished

variable {outcome : StreamSocket.Outcome Token} {removable : Entry Token -> Bool}

/-- An entry that is taken off the queue takes its length with it. -/
theorem Removing.wanting {index : Nat}
    (removing : StreamSocket.Removing sender.socket removable index outcome)
    (sized : StreamSocket.Sized sender.socket.sendQueue) (sends : sender.socket.canSend = true)
    (spares : sender.Spares removable index) (wanting : Wanting sender) :
    Wanting { sender with socket := outcome.socket } := by
  cases removing with
  | kept => exact wanting
  | @removed entry _ _ found isRemovable isReleased =>
    refine ⟨wanting.wanted, wanting.ordered, ?_⟩
    intro outside isWanted
    have spared := spares sends outside isWanted entry found isRemovable
    rw [StreamSocket.releaseSize_of_measured (sized.measured entry (mem_of_getElem? found))
      (by omega), some.injEq] at isReleased
    dsimp only
    omega

theorem removed_wanting {socket : StreamSocket Token}
    (wanting : Wanting { sender with socket := socket }) : Wanting (sender.removed socket) := by
  unfold removed
  dsimp only
  split
  · exact apply_wanting wanting false
  · exact wanting

/-- Every section that meets the condition keeps the queue above its low watermark while
an event for it is wanted. -/
theorem Moves.wanting [DecidableEq Token] {sender next : Sender Token} {action : Action Token}
    (moves : Moves sender action next) (sized : StreamSocket.Sized sender.socket.sendQueue)
    (respects : sender.Respects action) (wanting : sender.socket.canSend = true -> Wanting sender)
    (sends : next.socket.canSend = true) : Wanting next := by
  cases moves with
  | refused isOpen =>
    rw [(authorizeHighWatermarkEvent_same _ _).1] at sends
    have before := wanting sends
    have kept : Wanting { sender with socket := sender.socket.counted } :=
      Keeps.wanting ⟨rfl, rfl, rfl⟩ before
    refine authorizeHighWatermarkEvent_wanting kept ?_
    intro outside isWanted reaches
    exact respects sends outside isOpen isWanted reaches
  | sent grows | sentCipherData grows =>
    rw [pushed_socket] at sends
    exact pushed_wanting grows (wanting (grows.canSend.symm.trans sends))
  | blocked keeps => exact keeps.wanting (wanting (keeps.canSend.symm.trans sends))
  | wrote isSending _ high =>
    have before := wanting isSending
    refine ⟨before.wanted, ?_, nofun⟩
    rw [high]
    exact before.ordered
  | ended shut =>
    rw [shut] at sends
    contradiction
  | finished =>
    rw [finishWritable_socket] at sends
    exact finishWritable_wanting (wanting sends)
  | @removed _ _ removes =>
    rw [removed_socket] at sends
    refine removed_wanting ?_
    cases removes with
    | deadline removing | cancel removing =>
      have isSending := removing.canSend.symm.trans sends
      exact Removing.wanting removing sized isSending respects (wanting isSending)
  | zeroCopyUpdated keeps
  | setThreshold keeps => exact keeps.wanting (wanting (keeps.canSend.symm.trans sends))
  | setLow low =>
    unfold setWriteQueueLowWatermark at sends ⊢
    rw [(authorizeLowWatermarkEvent_same _).1] at sends
    exact authorizeLowWatermarkEvent_wanting (wanting sends).wanted (sanitizeOutgoing_spec _ _).1
  | setHigh high =>
    unfold setWriteQueueHighWatermark at sends ⊢
    rw [(authorizeHighWatermarkEvent_same _ _).1] at sends
    have before := wanting sends
    have kept : Wanting (sender.setWatermarks sender.lowWatermark high) := by
      refine ⟨before.wanted, (sanitizeOutgoing_spec _ _).1, ?_⟩
      intro outside isWanted
      exact Nat.lt_of_le_of_lt (sanitizeOutgoing_spec _ _).2 (before.followed outside isWanted)
    refine authorizeHighWatermarkEvent_wanting kept ?_
    intro _ _ reaches
    exact Nat.lt_of_lt_of_le kept.ordered reaches
  | setBoth low high =>
    unfold setWriteQueueWatermarks at sends ⊢
    rw [(authorizeHighWatermarkEvent_same _ _).1, (authorizeLowWatermarkEvent_same _).1] at sends
    have authorized : Wanting (((sender.setWatermarks low
        sender.socket.highWatermark).setWatermarks (sender.setWatermarks low
        sender.socket.highWatermark).lowWatermark high).authorizeLowWatermarkEvent) :=
      authorizeLowWatermarkEvent_wanting (wanting sends).wanted (sanitizeOutgoing_spec _ _).1
    refine authorizeHighWatermarkEvent_wanting authorized ?_
    intro _ _ reaches
    have ordered := authorized.ordered
    rw [(authorizeLowWatermarkEvent_same _).1] at ordered
    exact Nat.lt_of_lt_of_le ordered reaches
  | relaxed type => exact relax_wanting (wanting sends) type true
  | unlimited => exact relax_wanting (wanting sends) .send true
  | marked grows =>
    exact relax_wanting (grows.wanting (wanting (grows.canSend.symm.trans sends))) .send true
  | shut shut =>
    rw [shut] at sends
    contradiction
  | closed keeps =>
    rcases keeps with keeps | shut
    · exact keeps.wanting (wanting (keeps.canSend.symm.trans sends))
    · rw [shut] at sends
      contradiction

structure Following (sender : Sender Token) : Prop where
  sized : StreamSocket.Sized sender.socket.sendQueue
  wanting : sender.socket.canSend = true -> Wanting sender

theorem Following.visible (following : Following sender) : sender.Followed := by
  intro sends outside isLast
  have wanting := following.wanting sends
  exact wanting.followed outside (wanting.wanted.mpr isLast)

theorem step_following [DecidableEq Token] (sender : Sender Token) (action : Action Token)
    (next : Sender Token) (following : Following sender) (respects : sender.Respects action)
    (taken : sender.step action = some next) : Following next := by
  obtain ⟨_, moves | isSame⟩ := step_moves following.sized taken
  · exact ⟨moves.sized following.sized, moves.wanting following.sized respects following.wanting⟩
  · rw [isSame]
    exact following

/-- A removal that takes the queue down to its low watermark is found. -/
theorem spares_of_followed {index : Nat}
    {error : Error} (taken : sender.socket.removeEntry index error
      (sender.socket.sendQueue.removeAt removable index) = some outcome)
    (following : Following sender) (after : (sender.removed outcome.socket).Followed) :
    sender.Spares removable index := by
  intro sends outside isWanted entry found isRemovable
  have isLast := (following.wanting sends).wanted.mp isWanted
  have contained : entry.dataLength ≤ sender.socket.sendQueue.size := by
    rw [following.sized.size_eq]
    exact SendSystem.dataLength_le_sum (mem_of_getElem? found)
  have isReleased := StreamSocket.releaseSize_of_measured
    (following.sized.measured entry (mem_of_getElem? found)) contained
  unfold SendQueue.removeAt at taken
  rw [found] at taken
  dsimp only at taken
  rw [if_pos isRemovable, isReleased] at taken
  have isOutcome := congrArg StreamSocket.Outcome.socket (some.inj taken)
  rw [← isOutcome] at after
  have above : sender.lowWatermark < sender.socket.sendQueue.size - entry.dataLength := by
    unfold Followed removed at after
    dsimp only at after
    split at after
    · exact after sends outside isLast
    · exact after sends outside isLast
  omega

/-- Every section behind which the queue is at its low watermark is found. -/
theorem step_respects [DecidableEq Token] (sender : Sender Token) (action : Action Token)
    (next : Sender Token) (following : Following sender) (taken : sender.step action = some next)
    (after : next.Followed) : sender.Respects action := by
  unfold Respects
  split
  · obtain ⟨outcome, isOutcome, isNext⟩ := map_eq_some_iff.mp taken
    rw [← isNext] at after
    exact spares_of_followed isOutcome following after
  · obtain ⟨_, isOutcome, isNext⟩ := map_eq_some_iff.mp taken
    rw [← isNext] at after
    exact spares_of_followed isOutcome following after
  · rename_i message options hasCallback plugIns reply
    intro sends outside isOpen isWanted above
    have isNext : some ((({ sender with socket := sender.socket.counted } :
        Sender Token)).authorizeHighWatermarkEvent
          (options.highWatermark.getD sender.socket.highWatermark)) = some next := by
      rw [← taken]
      change _ = sender.send message options hasCallback plugIns reply
      unfold send
      rw [send_refused isOpen above]
      dsimp only
      rw [if_pos ⟨isOpen, above⟩]
    rw [← some.inj isNext] at after
    unfold Followed authorizeHighWatermarkEvent at after
    have counts : options.highWatermark.getD sender.socket.highWatermark ≤
        sender.socket.counted.sendQueue.size := above
    rw [if_pos ⟨counts, isWanted⟩] at after
    exact after sends outside getLast?_concat
  · trivial

/-- In every run a high watermark event that no low watermark event has followed means
that the queue is above its low watermark, in all states with the send direction open and
outside of a writable event, if and only if no deadline, cancellation or send with a high
watermark of its own leaves it at or below. -/
theorem followed_iff_respects [DecidableEq Token] (lowWatermark highWatermark : Nat)
    (actions : List (Action Token)) :
    Run.Always step Followed (start lowWatermark highWatermark) actions ↔
      Run.Along step Respects (start lowWatermark highWatermark) actions :=
  Run.always_iff_along (fun _ following => following.visible) step_following step_respects
    ⟨⟨rfl, fun _ mem => absurd mem not_mem_nil⟩,
      fun _ => ⟨⟨nofun, nofun⟩, (sanitizeOutgoing_spec _ _).1, nofun⟩⟩

def cancelledSend : List (Action Nat) :=
  [.send (.blob (List.replicate 10 7)) { token := some 1 } true {} .wouldBlock,
    .send (.blob [7]) {} false {} .wouldBlock, .cancel 1]

/-- The queue is then empty, and the sender that was refused is not told. -/
theorem cancelledSend_unfollowed : ¬ Run.Always step Followed (start 0 10) cancelledSend ∧
      ∃ final, Run.run step (start 0 10) cancelledSend = some final ∧
        final.socket.sendQueue.size = 0 ∧ final.authorized = [.high] := by
  constructor
  · intro always
    obtain ⟨_, _, _, followed⟩ := always
    have above := followed rfl rfl rfl
    contradiction
  · exact ⟨_, rfl, rfl, rfl⟩

end NtfCore.Ntcr.Sender
