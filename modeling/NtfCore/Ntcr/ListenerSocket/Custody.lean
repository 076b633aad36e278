import NtfCore.Foundation.Lists
import NtfCore.Foundation.Turns
import NtfCore.Ntcr.ListenerSocket.Model

/-!
Contract: what becomes of accepts and their callbacks at a listener socket.

Owns: which connections are delivered, which accepts are served and which callbacks
dispatched, in which order; and the custody of callbacks, each of which is dispatched, on
the queue, with a shutdown, or about to be dispatched by a critical section.

A connection is delivered, and a callback dispatched, in the section that decides so:
when a thread that has released the mutex, or a strand, then invokes the callback is not
said.
-/

namespace NtfCore.Ntcr.Listening

open NtfCore.Foundation NtfCore.Foundation.Turns NtfCore.Ntcq List Outcome Lists

variable {Token : Type}

/-! ## What has happened -/

def Activity.draining? : Activity Token -> List Nat
  | .draining entries => entries.map AcceptCallbackQueueEntry.id
  | _ => []

def Activity.accepting? : Activity Token -> List Nat
  | .accepting entry => [entry.id]
  | _ => []

namespace ListenerSocket

def delivered (socket : ListenerSocket Token) : List Nat :=
  socket.outcomes.filterMap Outcome.connection?

def returned (socket : ListenerSocket Token) : List Nat :=
  socket.outcomes.filterMap Outcome.returned?

def served (socket : ListenerSocket Token) : List Nat :=
  socket.outcomes.filterMap Outcome.served?

def dispatched (socket : ListenerSocket Token) : List Nat :=
  socket.outcomes.filterMap Outcome.dispatched?

def waiting (socket : ListenerSocket Token) : List Nat :=
  socket.acceptQueue.callbackQueue.map AcceptCallbackQueueEntry.id

def draining (socket : ListenerSocket Token) : List Nat :=
  socket.activities.flatMap Activity.draining?

def accepting (socket : ListenerSocket Token) : List Nat :=
  socket.activities.flatMap Activity.accepting?

end ListenerSocket

open ListenerSocket

/-- How callbacks are kept: each accept that succeeded has its callback dispatched, on the
queue, with the shutdown, or loose, when a critical section is about to dispatch it. -/
structure Custody (loose : List Nat) (socket : ListenerSocket Token) : Prop where
  inTurn : InTurn socket.served socket.waiting
  finished : socket.finished = socket.dispatched
  kept : ∀ call, socket.accepted.count call = socket.finished.count call +
    socket.waiting.count call + socket.draining.count call + loose.count call
  once : ∀ call,
    socket.returned.count call + socket.accepted.count call + socket.accepting.count call ≤
      if call < socket.calls then 1 else 0
  closing : ∀ defer, Activity.closing defer ∈ socket.activities -> socket.canReceive = false
  closed : socket.drained = true -> socket.waiting = [] ∧ socket.canReceive = false

/-! ## What is recorded -/

section Records

variable (socket : ListenerSocket Token) (call : Nat) (outcome : Outcome)

@[simp] theorem record_delivered :
    (socket.record outcome).delivered = socket.delivered ++ outcome.connection?.toList :=
  filterMap_concat _ _ _

@[simp] theorem record_returned :
    (socket.record outcome).returned = socket.returned ++ outcome.returned?.toList :=
  filterMap_concat _ _ _

@[simp] theorem record_served :
    (socket.record outcome).served = socket.served ++ outcome.served?.toList :=
  filterMap_concat _ _ _

@[simp] theorem record_dispatched :
    (socket.record outcome).dispatched = socket.dispatched ++ outcome.dispatched?.toList :=
  filterMap_concat _ _ _

@[simp] theorem await_draining (activity : Activity Token) :
    (socket.await activity).draining = socket.draining ++ activity.draining? := by
  simp [draining, await]

@[simp] theorem await_accepting (activity : Activity Token) :
    (socket.await activity).accepting = socket.accepting ++ activity.accepting? := by
  simp [accepting, await]

theorem popEntry_waiting : socket.popEntry.waiting = socket.waiting :=
  congrArg (map AcceptCallbackQueueEntry.id) (AcceptQueue.popEntry_callbackQueue _)

@[simp] theorem pushCallbackEntry_waiting (entry : AcceptCallbackQueueEntry Token) :
    (socket.pushCallbackEntry entry).waiting = socket.waiting ++ [entry.id] := by
  simp [waiting, pushCallbackEntry, AcceptQueue.pushCallbackEntry]

theorem dispatch_eq (isOpen : call ∉ socket.finished) : socket.dispatch call outcome =
      { socket with finished := socket.finished ++ [call] }.record outcome :=
  if_neg isOpen

@[simp] theorem dispatch_acceptQueue :
    (socket.dispatch call outcome).acceptQueue = socket.acceptQueue := by
  unfold dispatch
  split
  · rfl
  · rfl

@[simp] theorem dispatch_activities :
    (socket.dispatch call outcome).activities = socket.activities := by
  unfold dispatch
  split
  · rfl
  · rfl

@[simp] theorem dispatch_taken : (socket.dispatch call outcome).taken = socket.taken := by
  unfold dispatch
  split
  · rfl
  · rfl

theorem dispatch_delivered (isOpen : call ∉ socket.finished) :
    (socket.dispatch call outcome).delivered = socket.delivered ++ outcome.connection?.toList := by
  rw [dispatch_eq _ _ _ isOpen]
  exact record_delivered _ _

@[simp] theorem dispatch_failed_delivered (error : Error) :
    (socket.dispatch call (.failed call error)).delivered = socket.delivered := by
  by_cases isFinished : call ∈ socket.finished
  · unfold dispatch
    rw [if_pos isFinished]
  · rw [dispatch_delivered _ _ _ isFinished]
    exact append_nil _

/-- A shutdown that dispatches its callbacks leaves the rest alone. -/
theorem dispatchEof_frame (entries : List (AcceptCallbackQueueEntry Token)) :
    (socket.dispatchEof entries).delivered = socket.delivered ∧
      (socket.dispatchEof entries).acceptQueue = socket.acceptQueue ∧
      (socket.dispatchEof entries).taken = socket.taken := by
  induction entries generalizing socket with
  | nil => exact ⟨rfl, rfl, rfl⟩
  | cons entry _ ih =>
    have frame := ih (socket.dispatch entry.id (.failed entry.id .eof))
    rw [dispatch_failed_delivered, dispatch_acceptQueue, dispatch_taken] at frame
    exact frame

end Records

def Activity.Idle (activity : Activity Token) : Prop :=
  activity.draining? = [] ∧ activity.accepting? = []

structure IsNew (socket : ListenerSocket Token) (call : Nat) : Prop where
  drawn : call < socket.calls
  unused : socket.returned.count call + socket.accepted.count call + socket.accepting.count call = 0
  last : ∀ other ∈ socket.served ++ socket.waiting, other < call

variable {socket : ListenerSocket Token} {call : Nat}

theorem IsNew.popEntry (isNew : IsNew socket call) : IsNew socket.popEntry call := { isNew with
  last := by
    rw [popEntry_waiting]
    exact isNew.last }

theorem IsNew.take (isNew : IsNew socket call) : IsNew socket.take call :=
  { isNew with }

namespace Custody

variable {loose : List Nat} {socket : ListenerSocket Token}

/-- Served are only accepts whose callbacks were dispatched. -/
theorem served_le (custody : Custody loose socket) (call : Nat) :
    socket.served.count call ≤ socket.finished.count call := by
  rw [custody.finished]
  unfold served dispatched
  induction socket.outcomes with
  | nil => simp
  | cons outcome _ ih =>
    cases outcome with
    | returned => exact ih
    | completed _ _ | failed _ _ =>
      simp only [served?, dispatched?, filterMap_cons, count_cons]
      omega

variable {call : Nat}

theorem not_finished (custody : Custody (call :: loose) socket) : call ∉ socket.finished := by
  intro isFinished
  have finishedOnce := count_pos_iff.mpr isFinished
  have kept := custody.kept call
  have once := custody.once call
  rw [count_cons_self] at kept
  split at once
  · omega
  · omega

/-- Accepts served and pending have been called. -/
theorem lt_calls (custody : Custody loose socket)
    (mem : call ∈ socket.served ++ socket.waiting) : call < socket.calls := by
  by_contra notCalled
  have isCounted := count_pos_iff.mpr mem
  rw [count_append] at isCounted
  have served := custody.served_le call
  have kept := custody.kept call
  have once := custody.once call
  rw [if_neg notCalled] at once
  omega

/-! ### What custody does not depend on -/

theorem reassign (custody : Custody loose socket) {activities : List (Activity Token)}
    (draining : ∀ call, (activities.flatMap Activity.draining?).count call =
      socket.draining.count call)
    (accepting : ∀ call, (activities.flatMap Activity.accepting?).count call =
      socket.accepting.count call)
    (closing : ∀ defer, Activity.closing defer ∈ activities -> socket.canReceive = false) :
    Custody loose { socket with activities := activities } := { custody with
  kept := by
    intro call
    have kept := custody.kept call
    rw [← draining call] at kept
    exact kept
  once := by
    intro call
    have once := custody.once call
    rw [← accepting call] at once
    exact once
  closing := closing }

variable {activity : Activity Token}

/-- The activity that goes on may be taken to be the last one. -/
theorem shift (custody : Custody loose socket) {index : Nat}
    (found : socket.activities[index]? = some activity) :
    Custody loose ((socket.resumed index).await activity) := by
  obtain ⟨before, after, isSplit, isErased⟩ : ∃ before after,
      socket.activities = before ++ _ :: after ∧
        (socket.resumed index).activities = _ ++ _ := eraseIdx_split found
  apply custody.reassign
  · intro call
    rw [isErased]
    simp only [draining, isSplit, flatMap_append, flatMap_cons,
      flatMap_nil, count_append, count_nil]
    omega
  · intro call
    rw [isErased]
    simp only [accepting, isSplit, flatMap_append, flatMap_cons,
      flatMap_nil, count_append, count_nil]
    omega
  · intro defer mem
    apply custody.closing defer
    rw [isErased] at mem
    rw [isSplit]
    simp only [mem_append, mem_cons, not_mem_nil, or_false] at mem ⊢
    rcases mem with (isBefore | isAfter) | isLast
    · exact .inl isBefore
    · exact .inr (.inr isAfter)
    · exact .inr (.inl isLast)

theorem await (custody : Custody loose socket) (idle : activity.Idle)
    (closing : ∀ defer, Activity.closing defer = activity -> socket.canReceive = false) :
    Custody loose (socket.await activity) := by
  apply custody.reassign
  · intro call
    simp [draining, idle.1]
  · intro call
    simp [accepting, idle.2]
  · intro defer mem
    rcases mem_append.mp mem with earlier | isNew
    · exact custody.closing defer earlier
    · exact closing defer (mem_singleton.mp isNew)

theorem drop (custody : Custody loose (socket.await activity))
    (idle : activity.Idle) : Custody loose socket := by
  apply custody.reassign
  · intro call
    rw [await_draining, idle.1, append_nil]
    rfl
  · intro call
    rw [await_accepting, idle.2, append_nil]
    rfl
  · intro defer mem
    exact custody.closing defer (mem_append_left _ mem)

variable {queue : AcceptQueue Token}

section

variable (custody : Custody loose socket)
include custody

theorem requeue (same : queue.callbackQueue = socket.acceptQueue.callbackQueue) :
    Custody loose { socket with acceptQueue := queue } := by
  have isWaiting : waiting { socket with acceptQueue := queue } = socket.waiting :=
    congrArg (map AcceptCallbackQueueEntry.id) same
  exact
    { custody with
      inTurn := isWaiting ▸ custody.inTurn
      kept := isWaiting ▸ custody.kept
      closed := isWaiting ▸ custody.closed }

theorem popEntry : Custody loose socket.popEntry :=
  custody.requeue (AcceptQueue.popEntry_callbackQueue _)

theorem take : Custody loose socket.take :=
  { custody with }

/-- An accept that succeeds is about to dispatch its callback, or to push it. -/
theorem succeed {call : Nat} (isNew : IsNew socket call) :
    Custody (call :: loose) (socket.succeed call) := { custody with
  kept := by
    intro other
    have kept := custody.kept other
    show (socket.accepted ++ [call]).count other = socket.finished.count other +
      socket.waiting.count other + socket.draining.count other + (call :: loose).count other
    rw [count_append, count_singleton, count_cons]
    omega
  once := by
    intro other
    have once := custody.once other
    show socket.returned.count other + (socket.accepted ++ [call]).count other +
      socket.accepting.count other ≤ if other < socket.calls then 1 else 0
    rw [count_append, count_singleton]
    by_cases same : call = other
    · subst same
      have unused := isNew.unused
      rw [if_pos (beq_self_eq_true call), if_pos isNew.drawn]
      omega
    · rw [if_neg (by simpa using same)]
      exact once }

end

variable {entry : AcceptCallbackQueueEntry Token}

theorem remove (custody : Custody loose socket)
    {before after : List (AcceptCallbackQueueEntry Token)}
    (isSplit : socket.acceptQueue.callbackQueue = before ++ entry :: after)
    (isRest : queue.callbackQueue = before ++ after) :
    Custody (entry.id :: loose) { socket with acceptQueue := queue } := by
  have wasWaiting : socket.waiting = before.map AcceptCallbackQueueEntry.id ++
      entry.id :: after.map AcceptCallbackQueueEntry.id := by
    unfold waiting
    rw [isSplit, map_append, map_cons]
  have isWaiting : waiting { socket with acceptQueue := queue } =
      before.map AcceptCallbackQueueEntry.id ++ after.map AcceptCallbackQueueEntry.id := by
    unfold waiting
    rw [isRest, map_append]
  have kept := custody.kept
  have closed := custody.closed
  have inTurn := custody.inTurn
  rw [wasWaiting] at kept closed inTurn
  exact
    { custody with
      inTurn := by
        rw [isWaiting]
        exact inTurn.leave ((sublist_cons_self _ _).append_left _)
      kept := by
        intro call
        have isKept := kept call
        rw [isWaiting]
        show socket.accepted.count call = socket.finished.count call +
          (before.map AcceptCallbackQueueEntry.id ++
            after.map AcceptCallbackQueueEntry.id).count call +
          socket.draining.count call + (entry.id :: loose).count call
        rw [count_append, count_cons] at isKept
        rw [count_append, count_cons]
        omega
      closed := by
        intro isDrained
        have isNil := (closed isDrained).1
        rw [append_eq_nil_iff] at isNil
        exact absurd isNil.2 (cons_ne_nil _ _) }

theorem removeAll (custody : Custody loose socket) (isShut : socket.canReceive = false) :
    Custody (socket.waiting ++ loose) { socket with
      acceptQueue := socket.acceptQueue.popAllCallbackEntries.2
      drained := true } := { custody with
  inTurn := custody.inTurn.leave (nil_sublist _)
  kept := by
    intro call
    have kept := custody.kept call
    show socket.accepted.count call = socket.finished.count call + ([] : List Nat).count call +
      socket.draining.count call + (socket.waiting ++ loose).count call
    rw [count_append, count_nil]
    omega
  closed := fun _ => ⟨rfl, isShut⟩ }

variable {entries : List (AcceptCallbackQueueEntry Token)}

theorem draining_iff : Custody loose (socket.await (.draining entries)) ↔
      Custody (entries.map AcceptCallbackQueueEntry.id ++ loose) socket := by
  have isDraining (call : Nat) : (socket.await (.draining entries)).draining.count call =
      socket.draining.count call + (entries.map AcceptCallbackQueueEntry.id).count call := by
    rw [await_draining, count_append]
    rfl
  have isAccepting : (socket.await (.draining entries)).accepting = socket.accepting := by
    rw [await_accepting]
    exact append_nil _
  constructor
  · intro custody
    exact
      { custody with
        kept := by
          intro call
          have kept : socket.accepted.count call = socket.finished.count call +
              socket.waiting.count call + (socket.await (.draining entries)).draining.count call +
              loose.count call := custody.kept call
          rw [count_append]
          rw [isDraining] at kept
          omega
        once := isAccepting ▸ custody.once
        closing := fun defer mem => custody.closing defer (mem_append_left _ mem) }
  · intro custody
    exact
      { custody with
        kept := by
          intro call
          have kept := custody.kept call
          rw [count_append] at kept
          rw [isDraining]
          show socket.accepted.count call = socket.finished.count call +
            socket.waiting.count call + (socket.draining.count call +
              (entries.map AcceptCallbackQueueEntry.id).count call) + loose.count call
          omega
        once := isAccepting ▸ custody.once
        closing := fun defer mem =>
          custody.closing defer (by simpa [ListenerSocket.await] using mem) }

/-- A loose callback is dispatched. With a connection, it comes behind all that were served
and before all that are pending. -/
theorem dispatch {outcome : Outcome} (custody : Custody (call :: loose) socket)
    (isDispatch : outcome.dispatched? = some call)
    (isNext : InTurn (socket.served ++ outcome.served?.toList) socket.waiting) :
    Custody loose (socket.dispatch call outcome) := by
  have notReturned : outcome.returned? = none := by
    cases outcome with
    | returned => contradiction
    | completed _ _ | failed _ _ => rfl
  rw [dispatch_eq _ _ _ custody.not_finished]
  exact
    { custody with
      inTurn := by
        rw [record_served]
        exact isNext
      finished := by
        rw [record_dispatched, isDispatch]
        exact congrArg (· ++ [call]) custody.finished
      kept := by
        intro other
        have kept := custody.kept other
        show socket.accepted.count other = (socket.finished ++ [call]).count other +
          socket.waiting.count other + socket.draining.count other + loose.count other
        rw [count_cons] at kept
        rw [count_append, count_singleton]
        omega
      once := by
        rw [record_returned, notReturned, Option.toList_none, append_nil]
        exact custody.once }

theorem dispatch_failed (custody : Custody (call :: loose) socket) (error : Error) :
    Custody loose (socket.dispatch call (.failed call error)) := by
  apply custody.dispatch rfl
  simp only [served?, Option.toList_none, append_nil]
  exact custody.inTurn

/-- A loose callback becomes pending, when it comes behind all others. -/
theorem push (custody : Custody (entry.id :: loose) socket)
    (last : ∀ other ∈ socket.served ++ socket.waiting, other < entry.id)
    (undrained : socket.drained = false) : Custody loose (socket.pushCallbackEntry entry) where
  inTurn := by
    rw [pushCallbackEntry_waiting]
    exact custody.inTurn.join last
  finished := custody.finished
  kept := by
    intro other
    have kept := custody.kept other
    rw [pushCallbackEntry_waiting]
    show socket.accepted.count other = socket.finished.count other +
      (socket.waiting ++ [entry.id]).count other + socket.draining.count other + loose.count other
    rw [count_cons] at kept
    rw [count_append, count_singleton]
    omega
  once := custody.once
  closing := custody.closing
  closed := by
    intro isDrained
    have isFalse : false = true := undrained.symm.trans isDrained
    contradiction

theorem dispatchEof (custody : Custody (entries.map AcceptCallbackQueueEntry.id ++ loose) socket) :
    Custody loose (socket.dispatchEof entries) := by
  induction entries generalizing socket with
  | nil => exact custody
  | cons _ _ ih => exact ih (custody.dispatch_failed .eof)

/-! ### Accepts -/

section

variable (custody : Custody loose socket)
include custody

/-- An accept that fails has drawn a number all the same. -/
theorem called : Custody loose socket.called := { custody with
  once := by
    intro call
    refine Nat.le_trans (custody.once call) ?_
    show (if call < socket.calls then 1 else 0) ≤ if call < socket.calls + 1 then 1 else 0
    split
    · rw [if_pos (by omega)]
    · exact Nat.zero_le _ }

theorem isNew_called : IsNew socket.called socket.calls where
  drawn := Nat.lt_succ_self _
  unused := by
    have once := custody.once socket.calls
    rw [if_neg (Nat.lt_irrefl _)] at once
    exact Nat.le_zero.mp once
  last := fun _ mem => custody.lt_calls mem

theorem returns {call : Nat} (isNew : IsNew socket call) (connection : Nat) :
    Custody loose (socket.record (.returned call connection)) := { custody with
  inTurn := by
    rw [record_served]
    simp only [served?, Option.toList, append_nil]
    exact custody.inTurn
  finished := by
    rw [record_dispatched]
    simp only [dispatched?, Option.toList, append_nil]
    exact custody.finished
  once := by
    intro other
    have once := (custody.succeed isNew).once other
    have isAccepted : (socket.succeed call).accepted = socket.accepted ++ [call] := rfl
    rw [isAccepted, count_append] at once
    rw [record_returned, count_append]
    show socket.returned.count other + [call].count other + socket.accepted.count other +
      socket.accepting.count other ≤ if other < socket.calls then 1 else 0
    refine Nat.le_trans (Nat.le_of_eq ?_) once
    show _ = socket.returned.count other + (socket.accepted.count other + [call].count other) +
      socket.accepting.count other
    omega }

/-- An asynchronous accept is served at once, when none is pending. -/
theorem complete {call : Nat} (isNew : IsNew socket call) (alone : socket.waiting = [])
    (connection : Nat) : Custody loose (socket.complete call connection) := by
  apply (custody.succeed isNew).dispatch rfl
  show InTurn (socket.served ++ [call]) socket.waiting
  have inTurn := custody.inTurn
  rw [alone] at inTurn ⊢
  apply inTurn.serve_last
  intro other mem
  exact isNew.last other (mem_append_left _ mem)

theorem enqueue (isNew : IsNew socket entry.id) (undrained : socket.drained = false) :
    Custody loose (socket.enqueue entry) :=
  (custody.succeed isNew).push isNew.last undrained

/-- An asynchronous accept goes on behind its announcements. -/
theorem await_new (isNew : IsNew socket entry.id) : Custody loose
    (socket.await (.accepting entry)) := { custody with
  kept := by
    rw [await_draining]
    simp only [Activity.draining?, append_nil]
    exact custody.kept
  once := by
    intro other
    have once := (custody.succeed isNew).once other
    have isAccepted : (socket.succeed entry.id).accepted = socket.accepted ++ [entry.id] := rfl
    rw [isAccepted, count_append] at once
    rw [await_accepting, count_append]
    refine Nat.le_trans (Nat.le_of_eq ?_) once
    show socket.returned.count other + socket.accepted.count other +
        (socket.accepting.count other + [entry.id].count other) =
      socket.returned.count other + (socket.accepted.count other + [entry.id].count other) +
        socket.accepting.count other
    omega
  closing := fun defer mem =>
    custody.closing defer (by simpa [ListenerSocket.await] using mem) }

end

/-- Behind its announcements, an accept is new when it comes behind all others. -/
theorem resume (custody : Custody loose (socket.await (.accepting entry)))
    (last : ∀ other ∈ socket.served ++ socket.waiting, other < entry.id) :
    Custody loose socket ∧ IsNew socket entry.id := by
  have once (call : Nat) : socket.returned.count call + socket.accepted.count call +
      (socket.accepting.count call + [entry.id].count call) ≤
        if call < socket.calls then 1 else 0 := by
    have isBound := custody.once call
    rw [await_accepting, count_append] at isBound
    exact isBound
  have atEntry := once entry.id
  rw [count_singleton_self] at atEntry
  constructor
  · exact
      { custody with
        kept := by
          have kept := custody.kept
          rw [await_draining] at kept
          simp only [Activity.draining?, append_nil] at kept
          exact kept
        once := by
          intro call
          have bound := once call
          omega
        closing := fun defer mem => custody.closing defer (mem_append_left _ mem) }
  · split at atEntry
    · rename_i drawn
      exact ⟨drawn, by omega, last⟩
    · omega

end Custody

end NtfCore.Ntcr.Listening
