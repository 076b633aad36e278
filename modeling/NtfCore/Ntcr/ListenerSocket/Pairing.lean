import NtfCore.Ntcr.ListenerSocket.Custody

/-!
Contract: how a listener socket pairs connections with accepts.

Owns: what accepts, connections and callbacks are to satisfy; the condition on critical
sections under which they do; the invariant that ties the two queues of the socket to what
has happened, kept by every section that meets the condition; and the run in which an
accept overtakes one that is pending.
-/

namespace NtfCore.Ntcr.Listening

open NtfCore.Foundation NtfCore.Foundation.Turns NtfCore.Ntcq ListenerSocket List
open AcceptQueue

variable {Token : Type}

structure Paired (socket : ListenerSocket Token) : Prop where
  /-- A connection taken is delivered to one accept, or stays in the queue. -/
  once : ∀ connection < socket.taken,
    socket.delivered.count connection + socket.acceptQueue.entryList.count connection = 1
  /-- An accept is given at most one connection. -/
  single : (socket.returned ++ socket.served).Nodup
  /-- Connections are delivered as they were taken. -/
  inOrder : (socket.delivered ++ socket.acceptQueue.entryList).Pairwise (· < ·)
  /-- Asynchronous accepts are served as they were called. -/
  inTurn : (socket.served ++ socket.waiting).Pairwise (· < ·)
  atMostOnce : ∀ call, socket.dispatched.count call ≤ 1
  /-- Behind the shutdown every accept that succeeded has had its callback. -/
  exactlyOnce : socket.drained = true -> socket.draining = [] ->
    ∀ call ∈ socket.accepted, socket.dispatched.count call = 1
  /-- Connections and callbacks wait together only while a readable event is processed. -/
  apart : (∀ phase, Activity.iterating phase ∉ socket.activities) ->
    socket.acceptQueue.entryList = [] ∨ socket.acceptQueue.callbackQueue = []

/-- An asynchronous accept does not take a connection from the backlog while others are
pending; and one that goes on behind its announcements comes before no later one, finds
the callbacks not drained by a shutdown, and finds no connection in the queue, unless a
readable event is about to serve it. -/
def MayTake (socket : ListenerSocket Token) : Action Token -> Prop
  | .acceptAsync _ reply =>
    socket.acceptGreedily = true -> privateDequeueBacklog reply = .connection ->
      (socket.acceptQueue.hasEntry || socket.canReceive) = true ->
        socket.acceptQueue.callbackQueue = []
  | .proceed index _ =>
    match socket.activities[index]? with
    | some (.accepting entry) =>
      (∀ call ∈ socket.served ++ socket.waiting, call < entry.id) ∧ socket.drained = false ∧
        (socket.acceptQueue.entryList = [] ∨
          Activity.iterating .serving ∈ socket.activities)
    | _ => True
  | _ => True

def Attended (socket : ListenerSocket Token) : Prop :=
  socket.acceptQueue.entryList = [] ∨ socket.acceptQueue.callbackQueue = [] ∨
    Activity.iterating .serving ∈ socket.activities

structure Invariant (socket : ListenerSocket Token) : Prop where
  connections : Drawn socket.delivered socket.acceptQueue.entryList socket.taken
  custody : Custody [] socket
  attended : Attended socket

variable {socket : ListenerSocket Token}

/-- Connections and callbacks do not come to wait together. -/
theorem Attended.mono {next : ListenerSocket Token} (attended : Attended socket)
    (entries : socket.acceptQueue.entryList = [] -> next.acceptQueue.entryList = [])
    (callbacks : socket.acceptQueue.callbackQueue = [] -> next.acceptQueue.callbackQueue = [])
    (activities : Activity.iterating .serving ∈ socket.activities ->
      Activity.iterating .serving ∈ next.activities) : Attended next := by
  rcases attended with noEntry | noCallback | serving
  · exact .inl (entries noEntry)
  · exact .inr (.inl (callbacks noCallback))
  · exact .inr (.inr (activities serving))

theorem Attended.dispatch (attended : Attended socket) (call : Nat)
    (outcome : Outcome) : Attended (socket.dispatch call outcome) := by
  unfold Attended
  rw [dispatch_acceptQueue, dispatch_activities]
  exact attended

theorem Attended.await (attended : Attended socket)
    (activity : Activity Token) : Attended (socket.await activity) :=
  attended.mono id id fun serving => mem_append_left _ serving

theorem mem_resumed {index : Nat} {activity other : Activity Token}
    (found : socket.activities[index]? = some activity) (differs : other ≠ activity)
    (mem : other ∈ socket.activities) : other ∈ (socket.resumed index).activities := by
  obtain ⟨before, after, isSplit, isErased⟩ : ∃ before after,
      socket.activities = before ++ _ :: after ∧
        (socket.resumed index).activities = _ ++ _ := Lists.eraseIdx_split found
  rw [isErased]
  rw [isSplit] at mem
  rcases mem_append.mp mem with isBefore | isAfter
  · exact mem_append_left _ isBefore
  · rcases mem_cons.mp isAfter with isFound | later
    · contradiction
    · exact mem_append_right _ later

namespace Invariant

variable {socket : ListenerSocket Token} {activity : Activity Token}

/-- An activity that keeps no callback changes nothing. -/
theorem await (inv : Invariant socket) (idle : activity.Idle)
    (closing : ∀ defer, Activity.closing defer = activity -> socket.canReceive = false) :
    Invariant (socket.await activity) := { inv with
  custody := inv.custody.await idle closing
  attended := inv.attended.mono id id fun serving => mem_append_left _ serving }

/-- Watermarks change nothing. -/
theorem requeue (inv : Invariant socket) {queue : AcceptQueue Token}
    (entries : queue.entryList = socket.acceptQueue.entryList)
    (callbacks : queue.callbackQueue = socket.acceptQueue.callbackQueue) :
    Invariant { socket with acceptQueue := queue } where
  connections := entries ▸ inv.connections
  custody := inv.custody.requeue callbacks
  attended := inv.attended.mono (fun noEntry => entries.trans noEntry)
    (fun noCallback => callbacks.trans noCallback) id

/-- One turn of the loop of a readable event. -/
theorem serve (connections : Drawn socket.delivered socket.acceptQueue.entryList socket.taken)
    (custody : Custody [] socket) : Invariant socket.serve := by
  unfold ListenerSocket.serve
  cases isPopped : socket.acceptQueue.popCallbackEntry with
  | none =>
    refine
      { connections := ?_
        custody := (custody.requeue (authorizeLow_keeps _).2).await
            ⟨rfl, rfl⟩ nofun
        attended := ?_ }
    · show Drawn socket.delivered socket.acceptQueue.authorizeLowWatermarkEvent.2.entryList
        socket.taken
      rw [(authorizeLow_keeps _).1]
      exact connections
    · show socket.acceptQueue.authorizeLowWatermarkEvent.2.entryList = [] ∨
        socket.acceptQueue.authorizeLowWatermarkEvent.2.callbackQueue = [] ∨ _
      rw [(authorizeLow_keeps _).1, (authorizeLow_keeps _).2]
      exact (popCallbackEntry_none isPopped).imp_right .inl
  | some popped =>
    obtain ⟨entry, queue⟩ := popped
    obtain ⟨isFront, sameEntries, connection, _, isCons⟩ := popCallbackEntry_some isPopped
    have isConnection : queue.frontEntry = some connection := by
      unfold frontEntry
      rw [sameEntries, isCons]
      rfl
    have isSplit : socket.acceptQueue.callbackQueue = [] ++ entry :: queue.callbackQueue := isFront
    have loose := (custody.remove isSplit rfl).popEntry
    have isNext : InTurn (socket.served ++ [entry.id])
        (queue.popEntry.callbackQueue.map AcceptCallbackQueueEntry.id) := by
      rw [popEntry_callbackQueue]
      have inTurn := custody.inTurn
      unfold waiting at inTurn
      rw [isFront, map_cons] at inTurn
      exact inTurn.serve
    dsimp only
    rw [isConnection]
    have dispatched : Custody [] (dispatch _ entry.id
        (.completed entry.id connection)) := loose.dispatch rfl isNext
    refine
      { connections := ?_
        custody := dispatched.await ⟨rfl, rfl⟩ nofun
        attended := .inr (.inr (mem_append_right _ mem_cons_self)) }
    show Drawn (delivered (dispatch _ entry.id _)) (dispatch _ entry.id _).acceptQueue.entryList
      (dispatch _ entry.id _).taken
    rw [dispatch_delivered _ _ _ loose.not_finished, dispatch_acceptQueue, dispatch_taken]
    show Drawn (socket.delivered ++ [connection]) queue.popEntry.entryList socket.taken
    rw [popEntry_entryList, sameEntries, isCons]
    rw [isCons] at connections
    exact connections.serve

section

variable (inv : Invariant socket)
include inv

theorem privateSocketReadableIteration (reply : BacklogReply) :
    Invariant (socket.privateSocketReadableIteration reply) := by
  unfold ListenerSocket.privateSocketReadableIteration
  split
  · exact inv
  · split
    · exact inv
    · exact inv.await ⟨rfl, rfl⟩ nofun
    · exact inv.await ⟨rfl, rfl⟩ nofun
    · have same : (socket.acceptQueue.pushEntry socket.taken).callbackQueue =
          socket.acceptQueue.callbackQueue := rfl
      exact serve inv.connections.join (inv.custody.requeue same).take

theorem processSocketReadable (reply : BacklogReply) :
    Invariant (socket.processSocketReadable reply) := by
  unfold ListenerSocket.processSocketReadable
  split
  · exact inv.privateSocketReadableIteration reply
  · exact inv

/-- A call that fails changes nothing else. -/
theorem called : Invariant socket.called := { inv with
  custody := inv.custody.called }

/-- Where an accept is given the front of the queue, or the next connection when there is
none, its outcome keeps the order of the connections. -/
theorem popEntry_connections {connection : Nat}
    (isFront : socket.acceptQueue.frontEntry = some connection) :
    Drawn (socket.delivered ++ [connection]) socket.acceptQueue.popEntry.entryList
      socket.taken := by
  obtain ⟨_, isCons⟩ := head?_eq_some_iff.mp isFront
  have connections := inv.connections
  rw [popEntry_entryList]
  rw [isCons] at connections ⊢
  exact connections.serve

theorem take_connections (isNil : socket.acceptQueue.entryList = []) :
    Drawn (socket.delivered ++ [socket.taken]) socket.acceptQueue.entryList (socket.taken + 1) := by
  have connections := inv.connections
  rw [isNil] at connections ⊢
  exact connections.serve_next

theorem popEntry_attended : Attended socket.popEntry := by
  apply inv.attended.mono
  · intro noEntry
    show socket.acceptQueue.popEntry.entryList = []
    rw [popEntry_entryList, noEntry, tail_nil]
  · intro noCallback
    exact (popEntry_callbackQueue _).trans noCallback
  · exact id

theorem accept (reply : BacklogReply) : Invariant (socket.accept reply).2 := by
  have isNew := inv.custody.isNew_called
  unfold ListenerSocket.accept
  cases isFront : socket.acceptQueue.frontEntry with
  | some =>
    refine
      { connections := ?_
        custody := inv.called.custody.popEntry.returns isNew.popEntry _
        attended := inv.called.popEntry_attended }
    rw [record_delivered]
    exact inv.popEntry_connections isFront
  | none =>
    have isNil : socket.acceptQueue.entryList = [] := head?_eq_none_iff.mp isFront
    dsimp only
    split
    · exact inv.called
    · split
      · split
        · refine
            { connections := ?_
              custody := inv.called.custody.take.returns isNew.take _
              attended := .inl isNil }
          rw [record_delivered]
          exact inv.take_connections isNil
        · exact inv.called
        · exact inv.called
      · exact inv.called

end

/-- An asynchronous accept is served with a connection in hand, when none is pending. -/
theorem complete {call connection : Nat} (custody : Custody [] socket) (isNew : IsNew socket call)
    (alone : socket.acceptQueue.callbackQueue = [])
    (connections : Drawn (socket.delivered ++ [connection]) socket.acceptQueue.entryList
      socket.taken) : Invariant (socket.complete call connection) where
  connections := by
    unfold ListenerSocket.complete
    rw [dispatch_delivered _ _ _ (custody.succeed isNew).not_finished, dispatch_acceptQueue,
      dispatch_taken]
    exact connections
  custody := by
    apply custody.complete isNew
    unfold waiting
    rw [alone, map_nil]
  attended := by
    apply Or.inr
    apply Or.inl
    unfold ListenerSocket.complete
    rw [dispatch_acceptQueue]
    exact alone

/-- An asynchronous accept becomes pending, where no connection waits for it. -/
theorem enqueue {entry : AcceptCallbackQueueEntry Token} (custody : Custody [] socket)
    (isNew : IsNew socket entry.id) (undrained : socket.drained = false)
    (connections : Drawn socket.delivered socket.acceptQueue.entryList socket.taken)
    (matching : socket.acceptQueue.entryList = [] ∨
      Activity.iterating .serving ∈ socket.activities) : Invariant (socket.enqueue entry) where
  connections := connections
  custody := custody.enqueue isNew undrained
  attended := matching.imp_right .inr

section

variable (inv : Invariant socket)
include inv

/-- Behind a shutdown, an accept that comes to anything finds a connection to serve. -/
theorem undrained (isOpen : (socket.acceptQueue.hasEntry || socket.canReceive) = true)
    (unmatched : socket.acceptQueue.entryList = [] ∨ socket.acceptQueue.callbackQueue ≠ []) :
    socket.drained = false := by
  cases isDrained : socket.drained with
  | false => rfl
  | true =>
    obtain ⟨noneWaits, isShut⟩ := inv.custody.closed isDrained
    have noCallback := map_eq_nil_iff.mp noneWaits
    have noEntry := unmatched.resolve_right (not_not_intro noCallback)
    simp [hasEntry, noEntry, isShut] at isOpen

theorem acceptAsync (options : AcceptOptions Token) (reply : BacklogReply)
    (may : MayTake socket (.acceptAsync options reply)) :
    Invariant (socket.acceptAsync options reply).2 := by
  have isNew := inv.custody.isNew_called
  unfold ListenerSocket.acceptAsync
  split
  · exact inv.called
  · rename_i notEof
    have isOpen : (socket.acceptQueue.hasEntry || socket.canReceive) = true := by
      cases hasEntry : socket.acceptQueue.hasEntry with
      | true => rfl
      | false => simpa [hasEntry] using notEof
    split
    · rename_i connection isFront noCallback
      have alone : socket.acceptQueue.callbackQueue = [] := by
        simpa [hasCallbackEntry] using noCallback
      apply complete inv.called.custody.popEntry isNew.popEntry
      · exact (popEntry_callbackQueue _).trans alone
      · exact inv.popEntry_connections isFront
    · rename_i notBoth
      have unmatched : socket.acceptQueue.entryList = [] ∨
          socket.acceptQueue.callbackQueue ≠ [] := by
        cases isEntries : socket.acceptQueue.entryList with
        | nil => exact .inl rfl
        | cons connection =>
          refine .inr fun alone => notBoth connection ?_ ?_
          · simp [frontEntry, isEntries]
          · simp [hasCallbackEntry, alone]
      have matching : socket.acceptQueue.entryList = [] ∨
          Activity.iterating .serving ∈ socket.activities := by
        rcases inv.attended with noEntry | noCallback | serving
        · exact .inl noEntry
        · exact .inl (unmatched.resolve_right (not_not_intro noCallback))
        · exact .inr serving
      have undrained := inv.undrained isOpen unmatched
      have enqueued : Invariant (socket.called.enqueue ⟨socket.calls, options⟩) :=
        enqueue inv.called.custody isNew undrained inv.connections matching
      split
      · rename_i greedy
        split
        · rename_i isTaken
          have alone := may greedy isTaken isOpen
          have isNil := unmatched.resolve_right (not_not_intro alone)
          exact complete inv.called.custody.take isNew.take alone (inv.take_connections isNil)
        · exact enqueued
        · exact
            { inv with
              custody := inv.called.custody.await_new isNew
              attended := inv.attended.mono id id fun serving =>
                mem_append_left _ serving }
        · exact inv.called
      · exact enqueued

theorem dismiss (error : Error) {selects : AcceptCallbackQueueEntry Token -> Bool} :
    Invariant (socket.dismiss error (socket.acceptQueue.removeFirst selects)) := by
  cases isRemoved : socket.acceptQueue.removeFirst selects with
  | none => exact inv
  | some removed =>
    obtain ⟨_, queue⟩ := removed
    obtain ⟨sameEntries, _, _, isSplit, isRest⟩ := removeFirst_some isRemoved
    refine
      { connections := ?_
        custody := (inv.custody.remove isSplit isRest).dispatch_failed error
        attended := ?_ }
    · unfold ListenerSocket.dismiss
      rw [dispatch_failed_delivered, dispatch_acceptQueue, dispatch_taken]
      rw [sameEntries]
      exact inv.connections
    · unfold ListenerSocket.dismiss
      unfold Attended
      rw [dispatch_acceptQueue, dispatch_activities]
      rw [sameEntries, isRest]
      rcases inv.attended with noEntry | noCallback | serving
      · exact .inl noEntry
      · rw [isSplit, append_eq_nil_iff] at noCallback
        exact absurd noCallback.2 (cons_ne_nil _ _)
      · exact .inr (.inr serving)

theorem privateShutdown (defer : Bool) : Invariant (socket.privateShutdown defer) := by
  unfold ListenerSocket.privateShutdown
  split
  · have isShut : Invariant { socket with canReceive := false } :=
      { inv with
        custody :=
          { inv.custody with
            closing := fun _ _ => rfl
            closed := fun isDrained => ⟨(inv.custody.closed isDrained).1, rfl⟩ } }
    exact isShut.await ⟨rfl, rfl⟩ fun _ _ => rfl
  · exact inv

theorem privateShutdownSequenceComplete (isShut : socket.canReceive = false) (defer : Bool) :
    Invariant (socket.privateShutdownSequenceComplete defer) := by
  have loose := inv.custody.removeAll isShut
  unfold ListenerSocket.privateShutdownSequenceComplete
  split
  · obtain ⟨isDelivered, isQueue, isTaken⟩ := dispatchEof_frame
      { socket with
        acceptQueue := socket.acceptQueue.popAllCallbackEntries.2
        drained := true } socket.acceptQueue.popAllCallbackEntries.1
    exact
      { connections := by
          rw [isDelivered, isQueue, isTaken]
          exact inv.connections
        custody := loose.dispatchEof
        attended := by
          apply Or.inr
          apply Or.inl
          rw [isQueue]
          rfl }
  · exact
      { inv with
        custody := Custody.draining_iff.mpr loose
        attended := .inr (.inl rfl) }

end

/-! ### Activities -/

variable {index : Nat}

section

variable (inv : Invariant socket)
include inv

section

variable (found : socket.activities[index]? = some activity)
include found

/-- Unless the loop of a readable event goes on, the queues are as attended as before. -/
theorem resumed_attended (notServing : .iterating .serving ≠ activity) :
    Attended (socket.resumed index) :=
  inv.attended.mono id id (mem_resumed found notServing)

theorem resumed (idle : activity.Idle) (notServing : .iterating .serving ≠ activity) :
    Invariant (socket.resumed index) := { inv with
  custody := (inv.custody.shift found).drop idle
  attended := inv.resumed_attended found notServing }

theorem proceed (reply : BacklogReply) (may : MayTake socket (.proceed index reply)) :
    Invariant ((socket.resumed index).proceed reply activity) := by
  have shifted := inv.custody.shift found
  cases activity with
  | iterating phase =>
    cases phase with
    | blocked => exact inv.resumed found ⟨rfl, rfl⟩ nofun
    | serving =>
      have dropped := shifted.drop ⟨rfl, rfl⟩
      have connections : Drawn (socket.resumed index).delivered
          (socket.resumed index).acceptQueue.entryList (socket.resumed index).taken :=
        inv.connections
      exact serve connections dropped
    | lowWatermark =>
      have resumed := inv.resumed found ⟨rfl, rfl⟩ nofun
      exact (resumed.requeue (authorizeHigh_keeps _).1
        (authorizeHigh_keeps _).2).await ⟨rfl, rfl⟩ nofun
    | highWatermark =>
      have resumed := inv.resumed found ⟨rfl, rfl⟩ nofun
      show Invariant (iterateAgain _ reply)
      unfold iterateAgain
      split
      · exact resumed.processSocketReadable reply
      · exact resumed
  | failing => exact (inv.resumed found ⟨rfl, rfl⟩ nofun).privateShutdown false
  | closing defer =>
    exact (inv.resumed found ⟨rfl, rfl⟩ nofun).privateShutdownSequenceComplete
      (inv.custody.closing defer (mem_of_getElem? found)) defer
  | draining entries =>
    have loose := Custody.draining_iff.mp shifted
    have attended := inv.resumed_attended found nofun
    cases entries with
    | nil => exact ⟨inv.connections, loose, attended⟩
    | cons entry =>
      refine
        { connections := ?_
          custody := Custody.draining_iff.mpr (loose.dispatch_failed .eof)
          attended := (attended.dispatch _ _).await _ }
      show Drawn (delivered (dispatch _ _ _)) (dispatch _ _ _).acceptQueue.entryList
        (dispatch _ _ _).taken
      rw [dispatch_failed_delivered, dispatch_acceptQueue, dispatch_taken]
      exact inv.connections
  | accepting =>
    simp only [MayTake, found] at may
    obtain ⟨last, undrained, matching⟩ := may
    obtain ⟨custody, isNew⟩ := shifted.resume last
    exact enqueue custody isNew undrained inv.connections
      (matching.imp_right (mem_resumed found nofun))

end

/-- Every critical section that meets the condition keeps the invariant. -/
theorem step [DecidableEq Token] {action : Action Token} {next : ListenerSocket Token}
    (may : MayTake socket action) (stepped : step socket action = some next) : Invariant next := by
  cases action with
  | accept reply =>
    cases stepped
    exact inv.accept reply
  | acceptAsync options reply =>
    cases stepped
    exact inv.acceptAsync options reply may
  | readable reply =>
    cases stepped
    exact inv.processSocketReadable reply
  | socketError =>
    cases stepped
    exact inv.await ⟨rfl, rfl⟩ nofun
  | proceed index reply =>
    simp only [Listening.step] at stepped
    cases found : socket.activities[index]? with
    | none =>
      rw [found] at stepped
      contradiction
    | some =>
      rw [found] at stepped
      cases stepped
      exact inv.proceed found reply may
  | acceptDeadline =>
    obtain ⟨_, rfl⟩ := Run.guarded stepped
    exact inv.dismiss .wouldBlock
  | cancel =>
    cases stepped
    exact inv.dismiss .cancelled
  | shutdown =>
    cases stepped
    exact inv.privateShutdown true
  | setAcceptQueueLowWatermark low | setAcceptQueueHighWatermark _ =>
    cases stepped
    exact inv.requeue rfl rfl

end

theorem start (acceptGreedily isEdge : Bool) (low high : Nat) :
    Invariant (start acceptGreedily isEdge low high : ListenerSocket Token) where
  connections := rfl
  custody :=
    { inTurn := InTurn.nil
      finished := rfl
      kept := fun _ => rfl
      once := fun _ => Nat.zero_le _
      closing := nofun
      closed := nofun }
  attended := .inl rfl

theorem paired (inv : Invariant socket) : Paired socket := { inv.custody with
  once := fun _ isTaken => inv.connections.count_eq_one isTaken
  single := by
    rw [nodup_iff_count_le_one]
    intro call
    have served := inv.custody.served_le call
    have kept := inv.custody.kept call
    have once := inv.custody.once call
    rw [count_append]
    split at once
    · omega
    · omega
  inOrder := inv.connections.pairwise
  atMostOnce := by
    intro call
    have kept := inv.custody.kept call
    have once := inv.custody.once call
    rw [← inv.custody.finished]
    split at once
    · omega
    · omega
  exactlyOnce := by
    intro isDrained noneDraining call isAccepted
    have isCounted := count_pos_iff.mpr isAccepted
    have kept := inv.custody.kept call
    have once := inv.custody.once call
    rw [(inv.custody.closed isDrained).1, noneDraining, inv.custody.finished] at kept
    split at once
    · omega
    · omega
  apart := by
    intro notIterating
    rcases inv.attended with noEntry | noCallback | serving
    · exact .inl noEntry
    · exact .inr noCallback
    · exact absurd serving (notIterating _) }

end Invariant

instance decidableMayTake [DecidableEq Token] (socket : ListenerSocket Token) :
    (action : Action Token) -> Decidable (MayTake socket action)
  | .acceptAsync _ reply => inferInstanceAs (Decidable (socket.acceptGreedily = true ->
      privateDequeueBacklog reply = .connection ->
        (socket.acceptQueue.hasEntry || socket.canReceive) = true ->
          socket.acceptQueue.callbackQueue = []))
  | .proceed index _ => by
    unfold MayTake
    dsimp only
    split
    · infer_instance
    · infer_instance
  | .accept _ | .readable _ | .socketError | .acceptDeadline _ | .cancel _ | .shutdown
  | .setAcceptQueueLowWatermark _ | .setAcceptQueueHighWatermark _ => isTrue trivial

/-- In every run whose critical sections meet the condition, connections and callbacks are
paired in every state. -/
theorem always_paired [DecidableEq Token] (acceptGreedily isEdge : Bool)
    (lowWatermark highWatermark : Nat) (actions : List (Action Token))
    (may : Run.Along step MayTake (start acceptGreedily isEdge lowWatermark highWatermark)
      actions) :
    Run.Always step Paired (start acceptGreedily isEdge lowWatermark highWatermark) actions :=
  (Run.always_of_along (fun _ _ _ inv meets stepped => Invariant.step inv meets stepped)
    (Invariant.start acceptGreedily isEdge lowWatermark highWatermark) may).mono
      fun _ inv => inv.paired

/-- A greedy socket whose first accept meets the limit of descriptors, and goes on behind
its announcements; two connections come, and one more when the socket is shut down. -/
def limitReached : List (Action Nat) :=
  [.acceptAsync { deadline := some 5 } { accepted := some .limit }, .proceed 0 {},
    .acceptAsync { token := some 7 } { accepted := some .wouldBlock }, .readable {},
    .proceed 0 {}, .proceed 0 {}, .cancel 7, .proceed 0 { accepted := some .wouldBlock },
    .readable {}, .proceed 0 {}, .proceed 0 {}, .proceed 0 { accepted := some .wouldBlock },
    .acceptAsync { recurse := true } {}, .accept {}, .acceptDeadline 0, .shutdown, .proceed 0 {},
    .proceed 0 {}]

theorem always_paired_limitReached :
    Run.Always step Paired (start true false 1 1024) limitReached :=
  always_paired true false 1 1024 limitReached
    ⟨by decide +kernel, by decide +kernel, by decide +kernel, trivial, trivial, trivial, trivial,
      trivial, trivial, trivial, trivial, trivial, by decide +kernel, trivial, trivial, trivial,
      trivial, trivial, trivial⟩

/-- An accept finds no connection and is pending. A connection comes, and the next accept
of the greedy socket takes it. -/
theorem not_always_paired : ¬ ∀ (acceptGreedily isEdge : Bool) (lowWatermark highWatermark : Nat)
    (actions : List (Action Nat)),
    Run.Always step Paired (start acceptGreedily isEdge lowWatermark highWatermark) actions := by
  intro all
  obtain ⟨_, _, paired⟩ := all true false 1 1024
    [.acceptAsync {} { accepted := some .wouldBlock }, .acceptAsync {} {}]
  exact absurd paired.inTurn (by decide +kernel)

end NtfCore.Ntcr.Listening
