import NtfCore.Ntcr.StreamSocket.Lifecycle.Announcing

/-!
Contract: what the connect callback is told of the attempts to connect.

Owns: the condition under which the failures of the attempts are dispatched in order, each
with its error, before a connection that is dispatched last; and that no more attempts are
started than were asked for, one at a time.
-/

namespace NtfCore.Ntcr.StreamSocket.Lifecycle

open NtfCore.Foundation List Classical Consistency
open Socket

namespace Retrying

variable {socket after : Socket}

/-! ## Frames of a connection -/

def Proceeds (socket : Socket) (frame : Frame) : Outcome -> Prop
  | .continues after frames => Carries socket [frame] after frames ∧ Stands after frames.head?
  | .releases after frames => Carries socket [frame] after frames ∧ Released after

variable {frame : Frame}

theorem Released.ready (released : Released socket) (rests : Rests frame) : Ready socket frame := by
  cases frame with
  | privateFailConnect | privateFailConnectPart2 | connectToEndpoint => exact rests.elim
  | _ => exact released

theorem proceeds_behind {frame next : Frame} (announced : Bool)
    (carries : Carries socket [frame] after [next]) (released : Released after)
    (rests : Rests next) : Proceeds socket frame (after.behind announced next) := by
  unfold behind
  split
  · exact ⟨carries, released⟩
  · exact ⟨carries, released.ready rests⟩

variable {all : List ConnectEvent}

/-- An event is added to those that were and are to be dispatched. -/
theorem Announces.push (announces : Announces socket all)
    (isEvents : after.connectEvents = socket.connectEvents) {new : List ConnectEvent}
    (single : new.length ≤ 1) (sincere : ∀ event ∈ new, Sincere event)
    (below : ∀ event ∈ all, ∀ other ∈ new, rank other < rank event)
    (later : after.connectInProgress = true -> ∀ event ∈ all ++ new, after.retryCount < rank event ∨
        after.retryCount = rank event ∧ after.connectError.isSome = true)
    (notDefault : after.openState ≠ .default) : Announces after (all ++ new) where
  sincere event mem := by
    obtain isOlder | isNew := mem_append.mp mem
    · exact announces.sincere event isOlder
    · exact sincere event isNew
  distinct := by
    rw [map_append, nodup_append]
    refine ⟨announces.distinct, ?_, ?_⟩
    · obtain isNone | ⟨event, isSingle⟩ :=
        (Nat.le_one_iff_eq_zero_or_eq_one.mp single).imp length_eq_zero_iff.mp length_eq_one_iff.mp
      · rw [isNone]
        exact nodup_nil
      · rw [isSingle]
        simp
    · intro _ isOlder _ isNewer
      obtain ⟨event, isEvent, _⟩ := mem_map.mp isOlder
      obtain ⟨other, isOther, _⟩ := mem_map.mp isNewer
      have isBelow := below event isEvent other isOther
      omega
  ordered := by
    rw [isEvents]
    exact announces.ordered
  later := later
  fresh isDefault := absurd isDefault notDefault

theorem announced_length (failure : Failure) : (announced failure).length ≤ 1 := by
  unfold announced
  split <;> simp

variable {failure : Failure} {event : ConnectEvent}

theorem mem_announced (mem : event ∈ announced failure) : event = failure.connectEvent := by
  unfold announced at mem
  split at mem
  · exact mem_singleton.mp mem
  · exact absurd mem not_mem_nil

variable {error : Option Error} {retryCount : Nat}

theorem markFailed_sound (sound : Sound socket) (progress : socket.connectInProgress = true)
    (isCount : retryCount = 0 ∨ retryCount = socket.retryCount) (isError : error.isSome = true) :
    Sound ({ socket with retryCount := retryCount }.markFailed error) := by
  unfold markFailed failForGood
  split
  · exact { sound with
      attempts := nofun
      remembered := nofun
      waiting := nofun
      connecting := fun _ => rfl
      fresh := nofun }
  · rename_i remains
    have isSame : retryCount = socket.retryCount := isCount.resolve_left remains
    exact { sound with
      attempts := fun _ => isSame ▸ sound.attempts progress
      remembered := fun _ _ => Nat.pos_of_ne_zero remains
      waiting := fun _ => .inl isError
      connecting := nofun
      fresh := nofun }

/-- What a failed attempt adds to the events, whether the socket is detached first or not. -/
theorem markFailed_announces (after : Socket) (isError : error.isSome = true)
    (isAnnounced : Announces socket all) (below : ∀ event ∈ all, retryCount < rank event)
    (defer : Bool) (isConnection : after.connection =
      ({ socket with retryCount := retryCount }.markFailed error).connection)
    (isState : after.openState =
      ({ socket with retryCount := retryCount }.markFailed error).openState) :
    Announces after (all ++ announced
        (connectFailure { socket with retryCount := retryCount } error defer)) := by
  simp only [connection, Connection.mk.injEq] at isConnection
  obtain ⟨isProgress, isCount, _, isAfterError, _, _, _, isEvents, _, _⟩ := isConnection
  refine isAnnounced.push ?_ (announced_length _) ?_ ?_ ?_ ?_
  · rw [isEvents]
    unfold markFailed
    split <;> rfl
  · intro event mem
    rw [mem_announced mem]
    exact isError
  · intro event mem _ isOther
    rw [mem_announced isOther]
    exact below event mem
  · rw [isProgress, isCount, isAfterError]
    unfold markFailed failForGood
    split
    · intro impossible
      contradiction
    · intro _ event mem
      obtain isOlder | isNew := mem_append.mp mem
      · exact .inl (below event isOlder)
      · rw [mem_announced isNew]
        exact .inr ⟨rfl, isError⟩
  · rw [isState]
    unfold markFailed failForGood
    split <;> intro impossible <;> cases impossible

theorem failAttempt_proceeds (consistent : Consistency.Sound True socket) (sound : Sound socket)
    (progress : socket.connectInProgress = true) (idle : socket.detachMode = .idle)
    (isFrame : announces frame = []) (isCount : retryCount = 0 ∨ retryCount = socket.retryCount)
    (below : ∀ all, Announces socket all -> ∀ event ∈ all, retryCount < rank event)
    (isError : error.isSome = true) (defer detaches : Bool) : Proceeds socket frame
      ({ socket with retryCount := retryCount }.failAttempt error defer detaches) := by
  have hasNone : socket.detachments = [] := by simpa [idle] using consistent.pending
  have wasEvents (others : List Frame) :
      events socket ([frame] ++ others) = socket.connectEvents ++ others.flatMap announces := by
    simp [events, hasNone, isFrame]
  have marked := markFailed_sound sound progress isCount isError
  have announces (all : List ConnectEvent) (isAnnounced : Announces socket all) (after : Socket) :=
    markFailed_announces after isError isAnnounced (below all isAnnounced) defer
  have isEvents := markFailed_connectEvents { socket with retryCount := retryCount } error
  have isDetachments := markFailed_detachments
    { socket with retryCount := retryCount } error
  have idleCount : detachMode { socket with retryCount := retryCount } = .idle := idle
  obtain ⟨_, _, isResult⟩ | isResult := failAttempt_cases idleCount error defer detaches
  · rw [isResult]
    generalize { socket with retryCount := retryCount }.markFailed error = failed at *
    refine ⟨⟨{ marked with handled := nofun, detached := fun _ => rfl }, ?_⟩, fun _ => nofun⟩
    intro others isAnnounced
    rw [wasEvents] at isAnnounced
    refine (announces _ isAnnounced (failed.detaching _) rfl rfl).perm ?_
    simp only [events, detaching, isEvents, isDetachments, hasNone, detachment,
      nil_append, flatMap_cons, flatMap_nil, append_nil, append_assoc]
    exact Perm.append_left _ perm_append_comm
  · rw [isResult]
    generalize { socket with retryCount := retryCount }.markFailed error = failed at *
    have deregisters : (failed.attached && !failed.handle) = false := by
      cases isAttached : failed.attached with
      | false => rfl
      | true => simp [marked.handled isAttached]
    refine ⟨⟨?_, ?_⟩, deregisters⟩
    · exact { marked with
        handled := fun isAttached =>
          absurd (deregisters.symm.trans isAttached) Bool.false_ne_true
        detached := fun _ => deregisters }
    · intro _ isAnnounced
      rw [wasEvents] at isAnnounced
      refine (announces _ isAnnounced failed.deregistered rfl rfl).perm ?_
      simp only [events, deregistered, isEvents, isDetachments, hasNone,
        Retrying.announces, flatMap_cons, flatMap_nil, append_nil,
        append_assoc, cons_append, nil_append]
      exact Perm.append_left _ perm_append_comm

open Leaves

theorem privateFailConnect_proceeds (consistent : Consistency.Sound True socket)
    (sound : Sound socket) (rely : socket.connectInProgress = true -> socket.detachMode = .idle)
    {defer close : Bool}
    (ready : Ready socket (.privateFailConnect error defer close)) (detaches : Bool) :
    Proceeds socket (.privateFailConnect error defer close)
      (socket.privateFailConnect error defer close detaches) := by
  obtain ⟨isError, released⟩ := ready
  unfold privateFailConnect
  by_cases progress : socket.connectInProgress = true
  · have idle := rely progress
    rw [if_neg (not_not_intro progress), if_neg (by rw [idle]; nofun)]
    split
    · exact failAttempt_proceeds consistent sound progress idle rfl (.inl rfl)
        (fun _ announces => announces.remains sound progress) isError defer detaches
    · split
      · rename_i first
        refine failAttempt_proceeds consistent sound progress idle rfl (.inr rfl) ?_ isError
          defer detaches
        intro _ announces event mem
        obtain isAhead | ⟨_, failed⟩ := announces.later progress event mem
        · exact isAhead
        · rw [first] at failed
          contradiction
      · split
        · have leaves : Leaves socket { socket with retryConnect := false } := { refl socket with }
          exact ⟨leaves.carries { sound with } rfl, released⟩
        · exact ⟨(refl socket).carries sound rfl, released⟩
  · rw [if_pos progress]
    exact ⟨(refl socket).carries sound rfl, released⟩

theorem privateFailConnectPart2_proceeds (sound : Sound socket)
    (notAttached : socket.attached = false) (inlines : Bool) :
    Proceeds socket (.privateFailConnectPart2 failure)
      (socket.privateFailConnectPart2 failure inlines) := by
  unfold privateFailConnectPart2
  split
  · have isSound : Sound { socket with descriptor := false, handle := false } :=
      { sound with
        handled := fun isAttached =>
          absurd (notAttached.symm.trans isAttached) Bool.false_ne_true
        held := nofun }
    have leaves : Leaves socket { socket with descriptor := false, handle := false } :=
      { refl socket with }
    exact proceeds_behind _ (leaves.carries isSound rfl) (fun _ _ _ => ⟨notAttached, rfl⟩) trivial
  · rename_i isHeld
    have noHandle : socket.handle = false :=
      Bool.eq_false_iff.mpr fun isHandle => isHeld ⟨isHandle, sound.held isHandle⟩
    exact proceeds_behind _ ((refl socket).carries sound rfl)
      (fun _ _ _ => ⟨notAttached, noHandle⟩) trivial

theorem Announces.dispatch {rest : List ConnectEvent}
    (announces : Announces socket (socket.connectEvents ++ event :: rest))
    (isEvents : after.connectEvents = socket.connectEvents ++ [event])
    (isConnection : after.connectInProgress = socket.connectInProgress ∧
      after.retryCount = socket.retryCount ∧ after.connectError = socket.connectError)
    (isState : after.openState = socket.openState)
    (behind : ∀ older ∈ socket.connectEvents, rank event ≤ rank older) :
    Announces after (socket.connectEvents ++ event :: rest) := { announces with
  ordered := by
    rw [isEvents, pairwise_append]
    refine ⟨announces.ordered, pairwise_singleton _ _, ?_⟩
    intro older isOlder _ isNewer
    rw [mem_singleton.mp isNewer, follows_iff]
    have distinct := announces.distinct
    rw [map_append, nodup_append] at distinct
    have different := distinct.2.2 (rank older) (mem_map_of_mem isOlder) (rank event)
      (mem_map_of_mem mem_cons_self)
    have isBehind := behind older isOlder
    omega
  later := by
    rw [isConnection.1, isConnection.2.1, isConnection.2.2]
    exact announces.later
  fresh := by
    rw [isState]
    exact announces.fresh }

theorem dispatchConnectFailure_proceeds (sound : Sound socket) (released : Released socket)
    (may : failure.connectCallback = true -> Current socket failure.connectEvent) (inlines : Bool) :
    Proceeds socket (.dispatchConnectFailure failure)
      (socket.dispatchConnectFailure failure inlines) := by
  unfold dispatchConnectFailure
  split
  · rename_i isCallback
    have current := may isCallback
    refine proceeds_behind _ ⟨{ sound with }, ?_⟩ released trivial
    intro others isAnnounced
    have isEvents : (events socket ([.dispatchConnectFailure failure] ++ others)).Perm
        (socket.connectEvents ++ failure.connectEvent ::
          (socket.detachments.flatMap detachment ++ others.flatMap announces)) := by
      simp only [events, announces, announced, isCallback, append_assoc, cons_append,
        nil_append, flatMap_cons, if_true]
      exact Perm.append_left _ perm_middle
    have before := isAnnounced.perm isEvents
    have dispatches : Announces
        { socket with connectEvents := socket.connectEvents ++ [failure.connectEvent] }
        (socket.connectEvents ++ failure.connectEvent ::
          (socket.detachments.flatMap detachment ++ others.flatMap announces)) := by
      refine before.dispatch rfl ⟨rfl, rfl, rfl⟩ rfl ?_
      intro older isOlder
      by_cases remains : 0 < rank failure.connectEvent
      · obtain ⟨progress, isCount | ⟨_, noError⟩⟩ := current remains
        · obtain isAhead | ⟨_, _⟩ := before.later progress older (mem_append_left _ isOlder)
          · omega
          · omega
        · obtain _ | ⟨_, failed⟩ := before.later progress older (mem_append_left _ isOlder)
          · omega
          · rw [noError] at failed
            contradiction
      · omega
    simp only [events, announces, append_assoc, cons_append, nil_append,
      flatMap_cons] at dispatches ⊢
    exact dispatches
  · rename_i noCallback
    refine ⟨(refl socket).carries sound ?_, released⟩
    simp [announces, announced, noCallback]

theorem finishConnectFailure_proceeds (sound : Sound socket) (released : Released socket) :
    Proceeds socket .finishConnectFailure socket.finishConnectFailure := by
  have leaves : Leaves socket socket.dispatchClose := { refl socket with }
  obtain ⟨_, _, ⟨_, isResult⟩ | isResult⟩ := socket.finishConnectFailure_cases
  · rw [isResult]
    exact ⟨Leaves.carries { leaves with } { sound with } rfl, released⟩
  · rw [isResult]
    exact ⟨Leaves.carries { leaves with } { sound with } rfl, released⟩

theorem startAttempt_sound (consistent : Consistency.Sound True socket) (sound : Sound socket)
    (released : Released socket) (isWaiting : socket.openState = .waiting)
    (progress : socket.connectInProgress = true) (remains : socket.retryCount ≠ 0)
    (idle : socket.detachMode = .idle) : Sound socket.startAttempt := by
  have isAttempts := sound.attempts progress
  have notAttached : socket.attached = false := by
    by_cases started : 0 < socket.connectAttempts
    · exact (released isWaiting idle started).1
    · exact Bool.eq_false_iff.mpr fun isAttached =>
        started ((consistent.registered (.inl isAttached)).2 progress)
  exact { sound with
    attempts := fun _ => by
      unfold startAttempt
      dsimp only
      omega
    bounded := by
      unfold startAttempt
      dsimp only
      omega
    remembered := nofun
    waiting := nofun
    connecting := fun _ => rfl
    fresh := nofun
    single := by
      unfold startAttempt
      rw [sound.single, notAttached, idle]
      simp }

theorem startAttempt_announces (progress : socket.connectInProgress = true)
    (remains : socket.retryCount ≠ 0) (isAnnounced : Announces socket all) :
    Announces socket.startAttempt all :=
  { isAnnounced with
    later := by
      intro _ event mem
      unfold startAttempt
      dsimp only
      obtain _ | ⟨_, _⟩ := isAnnounced.later progress event mem
      · omega
      · omega
    fresh := nofun }

theorem privateRetryConnect_proceeds (consistent : Consistency.Sound True socket)
    (sound : Sound socket) (rely : socket.connectInProgress = true -> socket.detachMode = .idle)
    (released : Released socket) {input : Input}
    (may : MayAdvance socket .privateRetryConnect input) :
    Proceeds socket .privateRetryConnect (socket.privateRetryConnect input.resolves) := by
  unfold privateRetryConnect
  split
  · exact ⟨(refl socket).carries sound rfl, released⟩
  · rename_i starts
    simp only [not_or, not_not] at starts
    obtain ⟨isWaiting, progress, remains⟩ := starts
    have isSound := startAttempt_sound consistent sound released isWaiting progress remains
      (rely progress)
    have isReleased : Released socket.startAttempt := nofun
    have carries (frames : List Frame) (isSilent : frames.flatMap announces = []) :
        Carries socket [.privateRetryConnect] socket.startAttempt frames := by
      refine ⟨isSound, fun others isAnnounced => ?_⟩
      have started := startAttempt_announces progress remains isAnnounced
      unfold events at started ⊢
      rw [flatMap_append] at started ⊢
      rw [isSilent]
      exact started
    dsimp only
    split
    · rename_i named
      split
      · rename_i noResolver
        exact absurd (may isWaiting remains named) noResolver
      · cases input.resolves with
        | some => exact ⟨carries _ rfl, rfl, isReleased⟩
        | none =>
          have started := carries [] rfl
          refine ⟨⟨{ isSound with }, fun others isAnnounced => ?_⟩, isReleased⟩
          exact { started.announces others isAnnounced with }
    · exact ⟨carries _ rfl, rfl⟩

/-- While an attempt is being made the socket of no other is waiting. -/
theorem released_of_connecting (isConnecting : socket.openState = .connecting) :
    Released socket := by
  intro isWaiting
  rw [isConnecting] at isWaiting
  contradiction

theorem connectToEndpoint_proceeds (sound : Sound socket)
    (isConnecting : socket.openState = .connecting) (establishment : Establishment)
    (inlines : Bool) :
    Proceeds socket .connectToEndpoint (socket.connectToEndpoint establishment inlines) := by
  have isOpened : Sound socket.opened :=
    { sound with handled := fun _ => rfl, held := fun _ => rfl }
  have opens : Leaves socket socket.opened := { refl socket with }
  have released : Released socket.opened := released_of_connecting isConnecting
  cases establishment with
  | failsToOpen error created =>
    have fails : Leaves socket (socket.openFailed created) := { refl socket with }
    exact ⟨fails.carries { sound with } rfl, rfl, released_of_connecting isConnecting⟩
  | fails => exact ⟨opens.carries isOpened rfl, rfl, released⟩
  | connects => exact proceeds_behind _ (opens.carries isOpened rfl) released trivial

theorem attachSocket_proceeds (sound : Sound socket) (released : Released socket)
    (connectAttempts : Nat) (attachment : Attachment) :
    Proceeds socket (.attachSocket connectAttempts)
      (socket.attachSocket connectAttempts attachment) := by
  unfold attachSocket
  split
  · exact ⟨(refl socket).carries sound rfl, released⟩
  · rename_i current
    simp only [not_or, not_not] at current
    obtain ⟨notInitiated, _, _⟩ := current
    split
    · exact ⟨(refl socket).carries sound rfl, rfl, released⟩
    · rename_i hasHandle
      have isHandle : socket.handle = true := not_not.mp hasHandle
      have registers (attached : Bool) : Sound { socket with attached := attached } :=
        { sound with
          handled := fun _ => isHandle
          detached := fun initiated => absurd initiated notInitiated }
      have leaves (attached : Bool) : Leaves socket { socket with attached := attached } :=
        { refl socket with }
      have isReleased (attached : Bool) : Released { socket with attached := attached } := by
        intro isWaiting isIdle started
        have noHandle := (released isWaiting isIdle started).2
        rw [isHandle] at noHandle
        contradiction
      cases attachment with
      | fails => exact ⟨(leaves _).carries (registers _) rfl, rfl, isReleased _⟩
      | attaches => exact ⟨(leaves _).carries (registers _) rfl, isReleased _⟩

theorem privateSocketWritableConnection_proceeds (sound : Sound socket)
    (released : Released socket) (connection : Option Error) (inlines : Bool) :
    Proceeds socket .privateSocketWritableConnection
      (socket.privateSocketWritableConnection connection inlines) := by
  unfold privateSocketWritableConnection
  split
  · exact ⟨(refl socket).carries sound rfl, released⟩
  · rename_i notDone
    have progress : socket.connectInProgress = true := not_not.mp notDone
    cases connection with
    | some => exact ⟨(refl socket).carries sound rfl, rfl, released⟩
    | none =>
      refine proceeds_behind _ ⟨?_, ?_⟩ nofun trivial
      · exact { sound with
          attempts := nofun
          remembered := nofun
          waiting := nofun
          connecting := nofun
          fresh := nofun }
      · intro others isAnnounced
        have wasEvents : events socket ([.privateSocketWritableConnection] ++ others) =
              socket.connectEvents ++ socket.detachments.flatMap detachment ++
                others.flatMap announces := rfl
        have remains := isAnnounced.remains sound progress
        generalize isNew : announces (.dispatchConnectComplete socket.connectCallback) = new
        have isComplete : ∀ event ∈ new, event = .complete := by
          rw [← isNew]
          cases socket.connectCallback <;> simp [announces]
        have single : new.length ≤ 1 := by
          rw [← isNew]
          cases socket.connectCallback <;> simp [announces]
        refine Announces.perm (?_ : Announces _
          (socket.connectEvents ++ socket.detachments.flatMap detachment ++
            others.flatMap announces ++ new)) ?_
        · refine isAnnounced.push ?_ single ?_ ?_ ?_ ?_
          · rfl
          · intro event mem
            rw [isComplete event mem]
            trivial
          · intro event mem other isOther
            rw [isComplete other isOther]
            exact remains event mem
          · nofun
          · nofun
        · rw [← isNew]
          simp only [events, flatMap_append, flatMap_cons, flatMap_nil, append_nil, append_assoc]
          exact (perm_append_comm.append_left _).append_left _

theorem dispatchConnectComplete_proceeds (sound : Sound socket) (released : Released socket)
    (connectCallback : Bool) : Proceeds socket (.dispatchConnectComplete connectCallback)
      (socket.dispatchConnectComplete connectCallback) := by
  unfold dispatchConnectComplete
  split
  · rename_i dispatches
    refine ⟨⟨{ sound with }, fun others isAnnounced => ?_⟩, released⟩
    have isEvents : (events socket ([.dispatchConnectComplete connectCallback] ++ others)).Perm
        (socket.connectEvents ++ .complete ::
          (socket.detachments.flatMap detachment ++ others.flatMap announces)) := by
      simp only [events, announces, dispatches.2, append_assoc, cons_append,
        nil_append, flatMap_cons, if_true]
      exact Perm.append_left _ perm_middle
    have dispatched : Announces
        { socket with connectEvents := socket.connectEvents ++ [.complete] } _ :=
      (isAnnounced.perm isEvents).dispatch rfl ⟨rfl, rfl, rfl⟩ rfl fun _ _ => Nat.zero_le _
    simp only [events, append_assoc, cons_append, nil_append] at dispatched ⊢
    exact dispatched
  · -- The socket was closed in the meantime.
    refine ⟨⟨sound, fun others isAnnounced => ?_⟩, released⟩
    have isPart : (events socket ([] ++ others)).Sublist
        (events socket ([.dispatchConnectComplete connectCallback] ++ others)) := by
      unfold events
      exact (sublist_append_right _ _).append_left _
    exact { isAnnounced with
      sincere := fun event mem => isAnnounced.sincere event (isPart.subset mem)
      distinct := isAnnounced.distinct.sublist (isPart.map rank)
      later := fun progress event mem =>
        isAnnounced.later progress event (isPart.subset mem)
      fresh := fun isDefault => by
        rw [isAnnounced.fresh isDefault] at isPart
        exact sublist_nil.mp isPart }

section Established

variable (consistent : Consistency.Sound True socket) (sound : Sound socket)
  (noProgress : socket.connectInProgress = false)

include consistent sound noProgress

theorem shut_self : Shut socket socket := ⟨consistent, noProgress, sound, refl socket⟩

theorem privateFail_proceeds (error : Error) (inlines : Bool) :
    Proceeds socket (.privateFail error) (socket.privateFail error inlines) := by
  have shut := shut_self consistent sound noProgress
  unfold privateFail
  rw [noProgress, if_neg nofun]
  split
  · exact ⟨shut.carries rfl, shut.released⟩
  · exact proceeds_behind _ (shut.carries rfl) shut.released trivial

theorem privateFailUpgrade_proceeds (inlines : Bool) :
    Proceeds socket .privateFailUpgrade (socket.privateFailUpgrade inlines) := by
  have shut := shut_self consistent sound noProgress
  unfold privateFailUpgrade
  split
  · exact ⟨shut.carries rfl, shut.released⟩
  · have leaves : Leaves socket { socket with upgradeInProgress := false } := { refl socket with }
    exact proceeds_behind _ (leaves.carries { sound with } rfl) shut.released trivial

theorem closeAfterFail_proceeds (error : Error) (detaches inlines : Bool) :
    Proceeds socket (.closeAfterFail error) (socket.closeAfterFail error detaches inlines) := by
  have shut := shut_self consistent sound noProgress
  unfold closeAfterFail
  split
  · have closes := privateShutdownSend_shut (privateShutdownReceive_shut shut detaches) detaches
    exact ⟨closes.carries rfl, closes.released⟩
  · exact proceeds_behind _ (shut.carries rfl) shut.released trivial

theorem readable_proceeds (transfer : Transfer) (detaches : Bool) :
    Proceeds socket .readable (socket.readable transfer detaches) := by
  have shut := shut_self consistent sound noProgress
  cases transfer with
  | done | invokes | upgradeFails | fails => exact ⟨shut.carries rfl, shut.released⟩
  | upgrades =>
    have leaves : Leaves socket { socket with upgradeInProgress := false } := { refl socket with }
    exact ⟨leaves.carries { sound with } rfl, shut.released⟩
  | ends =>
    have closes := privateShutdownReceive_shut shut detaches
    exact ⟨closes.carries rfl, closes.released⟩

theorem writable_proceeds (transfer : Transfer) (detaches : Bool) :
    Proceeds socket .writable (socket.writable transfer detaches) := by
  have shut := shut_self consistent sound noProgress
  cases transfer with
  | done | invokes | upgrades | upgradeFails | fails => exact ⟨shut.carries rfl, shut.released⟩
  | ends =>
    unfold writable
    dsimp only
    split
    · have closes := privateShutdownSend_shut
        (entries_shut shut (socket.shutdownEntries - 1)) detaches
      exact ⟨closes.carries rfl, closes.released⟩
    · exact ⟨shut.carries rfl, shut.released⟩

end Established

def Enters (socket : Socket) (entered : Socket × List Frame) : Prop :=
  Carries socket [] entered.1 entered.2 ∧ Stands entered.1 entered.2.head?

theorem enters_unchanged (sound : Sound socket) {frames : List Frame}
    (isSilent : frames.flatMap announces = []) (stands : Stands socket frames.head?) :
    Enters socket (socket, frames) :=
  ⟨(refl socket).carries sound isSilent, stands⟩

variable {original : Socket}

section

variable (leaves : Leaves original socket) (consistent : Consistency.Sound True socket)
  (sound : Sound socket) (released : Released socket)
include leaves consistent sound released

/-- A call is put off, or a connection is failed, or the socket is shut down. -/
theorem privateClose_enters (callback : Option Nat) (detaches : Bool) :
    Enters original (socket.privateClose callback detaches) := by
  unfold privateClose
  split
  · have defers : Leaves original
        { socket with deferredCalls := socket.deferredCalls ++ [.close callback] } :=
      { leaves with }
    exact ⟨defers.carries { sound with } rfl, released⟩
  · split
    · have fails : Leaves original (socket.fail .closeCallback) := { leaves with }
      exact ⟨fails.carries { sound with } rfl, released⟩
    · have registers : Leaves original { socket with closeCallback := callback } := { leaves with }
      dsimp only
      split
      · exact ⟨registers.carries { sound with } rfl, rfl, released⟩
      · rename_i noProgress
        have shut : Shut original { socket with closeCallback := callback } :=
          ⟨{ consistent with }, Bool.eq_false_iff.mpr noProgress, { sound with }, registers⟩
        have closes := privateShutdown_shut shut .both .immediate false detaches
        exact ⟨closes.carries rfl, closes.released⟩

theorem close_enters (callback detaches : Bool) :
    Enters original (socket.close callback detaches) := by
  unfold close accept
  split
  · have isConsistent : Consistency.Sound True { socket with accepted := socket.accepted + 1 } :=
      { consistent with }
    have accepts : Leaves original { socket with accepted := socket.accepted + 1 } :=
      { leaves with }
    exact privateClose_enters accepts isConsistent { sound with } released _ detaches
  · exact privateClose_enters leaves consistent sound released none detaches

end

theorem release_enters (consistent : Consistency.Sound True socket) (sound : Sound socket)
    (released : Released socket) (callback detaches : Bool) :
    Enters socket (socket.release callback detaches) := by
  unfold release
  split
  · exact enters_unchanged sound rfl released
  · have isConsistent : Consistency.Sound True
        { socket with detachGoal := .toExport, session := false } := { consistent with }
    have leaves : Leaves socket { socket with detachGoal := .toExport, session := false } :=
      { refl socket with }
    exact close_enters leaves isConsistent { sound with } released callback detaches

theorem shutdown_enters (leaves : Leaves original socket)
    (consistent : Consistency.Sound True socket) (sound : Sound socket)
    (released : Released socket) (dir : ShutdownType) (mode : ShutdownMode)
    (hasEntry detaches : Bool) : Enters original (socket.shutdown dir mode hasEntry detaches) := by
  unfold shutdown
  split
  · have defers : Leaves original
        { socket with deferredCalls := socket.deferredCalls ++ [.shutdown dir mode] } :=
      { leaves with }
    exact ⟨defers.carries { sound with } rfl, released⟩
  · split
    · split
      · exact ⟨leaves.carries sound rfl, released⟩
      · exact ⟨leaves.carries sound rfl, rfl, released⟩
    · rename_i noProgress
      have closes := privateShutdown_shut
        ⟨consistent, Bool.eq_false_iff.mpr noProgress, sound, leaves⟩ dir mode hasEntry detaches
      exact ⟨closes.carries rfl, closes.released⟩

theorem processConnectDeadlineTimer_enters (leaves : Leaves original socket)
    (sound : Sound socket) (released : Released socket) :
    Enters original socket.processConnectDeadlineTimer := by
  unfold processConnectDeadlineTimer
  split
  · have defers : Leaves original
        { socket with
          retryConnect := false
          deferredCalls := socket.deferredCalls ++ [.processConnectDeadlineTimer] } :=
      { leaves with }
    exact ⟨defers.carries { sound with } rfl, released⟩
  · split
    · exact ⟨leaves.carries sound rfl, rfl, released⟩
    · exact ⟨leaves.carries sound rfl, released⟩

theorem processConnectRetryTimer_enters (sound : Sound socket) (released : Released socket) :
    Enters socket socket.processConnectRetryTimer := by
  unfold processConnectRetryTimer
  split
  · exact enters_unchanged sound rfl released
  · split
    · have retries : Leaves socket { socket with retryConnect := true } := { refl socket with }
      split
      · exact ⟨retries.carries { sound with } rfl, released⟩
      · exact ⟨retries.carries { sound with } rfl, rfl, released⟩
    · exact enters_unchanged sound rfl released

theorem connect_enters (sound : Sound socket) (released : Released socket) (named : Bool)
    {retryCount : Option Nat} (may : ∀ count, retryCount = some count -> count < sizeMax)
    (strategy : ConnectStrategy) (callback : Bool) :
    Enters socket (socket.connect named retryCount strategy callback, []) := by
  have isCount : initialRetryCount named retryCount = retryCount.getD 0 + 1 := by
    cases retryCount with
    | none => rfl
    | some count =>
      have fits := may count rfl
      simp [initialRetryCount, fits]
  unfold connect
  split
  · exact enters_unchanged sound rfl released
  · rename_i connects
    simp only [not_or, not_not] at connects
    have isDefault : socket.openState = .default := connects.1
    have noAttempt := sound.fresh isDefault
    refine ⟨⟨?_, ?_⟩, ?_⟩
    · exact { sound with
        attempts := fun _ => by
          rw [noAttempt, isCount, Nat.zero_add]
        bounded := by
          rw [noAttempt]
          exact Nat.zero_le _
        remembered := fun _ _ => by
          rw [isCount]
          exact Nat.succ_pos _
        waiting := fun _ => .inr noAttempt
        connecting := nofun
        fresh := nofun }
    · intro others isAnnounced
      have isNone : events socket ([] ++ others) = [] := isAnnounced.fresh isDefault
      exact { isAnnounced with
        later := fun _ _ mem => absurd (isNone ▸ mem) not_mem_nil
        fresh := nofun }
    · intro _ _ started
      exact absurd (noAttempt ▸ started) (Nat.lt_irrefl 0)

theorem connecting_of_noError (consistent : Consistency.Sound True socket) (sound : Sound socket)
    (progress : socket.connectInProgress = true) (started : 0 < socket.connectAttempts)
    (noError : socket.connectError = none) : socket.openState = .connecting := by
  obtain isWaiting | isConnecting := consistent.progress.mp progress
  · obtain failed | _ := sound.waiting isWaiting
    · rw [noError] at failed
      contradiction
    · omega
  · exact isConnecting

theorem processRemoteEndpointResolution_enters (leaves : Leaves original socket)
    (consistent : Consistency.Sound True socket)
    (sound : Sound socket) (released : Released socket) {connectAttempts : Nat}
    (started : 0 < connectAttempts)
    (may : connectAttempts = socket.connectAttempts -> socket.detachMode = .idle ->
      socket.connectInProgress = true -> socket.connectError = none)
    (endpoints : Nat) (error : Option Error) :
    Enters original (socket.processRemoteEndpointResolution connectAttempts endpoints error) := by
  unfold processRemoteEndpointResolution
  split
  · exact ⟨leaves.carries sound rfl, released⟩
  · rename_i current
    simp only [not_or, not_not] at current
    obtain ⟨notInitiated, progress, isCurrent⟩ := current
    have noError := may isCurrent (idle_of_ne notInitiated) progress
    have resolves : Leaves original { socket with connectEndpoints := endpoints } := { leaves with }
    cases error with
    | some => exact ⟨resolves.carries { sound with } rfl, rfl, released⟩
    | none =>
      have isConnecting :=
        connecting_of_noError consistent sound progress (isCurrent ▸ started) noError
      exact ⟨resolves.carries { sound with } rfl, isConnecting⟩

theorem upgrade_enters (consistent : Consistency.Sound True socket) (sound : Sound socket)
    (released : Released socket) (fails detaches : Bool) :
    Enters socket (socket.upgrade fails detaches, []) := by
  unfold upgrade
  split
  · exact enters_unchanged sound rfl released
  · rename_i upgrades
    simp only [not_or, not_not] at upgrades
    have noProgress := noProgress_of_established consistent (.inl upgrades.1)
    split
    · have closes := privateShutdown_shut (shut_self consistent sound noProgress) .both .immediate
        false detaches
      exact ⟨closes.carries rfl, closes.released⟩
    · have leaves : Leaves socket { socket with upgradeInProgress := true } := { refl socket with }
      exact ⟨leaves.carries { sound with } rfl, released⟩

theorem processSocketDetached_enters (consistent : Consistency.Sound True socket)
    (sound : Sound socket) {callback : DetachCallback} {index : Nat}
    (found : socket.detachments[index]? = some callback) : Enters socket ({ socket with
      detachments := socket.detachments.eraseIdx index }.processSocketDetached callback) := by
  obtain ⟨isIndex, isCallback⟩ := List.getElem?_eq_some_iff.mp found
  obtain ⟨initiated, hasNone⟩ := Consistency.detached_of_sound consistent found
  have isOnly : socket.detachments = [callback] := by
    have isPerm := getElem_cons_eraseIdx_perm isIndex
    rw [hasNone, isCallback] at isPerm
    exact perm_singleton.mp isPerm.symm
  have notAttached := sound.detached initiated
  cases callback with
  | shutdownSequenceComplete context =>
    have mem := mem_of_getElem? found
    have noProgress := noProgress_of_established consistent (consistent.sequences context mem)
    have isConsistent : Consistency.Sound True
        { socket with detachments := [], detachMode := .idle } :=
      { consistent with
        pending := rfl
        shut := nofun
        registered := fun isRegistered => by
          refine consistent.registered ?_
          obtain isAttached | _ := isRegistered
          · exact .inl isAttached
          · contradiction
        sequences := fun _ isMem => absurd isMem not_mem_nil }
    have leaves : Leaves socket { socket with detachments := [], detachMode := .idle } :=
      { refl socket with
        detachments := by
          rw [isOnly]
          rfl }
    have shut : Shut socket { socket with detachments := [], detachMode := .idle } :=
      ⟨isConsistent, noProgress, { sound with detached := nofun }, leaves⟩
    have closes := shutdownSequenceEnd_shut shut rfl
      fun (_ : context.shutdownCompleted = true) => notAttached
    unfold processSocketDetached privateShutdownSequenceComplete
    dsimp only
    rw [if_pos (by rw [initiated]; decide), hasNone]
    exact ⟨closes.carries rfl, closes.released⟩
  | failConnectPart2 failure =>
    unfold processSocketDetached
    dsimp only
    rw [if_pos initiated, hasNone]
    refine ⟨⟨{ sound with detached := nofun }, fun others isAnnounced => ?_⟩, notAttached⟩
    have isEvents : events { socket with detachMode := .idle, detachments := [] }
            ([.privateFailConnectPart2 failure] ++ others) =
          events socket ([] ++ others) := by
      simp [events, isOnly, detachment, announces]
    rw [isEvents]
    exact { isAnnounced with }

theorem execute_enters (leaves : Leaves original socket)
    (consistent : Consistency.Sound True socket) (sound : Sound socket)
    (released : Released socket) (functor : DeferredCall) (hasEntry detaches : Bool) :
    Enters original (socket.execute functor hasEntry detaches) := by
  cases functor with
  | processConnectDeadlineTimer => exact processConnectDeadlineTimer_enters leaves sound released
  | shutdown dir mode =>
    exact shutdown_enters leaves consistent sound released dir mode hasEntry detaches
  | close callback => exact privateClose_enters leaves consistent sound released callback detaches

theorem processSocketWritable_enters (sound : Sound socket) (released : Released socket) :
    Enters socket (socket, socket.processSocketWritable) := by
  unfold processSocketWritable
  split
  · exact enters_unchanged sound rfl released
  · split
    · exact enters_unchanged sound rfl released
    · split
      · exact enters_unchanged sound rfl released
      · exact enters_unchanged sound rfl released

theorem processSocketError_enters (sound : Sound socket) (released : Released socket)
    (error : Error) : Enters socket (socket, socket.processSocketError error) := by
  unfold processSocketError
  split
  · exact enters_unchanged sound rfl released
  · split
    · exact enters_unchanged sound rfl ⟨rfl, released⟩
    · split
      · exact enters_unchanged sound rfl released
      · exact enters_unchanged sound rfl released

theorem enter_enters (consistent : Consistency.Sound True socket) (sound : Sound socket)
    (released : Released socket) {call : Call} (may : MayEnter socket call)
    {entered : Socket × List Frame} (isEntered : enter socket call = some entered) :
    Enters socket entered := by
  have unchanged : Enters socket (socket, []) := enters_unchanged sound rfl released
  unfold enter at isEntered
  split at isEntered
  · contradiction
  · cases call with
    | connect named _ strategy callback =>
      cases isEntered
      exact connect_enters sound released named may strategy callback
    | cancelConnect =>
      cases isEntered
      split
      · exact enters_unchanged sound rfl ⟨rfl, released⟩
      · exact unchanged
    | upgrade fails detaches =>
      cases isEntered
      exact upgrade_enters consistent sound released fails detaches
    | cancelUpgrade =>
      dsimp only at isEntered
      split at isEntered
      · have leaves : Leaves socket { socket with upgradeInProgress := false } :=
          { refl socket with }
        cases isEntered
        exact ⟨leaves.carries { sound with } rfl, released⟩
      · cases isEntered
        exact unchanged
    | shutdown dir mode hasEntry detaches =>
      cases isEntered
      exact shutdown_enters (refl socket) consistent sound released dir mode hasEntry detaches
    | release callback detaches =>
      cases isEntered
      exact release_enters consistent sound released callback detaches
    | close callback detaches =>
      cases isEntered
      exact close_enters (refl socket) consistent sound released callback detaches
    | registerSession | deregisterSession | resolverGone =>
      cases isEntered
      exact ⟨Leaves.carries { refl socket with } { sound with } rfl, released⟩
    | processConnectDeadlineTimer =>
      cases isEntered
      exact processConnectDeadlineTimer_enters (refl socket) sound released
    | processConnectRetryTimer =>
      cases isEntered
      exact processConnectRetryTimer_enters sound released
    | processUpgradeTimer =>
      cases isEntered
      split
      · exact enters_unchanged sound rfl released
      · exact unchanged
    | processSocketReadable =>
      obtain ⟨_, rfl⟩ := Run.guarded isEntered
      unfold processSocketReadable
      split
      · exact unchanged
      · exact enters_unchanged sound rfl released
    | processSocketWritable =>
      obtain ⟨_, rfl⟩ := Run.guarded isEntered
      exact processSocketWritable_enters sound released
    | processSocketError error =>
      obtain ⟨_, rfl⟩ := Run.guarded isEntered
      exact processSocketError_enters sound released error
    | processRemoteEndpointResolution index endpoints error =>
      obtain ⟨connectAttempts, found, isResult⟩ := Option.map_eq_some_iff.mp isEntered
      rw [← isResult]
      have isConsistent : Consistency.Sound True
          { socket with resolutions := socket.resolutions.eraseIdx index } :=
        { consistent with
          resolutions := fun older mem =>
            consistent.resolutions older (mem_of_mem_eraseIdx mem) }
      have leaves : Leaves socket
          { socket with resolutions := socket.resolutions.eraseIdx index } :=
        { refl socket with }
      refine processRemoteEndpointResolution_enters leaves isConsistent { sound with } released
        (consistent.resolutions connectAttempts (mem_of_getElem? found)) ?_ endpoints error
      intro isCurrent
      exact may (isCurrent ▸ found)
    | processSocketDetached index =>
      obtain ⟨_, found, isResult⟩ := Option.map_eq_some_iff.mp isEntered
      rw [← isResult]
      exact processSocketDetached_enters consistent sound found
    | execute index hasEntry detaches =>
      obtain ⟨functor, _, isResult⟩ := Option.map_eq_some_iff.mp isEntered
      rw [← isResult]
      have isConsistent : Consistency.Sound True
          { socket with functors := socket.functors.eraseIdx index } := { consistent with }
      have leaves : Leaves socket { socket with functors := socket.functors.eraseIdx index } :=
        { refl socket with }
      exact execute_enters leaves isConsistent { sound with } released functor hasEntry detaches

theorem advance_proceeds (consistent : Consistency.Sound True socket) (sound : Sound socket)
    (rely : Consistency.Ready True socket frame) (ready : Ready socket frame)
    {input : Input} (may : MayAdvance socket frame input) {outcome : Outcome}
    (isOutcome : advance socket frame input = some outcome) : Proceeds socket frame outcome := by
  have noProgress := noProgress_of_established consistent
  unfold advance at isOutcome
  split at isOutcome
  · contradiction
  · cases isOutcome
    cases frame with
    | privateFailConnect error =>
      exact privateFailConnect_proceeds consistent sound (rely trivial) ready input.detaches
    | privateFailConnectPart2 failure =>
      exact privateFailConnectPart2_proceeds sound ready input.inlines
    | dispatchConnectFailure =>
      exact dispatchConnectFailure_proceeds sound ready may input.inlines
    | finishConnectFailure => exact finishConnectFailure_proceeds sound ready
    | executeDeferredCalls =>
      have leaves : Leaves socket socket.moveAndExecute := { refl socket with }
      exact ⟨leaves.carries { sound with } rfl, ready⟩
    | privateRetryConnect =>
      exact privateRetryConnect_proceeds consistent sound (rely trivial) ready may
    | connectToEndpoint =>
      exact connectToEndpoint_proceeds sound ready input.establishment input.inlines
    | attachSocket connectAttempts =>
      exact attachSocket_proceeds sound ready connectAttempts input.attachment
    | privateSocketWritableConnection =>
      exact privateSocketWritableConnection_proceeds sound ready input.connection input.inlines
    | dispatchConnectComplete connectCallback =>
      exact dispatchConnectComplete_proceeds sound ready connectCallback
    | privateFail error =>
      exact privateFail_proceeds consistent sound (noProgress rely) error input.inlines
    | closeAfterFail error =>
      exact closeAfterFail_proceeds consistent sound (noProgress rely) error input.detaches
        input.inlines
    | shutdownAfterFail =>
      have closes := privateShutdown_shut (shut_self consistent sound (noProgress rely)) .both
        .immediate false input.detaches
      exact ⟨closes.carries rfl, closes.released⟩
    | privateFailUpgrade =>
      exact privateFailUpgrade_proceeds consistent sound (noProgress rely) input.inlines
    | dispatchUpgradeFailure =>
      exact proceeds_behind _ ((refl socket).carries sound rfl) ready trivial
    | readable =>
      exact readable_proceeds consistent sound (noProgress rely) input.transfer input.detaches
    | writable =>
      exact writable_proceeds consistent sound (noProgress rely) input.transfer input.detaches

theorem consistency_keeps :
    Monitor.Keeps enter advance MayEnter MayAdvance (Consistency.Invariant True) := by
  refine monitor_keeps.mono ?_ ?_
  · intro socket call may
    cases call with
    | cancelConnect => exact fun _ => may
    | _ => trivial
  · intro _ frame _ may
    cases frame with
    | finishConnectFailure => exact fun _ => may
    | _ => trivial

theorem Carries.running {before frames others : List Frame}
    (carries : Carries socket before after frames)
    (isAnnounced : Announces socket (events socket (before ++ others))) :
    Announces after (events after (frames.head?.toList ++ (frames.tail ++ others))) := by
  have isFrames : frames.head?.toList ++ (frames.tail ++ others) = frames ++ others := by
    cases frames <;> rfl
  rw [isFrames]
  exact carries.announces others isAnnounced

theorem monitor_keeps : Monitor.Keeps enter advance MayEnter MayAdvance Invariant where
  perm {socket next others others'} isPerm holds := by
    refine ⟨consistency_keeps.perm isPerm holds.1, holds.2.1, holds.2.2.1, ?_⟩
    refine holds.2.2.2.perm ?_
    exact ((isPerm.append_left next.toList).flatMap_right announces).append_left _
  focus {socket frame others} holds := by
    have rests := (holds.1.2.2 frame mem_cons_self).1
    exact ⟨consistency_keeps.focus holds.1, holds.2.1, holds.2.2.1.ready rests, holds.2.2.2⟩
  enters holds may isEntered := by
    obtain ⟨carries, stands⟩ := enter_enters holds.1.1 holds.2.1 holds.2.2.1 may isEntered
    exact ⟨consistency_keeps.enters holds.1 may isEntered, carries.sound, stands,
      carries.running holds.2.2.2⟩
  continues holds may isOutcome := by
    obtain ⟨carries, stands⟩ :=
      advance_proceeds holds.1.1 holds.2.1 (holds.1.2.1 _ rfl) holds.2.2.1 may isOutcome
    exact ⟨consistency_keeps.continues holds.1 may isOutcome, carries.sound, stands,
      carries.running holds.2.2.2⟩
  releases holds may isOutcome := by
    obtain ⟨carries, released⟩ :=
      advance_proceeds holds.1.1 holds.2.1 (holds.1.2.1 _ rfl) holds.2.2.1 may isOutcome
    exact ⟨consistency_keeps.releases holds.1 may isOutcome, carries.sound, released,
      carries.announces _ holds.2.2.2⟩

theorem initial_holds (configuration : Configuration) :
    Monitor.Holds Invariant (initial configuration) := by
  refine ⟨Consistency.initial_holds configuration, ?_, ?_, ?_⟩
  · unfold initial
    constructor
    all_goals cases configuration.accepted <;> simp
  · intro isWaiting
    unfold initial at isWaiting
    cases isAccepted : configuration.accepted <;> simp [isAccepted] at isWaiting
  · exact {
      sincere := forall_mem_nil _
      distinct := nodup_nil
      ordered := Pairwise.nil
      later := fun _ _ mem => absurd mem not_mem_nil
      fresh := fun _ => rfl }

theorem protocol_of_holds (system : System) (holds : Monitor.Holds Invariant system) :
    Protocol system := by
  obtain ⟨socket, running, _⟩ := system
  have visible : Sound socket ∧ ∃ frames, Announces socket (events socket frames) := by
    cases running with
    | nil | cons _ _ => exact ⟨holds.2.1, _, holds.2.2.2⟩
  obtain ⟨sound, _, isAnnounced⟩ := visible
  refine ⟨isAnnounced.ordered, ?_, sound.bounded, sound.single⟩
  intro event mem
  exact isAnnounced.sincere event (mem_append_left _ (mem_append_left _ mem))

/-- In every run along which the conditions are met, the connect callback is told of failures
in order and then of at most one connection, and no more attempts are started than were asked
for, one at a time. -/
theorem always_protocol (configuration : Configuration) (actions : List Action)
    (meets : Run.Along step (Monitor.Meets MayEnter MayAdvance) (initial configuration) actions) :
    Run.Always step Protocol (initial configuration) actions :=
  monitor_keeps.always protocol_of_holds (initial_holds configuration) meets

def secondAttempt : List Action :=
  [.call (.connect false (some 1) .resolveIntoSingle true), .call .processConnectRetryTimer,
    .advance {}, .advance {}, .advance {}, .call (.processSocketError (.other 1)), .advance {},
    .call .processConnectRetryTimer, .call (.processSocketDetached 0), .advance {}, .advance {},
    .advance {}, .advance {}, .advance {}, .advance {}, .advance {}, .call .processSocketWritable,
    .advance {}, .advance {}]

theorem secondAttempt_fits (count : Nat) (isCount : some 1 = some count) : count < sizeMax := by
  cases isCount
  unfold sizeMax
  omega

theorem always_protocol_secondAttempt :
    Run.Along step (Monitor.Meets MayEnter MayAdvance) (initial {}) secondAttempt ∧
      Run.Always step Protocol (initial {}) secondAttempt := by
  have meets : Run.Along step (Monitor.Meets MayEnter MayAdvance) (initial {}) secondAttempt :=
    ⟨secondAttempt_fits, trivial, fun _ _ _ => rfl, trivial, trivial, trivial, trivial, trivial,
      trivial, trivial, fun _ _ => ⟨rfl, .inl rfl⟩, fun _ _ => rfl, fun _ _ _ => rfl, trivial,
      trivial, trivial, trivial, trivial, trivial, trivial⟩
  exact ⟨meets, always_protocol _ _ meets⟩

/-- A name is to be resolved, and the resolver is gone. -/
theorem not_always_protocol_resolver : ¬ ∀ configuration actions,
      Run.Along step (Monitor.Meets Promised fun _ _ _ => True) (initial configuration) actions ->
        Run.Always step Protocol (initial configuration) actions := by
  intro always
  have promised : Run.Along step (Monitor.Meets Promised fun _ _ _ => True) (initial {})
      [.call (.connect true (some 1) .resolveIntoSingle true), .call .resolverGone,
        .call .processConnectRetryTimer, .advance {}, .advance {}, .advance {}, .advance {}] :=
    ⟨secondAttempt_fits, trivial, trivial, trivial, trivial, trivial, trivial, trivial⟩
  exact absurd (always _ _ promised) (by decide)

end Retrying

end NtfCore.Ntcr.StreamSocket.Lifecycle
