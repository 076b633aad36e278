import NtfCore.Ntcr.StreamSocket.Lifecycle.Outcomes

/-!
Contract: what holds of a stream socket in every state of every run.

Owns: how the mode of the detachment, the state of the connection, the shutdown state and the
detachments in flight go together; what a frame may rely on when a thread executes it; and,
under a condition on the calls and the frames, that no assertion on the mode fails.

The invariant is stated for runs of which it is, or is not, assured that the condition is
met.
-/

namespace NtfCore.Ntcr.StreamSocket.Lifecycle

open NtfCore.Foundation List Classical
open Socket

namespace Consistency

def Established (openState : OpenState) : Prop :=
  openState = .connected ∨ openState = .closed

structure Sound (assured : Prop) (socket : Socket) : Prop where
  /-- A detachment is in flight exactly while the mode says so. -/
  pending : socket.detachments.length = if socket.detachMode = .initiated then 1 else 0
  progress : socket.connectInProgress = true ↔
    socket.openState = .waiting ∨ socket.openState = .connecting
  /-- A socket is detached in the course of a connection, or to be closed. -/
  shut : socket.detachMode = .initiated -> socket.connectInProgress = true ∨
    socket.shutdownState.shutdownSend = true ∧ socket.shutdownState.shutdownReceive = true
  registered : socket.attached = true ∨ socket.detachMode = .initiated ->
    socket.openState ≠ .default ∧ (socket.connectInProgress = true -> 0 < socket.connectAttempts)
  resolutions : ∀ connectAttempts ∈ socket.resolutions, 0 < connectAttempts
  sequences : ∀ context, .shutdownSequenceComplete context ∈ socket.detachments ->
    Established socket.openState
  upgrades : socket.upgradeInProgress = true -> Established socket.openState
  assertions : assured -> socket.failed = none ∨ socket.failed = some .closeCallback

def Ready (assured : Prop) (socket : Socket) : Frame -> Prop
  | .privateFailConnect _ _ _ | .privateRetryConnect =>
    assured -> socket.connectInProgress = true -> socket.detachMode = .idle
  | .privateSocketWritableConnection =>
    socket.connectInProgress = true -> socket.detachMode = .idle
  | .connectToEndpoint =>
    (assured -> socket.detachMode = .idle) ∧ 0 < socket.connectAttempts
  | .attachSocket connectAttempts => 0 < connectAttempts
  | .privateFail _ | .closeAfterFail _ | .shutdownAfterFail | .privateFailUpgrade
  | .dispatchUpgradeFailure | .readable | .writable => Established socket.openState
  | _ => True

def Rests : Frame -> Prop
  | .privateFailConnect _ _ _ | .privateFailConnectPart2 _ | .privateRetryConnect
  | .privateSocketWritableConnection | .connectToEndpoint => False
  | _ => True

def Invariant (assured : Prop) (socket : Socket) (next : Option Frame) (others : List Frame) :
    Prop :=
  Sound assured socket ∧ (∀ frame ∈ next, Ready assured socket frame) ∧
    ∀ frame ∈ others, Rests frame ∧ Ready assured socket frame

structure Keeps (assured : Prop) (openState : OpenState) (after : Socket) : Prop where
  sound : Sound assured after
  established : Established openState -> Established after.openState

variable {assured : Prop}

theorem Keeps.trans {first : OpenState} {second third : Socket}
    (before : Keeps assured first second) (after : Keeps assured second.openState third) :
    Keeps assured first third :=
  ⟨after.sound, fun established => after.established (before.established established)⟩

variable {frame : Frame}

/-- What a frame that rests relies on stays true while the socket stays established. -/
theorem Ready.of_rests {socket after : Socket}
    (established : Established socket.openState -> Established after.openState) (rests : Rests frame)
    (ready : Ready assured socket frame) : Ready assured after frame := by
  cases frame with
  | privateFailConnect | privateFailConnectPart2 | privateRetryConnect
  | privateSocketWritableConnection | connectToEndpoint => exact rests.elim
  | privateFail | closeAfterFail | shutdownAfterFail | privateFailUpgrade
  | dispatchUpgradeFailure | readable | writable => exact established ready
  | attachSocket => exact ready
  | dispatchConnectFailure | finishConnectFailure | executeDeferredCalls
  | dispatchConnectComplete => trivial

variable {socket : Socket}

section

variable (sound : Sound assured socket)
include sound

theorem established_of_sound (registered : socket.attached = true ∨ socket.detachMode = .initiated)
    (noProgress : socket.connectInProgress = false) : Established socket.openState := by
  have progress := sound.progress
  have notDefault := (sound.registered registered).1
  unfold Established
  cases isState : socket.openState <;> simp_all

/-- An established socket that is being detached is shut down. -/
theorem idle_of_sound (noProgress : socket.connectInProgress = false)
    (open_ : socket.shutdownState.shutdownSend = false ∨
      socket.shutdownState.shutdownReceive = false) : socket.detachMode = .idle := by
  cases isMode : socket.detachMode with
  | idle => rfl
  | initiated =>
    have shut := sound.shut isMode
    simp_all

theorem noProgress_of_established (established : Established socket.openState) :
    socket.connectInProgress = false := by
  have progress := sound.progress
  obtain _ | _ := established <;> simp_all

theorem deregistered_sound : Sound assured socket.deregistered := by
  refine { sound with registered := fun isRegistered => sound.registered ?_ }
  obtain isAttached | isInitiated := isRegistered
  · exact .inl (Bool.and_eq_true_iff.mp isAttached).1
  · exact .inr isInitiated

section

variable (idle : socket.detachMode = .idle)
include idle

theorem detaching_sound (wasAttached : socket.attached = true)
    (shut : socket.connectInProgress = true ∨
      socket.shutdownState.shutdownSend = true ∧ socket.shutdownState.shutdownReceive = true)
    (callback : DetachCallback)
    (sequence : ∀ context, callback = .shutdownSequenceComplete context ->
      Established socket.openState) : Sound assured (socket.detaching callback) := by
  have hasNone : socket.detachments = [] := by simpa [idle] using sound.pending
  unfold detaching
  exact { sound with
    pending := by simp [hasNone]
    shut := fun _ => shut
    registered := fun _ => sound.registered (.inl wasAttached)
    sequences := by
      intro context mem
      rw [hasNone, nil_append, mem_singleton] at mem
      exact sequence context mem.symm }

theorem shutdownSequenceEnd_keeps (noProgress : socket.connectInProgress = false)
    (context : ShutdownContext) :
    Keeps assured socket.openState (socket.shutdownSequenceEnd context) := by
  have hasNone : socket.detachments = [] := by simpa [idle] using sound.pending
  have progress := sound.progress
  have registered := sound.registered
  have resolutions := sound.resolutions
  have upgrades := sound.upgrades
  have assertions := sound.assertions
  unfold shutdownSequenceEnd
  constructor
  case sound =>
      constructor
      all_goals cases context.shutdownSend <;> cases context.shutdownCompleted <;>
          simp_all [moveAndExecute, dispatchClose, Established]
  case established =>
      cases context.shutdownSend <;> cases context.shutdownCompleted <;>
        simp_all [moveAndExecute, dispatchClose, Established]

theorem privateShutdownSequence_keeps (noProgress : socket.connectInProgress = false)
    {context : ShutdownContext} (shut : context.shutdownCompleted = true ->
      socket.shutdownState.shutdownSend = true ∧ socket.shutdownState.shutdownReceive = true)
    (detaches : Bool) :
    Keeps assured socket.openState (socket.privateShutdownSequence context detaches) := by
  obtain ⟨completes, _, wasAttached, isResult⟩ | ⟨_, isResult⟩ | ⟨_, isResult⟩ :=
    privateShutdownSequence_cases idle context detaches
  · rw [isResult]
    exact ⟨detaching_sound sound idle wasAttached (.inr (shut completes)) _
      (fun _ _ => established_of_sound sound (.inl wasAttached) noProgress), id⟩
  · rw [isResult]
    have ends := shutdownSequenceEnd_keeps (deregistered_sound sound) idle noProgress context
    exact ⟨ends.sound, ends.established⟩
  · rw [isResult]
    exact shutdownSequenceEnd_keeps sound idle noProgress context

theorem shutdownState_sound (shutdownState : ShutdownContext) :
    Sound assured { socket with shutdownState := shutdownState } := by
  refine { sound with shut := fun isInitiated => ?_ }
  rw [idle] at isInitiated
  contradiction

end

section

variable (noProgress : socket.connectInProgress = false)
include noProgress

theorem shuts_keeps {context next : ShutdownContext}
    (shuts : socket.shutdownState.Shuts context next) (detaches : Bool) :
    Keeps assured socket.openState
      ({ socket with shutdownState := next }.privateShutdownSequence context detaches) := by
  have idle := idle_of_sound sound noProgress shuts.wasOpen
  have keeps := privateShutdownSequence_keeps (shutdownState_sound sound idle next) idle noProgress
    shuts.shut detaches
  exact ⟨keeps.sound, keeps.established⟩

variable (detaches : Bool)

theorem privateShutdownSend_keeps :
    Keeps assured socket.openState (socket.privateShutdownSend detaches) := by
  obtain ⟨_, isResult⟩ | ⟨_, _, shuts, _, _, isResult⟩ := socket.privateShutdownSend_cases detaches
  · rw [isResult]
    exact ⟨sound, id⟩
  · rw [isResult]
    exact shuts_keeps sound noProgress shuts detaches

theorem privateShutdownReceive_keeps :
    Keeps assured socket.openState (socket.privateShutdownReceive detaches) := by
  obtain ⟨_, isResult⟩ | ⟨_, _, shuts, _, _, isResult⟩ :=
    socket.privateShutdownReceive_cases detaches
  · rw [isResult]
    exact ⟨sound, id⟩
  · rw [isResult]
    exact shuts_keeps sound noProgress shuts detaches

theorem privateShutdownReceive_shut :
    (socket.privateShutdownReceive detaches).shutdownState.shutdownReceive = true := by
  obtain ⟨isShut, isResult⟩ | ⟨_, next, shuts, isShut, _, isResult⟩ :=
    socket.privateShutdownReceive_cases detaches
  · rw [isResult]
    exact isShut
  · have idle := idle_of_sound sound noProgress shuts.wasOpen
    have idleNext : detachMode { socket with shutdownState := next } = .idle := idle
    rw [isResult, privateShutdownSequence_shutdownState idleNext]
    exact isShut

theorem privateShutdownSend_shut :
    (socket.privateShutdownSend detaches).shutdownState.shutdownSend = true ∧
      (socket.shutdownState.shutdownReceive = true ->
        (socket.privateShutdownSend detaches).shutdownState.shutdownReceive = true) := by
  obtain ⟨isShut, isResult⟩ | ⟨_, next, shuts, isShut, isReceive, isResult⟩ :=
    socket.privateShutdownSend_cases detaches
  · rw [isResult]
    exact ⟨isShut, id⟩
  · have idle := idle_of_sound sound noProgress shuts.wasOpen
    have idleNext : detachMode { socket with shutdownState := next } = .idle := idle
    rw [isResult, privateShutdownSequence_shutdownState idleNext]
    refine ⟨isShut, fun wasShut => ?_⟩
    rw [isReceive, wasShut]
    rfl

end

theorem entries_sound (shutdownEntries : Nat) :
    Sound assured { socket with shutdownEntries := shutdownEntries } :=
  { sound with }

theorem dispatchClose_sound : Sound assured socket.dispatchClose :=
  { sound with }

theorem privateShutdown_keeps (noProgress : socket.connectInProgress = false)
    (dir : ShutdownType) (mode : ShutdownMode) (hasEntry detaches : Bool) :
    Keeps assured socket.openState (socket.privateShutdown dir mode hasEntry detaches) := by
  obtain ⟨_, ⟨keeps, _⟩, isResult⟩ := privateShutdown_of_sequence
    (P := fun after => Keeps assured socket.openState after ∧ after.connectInProgress = false)
    (fun kept shuts => ⟨kept.1.trans (shuts_keeps kept.1.sound kept.2 shuts detaches),
      (congrArg Connection.connectInProgress (privateShutdownSequence_connection ..)).trans kept.2⟩)
    (fun entries kept => ⟨⟨entries_sound kept.1.sound entries, kept.1.established⟩, kept.2⟩)
    ⟨⟨sound, id⟩, noProgress⟩ dir mode hasEntry
  rw [isResult]
  split
  · exact ⟨dispatchClose_sound keeps.sound, keeps.established⟩
  · exact keeps

end

def Proceeds (assured : Prop) (openState : OpenState) : Outcome -> Prop
  | .continues after frames =>
    Keeps assured openState after ∧ (∀ frame ∈ frames.head?, Ready assured after frame) ∧
      ∀ frame ∈ frames.tail, Rests frame ∧ Ready assured after frame
  | .releases after frames =>
    Keeps assured openState after ∧ ∀ frame ∈ frames, Rests frame ∧ Ready assured after frame

variable {openState : OpenState} {after : Socket}

theorem proceeds_nil (keeps : Keeps assured openState after) : Proceeds assured openState
    (.continues after []) :=
  ⟨keeps, fun _ mem => absurd mem (by simp), fun _ mem => absurd mem (by simp)⟩

theorem proceeds_single (keeps : Keeps assured openState after) (ready : Ready assured after frame)
    : Proceeds assured openState (.continues after [frame]) := by
  refine ⟨keeps, ?_, fun _ mem => absurd mem (by simp)⟩
  intro _ isFrame
  cases isFrame
  exact ready

theorem proceeds_behind (frame : Frame)
    (announced : Bool) (keeps : Keeps assured openState after) (rests : Rests frame)
    (ready : Ready assured after frame) :
    Proceeds assured openState (after.behind announced frame) := by
  unfold behind
  split
  · refine ⟨keeps, ?_⟩
    intro _ mem
    rw [mem_singleton.mp mem]
    exact ⟨rests, ready⟩
  · exact proceeds_single keeps ready

section

variable (sound : Sound assured socket) (progress : socket.connectInProgress = true)
include sound progress

theorem noUpgrade_of_progress : socket.upgradeInProgress = false := by
  cases isUpgrade : socket.upgradeInProgress with
  | false => rfl
  | true =>
    rw [noProgress_of_established sound (sound.upgrades isUpgrade)] at progress
    contradiction

theorem markFailed_keeps (idle : socket.detachMode = .idle) (error : Option Error) :
    Keeps assured socket.openState (socket.markFailed error) := by
  have hasNone : socket.detachments = [] := by simpa [idle] using sound.pending
  have registered := sound.registered
  have resolutions := sound.resolutions
  have noUpgrade := noUpgrade_of_progress sound progress
  have assertions := sound.assertions
  unfold markFailed failForGood
  constructor
  case sound =>
      constructor
      all_goals split <;> simp_all [Established]
  case established =>
      intro established
      rw [noProgress_of_established sound established] at progress
      contradiction

end

theorem markFailed_shut (progress : socket.connectInProgress = true) (error : Option Error) :
    (socket.markFailed error).connectInProgress = true ∨
      (socket.markFailed error).shutdownState.shutdownSend = true ∧
        (socket.markFailed error).shutdownState.shutdownReceive = true := by
  unfold markFailed
  split
  · exact .inr ⟨rfl, rfl⟩
  · exact .inl progress

theorem failAttempt_proceeds (sound : Sound assured socket)
    (progress : socket.connectInProgress = true) (idle : socket.detachMode = .idle)
    (error : Option Error) (defer detaches : Bool) :
    Proceeds assured socket.openState (socket.failAttempt error defer detaches) := by
  have marked := markFailed_keeps sound progress idle error
  have staysIdle := (socket.markFailed_detachMode error).trans idle
  obtain ⟨_, wasAttached, isResult⟩ | isResult := failAttempt_cases idle error defer detaches
  · rw [isResult]
    have isSound := detaching_sound marked.sound staysIdle
      ((socket.markFailed_attached error).trans wasAttached) (markFailed_shut progress error)
      (.failConnectPart2 (socket.connectFailure error defer)) nofun
    exact proceeds_nil ⟨isSound, marked.established⟩
  · rw [isResult]
    exact proceeds_single ⟨deregistered_sound marked.sound, marked.established⟩ trivial

theorem fail_sound (sound : Sound assured socket) (assertion : Assertion)
    (unassured : assured -> assertion = .closeCallback) : Sound assured (socket.fail assertion) :=
  { sound with assertions := fun isAssured => .inr (congrArg some (unassured isAssured)) }

theorem idle_of_ne (notInitiated : ¬ socket.detachMode = .initiated) :
    socket.detachMode = .idle := by
  cases isMode : socket.detachMode with
  | idle => rfl
  | initiated => contradiction

section

variable (sound : Sound assured socket)
include sound

theorem privateFailConnect_proceeds
    (ready : assured -> socket.connectInProgress = true -> socket.detachMode = .idle)
    (error : Option Error) (defer close detaches : Bool) :
    Proceeds assured socket.openState (socket.privateFailConnect error defer close detaches) := by
  unfold privateFailConnect
  split
  · exact proceeds_nil ⟨sound, id⟩
  · rename_i notDone
    have progress : socket.connectInProgress = true := not_not.mp notDone
    split
    · rename_i initiated
      refine proceeds_nil ⟨fail_sound sound _ fun isAssured => ?_, id⟩
      have idle := ready isAssured progress
      rw [initiated] at idle
      contradiction
    · rename_i notInitiated
      have idle := idle_of_ne notInitiated
      split
      · have isSound : Sound assured { socket with retryCount := 0 } := { sound with }
        exact failAttempt_proceeds isSound progress idle error defer detaches
      · split
        · exact failAttempt_proceeds sound progress idle error defer detaches
        · split
          · have isSound : Sound assured { socket with retryConnect := false } := { sound with }
            exact proceeds_single ⟨isSound, id⟩ ready
          · exact proceeds_nil ⟨sound, id⟩

theorem privateFailConnectPart2_proceeds (failure : Failure) (inlines : Bool) :
    Proceeds assured socket.openState (socket.privateFailConnectPart2 failure inlines) := by
  unfold privateFailConnectPart2
  split
  · have isSound : Sound assured { socket with descriptor := false, handle := false } :=
      { sound with }
    exact proceeds_behind (.dispatchConnectFailure failure) _ ⟨isSound, id⟩ trivial trivial
  · exact proceeds_behind (.dispatchConnectFailure failure) _ ⟨sound, id⟩ trivial trivial

theorem dispatchConnectFailure_proceeds (failure : Failure) (inlines : Bool) :
    Proceeds assured socket.openState (socket.dispatchConnectFailure failure inlines) := by
  unfold dispatchConnectFailure
  split
  · have isSound : Sound assured
        { socket with connectEvents := socket.connectEvents ++ [failure.connectEvent] } :=
      { sound with }
    exact proceeds_behind .finishConnectFailure _ ⟨isSound, id⟩ trivial trivial
  · exact proceeds_single ⟨sound, id⟩ trivial

/-- A retry that was asked for is made, unless a detachment is pending. -/
theorem finishConnectFailure_proceeds
    (mayRetry : assured -> socket.retryConnect = true -> socket.connectInProgress = true ->
      socket.detachMode = .idle) :
    Proceeds assured socket.openState socket.finishConnectFailure := by
  obtain ⟨_, _, ⟨retries, isResult⟩ | isResult⟩ := socket.finishConnectFailure_cases
  · rw [isResult]
    refine ⟨⟨{ sound with }, id⟩, ?_, ?_⟩
    · intro frame isFrame
      cases isFrame
      exact fun isAssured progress => mayRetry isAssured retries progress
    · intro _ mem
      rw [mem_singleton.mp mem]
      exact ⟨trivial, trivial⟩
  · rw [isResult]
    exact proceeds_single ⟨{ sound with }, id⟩ trivial

theorem startAttempt_sound (progress : socket.connectInProgress = true) :
    Sound assured socket.startAttempt := by
  have noUpgrade := noUpgrade_of_progress sound progress
  unfold startAttempt
  exact { sound with
    progress := by simp [progress]
    shut := fun _ => .inl progress
    registered := fun _ => ⟨nofun, fun _ => Nat.succ_pos _⟩
    sequences := by
      intro context mem
      rw [noProgress_of_established sound (sound.sequences context mem)] at progress
      contradiction
    upgrades := by simp [noUpgrade] }

theorem privateRetryConnect_proceeds
    (ready : assured -> socket.connectInProgress = true -> socket.detachMode = .idle)
    (resolves : Option Error) :
    Proceeds assured socket.openState (socket.privateRetryConnect resolves) := by
  unfold privateRetryConnect
  split
  · exact proceeds_nil ⟨sound, id⟩
  · rename_i starts
    have progress : socket.connectInProgress = true := by
      simp only [not_or, not_not] at starts
      exact starts.2.1
    have isSound := startAttempt_sound sound progress
    have keeps : Keeps assured socket.openState socket.startAttempt := by
      refine ⟨isSound, fun established => ?_⟩
      rw [noProgress_of_established sound established] at progress
      contradiction
    dsimp only
    split
    · split
      · exact proceeds_single keeps ready
      · cases resolves with
        | some => exact proceeds_single keeps ready
        | none =>
          refine proceeds_nil ⟨{ isSound with resolutions := ?_ }, keeps.established⟩
          intro connectAttempts mem
          obtain isOlder | isNew := mem_append.mp mem
          · exact isSound.resolutions connectAttempts isOlder
          · rw [mem_singleton.mp isNew]
            exact Nat.succ_pos _
    · exact proceeds_single keeps ⟨fun isAssured => ready isAssured progress, Nat.succ_pos _⟩

theorem connectToEndpoint_proceeds (idle : assured -> socket.detachMode = .idle)
    (someAttempt : 0 < socket.connectAttempts) (establishment : Establishment) (inlines : Bool) :
    Proceeds assured socket.openState (socket.connectToEndpoint establishment inlines) := by
  have isOpened : Sound assured socket.opened := { sound with }
  cases establishment with
  | failsToOpen error created =>
    have isFailed : Sound assured (socket.openFailed created) := { sound with }
    exact proceeds_single ⟨isFailed, id⟩ (fun isAssured _ => idle isAssured)
  | fails => exact proceeds_single ⟨isOpened, id⟩ (fun isAssured _ => idle isAssured)
  | connects =>
    exact proceeds_behind (.attachSocket socket.connectAttempts) _ ⟨isOpened, id⟩ trivial
      someAttempt

end

variable {connectAttempts : Nat}

section

variable (sound : Sound assured socket)
include sound

theorem attachSocket_proceeds (someAttempt : 0 < connectAttempts) (attachment : Attachment) :
    Proceeds assured socket.openState (socket.attachSocket connectAttempts attachment) := by
  unfold attachSocket
  split
  · exact proceeds_nil ⟨sound, id⟩
  · rename_i current
    simp only [not_or, not_not] at current
    obtain ⟨notInitiated, progress, isCurrent⟩ := current
    have idle := idle_of_ne notInitiated
    have notDefault : socket.openState ≠ .default := by
      intro isDefault
      have isProgress := sound.progress.mp progress
      rw [isDefault] at isProgress
      simp at isProgress
    have registers (attached : Bool) : Sound assured { socket with attached := attached } :=
      { sound with registered := fun _ => ⟨notDefault, fun _ => isCurrent ▸ someAttempt⟩ }
    split
    · exact proceeds_single ⟨sound, id⟩ (fun _ _ => idle)
    · cases attachment with
      | fails _ registered =>
        exact proceeds_single ⟨registers (socket.attached || registered), id⟩ (fun _ _ => idle)
      | attaches => exact proceeds_nil ⟨registers true, id⟩

theorem privateSocketWritableConnection_proceeds
    (ready : socket.connectInProgress = true -> socket.detachMode = .idle)
    (connection : Option Error) (inlines : Bool) : Proceeds assured socket.openState
      (socket.privateSocketWritableConnection connection inlines) := by
  unfold privateSocketWritableConnection
  split
  · exact proceeds_nil ⟨sound, id⟩
  · rename_i notDone
    have idle := ready (not_not.mp notDone)
    have hasNone : socket.detachments = [] := by simpa [idle] using sound.pending
    cases connection with
    | some => exact proceeds_single ⟨sound, id⟩ (fun _ _ => idle)
    | none =>
      have isSound : Sound assured { socket with
          retryCount := 0
          connectInProgress := false
          connectEndpoints := 0
          openState := .connected
          connectCallback := false
          connectError := none } :=
        { sound with
          progress := by simp
          shut := fun isInitiated => absurd isInitiated (by rw [idle]; decide)
          registered := fun _ => ⟨nofun, nofun⟩
          sequences := by simp [hasNone]
          upgrades := fun _ => .inl rfl }
      exact proceeds_behind (.dispatchConnectComplete socket.connectCallback) _
        ⟨isSound, fun _ => .inl rfl⟩ trivial trivial

theorem dispatchConnectComplete_proceeds (connectCallback : Bool) :
    Proceeds assured socket.openState (socket.dispatchConnectComplete connectCallback) := by
  unfold dispatchConnectComplete
  split
  · exact proceeds_nil ⟨{ sound with }, id⟩
  · exact proceeds_nil ⟨sound, id⟩

end

section Established

variable (sound : Sound assured socket) (established : Established socket.openState)

include sound established

theorem privateFail_proceeds (error : Error) (inlines : Bool) :
    Proceeds assured socket.openState (socket.privateFail error inlines) := by
  unfold privateFail
  rw [noProgress_of_established sound established, if_neg nofun]
  split
  · exact proceeds_single ⟨sound, id⟩ established
  · exact proceeds_behind (.closeAfterFail error) _ ⟨sound, id⟩ trivial established

theorem closeAfterFail_proceeds (error : Error) (detaches inlines : Bool) :
    Proceeds assured socket.openState (socket.closeAfterFail error detaches inlines) := by
  have noProgress := noProgress_of_established sound established
  unfold closeAfterFail
  split
  · have receives := privateShutdownReceive_keeps sound noProgress detaches
    have staysNoProgress :=
      noProgress_of_established receives.sound (receives.established established)
    exact proceeds_nil
      (receives.trans (privateShutdownSend_keeps receives.sound staysNoProgress detaches))
  · exact proceeds_behind .shutdownAfterFail _ ⟨sound, id⟩ trivial established

theorem shutdownAfterFail_proceeds (detaches : Bool) :
    Proceeds assured socket.openState (socket.shutdownAfterFail detaches) :=
  proceeds_nil (privateShutdown_keeps sound (noProgress_of_established sound established) _ _ _ _)

theorem privateFailUpgrade_proceeds (inlines : Bool) :
    Proceeds assured socket.openState (socket.privateFailUpgrade inlines) := by
  unfold privateFailUpgrade
  split
  · exact proceeds_nil ⟨sound, id⟩
  · have isSound : Sound assured { socket with upgradeInProgress := false } :=
      { sound with upgrades := nofun }
    exact proceeds_behind .dispatchUpgradeFailure _ ⟨isSound, id⟩ trivial established

variable (transfer : Transfer) (detaches : Bool)

theorem readable_proceeds :
    Proceeds assured socket.openState (socket.readable transfer detaches) := by
  cases transfer with
  | done => exact proceeds_nil ⟨sound, id⟩
  | invokes =>
    refine ⟨⟨sound, id⟩, ?_⟩
    intro frame mem
    rw [mem_singleton.mp mem]
    exact ⟨trivial, established⟩
  | upgrades =>
    refine ⟨⟨{ sound with upgrades := nofun }, id⟩, ?_⟩
    intro frame mem
    rw [mem_singleton.mp mem]
    exact ⟨trivial, established⟩
  | upgradeFails =>
    refine ⟨⟨sound, id⟩, ?_, ?_⟩
    · intro frame isFrame
      cases isFrame
      exact established
    · intro _ mem
      rw [mem_singleton.mp mem]
      exact ⟨trivial, established⟩
  | ends =>
    have keeps := privateShutdownReceive_keeps sound
      (noProgress_of_established sound established) detaches
    exact proceeds_single keeps (keeps.established established)
  | fails => exact proceeds_single ⟨sound, id⟩ established

theorem writable_proceeds :
    Proceeds assured socket.openState (socket.writable transfer detaches) := by
  cases transfer with
  | done | upgrades | upgradeFails => exact proceeds_nil ⟨sound, id⟩
  | invokes =>
    refine ⟨⟨sound, id⟩, ?_⟩
    intro _ mem
    rw [mem_singleton.mp mem]
    exact ⟨trivial, established⟩
  | ends =>
    unfold writable
    dsimp only
    split
    · have noProgress := noProgress_of_established sound established
      have keeps := privateShutdownSend_keeps
        (entries_sound sound (socket.shutdownEntries - 1)) noProgress detaches
      exact proceeds_single keeps (keeps.established established)
    · exact proceeds_nil ⟨sound, id⟩
  | fails => exact proceeds_single ⟨sound, id⟩ established

end Established

def Enters (assured : Prop) (socket : Socket) (entered : Socket × List Frame) : Prop :=
  Proceeds assured socket.openState (.continues entered.1 entered.2)

section

variable (sound : Sound assured socket)
include sound

theorem deferred_sound (deferredCalls : List DeferredCall) :
    Sound assured { socket with deferredCalls := deferredCalls } :=
  { sound with }

theorem privateClose_enters (callback : Option Nat) (detaches : Bool) :
    Enters assured socket (socket.privateClose callback detaches) := by
  unfold privateClose
  split
  · exact proceeds_nil ⟨deferred_sound sound _, id⟩
  · rename_i notInitiated
    have idle := idle_of_ne notInitiated
    have isSound : Sound assured { socket with closeCallback := callback } := { sound with }
    split
    · exact proceeds_nil ⟨fail_sound sound _ fun _ => rfl, id⟩
    · dsimp only
      split
      · exact proceeds_single ⟨isSound, id⟩ (fun _ _ => idle)
      · rename_i noProgress
        exact proceeds_nil
          (privateShutdown_keeps isSound (Bool.eq_false_iff.mpr noProgress) _ _ _ _)

theorem close_enters (callback detaches : Bool) :
    Enters assured socket (socket.close callback detaches) := by
  unfold close accept
  split
  · have isSound : Sound assured { socket with accepted := socket.accepted + 1 } := { sound with }
    exact privateClose_enters isSound _ detaches
  · exact privateClose_enters sound _ detaches

theorem release_enters (callback detaches : Bool) :
    Enters assured socket (socket.release callback detaches) := by
  unfold release
  split
  · exact proceeds_nil ⟨sound, id⟩
  · have isSound : Sound assured { socket with detachGoal := .toExport, session := false } :=
      { sound with }
    exact close_enters isSound callback detaches

theorem shutdown_enters (dir : ShutdownType) (mode : ShutdownMode) (hasEntry detaches : Bool) :
    Enters assured socket (socket.shutdown dir mode hasEntry detaches) := by
  unfold shutdown
  split
  · exact proceeds_nil ⟨deferred_sound sound _, id⟩
  · rename_i notInitiated
    have idle := idle_of_ne notInitiated
    split
    · split
      · exact proceeds_nil ⟨sound, id⟩
      · exact proceeds_single ⟨sound, id⟩ (fun _ _ => idle)
    · rename_i noProgress
      exact proceeds_nil (privateShutdown_keeps sound (Bool.eq_false_iff.mpr noProgress) _ _ _ _)

theorem processConnectDeadlineTimer_enters :
    Enters assured socket socket.processConnectDeadlineTimer := by
  unfold processConnectDeadlineTimer
  split
  · exact proceeds_nil ⟨{ sound with }, id⟩
  · rename_i notInitiated
    split
    · exact proceeds_single ⟨sound, id⟩ (fun _ _ => idle_of_ne notInitiated)
    · exact proceeds_nil ⟨sound, id⟩

theorem processConnectRetryTimer_enters :
    Enters assured socket socket.processConnectRetryTimer := by
  unfold processConnectRetryTimer
  split
  · exact proceeds_nil ⟨sound, id⟩
  · rename_i notDone
    split
    · have isSound : Sound assured { socket with retryConnect := true } := { sound with }
      split
      · exact proceeds_nil ⟨isSound, id⟩
      · rename_i initiated
        exact proceeds_single ⟨isSound, id⟩ (fun _ _ => idle_of_ne initiated)
    · rename_i noAttempt
      refine proceeds_single ⟨sound, id⟩ (fun _ progress => idle_of_ne fun initiated => ?_)
      exact noAttempt ((sound.registered (.inr initiated)).2 progress)

theorem connect_keeps (named : Bool) (retryCount : Option Nat) (strategy : ConnectStrategy)
    (callback : Bool) :
    Keeps assured socket.openState (socket.connect named retryCount strategy callback) := by
  unfold connect
  split
  · exact ⟨sound, id⟩
  · rename_i connects
    simp only [not_or, not_not] at connects
    have isDefault : socket.openState = .default := connects.1
    have notRegistered : ¬ (socket.attached = true ∨ socket.detachMode = .initiated) :=
      fun registered => (sound.registered registered).1 isDefault
    have notEstablished : ¬ Established socket.openState := by
      rw [isDefault]
      exact fun established => by simp [Established] at established
    exact {
      sound := { sound with
        progress := by simp
        shut := fun _ => .inl rfl
        registered := fun registered => absurd registered notRegistered
        sequences := fun context mem => absurd (sound.sequences context mem) notEstablished
        upgrades := fun upgrades => absurd (sound.upgrades upgrades) notEstablished }
      established := fun established => absurd established notEstablished }

theorem processRemoteEndpointResolution_enters (someAttempt : 0 < connectAttempts) (endpoints : Nat)
    (error : Option Error) : Enters assured socket
      (socket.processRemoteEndpointResolution connectAttempts endpoints error) := by
  unfold processRemoteEndpointResolution
  split
  · exact proceeds_nil ⟨sound, id⟩
  · rename_i current
    simp only [not_or, not_not] at current
    have idle := idle_of_ne current.1
    have isSound : Sound assured { socket with connectEndpoints := endpoints } := { sound with }
    cases error with
    | some => exact proceeds_single ⟨isSound, id⟩ (fun _ _ => idle)
    | none => exact proceeds_single ⟨isSound, id⟩ ⟨fun _ => idle, current.2.2 ▸ someAttempt⟩

theorem upgrade_keeps (fails detaches : Bool) :
    Keeps assured socket.openState (socket.upgrade fails detaches) := by
  unfold upgrade
  split
  · exact ⟨sound, id⟩
  · rename_i upgrades
    simp only [not_or, not_not] at upgrades
    have established : Established socket.openState := .inl upgrades.1
    split
    · exact privateShutdown_keeps sound (noProgress_of_established sound established) _ _ _ _
    · exact ⟨{ sound with upgrades := fun _ => established }, id⟩

end

variable {callback : DetachCallback}

section

variable (sound : Sound assured socket)
include sound

section

variable {index : Nat} (found : socket.detachments[index]? = some callback)
include found

/-- The detachment that is complete was the only one. -/
theorem detached_of_sound :
    socket.detachMode = .initiated ∧ socket.detachments.eraseIdx index = [] := by
  have isLess := (List.getElem?_eq_some_iff.mp found).choose
  have pending := sound.pending
  have isInitiated : socket.detachMode = .initiated := by
    cases isMode : socket.detachMode with
    | initiated => rfl
    | idle =>
      rw [isMode] at pending
      simp only [reduceCtorEq, if_false] at pending
      omega
  rw [if_pos isInitiated] at pending
  refine ⟨isInitiated, ?_⟩
  apply eq_nil_of_length_eq_zero
  rw [length_eraseIdx_of_lt isLess]
  omega

theorem processSocketDetached_enters : Enters assured socket ({ socket with
        detachments := socket.detachments.eraseIdx index }.processSocketDetached callback) := by
  obtain ⟨isInitiated, hasNone⟩ := detached_of_sound sound found
  rw [hasNone]
  have isSound : Sound assured { socket with detachMode := .idle, detachments := [] } :=
    { sound with
      pending := rfl
      shut := nofun
      registered := fun _ => sound.registered (.inr isInitiated)
      sequences := by simp }
  cases callback with
  | failConnectPart2 =>
    unfold processSocketDetached
    dsimp only
    rw [if_pos isInitiated]
    exact proceeds_single ⟨isSound, id⟩ trivial
  | shutdownSequenceComplete context =>
    have established := sound.sequences context (mem_of_getElem? found)
    have noProgress := noProgress_of_established sound established
    have ends := shutdownSequenceEnd_keeps isSound rfl noProgress context
    unfold processSocketDetached privateShutdownSequenceComplete
    dsimp only
    rw [if_pos (by rw [isInitiated]; rfl)]
    exact proceeds_nil ends

end

theorem processSocketWritable_enters (attached : socket.attached = true) :
    Enters assured socket (socket, socket.processSocketWritable) := by
  unfold processSocketWritable
  split
  · exact proceeds_nil ⟨sound, id⟩
  · rename_i initiated
    split
    · exact proceeds_single ⟨sound, id⟩ (fun _ => idle_of_ne initiated)
    · rename_i progress
      split
      · exact proceeds_nil ⟨sound, id⟩
      · exact proceeds_single ⟨sound, id⟩
          (established_of_sound sound (.inl attached) (Bool.eq_false_iff.mpr progress))

theorem processSocketError_enters (attached : socket.attached = true) (error : Error) :
    Enters assured socket (socket, socket.processSocketError error) := by
  unfold processSocketError
  split
  · exact proceeds_nil ⟨sound, id⟩
  · rename_i initiated
    split
    · exact proceeds_single ⟨sound, id⟩ (fun _ _ => idle_of_ne initiated)
    · rename_i progress
      have established :=
        established_of_sound sound (.inl attached) (Bool.eq_false_iff.mpr progress)
      split
      · exact proceeds_single ⟨sound, id⟩ established
      · exact proceeds_single ⟨sound, id⟩ established

theorem execute_enters (functor : DeferredCall) (hasEntry detaches : Bool) :
    Enters assured socket (socket.execute functor hasEntry detaches) := by
  cases functor with
  | processConnectDeadlineTimer => exact processConnectDeadlineTimer_enters sound
  | shutdown dir mode => exact shutdown_enters sound dir mode hasEntry detaches
  | close callback => exact privateClose_enters sound callback detaches

end

def MayEnter (assured : Prop) (socket : Socket) : Call -> Prop
  | .cancelConnect => assured -> socket.connectInProgress = true -> socket.detachMode = .idle
  | _ => True

/-- When the connect callback of a failed attempt returns, and a retry was asked for, the
socket of a connection in progress is not being detached. -/
def MayAdvance (assured : Prop) (socket : Socket) : Frame -> Input -> Prop
  | .finishConnectFailure, _ => assured -> socket.retryConnect = true ->
      socket.connectInProgress = true -> socket.detachMode = .idle
  | _, _ => True

theorem enter_enters (sound : Sound assured socket) {call : Call}
    (may : MayEnter assured socket call)
    {entered : Socket × List Frame} (isEntered : enter socket call = some entered) :
    Enters assured socket entered := by
  unfold enter at isEntered
  split at isEntered
  · contradiction
  · cases call with
    | connect named retryCount strategy callback =>
      cases isEntered
      exact proceeds_nil (connect_keeps sound named retryCount strategy callback)
    | cancelConnect =>
      cases isEntered
      split
      · exact proceeds_single ⟨sound, id⟩ may
      · exact proceeds_nil ⟨sound, id⟩
    | upgrade fails detaches =>
      cases isEntered
      exact proceeds_nil (upgrade_keeps sound fails detaches)
    | cancelUpgrade =>
      dsimp only at isEntered
      split at isEntered
      · rename_i upgrades
        have isSound : Sound assured { socket with upgradeInProgress := false } :=
          { sound with upgrades := nofun }
        cases isEntered
        exact proceeds_single ⟨isSound, id⟩ (sound.upgrades upgrades)
      · cases isEntered
        exact proceeds_nil ⟨sound, id⟩
    | shutdown dir mode hasEntry detaches =>
      cases isEntered
      exact shutdown_enters sound dir mode hasEntry detaches
    | release callback detaches =>
      cases isEntered
      exact release_enters sound callback detaches
    | close callback detaches =>
      cases isEntered
      exact close_enters sound callback detaches
    | registerSession | deregisterSession | resolverGone =>
      cases isEntered
      exact proceeds_nil ⟨{ sound with }, id⟩
    | processConnectDeadlineTimer =>
      cases isEntered
      exact processConnectDeadlineTimer_enters sound
    | processConnectRetryTimer =>
      cases isEntered
      exact processConnectRetryTimer_enters sound
    | processUpgradeTimer =>
      cases isEntered
      split
      · rename_i upgrades
        exact proceeds_single ⟨sound, id⟩ (sound.upgrades upgrades)
      · exact proceeds_nil ⟨sound, id⟩
    | processSocketReadable =>
      obtain ⟨ready, rfl⟩ := Run.guarded isEntered
      unfold processSocketReadable
      split
      · exact proceeds_nil ⟨sound, id⟩
      · exact proceeds_single ⟨sound, id⟩ (.inl ready.2)
    | processSocketWritable =>
      obtain ⟨attached, rfl⟩ := Run.guarded isEntered
      exact processSocketWritable_enters sound attached
    | processSocketError error =>
      obtain ⟨attached, rfl⟩ := Run.guarded isEntered
      exact processSocketError_enters sound attached error
    | processRemoteEndpointResolution index endpoints error =>
      obtain ⟨connectAttempts, found, isResult⟩ := Option.map_eq_some_iff.mp isEntered
      rw [← isResult]
      have isSound : Sound assured
          { socket with resolutions := socket.resolutions.eraseIdx index } :=
        { sound with
          resolutions := fun older mem =>
            sound.resolutions older (mem_of_mem_eraseIdx mem) }
      exact processRemoteEndpointResolution_enters isSound
        (sound.resolutions connectAttempts (mem_of_getElem? found)) endpoints error
    | processSocketDetached index =>
      obtain ⟨_, found, isResult⟩ := Option.map_eq_some_iff.mp isEntered
      rw [← isResult]
      exact processSocketDetached_enters sound found
    | execute index hasEntry detaches =>
      obtain ⟨functor, _, isResult⟩ := Option.map_eq_some_iff.mp isEntered
      rw [← isResult]
      have isSound : Sound assured { socket with functors := socket.functors.eraseIdx index } :=
        { sound with }
      exact execute_enters isSound functor hasEntry detaches

theorem advance_proceeds (sound : Sound assured socket) (ready : Ready assured socket frame)
    {input : Input} (may : MayAdvance assured socket frame input) {outcome : Outcome}
    (isOutcome : advance socket frame input = some outcome) :
    Proceeds assured socket.openState outcome := by
  unfold advance at isOutcome
  split at isOutcome
  · contradiction
  · cases isOutcome
    cases frame with
    | privateFailConnect error defer close =>
      exact privateFailConnect_proceeds sound ready error defer close input.detaches
    | privateFailConnectPart2 failure =>
      exact privateFailConnectPart2_proceeds sound failure input.inlines
    | dispatchConnectFailure failure =>
      exact dispatchConnectFailure_proceeds sound failure input.inlines
    | finishConnectFailure => exact finishConnectFailure_proceeds sound may
    | executeDeferredCalls => exact proceeds_nil ⟨{ sound with }, id⟩
    | privateRetryConnect => exact privateRetryConnect_proceeds sound ready input.resolves
    | connectToEndpoint =>
      exact connectToEndpoint_proceeds sound ready.1 ready.2 input.establishment input.inlines
    | attachSocket => exact attachSocket_proceeds sound ready input.attachment
    | privateSocketWritableConnection =>
      exact privateSocketWritableConnection_proceeds sound ready input.connection input.inlines
    | dispatchConnectComplete connectCallback =>
      exact dispatchConnectComplete_proceeds sound connectCallback
    | privateFail error => exact privateFail_proceeds sound ready error input.inlines
    | closeAfterFail error =>
      exact closeAfterFail_proceeds sound ready error input.detaches input.inlines
    | shutdownAfterFail => exact shutdownAfterFail_proceeds sound ready input.detaches
    | privateFailUpgrade => exact privateFailUpgrade_proceeds sound ready input.inlines
    | dispatchUpgradeFailure => exact proceeds_behind .shutdownAfterFail _ ⟨sound, id⟩ trivial ready
    | readable => exact readable_proceeds sound ready input.transfer input.detaches
    | writable => exact writable_proceeds sound ready input.transfer input.detaches

theorem others_ready {others frames : List Frame}
    (rest : ∀ frame ∈ others, Rests frame ∧ Ready assured socket frame)
    (established : Established socket.openState -> Established after.openState)
    (new : ∀ frame ∈ frames, Rests frame ∧ Ready assured after frame) :
    ∀ frame ∈ frames ++ others, Rests frame ∧ Ready assured after frame := by
  intro frame mem
  obtain isNew | isOther := mem_append.mp mem
  · exact new frame isNew
  · obtain ⟨rests, ready⟩ := rest frame isOther
    exact ⟨rests, ready.of_rests established rests⟩

theorem monitor_keeps : Monitor.Keeps enter advance (MayEnter assured) (MayAdvance assured)
    (Invariant assured) where
  perm isPerm holds :=
    ⟨holds.1, holds.2.1, fun frame mem => holds.2.2 frame (isPerm.mem_iff.mpr mem)⟩
  focus {socket frame others} holds := by
    refine ⟨holds.1, ?_, fun other mem => holds.2.2 other (mem_cons_of_mem frame mem)⟩
    intro _ isFrame
    cases isFrame
    exact (holds.2.2 frame mem_cons_self).2
  enters holds may isEntered := by
    obtain ⟨keeps, ready, rest⟩ := enter_enters holds.1 may isEntered
    exact ⟨keeps.sound, ready, others_ready holds.2.2 keeps.established rest⟩
  continues holds may isOutcome := by
    obtain ⟨keeps, ready, rest⟩ := advance_proceeds holds.1 (holds.2.1 _ rfl) may isOutcome
    exact ⟨keeps.sound, ready, others_ready holds.2.2 keeps.established rest⟩
  releases holds may isOutcome := by
    obtain ⟨keeps, rest⟩ := advance_proceeds holds.1 (holds.2.1 _ rfl) may isOutcome
    exact ⟨keeps.sound, fun _ isFrame => absurd isFrame nofun,
      others_ready holds.2.2 keeps.established rest⟩

theorem initial_holds (configuration : Configuration) :
    Monitor.Holds (Invariant assured) (initial configuration) := by
  refine ⟨?_, fun _ isFrame => absurd isFrame nofun, forall_mem_nil _⟩
  unfold initial
  constructor
  all_goals cases configuration.accepted <;> simp [Established]

theorem sound_of_holds {system : System} (holds : Monitor.Holds (Invariant assured) system) :
    Sound assured system.shared := by
  unfold Monitor.Holds at holds
  split at holds
  · exact holds.1
  · exact holds.1

end Consistency

end NtfCore.Ntcr.StreamSocket.Lifecycle
