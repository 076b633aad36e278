import NtfCore.Ntcr.StreamSocket.Lifecycle.Model
import NtfCore.Ntsa.HostText
import NtfCore.Ntsa.Uri.Profile

/-!
Contract: how `connect` schedules the attempts of a stream socket.

Owns: the count of attempts and the timers that `connect` to an endpoint and `connect` to a
name set up, and when these are what the options ask for.
-/

namespace NtfCore.Ntcr.StreamSocket.Lifecycle

open NtfCore.Ntsa Socket Option

/-! ## Options and timers -/

/-- `ntca::ConnectOptions`, as far as `connect` reads them; times are in nanoseconds. -/
structure ConnectOptions (Backoff : Type) where
  strategy : Option ConnectStrategy := none
  retryCount : Option UInt64 := none
  retryInterval : Option Int := none
  retryBackoff : Option Backoff := none
  deadline : Option Int := none

/-- A timer that has been scheduled. That it is canceled or closed is not announced. -/
structure ConnectTimer (Backoff : Type) where
  oneShot : Bool
  backoff : Option Backoff := none
  deadline : Int
  period : Option Int := none

/-- The part of the socket that `connect` reads and writes. -/
structure Connecting (Backoff : Type) where
  transport : Transport
  openState : OpenState := .default
  connectInProgress : Bool := false
  systemRemoteEndpoint : Endpoint := .undefined
  resolver : Bool := true
  connectName : List UInt8 := []
  connectEndpointVector : List Endpoint := []
  connectOptions : ConnectOptions Backoff := {}
  connectCallback : Bool := false
  connectStartTime : Int := 0
  connectDeadlineTimer : Option (ConnectTimer Backoff) := none
  connectRetryTimer : Option (ConnectTimer Backoff) := none

/-- What a call of `connect` comes to. -/
inductive ConnectOutcome (Backoff : Type) where
  | invalid
  | pending (socket : Connecting Backoff)
  /-- `value` of a null value. -/
  | nullValue

/-- Whether `connect` rejects the endpoint. -/
def rejectsEndpoint : Endpoint -> Bool
  | .ip ⟨.v4 address, port⟩ => address.equals ⟨.replicate 4 0⟩ || port == 0
  | .ip ⟨.v6 address, port⟩ => address.equals ⟨.replicate 8 0, .replicate 8 0, 0⟩ || port == 0
  | .ip ⟨.undefined, port⟩ => port == 0
  | _ => false

/-- The count that `connect` to an endpoint sets. -/
def endpointRetryCount : Option UInt64 -> UInt64
  | none => 1
  | some retryCount => if retryCount ≠ .ofNat Socket.sizeMax then retryCount + 1 else retryCount

/-- The count that `connect` to a name sets. -/
def nameRetryCount : Option UInt64 -> UInt64
  | none => 1
  | some retryCount => retryCount + 1

namespace Connecting

variable {Backoff : Type} (socket : Connecting Backoff) (isAbsolute : List UInt8 -> Bool)
  (endpoint : Endpoint) (name : List UInt8) (options : ConnectOptions Backoff)
  (callback : Bool) (start now : Int)

/-- What both functions check first. -/
def canConnect : Bool :=
  socket.openState == .default && !socket.connectInProgress &&
    socket.systemRemoteEndpoint == .undefined

/-- `connect` from the check of the interval on: the clock shows `start`, then `now`. -/
def scheduleAttempts (retryCount : UInt64) : ConnectOutcome Backoff :=
  let options := socket.connectOptions
  let retryInterval :=
    if 1 < retryCount then some (options.retryInterval.getD 0) else options.retryInterval
  let started :=
    { socket with
      connectOptions := { options with retryCount := some retryCount, retryInterval }
      connectStartTime := start
      connectDeadlineTimer :=
        match options.deadline with
        | some deadline => some { oneShot := true, deadline }
        | none => socket.connectDeadlineTimer }
  let timer : ConnectTimer Backoff :=
    { oneShot := true, backoff := options.retryBackoff, deadline := now }
  if retryCount = 1 then .pending { started with connectRetryTimer := some timer }
  else
    match retryInterval with
    | some period =>
      .pending { started with
        connectRetryTimer := some { timer with oneShot := false, period := some period } }
    | none => .nullValue

/-- `connect` to an endpoint. -/
def connectEndpoint : ConnectOutcome Backoff :=
  if socket.canConnect && !rejectsEndpoint endpoint then
    scheduleAttempts
      { socket with
        connectEndpointVector := socket.connectEndpointVector ++ [endpoint]
        connectOptions :=
          { options with strategy := some (options.strategy.getD .resolveIntoSingle) }
        connectCallback := callback
        connectInProgress := true
        openState := .waiting }
      start now (endpointRetryCount options.retryCount)
  else .invalid

/-- Whether `connect` takes the name for the name of a local endpoint. -/
def isLocal : Bool :=
  socket.transport == .localStream || isAbsolute name

/-- `connect` to a name. A local name that is too long is left empty. -/
def connectToName : ConnectOutcome Backoff :=
  if socket.isLocal isAbsolute name then
    socket.connectEndpoint (.localName ((LocalName.ofText name).getD ⟨[], false, by decide⟩))
      options callback start now
  else if socket.canConnect && socket.resolver then
    scheduleAttempts
      { socket with
        connectName := name
        connectOptions := options
        connectCallback := callback
        connectInProgress := true
        openState := .waiting }
      start now (nameRetryCount options.retryCount)
  else .invalid

end Connecting

/-! ## What the options ask for -/

/-- The attempts: the first one and the retries, as far as they can be counted. -/
def ConnectOptions.attempts {Backoff : Type} (options : ConnectOptions Backoff) : Nat :=
  match options.retryCount with
  | none => 1
  | some retryCount => min (retryCount.toNat + 1) Socket.sizeMax

/-- If the call is accepted, the socket has the attempts that the options ask for, and its
timer recurs exactly if there is more than one, at the interval of the options or at once. -/
def ConnectOutcome.Keeps {Backoff : Type} (options : ConnectOptions Backoff) (now : Int) :
    ConnectOutcome Backoff -> Prop
  | .invalid => True
  | .nullValue => False
  | .pending socket =>
    socket.connectOptions.retryCount.map UInt64.toNat = some options.attempts ∧
      socket.connectRetryTimer =
        some {
          oneShot := !decide (1 < options.attempts)
          backoff := options.retryBackoff
          deadline := now
          period := if 1 < options.attempts then some (options.retryInterval.getD 0) else none }

/-! ## The counts -/

namespace Socket

variable (retryCount : Option UInt64)

/-- The counts of the two functions are those of the runs of a socket. -/
theorem initialRetryCount_endpoint : (endpointRetryCount retryCount).toNat =
      initialRetryCount false (retryCount.map UInt64.toNat) := by
  cases retryCount with
  | none => rfl
  | some count =>
    have atMost := count.toNat_lt
    unfold endpointRetryCount
    by_cases isMax : count = .ofNat sizeMax
    · subst isMax
      rfl
    · have isLess : count.toNat < sizeMax := by
        have isNot : count.toNat ≠ sizeMax := fun same => isMax (UInt64.toNat_inj.mp same)
        unfold sizeMax at isNot ⊢
        omega
      dsimp only [map_some, initialRetryCount]
      rw [if_pos isMax, if_pos isLess, UInt64.toNat_add]
      exact Nat.mod_eq_of_lt (Nat.add_lt_of_lt_sub isLess)

end Socket

section

variable {Backoff : Type} (options : ConnectOptions Backoff)

theorem ConnectOptions.attempts_endpoint :
    (endpointRetryCount options.retryCount).toNat = options.attempts := by
  rw [initialRetryCount_endpoint, attempts]
  cases options.retryCount with
  | none => rfl
  | some count =>
    dsimp only [map_some, initialRetryCount]
    rw [if_neg Bool.false_ne_true]
    split
    · omega
    · omega

theorem ConnectOptions.attempts_pos : 0 < options.attempts := by
  unfold attempts
  split
  · exact Nat.zero_lt_one
  · exact Nat.lt_min.mpr ⟨Nat.succ_pos _, by decide⟩

/-- The count of `connect` to a name wraps. -/
theorem ConnectOptions.attempts_name :
    (nameRetryCount options.retryCount).toNat = options.attempts ↔
      options.retryCount ≠ some (.ofNat Socket.sizeMax) := by
  rw [← attempts_endpoint]
  cases options.retryCount with
  | none => simp [endpointRetryCount, nameRetryCount]
  | some count =>
    unfold endpointRetryCount nameRetryCount
    by_cases isMax : count = .ofNat sizeMax
    · subst isMax
      exact iff_of_false (by decide) (fun differ => differ rfl)
    · dsimp only
      rw [if_pos isMax]
      exact iff_of_true rfl (fun same => isMax (some.inj same))

end

/-! ## The schedule -/

namespace Connecting

variable {Backoff : Type} (socket : Connecting Backoff) (isAbsolute : List UInt8 -> Bool)
  (endpoint : Endpoint) (name : List UInt8) (options : ConnectOptions Backoff)
  (callback : Bool) (start now : Int)

/-- The timers are those that the options ask for exactly if the count is. -/
theorem scheduleAttempts_keeps_iff {retryCount : UInt64}
    (sameInterval : socket.connectOptions.retryInterval = options.retryInterval)
    (sameBackoff : socket.connectOptions.retryBackoff = options.retryBackoff) :
    (socket.scheduleAttempts start now retryCount).Keeps options now ↔
      retryCount.toNat = options.attempts := by
  have pos := options.attempts_pos
  have isMore : 1 < retryCount ↔ 1 < retryCount.toNat := UInt64.lt_iff_toNat_lt
  have isOnce : retryCount = 1 ↔ retryCount.toNat = 1 := UInt64.toNat_inj.symm
  dsimp only [scheduleAttempts]
  rw [sameInterval, sameBackoff]
  constructor
  · intro kept
    split at kept
    · exact some.inj kept.1
    · split at kept
      · exact some.inj kept.1
      · exact kept.elim
  · intro isCount
    rw [isCount] at isMore isOnce
    by_cases more : 1 < options.attempts
    · rw [if_neg (isOnce.not.mpr more.ne'), if_pos (isMore.mpr more)]
      exact ⟨congrArg some isCount, by simp [more]⟩
    · rw [if_pos (isOnce.mpr (by omega))]
      exact ⟨congrArg some isCount, by simp [more]⟩

theorem connectEndpoint_keeps :
    (socket.connectEndpoint endpoint options callback start now).Keeps options now := by
  unfold connectEndpoint
  split
  · exact (scheduleAttempts_keeps_iff _ options start now rfl rfl).mpr options.attempts_endpoint
  · exact True.intro

/-- The two functions schedule what the options ask for, unless the greatest count is given
for a name that has to be resolved. -/
theorem connect_keeps_iff :
    (socket.connectEndpoint endpoint options callback start now).Keeps options now ∧
        (socket.connectToName isAbsolute name options callback start now).Keeps options now ↔
      options.retryCount ≠ some (.ofNat Socket.sizeMax) ∨ socket.isLocal isAbsolute name = true ∨
        (socket.canConnect && socket.resolver) = false := by
  have ofEndpoint := socket.connectEndpoint_keeps endpoint options callback start now
  unfold connectToName
  split
  · rename_i isLocal
    have ofName := socket.connectEndpoint_keeps
      (.localName ((LocalName.ofText name).getD ⟨[], false, by decide⟩)) options callback start now
    exact iff_of_true ⟨ofEndpoint, ofName⟩ (.inr (.inl isLocal))
  · rename_i isResolved
    split
    · rename_i accepted
      rw [scheduleAttempts_keeps_iff _ options start now rfl rfl, options.attempts_name]
      constructor
      · intro ⟨_, notMax⟩
        exact .inl notMax
      · rintro (notMax | isLocal | refused)
        · exact ⟨ofEndpoint, notMax⟩
        · contradiction
        · exact absurd accepted (Bool.eq_false_iff.mp refused)
    · rename_i refused
      exact iff_of_true ⟨ofEndpoint, True.intro⟩ (.inr (.inr (Bool.eq_false_iff.mpr refused)))

/-- With the greatest count and no interval, `connect` to a name asks for the interval. -/
theorem greatest_count_not_scheduled :
    ¬ ∀ (socket : Connecting Unit) (isAbsolute : List UInt8 -> Bool) (name : List UInt8)
        (options : ConnectOptions Unit) (callback : Bool) (start now : Int),
      (socket.connectToName isAbsolute name options callback start now).Keeps options now :=
  fun all => all { transport := .tcpIpv4Stream } (fun name => name.head? = some 47) [97, 58, 49]
    { retryCount := some (.ofNat sizeMax) } true 0 0

end Connecting

end NtfCore.Ntcr.StreamSocket.Lifecycle
