import NtfCore.Ntcr.StreamSocket.Lifecycle.Consistency

/-!
Contract: a stream socket is detached at most once at a time.

Owns: the condition under which no call, event, timer, resolution or completion finds the
socket in a mode that an assertion forbids; and that a single detachment is in flight then.
-/

namespace NtfCore.Ntcr.StreamSocket.Lifecycle

open NtfCore.Foundation Consistency

namespace Detaching

def MayEnter (socket : Socket) : Call -> Prop
  | .cancelConnect => socket.connectInProgress = true -> socket.detachMode = .idle
  | _ => True

/-- When the connect callback of a failed attempt returns, and a retry was asked for, the
socket of a connection in progress is not being detached. -/
def MayAdvance (socket : Socket) : Frame -> Input -> Prop
  | .finishConnectFailure, _ => socket.retryConnect = true -> socket.connectInProgress = true ->
      socket.detachMode = .idle
  | _, _ => True

def Disciplined (system : System) : Prop :=
  system.shared.detachments.length ≤ 1 ∧
    (system.shared.failed = none ∨ system.shared.failed = some .closeCallback)

instance (system : System) : Decidable (Disciplined system) :=
  inferInstanceAs (Decidable (_ ∧ _))

theorem mayEnter_assured (socket : Socket) (call : Call) (may : MayEnter socket call) :
    Consistency.MayEnter True socket call := by
  cases call with
  | cancelConnect => exact fun _ => may
  | _ => trivial

theorem mayAdvance_assured (socket : Socket) (frame : Frame) (input : Input)
    (may : MayAdvance socket frame input) : Consistency.MayAdvance True socket frame input := by
  cases frame with
  | finishConnectFailure => exact fun _ => may
  | _ => trivial

theorem disciplined_of_holds (system : System)
    (holds : Monitor.Holds (Invariant True) system) : Disciplined system := by
  have sound := sound_of_holds holds
  have pending := sound.pending
  constructor
  · split at pending <;> omega
  · exact sound.assertions trivial

/-- In every run along which the conditions are met, a socket is detached at most once at a
time, and no assertion on the mode of the detachment fails. -/
theorem always_disciplined (configuration : Configuration) (actions : List Action)
    (meets : Run.Along step (Monitor.Meets MayEnter MayAdvance) (initial configuration) actions) :
    Run.Always step Disciplined (initial configuration) actions :=
  (monitor_keeps.mono mayEnter_assured mayAdvance_assured).always
    disciplined_of_holds (initial_holds configuration) meets

def failedAttempt : List Action :=
  [.call (.connect false (some 3) .resolveIntoSingle true), .call .processConnectRetryTimer,
    .advance {}, .advance {}, .advance {}, .call (.processSocketError (.other 1)), .advance {}]

theorem always_disciplined_retry : Run.Along step (Monitor.Meets MayEnter MayAdvance) (initial {})
        (failedAttempt ++ [.call .processConnectRetryTimer, .call (.processSocketDetached 0),
          .advance {}, .advance {}, .advance {}, .advance {}]) ∧
      Run.Always step Disciplined (initial {})
        (failedAttempt ++ [.call .processConnectRetryTimer, .call (.processSocketDetached 0),
          .advance {}, .advance {}, .advance {}, .advance {}]) := by
  have meets : Run.Along step (Monitor.Meets MayEnter MayAdvance) (initial {})
      (failedAttempt ++ [.call .processConnectRetryTimer, .call (.processSocketDetached 0),
        .advance {}, .advance {}, .advance {}, .advance {}]) :=
    ⟨trivial, trivial, trivial, trivial, trivial, trivial, trivial, trivial, trivial, trivial,
      trivial, fun _ _ => rfl, trivial, trivial⟩
  exact ⟨meets, always_disciplined {} _ meets⟩

/-- A connection that is cancelled while the socket of an attempt is being detached. -/
theorem not_always_disciplined_cancel :
    ¬ ∀ configuration actions, Run.Always step Disciplined (initial configuration) actions :=
  fun always => absurd (always {} (failedAttempt ++ [.call .cancelConnect, .advance {}]))
    (by decide)

end Detaching

end NtfCore.Ntcr.StreamSocket.Lifecycle
