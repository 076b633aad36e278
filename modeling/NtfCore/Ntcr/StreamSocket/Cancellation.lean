import NtfCore.Ntcr.StreamSocket.Soundness

/-!
Contract: what `ntcr::StreamSocket::cancel` of a send token reports.

Owns: the error that is returned, with the entry that is removed and the callback that is
dispatched, in every reachable state.
-/

namespace NtfCore.Ntcr.StreamSocket

open NtfCore.Foundation NtfCore.Ntcq SendQueue Option

variable {Token : Type} [DecidableEq Token]

/-- `cancel` of a token, with the error that it returns. -/
def cancelReported (socket : StreamSocket Token) (token : Token) :
    Option (Option Error × Outcome Token) :=
  match socket.sendQueue.removeEntryToken token with
  | none => none
  | some removal =>
    (socket.removeEntry (socket.sendQueue.indexOfToken token) .cancelled (some removal)).map
      fun outcome => (if removal.callback.isSome then none else some .invalid, outcome)

def carrying (socket : StreamSocket Token) (token : Token) : Option (Entry Token) :=
  socket.sendQueue.entryList.find? fun entry => entry.token == some token

/-- The first entry with the token is removed, unless it is in progress, with success, and its
callback is dispatched; otherwise nothing changes, and an error is returned. -/
def Cancels (socket : StreamSocket Token) (token : Token) :
    Option (Option Error × Outcome Token) -> Prop
  | none => False
  | some (error, outcome) =>
    match (socket.carrying token).filter fun entry => !entry.inProgress with
    | some entry =>
      error = none ∧
        outcome.socket.sendQueue.entryList =
          socket.sendQueue.entryList.eraseP (fun other => other.token == some token) ∧
        outcome.socket.sendQueue.size + entry.dataLength = socket.sendQueue.size ∧
        outcome.events = .removed entry.id :: dispatch .error (some .cancelled)
          (entry.callback.toList.map fun callback => (entry.context, callback))
    | none => error = some .invalid ∧ outcome.socket = socket ∧ outcome.events = []

def Answerable (socket : StreamSocket Token) (token : Token) : Prop :=
  ∀ entry, socket.carrying token = some entry -> entry.inProgress = false -> entry.callback.isSome

variable {socket : StreamSocket Token}

/-- While nothing is removed, nothing else happens. -/
theorem cancelReported_of_absent {token : Token}
    (absent : (socket.carrying token).filter (fun entry => !entry.inProgress) = none) :
    socket.cancelReported token = some (some .invalid, { socket := socket }) := by
  have kept : socket.sendQueue.removeEntryToken token =
      some { empty := socket.sendQueue.entryList.isEmpty, queue := socket.sendQueue } := by
    rw [removeEntryToken, removeAt, indexOfToken, ← List.find?_eq_getElem?_findIdx]
    unfold carrying at absent
    split
    · rfl
    · rename_i entry isCarrying
      rw [isCarrying, filter_eq_none_iff] at absent
      exact if_neg (absent entry rfl)
  rw [cancelReported, kept]
  dsimp only
  rw [removeEntry]
  rw [if_neg (Nat.lt_irrefl _)]
  rfl

theorem cancelReported_of_present {token : Token}
    (sized : Sized socket.sendQueue) {entry : Entry Token}
    (present : (socket.carrying token).filter (fun entry => !entry.inProgress) = some entry) :
    ∃ outcome, socket.cancelReported token =
        some (if entry.callback.isSome then none else some .invalid, outcome) ∧
      outcome.socket.sendQueue.entryList =
        socket.sendQueue.entryList.eraseP (fun other => other.token == some token) ∧
      outcome.socket.sendQueue.size + entry.dataLength = socket.sendQueue.size ∧
      outcome.events = .removed entry.id :: dispatch .error (some .cancelled)
        (entry.callback.toList.map fun callback => (entry.context, callback)) := by
  obtain ⟨isCarrying, isWaiting⟩ := filter_eq_some_iff.mp present
  have found : socket.sendQueue.entryList[socket.sendQueue.indexOfToken token]? = some entry := by
    rw [indexOfToken, ← List.find?_eq_getElem?_findIdx]
    exact isCarrying
  have isIndex := List.findIdx?_eq_some_iff_findIdx_eq.mpr
    ⟨(List.getElem?_eq_some_iff.mp found).1, rfl⟩
  obtain ⟨removal, outcome, isRemoval, isCallback, isOutcome, isErased, isSize, isDispatched⟩ :=
    removeEntry_removed (fun entry => !entry.inProgress) .cancelled sized found isWaiting
  refine ⟨outcome, ?_, ?_, isSize, isDispatched⟩
  · rw [cancelReported, removeEntryToken, isRemoval]
    dsimp only
    rw [isOutcome, isCallback]
    rfl
  · rw [List.eraseP_eq_eraseIdx, isIndex]
    exact isErased

theorem cancels_iff_answerable (sized : Sized socket.sendQueue) (token : Token) :
    Cancels socket token (socket.cancelReported token) ↔ Answerable socket token := by
  cases isWaiting : (socket.carrying token).filter fun entry => !entry.inProgress with
  | none =>
    rw [cancelReported_of_absent isWaiting, Cancels, isWaiting]
    refine iff_of_true ⟨rfl, rfl, rfl⟩ fun entry isCarrying notBegun => ?_
    rw [filter_eq_none_iff] at isWaiting
    exact absurd (by rw [notBegun]; rfl) (isWaiting entry isCarrying)
  | some entry =>
    obtain ⟨outcome, isReported, isErased, isSize, isDispatched⟩ :=
      cancelReported_of_present sized isWaiting
    obtain ⟨isCarrying, notBegun⟩ := filter_eq_some_iff.mp isWaiting
    rw [isReported, Cancels, isWaiting]
    constructor
    · rintro ⟨succeeded, _⟩ other isOther _
      rw [isCarrying] at isOther
      cases isOther
      by_contra noCallback
      rw [if_neg noCallback] at succeeded
      contradiction
    · intro answerable
      rw [if_pos (answerable entry isCarrying (by simpa using notBegun))]
      exact ⟨rfl, isErased, isSize, isDispatched⟩

theorem step_sized (half : SendHalf Token) (action : Action Token) (next : SendHalf Token)
    (sized : Sized half.socket.sendQueue) (taken : half.step action = some next) :
    Sized next.socket.sendQueue := by
  obtain ⟨outcome, isOutcome, rfl⟩ := map_eq_some_iff.mp taken
  exact (perform_cases sized.measured isOutcome).sized sized

/-- In every state that the sending half reaches, a cancellation reports what it does exactly when
the entry that it removes has a callback. -/
theorem always_cancels_iff (actions : List (Action Token)) : Run.Always SendHalf.step
      (fun half => ∀ token, Cancels half.socket token (half.socket.cancelReported token) ↔
        Answerable half.socket token) ({} : SendHalf Token) actions :=
  (Run.always_of_keeps step_sized
    ⟨rfl, fun _ mem => absurd mem List.not_mem_nil⟩).mono fun _ sized =>
      cancels_iff_answerable sized

def silentSend : List (Action Nat) :=
  [.send (.blob [1]) { token := some 7 } false {} .wouldBlock]

/-- The entry is removed, and an error is returned. -/
theorem silent_send_cancelled : ¬ Run.Always SendHalf.step
      (fun half => ∀ token, Cancels half.socket token (half.socket.cancelReported token))
      ({} : SendHalf Nat) silentSend := by
  intro always
  have cancels := always.2 7
  exact absurd cancels.1 (by decide)

end NtfCore.Ntcr.StreamSocket
