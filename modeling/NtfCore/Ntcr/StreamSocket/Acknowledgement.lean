import NtfCore.Ntcr.StreamSocket.Numbering

/-!
Contract: a stream socket and a kernel that acknowledges its zero-copy calls.

Owns: the kernel, which numbers the zero-copy calls from zero and acknowledges ranges of
them in any order, each call once, in 32-bit counters; and the condition under which
socket and kernel agree on the numbers in every state of a run.
-/

namespace NtfCore.Ntcr

open SendHalf

open NtfCore.Foundation NtfCore.Ntcq NtfCore.Ntcq.ZeroCopyQueue NtfCore.Ntcr.StreamSocket List

variable {Token : Type}

structure Transmission (Token : Type) where
  half : SendHalf Token := {}
  acknowledged : List ZeroCopyRange := []

namespace Transmission

def calls (transmission : Transmission Token) : List (List Nat) :=
  transmission.half.events.filterMap Event.zeroCopied

def zeroCopyQueue (transmission : Transmission Token) : ZeroCopies Token :=
  transmission.half.socket.zeroCopyQueue

def Acknowledged (transmission : Transmission Token) (number : Nat) : Prop :=
  ∃ range ∈ transmission.acknowledged, range.Contains number

/-- The notification of the calls from `first` through `thru`. -/
def report (first thru : Nat) : ZeroCopy where
  first := first % 2 ^ 32
  thru := thru % 2 ^ 32
  first_le := Nat.le_pred_of_lt (Nat.mod_lt _ (by decide))
  thru_le := Nat.le_pred_of_lt (Nat.mod_lt _ (by decide))

inductive Action (Token : Type) where
  | socket (action : StreamSocket.Action Token)
  | acknowledge (first thru : Nat) (avoided : Bool)

/-- One critical section, or one notification. Refused are notifications that are not of
the kernel, and those of calls that were not made or that were acknowledged before. -/
def step [DecidableEq Token] (transmission : Transmission Token) :
    Action Token -> Option (Transmission Token)
  | .socket (.zeroCopyUpdate _ _) => none
  | .socket action =>
    (transmission.half.step action).map fun half => { transmission with half := half }
  | .acknowledge first thru avoided =>
    if first ≤ thru ∧ thru < first + 2 ^ 32 ∧ thru < transmission.calls.length ∧
        ∀ range ∈ transmission.acknowledged,
          range.maxCounter ≤ first ∨ thru < range.minCounter then
      (transmission.half.step (.zeroCopyUpdate (report first thru) avoided)).map fun half =>
        { half := half, acknowledged := transmission.acknowledged ++ [⟨first, thru + 1⟩] }
    else none

/-- The generator counts the zero-copy calls; as long as the send direction is up, each
send with bytes in a call that is not acknowledged has an entry that waits for the number
of the call, and so is not completed; and it has one entry only. -/
structure Agrees (transmission : Transmission Token) : Prop where
  advances : transmission.zeroCopyQueue.generator.next =
    transmission.calls.length % uint64Modulus
  covers : transmission.half.socket.isWritable = true ->
    ∀ number owners, transmission.calls[number]? = some owners ->
      ¬ transmission.Acknowledged number -> ∀ send ∈ owners,
        ∃ entry ∈ transmission.zeroCopyQueue.waitList, entry.group = send ∧ entry.Requires number
  sole : (transmission.zeroCopyQueue.waitList.map ZeroCopyEntry.group).Nodup

/-- A zero-copy call of a writable event writes bytes and none behind the entry in front,
the number of the call fits a 64-bit counter, and a notification starts in the generation
that the generator is in. -/
def Exact (transmission : Transmission Token) : Action Token -> Prop
  | .socket action =>
    transmission.half.socket.Single action ∧ transmission.calls.length + 1 < uint64Modulus
  | .acknowledge first _ _ => first / 2 ^ 32 = transmission.zeroCopyQueue.generator.generation

def awaits (transmission : Transmission Token) (send number : Nat) : Prop :=
  transmission.half.socket.isWritable = true ∧
    ∃ owners, transmission.calls[number]? = some owners ∧ send ∈ owners ∧
      ¬ transmission.Acknowledged number

structure Synchronized (transmission : Transmission Token) : Prop where
  sized : Sized transmission.half.socket.sendQueue
  next : transmission.zeroCopyQueue.generator.next = transmission.calls.length
  small : transmission.calls.length < uint64Modulus
  bias : transmission.zeroCopyQueue.generator.bias =
    transmission.zeroCopyQueue.generator.generation * uint32Max % uint64Modulus
  numbered : Numbered transmission.half.socket transmission.awaits

variable {transmission : Transmission Token}

theorem Synchronized.agrees (synchronized : Synchronized transmission) : Agrees transmission := by
  constructor
  case advances => rw [Nat.mod_eq_of_lt synchronized.small, synchronized.next]
  case covers =>
    intro writable number owners isCall unacknowledged send isOwner
    exact synchronized.numbered.covers send number
      ⟨writable, owners, isCall, isOwner, unacknowledged⟩
  case sole => exact synchronized.numbered.increasing.imp Nat.ne_of_lt

variable {action : StreamSocket.Action Token} {half : SendHalf Token}

theorem Synchronized.socket [DecidableEq Token] (synchronized : Synchronized transmission)
    (single : transmission.half.socket.Single action)
    (bound : transmission.calls.length + 1 < uint64Modulus)
    (isSocket : ∀ zeroCopy avoided, action ≠ .zeroCopyUpdate zeroCopy avoided)
    (taken : transmission.half.step action = some half) :
    Synchronized { transmission with half := half } := by
  obtain ⟨outcome, isOutcome, isHalf⟩ := step_cases taken
  have performs := perform_cases synchronized.sized.measured isOutcome
  have advances := performs.advances synchronized.sized.measured isOutcome synchronized.numbered
    (synchronized.next ▸ bound) single isSocket
  have few := advances.few
  subst isHalf
  have isCalls : ({ transmission with half := transmission.half.observe outcome } :
      Transmission Token).calls = transmission.calls ++ outcome.calls :=
    filterMap_append
  constructor
  case sized => exact performs.sized synchronized.sized
  case next =>
    rw [isCalls, length_append]
    exact advances.next.trans (congrArg (· + _) synchronized.next)
  case small =>
    rw [isCalls, length_append]
    omega
  case bias =>
    obtain ⟨sameBias, sameGeneration⟩ := advances.offset
    have before := synchronized.bias
    unfold zeroCopyQueue at before ⊢
    dsimp only [observe]
    rw [sameBias, sameGeneration]
    exact before
  case numbered =>
    cases isWritable : outcome.socket.isWritable with
    | false =>
      refine advances.down.mono ?_
      rintro send number ⟨writable, _⟩
      have isDown : outcome.socket.isWritable = true := writable
      rw [isWritable] at isDown
      contradiction
    | true =>
      refine (advances.numbered isWritable).mono ?_
      rintro _ number ⟨_, owners, isCall, isOwner, unacknowledged⟩
      rw [isCalls] at isCall
      by_cases isOld : number < transmission.calls.length
      · rw [getElem?_append_left isOld] at isCall
        exact .inl ⟨performs.isWritable_of_outcome isWritable, owners, isCall, isOwner,
          unacknowledged⟩
      · rw [getElem?_append_right (Nat.le_of_not_lt isOld)] at isCall
        have isIndex := (List.getElem?_eq_some_iff.mp isCall).1
        have isNext := synchronized.next
        refine .inr ⟨owners, mem_of_getElem? isCall, isOwner, ?_⟩
        unfold zeroCopyQueue at isNext
        omega

variable {first thru : Nat}

theorem report_size (ordered : first ≤ thru) (few : thru < first + 2 ^ 32) :
    (report first thru).size = thru - first + 1 := by
  unfold ZeroCopy.size report
  dsimp only
  omega

variable {generator : ZeroCopyCounterGenerator}

/-- A notification that starts in the generation of the generator is widened to the
numbers of its calls. -/
theorem update_report (bias : generator.bias = generator.generation * uint32Max % uint64Modulus)
    (generation : first / 2 ^ 32 = generator.generation) (ordered : first ≤ thru)
    (few : thru < first + 2 ^ 32) (small : thru + 1 < uint64Modulus) :
    (generator.update (report first thru)).1 = ⟨first, thru + 1⟩ := by
  have pos : AtPosition generator (report first thru).first first := by
    constructor
    case expected_eq => rfl
    case generation_eq =>
      rw [← generation, Nat.mod_eq_of_lt]
      exact Nat.lt_of_le_of_lt (Nat.div_le_self _ _) (by omega)
    case bias_eq => rw [bias, ← generation]
  obtain ⟨isMin, isMax, _⟩ := update_atPosition pos
  rw [report_size ordered few, Nat.mod_eq_of_lt (by omega)] at isMax
  rw [Nat.mod_eq_of_lt (by omega)] at isMin
  rw [show (generator.update (report first thru)).1 =
      ⟨(generator.update (report first thru)).1.minCounter,
        (generator.update (report first thru)).1.maxCounter⟩ from rfl, isMin, isMax]
  congr 1
  omega

theorem update_bias (zeroCopy : ZeroCopy)
    (bias : generator.bias = generator.generation * uint32Max % uint64Modulus) :
    (generator.update zeroCopy).2.bias =
      (generator.update zeroCopy).2.generation * uint32Max % uint64Modulus := by
  have bumped : generator.bump.bias = generator.bump.generation * uint32Max % uint64Modulus := by
    unfold ZeroCopyCounterGenerator.bump
    rw [bias, Nat.mod_add_mod, Nat.mod_mul_mod, Nat.add_mul, Nat.one_mul]
  unfold ZeroCopyCounterGenerator.update
  split
  · exact bumped
  · dsimp only
    split
    · exact bumped
    · exact bias

section

variable [DecidableEq Token]

theorem Synchronized.acknowledge (synchronized : Synchronized transmission) {avoided : Bool}
    (generation : first / 2 ^ 32 = transmission.zeroCopyQueue.generator.generation)
    (ordered : first ≤ thru) (few : thru < first + 2 ^ 32) (made : thru < transmission.calls.length)
    (taken : transmission.half.step (.zeroCopyUpdate (report first thru) avoided) = some half) :
    Synchronized { half := half, acknowledged := transmission.acknowledged ++ [⟨first, thru + 1⟩] }
    := by
  have small := synchronized.small
  have isRange : (transmission.half.socket.zeroCopyQueue.generator.update (report first thru)).1 =
      ⟨first, thru + 1⟩ :=
    update_report synchronized.bias generation ordered few (by omega)
  have proper : (transmission.half.socket.zeroCopyQueue.generator.update
      (report first thru)).1.Proper := by
    rw [isRange]
    exact Nat.lt_succ_of_le ordered
  have updated := synchronized.numbered.update avoided proper
  obtain ⟨_, isOutcome, isHalf⟩ := step_cases taken
  cases isOutcome
  subst isHalf
  have noCalls : ∀ acknowledged, calls ⟨transmission.half.observe
      (transmission.half.socket.privateZeroCopyUpdate (report first thru) avoided), acknowledged⟩ =
        transmission.calls := by
    intro _
    unfold calls observe
    rw [filterMap_append, privateZeroCopyUpdate, zeroCopied_dispatch, append_nil]
  constructor
  case sized => exact synchronized.sized
  case next =>
    rw [noCalls, ← synchronized.next]
    exact update_next _ _
  case small =>
    rw [noCalls]
    exact small
  case bias => exact update_bias _ synchronized.bias
  case numbered =>
    refine updated.mono ?_
    rintro _ _ ⟨writable, owners, isCall, isOwner, unacknowledged⟩
    rw [noCalls] at isCall
    rw [isRange]
    refine ⟨⟨writable, owners, isCall, isOwner, ?_⟩, ?_⟩
    · rintro ⟨range, mem, inside⟩
      exact unacknowledged ⟨range, mem_append_left _ mem, inside⟩
    · intro inside
      exact unacknowledged ⟨_, mem_append_right _ (mem_singleton.mpr rfl), inside⟩

theorem step_socket {transmission next : Transmission Token}
    (taken : transmission.step (.socket action) = some next) :
    (∀ zeroCopy avoided, action ≠ .zeroCopyUpdate zeroCopy avoided) ∧
      ∃ half, transmission.half.step action = some half ∧
        next = { transmission with half := half } := by
  unfold step at taken
  split at taken
  · contradiction
  · rename_i isSocket isAction
    cases isAction
    obtain ⟨half, isHalf, isNext⟩ := Option.map_eq_some_iff.mp taken
    exact ⟨isSocket, half, isHalf, isNext.symm⟩
  · contradiction

theorem step_synchronized (transmission : Transmission Token)
    (action : Action Token) (next : Transmission Token) (synchronized : Synchronized transmission)
    (isExact : transmission.Exact action) (taken : transmission.step action = some next) :
    Synchronized next := by
  cases action with
  | socket =>
    obtain ⟨single, bound⟩ := isExact
    obtain ⟨isSocket, half, isHalf, isNext⟩ := step_socket taken
    rw [isNext]
    exact synchronized.socket single bound isSocket isHalf
  | acknowledge =>
    unfold step at taken
    dsimp only at taken
    split at taken
    · rename_i allowed
      obtain ⟨_, isHalf, isNext⟩ := Option.map_eq_some_iff.mp taken
      rw [← isNext]
      exact synchronized.acknowledge isExact allowed.1 allowed.2.1 allowed.2.2.1 isHalf
    · contradiction

end

theorem initial_synchronized : Synchronized ({} : Transmission Token) where
  sized := initial_sized
  next := rfl
  small := Nat.two_pow_pos 64
  bias := by
    rw [show (({} : Transmission Token).zeroCopyQueue.generator.generation) = 0 from rfl,
      Nat.zero_mul]
    exact (Nat.zero_mod _).symm
  numbered := by
    constructor
    · constructor
      case wellFormed => exact by simp
      case below => exact by simp
      case covers =>
        rintro _ _ ⟨_, _, _, _⟩
        contradiction
      case increasing => exact Pairwise.nil
    · constructor
      case increasing => exact Pairwise.nil
      case tagsBelow => exact forall_mem_nil _
      case groupsBelow => exact forall_mem_nil _
      case apart => exact forall_mem_nil _

/-- In every run in which each zero-copy call of a writable event is of bytes of one
entry, socket and kernel agree on the numbers of the calls. -/
theorem agrees_of_exact [DecidableEq Token] (actions : List (Action Token))
    (isExact : Run.Along step Exact ({} : Transmission Token) actions) :
    Run.Always step Agrees ({} : Transmission Token) actions :=
  (Run.always_of_along step_synchronized initial_synchronized isExact).mono
    fun _ synchronized => synchronized.agrees

def acknowledgedBackwards : List (Action Nat) :=
  [.socket (.setZeroCopyThreshold (some 1)),
    .socket (.send (.blob [1, 2]) {} true {} (.sent 1 true)),
    .socket (.writable {} (fun _ => []) (.sent 1 true)),
    .acknowledge 1 1 true, .acknowledge 0 0 true]

/-- The send is completed with the second acknowledgement. -/
theorem acknowledgedBackwards_agrees :
    Run.Always step Agrees ({} : Transmission Nat) acknowledgedBackwards ∧
      ∃ final, Run.run step ({} : Transmission Nat) acknowledgedBackwards = some final ∧
        final.calls = [[0], [0]] ∧ final.zeroCopyQueue.waitList = [] := by
  refine ⟨agrees_of_exact acknowledgedBackwards ?_, _, rfl, rfl, rfl⟩
  refine ⟨⟨trivial, by decide⟩, ⟨trivial, by decide⟩, ⟨?_, by decide⟩, rfl, rfl, trivial⟩
  intro _ _ _ _ _ _ _
  exact Nat.one_pos

def acknowledgedBatch : List (Action Nat) :=
  [.socket (.setZeroCopyThreshold (some 1)),
    .socket (.send (.blob [1]) {} true {} .wouldBlock),
    .socket (.send (.blob [2]) {} true {} .wouldBlock),
    .socket (.writable {} (fun _ => []) (.sent 2 true)),
    .socket (.send (.blob [3]) {} true {} (.sent 1 true)),
    .acknowledge 1 1 true]

/-- The first call takes two counters, so that the acknowledgement of the second one
completes the second send, whose own call is not acknowledged. -/
theorem acknowledgedBatch_disagrees :
    ¬ Run.Always step Agrees ({} : Transmission Nat) acknowledgedBatch ∧
      ∃ final, Run.run step ({} : Transmission Nat) acknowledgedBatch = some final ∧
        final.calls = [[0, 1], [2]] ∧ final.acknowledged = [⟨1, 2⟩] ∧
        final.zeroCopyQueue.waitList.map ZeroCopyEntry.group = [0, 2] := by
  constructor
  · intro always
    obtain ⟨_, _, _, _, agrees, _⟩ := always
    exact absurd agrees.advances (by decide)
  · exact ⟨_, rfl, rfl, rfl, rfl⟩

end Transmission

end NtfCore.Ntcr
