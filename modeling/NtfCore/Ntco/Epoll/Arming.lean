import NtfCore.Foundation.Run
import NtfCore.Ntcs.Registry

/-!
Contract: the events that an attached socket wants are armed in the kernel.

Owns: the mask of events that the kernel holds for a handle; the calls that show and hide
events, each of which updates the registry entry first and the kernel afterwards; the
delivery of events to waiters and their announcements; and the condition under which no
wanted event is lost, in any interleaving of these steps.
-/

namespace NtfCore.Ntco.Epoll

open NtfCore.Foundation List
open NtfCore.Ntcs

namespace Arming

/-- The events of `::epoll_event`. -/
structure Mask where
  readable : Bool := false
  writable : Bool := false
  edge : Bool := false
  oneShot : Bool := false

/-- The mask of `Epoll::add` and `Epoll::update`. -/
def Mask.ofInterest (interest : Interest) : Mask where
  readable := interest.readable
  writable := interest.writable
  edge := interest.trigger = .edge
  oneShot := interest.oneShot

def Mask.armed (mask : Mask) : Direction -> Bool
  | .readable => mask.readable
  | .writable => mask.writable

def Mask.delivered (mask : Mask) : Mask :=
  if mask.oneShot then { mask with readable := false, writable := false } else mask

/-- A call that has updated the entry: the interest it was returned, and whether it has
still to call `epoll_ctl`. -/
structure Call where
  interest : Interest
  pending : Bool := true

structure Waiter where
  writable : Bool
  readable : Bool

def Waiter.pending (waiter : Waiter) : Direction -> Bool
  | .readable => waiter.readable
  | .writable => waiter.writable

structure Handle where
  interest : Interest
  kernel : Mask
  calls : List Call := []
  waiters : List Waiter := []

def attached (trigger : Trigger) (oneShot : Bool) : Handle :=
  let interest := { trigger := trigger, oneShot := oneShot }
  { interest := interest, kernel := Mask.ofInterest interest }

inductive Action where
  /-- `showReadable` and `showWritable`, up to the update of the kernel. -/
  | showEvent (direction : Direction) (options : EventOptions)
  /-- `hideReadable` and `hideWritable`, up to the update of the kernel. -/
  | hideEvent (direction : Direction)
  /-- `epoll_ctl` with `EPOLL_CTL_MOD`. -/
  | update (index : Nat)
  /-- `epoll_wait` returns the handle, of which some events are ready. -/
  | deliver (readable writable : Bool)
  | announceWritable (index : Nat)
  | announceReadable (index : Nat)

def Handle.request (handle : Handle) (interest : Interest) : Handle :=
  { handle with interest := interest, calls := handle.calls ++ [{ interest := interest }] }

def Handle.events (handle : Handle) (readable writable : Bool) : Waiter where
  writable := writable && handle.kernel.writable
  readable := readable && handle.kernel.readable

def Handle.announce (handle : Handle) (index : Nat) (direction : Direction) (waiter : Waiter) :
    Handle :=
  { handle with
    interest := (RegistryEntry.announceEvent handle.interest direction).1
    waiters := handle.waiters.set index waiter }

def step (handle : Handle) : Action -> Option Handle
  | .showEvent direction options =>
    some (handle.request (RegistryEntry.showEvent handle.interest direction options))
  | .hideEvent direction =>
    some (handle.request (RegistryEntry.hideEvent handle.interest direction {}))
  | .update index =>
    match handle.calls[index]? with
    | some ⟨interest, true⟩ =>
      some { handle with
        kernel := Mask.ofInterest interest
        calls := handle.calls.set index ⟨interest, false⟩ }
    | _ => none
  | .deliver readable writable =>
    let events := handle.events readable writable
    if events.writable || events.readable then
      some { handle with
        kernel := handle.kernel.delivered
        waiters := handle.waiters ++ [events] }
    else none
  | .announceWritable index =>
    match handle.waiters[index]? with
    | some ⟨true, readable⟩ => some (handle.announce index .writable ⟨false, readable⟩)
    | _ => none
  | .announceReadable index =>
    match handle.waiters[index]? with
    | some ⟨false, true⟩ => some (handle.announce index .readable ⟨false, false⟩)
    | _ => none

/-! ## Armed and ordered -/

structure Handle.Quiescent (handle : Handle) : Prop where
  calls : ∀ call ∈ handle.calls, call.pending = false
  waiters : ∀ waiter ∈ handle.waiters, ∀ direction, waiter.pending direction = false

def Armed (handle : Handle) : Prop :=
  handle.Quiescent -> ∀ direction,
    handle.interest.wants direction = true -> handle.kernel.armed direction = true

def Handle.LatestPending (handle : Handle) : Prop :=
  ∃ call, handle.calls.getLast? = some call ∧ call.pending = true

def Handle.Covers (handle : Handle) (armed : Direction -> Bool) : Prop :=
  ∀ direction, handle.interest.wants direction = true ->
    armed direction = true ∨
      (handle.interest.oneShot = true ∧
        ∃ waiter ∈ handle.waiters, waiter.pending direction = true)

/-- The kernel is updated by the latest call, or before it, or with all events that the
entry wants; and a delivery that disarms the handle comes before the latest update, or is
of all events that the entry wants. -/
def Ordered (handle : Handle) (action : Action) : Prop :=
  match action with
  | .update index =>
    handle.LatestPending ∨
      ∀ call, handle.calls[index]? = some call -> handle.Covers call.interest.wants
  | .deliver readable writable =>
    handle.kernel.oneShot = true ->
      handle.LatestPending ∨
        ∀ direction, handle.interest.wants direction = true ->
          handle.interest.oneShot = true ∧
            ((handle.events readable writable).pending direction = true ∨
              ∃ waiter ∈ handle.waiters, waiter.pending direction = true)
  | _ => True

structure Kept (handle : Handle) : Prop where
  latest : ∀ call, handle.calls.getLast? = some call -> ∀ direction,
    handle.interest.wants direction = true -> call.interest.wants direction = true
  covered : handle.LatestPending ∨ handle.Covers handle.kernel.armed

theorem kept_attached (trigger : Trigger) (oneShot : Bool) : Kept (attached trigger oneShot) where
  latest := nofun
  covered := by
    refine .inr fun dir _ => ?_
    cases dir <;> contradiction

theorem Kept.armed {handle : Handle} (kept : Kept handle) : Armed handle := by
  intro quiescent dir wanted
  obtain ⟨call, isLast, isPending⟩ | covers := kept.covered
  · have isDone := quiescent.calls call (mem_of_getLast? isLast)
    rw [isDone] at isPending
    contradiction
  · obtain isArmed | ⟨_, waiter, mem, isPending⟩ := covers dir wanted
    · exact isArmed
    · rw [quiescent.waiters waiter mem dir] at isPending
      contradiction

variable {handle : Handle}

theorem kept_request (interest : Interest) : Kept (handle.request interest) where
  latest := by
    intro call isLast _ wanted
    have isCall : some { interest := interest } = some call := by
      rw [← isLast]
      exact getLast?_concat.symm
    cases isCall
    exact wanted
  covered := .inl ⟨{ interest := interest }, getLast?_concat, rfl⟩

variable {index : Nat}

theorem getLast?_set {calls : List Call} (bound : index < calls.length) (call : Call) :
    (calls.set index call).getLast? =
      if index + 1 = calls.length then some call else calls.getLast? := by
  rw [getLast?_eq_getElem?, getLast?_eq_getElem?, length_set, getElem?_set, if_pos bound]
  split
  · rw [if_pos (by omega)]
  · rw [if_neg (by omega)]

theorem kept_update (kept : Kept handle) {interest : Interest}
    (found : handle.calls[index]? = some ⟨interest, true⟩)
    (ordered : Ordered handle (.update index)) : Kept { handle with
      kernel := Mask.ofInterest interest
      calls := handle.calls.set index ⟨interest, false⟩ } := by
  obtain ⟨bound, _⟩ := List.getElem?_eq_some_iff.mp found
  by_cases isLast : index + 1 = handle.calls.length
  · have isCall : handle.calls.getLast? = some ⟨interest, true⟩ := by
      rw [getLast?_eq_getElem?, ← isLast]
      exact found
    have wantsAll := kept.latest _ isCall
    constructor
    case latest =>
      intro call isLatest dir wanted
      rw [getLast?_set bound, if_pos isLast] at isLatest
      cases isLatest
      exact wantsAll dir wanted
    case covered =>
      refine .inr fun dir wanted => .inl ?_
      exact wantsAll dir wanted
  · constructor
    case latest =>
      intro call isLatest
      rw [getLast?_set bound, if_neg isLast] at isLatest
      exact kept.latest call isLatest
    case covered =>
      obtain ⟨call, isLatest, isPending⟩ | covers := ordered
      · refine .inl ⟨call, ?_, isPending⟩
        rw [getLast?_set bound, if_neg isLast]
        exact isLatest
      · refine .inr fun dir wanted => ?_
        exact covers ⟨interest, true⟩ found dir wanted

theorem kept_deliver (kept : Kept handle) {readable writable : Bool}
    (ordered : Ordered handle (.deliver readable writable)) : Kept { handle with
      kernel := handle.kernel.delivered
      waiters := handle.waiters ++ [handle.events readable writable] } := by
  refine ⟨kept.latest, ?_⟩
  cases isOneShot : handle.kernel.oneShot with
  | false =>
    refine kept.covered.imp_right fun covers dir wanted => ?_
    have unchanged : handle.kernel.delivered = handle.kernel := by
      unfold Mask.delivered
      rw [isOneShot, if_neg Bool.false_ne_true]
    rw [unchanged]
    obtain isArmed | ⟨hides, waiter, mem, isPending⟩ := covers dir wanted
    · exact .inl isArmed
    · exact .inr ⟨hides, waiter, mem_append_left _ mem, isPending⟩
  | true =>
    refine (ordered isOneShot).imp_right fun announces dir wanted => .inr ?_
    obtain ⟨hides, isDelivered | ⟨waiter, mem, isPending⟩⟩ := announces dir wanted
    · exact ⟨hides, _, mem_append_right _ mem_cons_self, isDelivered⟩
    · exact ⟨hides, waiter, mem_append_left _ mem, isPending⟩

/-- An event that is announced in one-shot mode is not wanted any more. -/
theorem kept_announce (kept : Kept handle) {dir : Direction}
    {before after : Waiter} (found : handle.waiters[index]? = some before)
    (others : ∀ other, other ≠ dir -> after.pending other = before.pending other) :
    Kept (handle.announce index dir after) := by
  have fewer : ∀ other, (handle.announce index dir after).interest.wants other = true ->
      handle.interest.wants other = true ∧ (handle.interest.oneShot = true -> other ≠ dir) := by
    intro other wanted
    unfold Handle.announce at wanted
    rw [announceEvent_fst] at wanted
    split at wanted
    · rw [wants_withHidden, Bool.and_eq_true, decide_eq_true_iff] at wanted
      exact ⟨wanted.1, fun _ => wanted.2⟩
    · rename_i unchanged
      refine ⟨wanted, fun hides isDirection => unchanged ⟨?_, hides⟩⟩
      rw [← isDirection]
      exact wanted
  have sameMode : (handle.announce index dir after).interest.oneShot = handle.interest.oneShot := by
    unfold Handle.announce
    rw [announceEvent_fst]
    split
    · exact oneShot_withHidden _ _
    · rfl
  constructor
  case latest =>
    intro call isLatest other wanted
    exact kept.latest call isLatest other (fewer other wanted).1
  case covered =>
    refine kept.covered.imp_right fun covers other wanted => ?_
    obtain ⟨wantedBefore, isOther⟩ := fewer other wanted
    obtain isArmed | ⟨hides, waiter, mem, isPending⟩ := covers other wantedBefore
    · exact .inl isArmed
    · refine .inr ⟨sameMode.trans hides, ?_⟩
      obtain ⟨place, isWaiter⟩ := getElem?_of_mem mem
      by_cases isPlace : index = place
      · refine ⟨after, ?_, ?_⟩
        · exact List.mem_set (List.getElem?_eq_some_iff.mp found).1 after
        · rw [others other (isOther hides)]
          rw [← isPlace, found] at isWaiter
          rw [Option.some.inj isWaiter]
          exact isPending
      · refine ⟨waiter, mem_of_getElem? (i := place) ?_, isPending⟩
        exact (getElem?_set_ne isPlace).trans isWaiter

theorem kept_step {next : Handle} {action : Action} (kept : Kept handle)
    (ordered : Ordered handle action) (taken : step handle action = some next) : Kept next := by
  cases action with
  | showEvent dir options | hideEvent _ =>
    cases taken
    exact kept_request _
  | update index =>
    unfold step at taken
    dsimp only at taken
    split at taken
    · rename_i found
      cases taken
      exact kept_update kept found ordered
    · contradiction
  | deliver readable writable =>
    obtain ⟨_, rfl⟩ := Run.guarded taken
    exact kept_deliver kept ordered
  | announceWritable index =>
    unfold step at taken
    dsimp only at taken
    split at taken
    · rename_i found
      cases taken
      refine kept_announce kept found fun other isOther => ?_
      cases other with
      | readable => rfl
      | writable => contradiction
    · contradiction
  | announceReadable =>
    unfold step at taken
    dsimp only at taken
    split at taken
    · rename_i found
      cases taken
      refine kept_announce kept found fun other _ => ?_
      cases other with
      | readable => contradiction
      | writable => rfl
    · contradiction

/-- In every run in which the kernel is never left with an older update or disarmed by the
delivery of one of two wanted events, what the entry wants is armed whenever nothing is in
progress. -/
theorem always_armed (trigger : Trigger) (oneShot : Bool) (actions : List Action)
    (ordered : Run.Along step Ordered (attached trigger oneShot) actions) :
    Run.Always step Armed (attached trigger oneShot) actions :=
  Run.Always.mono (fun _ kept => kept.armed)
    (Run.always_of_along (fun _ _ _ kept isOrdered taken => kept_step kept isOrdered taken)
      (kept_attached trigger oneShot) ordered)

def readOnce : List Action :=
  [.showEvent .readable {}, .update 0, .deliver true false, .announceReadable 0]

theorem readOnce_armed : Run.Always step Armed (attached .level true) readOnce := by
  refine always_armed .level true readOnce ?_
  refine ⟨trivial, ?_, ?_, trivial, trivial⟩
  · exact .inl ⟨_, rfl, rfl⟩
  · refine fun _ => .inr fun direction _ => ⟨rfl, .inl ?_⟩
    cases direction with
    | readable => rfl
    | writable => contradiction

def updatedInReverse : List Action :=
  [.showEvent .readable {}, .showEvent .writable {}, .update 1, .update 0]

def disarmedTogether : List Action :=
  [.showEvent .readable {}, .update 0, .showEvent .writable {}, .update 1, .deliver true false,
    .announceReadable 0]

theorem not_always_armed : ¬ Run.Always step Armed (attached .level false) updatedInReverse ∧
      ¬ Run.Always step Armed (attached .level true) disarmedTogether := by
  constructor
  · intro always
    have atEnd := (Run.always_iff _ _).mp always updatedInReverse [] _ (append_nil _) rfl
    have isArmed := atEnd ⟨by decide, nofun⟩ .writable rfl
    contradiction
  · intro always
    have atEnd := (Run.always_iff _ _).mp always disarmedTogether [] _ (append_nil _) rfl
    have isArmed := atEnd ⟨by decide, ?_⟩ .writable rfl
    · contradiction
    · intro _ mem direction
      rw [mem_singleton.mp mem]
      cases direction <;> rfl

end Arming

end NtfCore.Ntco.Epoll
