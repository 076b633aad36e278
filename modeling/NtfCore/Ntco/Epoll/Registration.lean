import NtfCore.Foundation.Lists
import NtfCore.Foundation.Run
import NtfCore.Ntcs.Registry

/-!
Contract: bookkeeping of the sockets that are attached to a reactor
(`ntcs::RegistryEntryCatalog` with `ntco::Epoll`).

Owns: the slots of the catalog, the size it counts and the reactor contexts of the sockets;
the calls that attach sockets, detach them or change their interest, with every outcome of
`epoll_ctl`; and the condition under which the size is the number of occupied slots and a
call that fails changes nothing.

A socket is known by a number. Its handle, which it may change, comes with each call.
-/

namespace NtfCore.Ntco.Epoll

open NtfCore.Foundation List Option
open NtfCore.Ntcs

namespace Registration

/-! ## The catalog -/

/-- `ntcs::RegistryEntry`, of a socket or of a handle. -/
structure Entry where
  handle : Nat
  socket : Option Nat
  interest : Interest

/-- The options of `ntca::ReactorConfig` that are used here. -/
structure Config where
  autoAttach : Bool := false
  autoDetach : Bool := false
  trigger : Trigger := .level
  oneShot : Bool := false

/-- The entries that were created, in order; the slots, each with the index of its entry;
the size; the reactor context of each socket; and the detachments that were dispatched. -/
structure Reactor where
  entries : List Entry := []
  slots : List (Option Nat) := List.replicate 64 none
  size : Nat := 0
  context : Nat -> Option Nat := fun _ => none
  dispatched : Nat := 0

namespace Reactor

/-- `RegistryEntryCatalog::lookup`. -/
def lookup (reactor : Reactor) (handle : Nat) : Option Nat :=
  reactor.slots[handle]?.join

def occupied (reactor : Reactor) : Nat :=
  reactor.slots.countP Option.isSome

/-- `setReactorContext`. -/
def setReactorContext (reactor : Reactor) (socket : Nat) (entry : Option Nat) : Reactor :=
  { reactor with
    context := fun other => if other = socket then entry else reactor.context other }

def resized (slots : List (Option Nat)) (handle : Nat) : List (Option Nat) :=
  if slots.length ≤ handle then
    slots ++ List.replicate (max (handle + 1) (slots.length * 3 / 2) - slots.length) none
  else slots

/-- `RegistryEntryCatalog::add`, with the interest of the entry that it returns. -/
def add (reactor : Reactor) (socket : Option Nat) (handle : Nat) (interest : Interest) : Reactor :=
  let entry := reactor.entries.length
  let added :=
    { reactor with
      entries := reactor.entries ++ [⟨handle, socket, interest⟩]
      slots := (resized reactor.slots handle).set handle (some entry)
      size := reactor.size + 1 }
  match socket with
  | some socket => added.setReactorContext socket (some entry)
  | none => added

/-- `RegistryEntry::clear`. -/
def clear (reactor : Reactor) (entry : Nat) : Reactor :=
  match reactor.entries[entry]?.bind Entry.socket with
  | some socket => reactor.setReactorContext socket none
  | none => reactor

def vacate (reactor : Reactor) (handle : Nat) : Reactor :=
  { reactor with slots := reactor.slots.set handle none, size := reactor.size - 1 }

/-- `RegistryEntryCatalog::remove`. -/
def remove (reactor : Reactor) (handle : Nat) : Reactor :=
  match reactor.lookup handle with
  | some entry => (reactor.vacate handle).clear entry
  | none => reactor

def setInterest (reactor : Reactor) (entry : Nat) (interest : Interest) : Reactor :=
  { reactor with
    entries := reactor.entries.modify entry fun current => { current with interest := interest } }

def interest (reactor : Reactor) (entry : Nat) : Interest :=
  (reactor.entries[entry]?.map Entry.interest).getD {}

def vacated (controller : Nat) : Nat -> List (Option Nat) -> List (Option Nat)
  | _, [] => []
  | index, slot :: rest =>
    (if index = controller then slot else none) :: vacated controller (index + 1) rest

/-- The entries that `RegistryEntryCatalog::clear` removes, from an index on. -/
def cleared (controller : Nat) : Nat -> List (Option Nat) -> List Nat
  | _, [] => []
  | index, slot :: rest =>
    (if index = controller then [] else slot.toList) ++ cleared controller (index + 1) rest

/-- `RegistryEntryCatalog::clear`. -/
def clearAll (reactor : Reactor) (controller : Nat) : Reactor :=
  let result := cleared controller 0 reactor.slots
  result.foldl clear
    { reactor with
      slots := vacated controller 0 reactor.slots
      size := reactor.size - result.length }

end Reactor

/-- How `epoll_ctl` ends. -/
inductive Control where
  | done
  | noEntry
  | failed
deriving DecidableEq

/-- How each operation of `epoll_ctl` ends, if it is called. -/
structure Outcome where
  add : Control := .done
  modify : Control := .done
  delete : Control := .done

inductive Error where
  | invalid
  | system

namespace Outcome

/-- `Epoll::add`. -/
def added (outcome : Outcome) : Option Error :=
  if outcome.add = .done then none else some .system

/-- `Epoll::update`. -/
def updated (outcome : Outcome) : Option Error :=
  match outcome.modify with
  | .done => none
  | .noEntry => outcome.added
  | .failed => some .system

/-- `Epoll::remove`, and the error of `Epoll::removeDetached`. -/
def removed (outcome : Outcome) : Option Error :=
  if outcome.delete = .failed then some .system else none

end Outcome

inductive Action where
  | attachSocket (socket handle : Nat)
  | attachHandle (handle : Nat)
  | showSocket (socket handle : Nat) (direction : Direction) (options : EventOptions)
  | showHandle (handle : Nat) (direction : Direction) (options : EventOptions)
  | hideSocket (socket handle : Nat) (direction : Direction)
  | hideHandle (handle : Nat) (direction : Direction)
  /-- `detachSocket` of a socket with the handle, or of the handle. -/
  | detachSocket (handle : Nat)
  | clearSockets
  /-- The destructor. -/
  | deinitializeControl

section Calls

variable (config : Config) (controller : Nat)

def Config.interest : Interest where
  trigger := config.trigger
  oneShot := config.oneShot

/-- `showReadable` and `showWritable`, of the entry that was found, or of a new one. -/
def showEvent (reactor : Reactor) (found : Option Nat) (socket : Option Nat) (handle : Nat)
    (direction : Direction) (options : EventOptions) (outcome : Outcome) : Reactor × Option Error :=
  match found with
  | some entry =>
    (reactor.setInterest entry
      (RegistryEntry.showEvent (reactor.interest entry) direction options), outcome.updated)
  | none =>
    if config.autoAttach then
      (reactor.add socket handle
        (RegistryEntry.showEvent config.interest direction options), outcome.added)
    else (reactor, some .invalid)

/-- `hideReadable` and `hideWritable`, of the entry that was found. -/
def hideEvent (reactor : Reactor) (found : Option Nat) (handle : Nat) (direction : Direction)
    (outcome : Outcome) : Reactor × Option Error :=
  match found with
  | some entry =>
    let interest := RegistryEntry.hideEvent (reactor.interest entry) direction {}
    let hidden := reactor.setInterest entry interest
    if config.autoDetach = false then (hidden, outcome.updated)
    else if interest.wantReadableOrWritable then (hidden, outcome.updated)
    else (hidden.remove handle, outcome.removed)
  | none => (reactor, some .invalid)

/-- `RegistryEntryCatalog::removeAndGetReadyToDetach` with `Epoll::removeDetached`. -/
def detachSocket (reactor : Reactor) (handle : Nat) (outcome : Outcome) : Reactor × Option Error :=
  match reactor.lookup handle with
  | some entry =>
    let detached :=
      { reactor.vacate handle with dispatched := reactor.dispatched + 1 }
    (detached.clear entry, outcome.removed)
  | none => (reactor, some .invalid)

def perform (reactor : Reactor) (action : Action) (outcome : Outcome) : Reactor × Option Error :=
  match action with
  | .attachSocket socket handle =>
    (reactor.add (some socket) handle config.interest, outcome.added)
  | .attachHandle handle => (reactor.add none handle config.interest, outcome.added)
  | .showSocket socket handle direction options =>
    showEvent config reactor (reactor.context socket) (some socket) handle direction options
      outcome
  | .showHandle handle direction options =>
    showEvent config reactor (reactor.lookup handle) none handle direction options outcome
  | .hideSocket socket handle direction =>
    hideEvent config reactor (reactor.context socket) handle direction outcome
  | .hideHandle handle direction =>
    hideEvent config reactor (reactor.lookup handle) handle direction outcome
  | .detachSocket handle => detachSocket reactor handle outcome
  | .clearSockets => (reactor.clearAll controller, none)
  | .deinitializeControl => (reactor.remove controller, none)

def initialized (controllerSocket : Nat) : Reactor :=
  Reactor.add {} (some controllerSocket) controller
    (RegistryEntry.showEvent config.interest .readable {})

def step (reactor : Reactor) (call : Action × Outcome) : Option Reactor :=
  some (perform config controller reactor call.1 call.2).1

end Calls

/-! ## Honest registration -/

def Bookkept (reactor : Reactor) : Prop :=
  reactor.size = reactor.occupied

structure Unchanged (reactor next : Reactor) : Prop where
  slots : ∀ handle, next.lookup handle = reactor.lookup handle
  size : next.size = reactor.size
  context : next.context = reactor.context
  dispatched : next.dispatched = reactor.dispatched

/-- `attachSocket` and `detachSocket`. -/
def Action.registers : Action -> Bool
  | .attachSocket _ _ => true
  | .attachHandle _ => true
  | .detachSocket _ => true
  | _ => false

section Honesty

variable (config : Config) (controller : Nat)

/-- The size is the number of occupied slots after the call, and if the call attaches or
detaches and returns an error, nothing has changed. -/
def Honest (reactor : Reactor) (call : Action × Outcome) : Prop :=
  let performed := perform config controller reactor call.1 call.2
  Bookkept performed.1 ∧
    (call.1.registers = true -> performed.2 ≠ none -> Unchanged reactor performed.1)

/-- A socket is attached to an empty slot, and the kernel takes it; or it is attached by
the way to an empty slot; or it is detached, and the kernel does not fail to remove it. -/
def Clean (reactor : Reactor) (call : Action × Outcome) : Prop :=
  match call.1 with
  | .attachSocket _ handle => reactor.lookup handle = none ∧ call.2.add = .done
  | .attachHandle handle => reactor.lookup handle = none ∧ call.2.add = .done
  | .showSocket socket handle _ _ =>
    reactor.context socket = none -> config.autoAttach = true -> reactor.lookup handle = none
  | .detachSocket handle => reactor.lookup handle ≠ none -> call.2.delete ≠ .failed
  | _ => True

end Honesty

/-! ## Slots -/

namespace Reactor

variable {reactor : Reactor} {handle entry : Nat}

@[simp]
theorem clear_slots : (reactor.clear entry).slots = reactor.slots := by
  unfold clear
  split <;> rfl

@[simp]
theorem clear_size : (reactor.clear entry).size = reactor.size := by
  unfold clear
  split <;> rfl

theorem occupied_congr {other : Reactor} (same : other.slots = reactor.slots) :
    other.occupied = reactor.occupied := by
  unfold occupied
  rw [same]

section

variable (slots : List (Option Nat)) (handle : Nat)

theorem resized_count : (resized slots handle).countP isSome = slots.countP isSome := by
  unfold resized
  split
  · rw [countP_append, countP_replicate, if_neg (by simp), Nat.add_zero]
  · rfl

theorem resized_length : handle < (resized slots handle).length := by
  unfold resized
  split
  · rw [length_append, length_replicate]
    omega
  · omega

theorem resized_get : (resized slots handle)[handle]? = some (slots[handle]?.join) := by
  have bound := resized_length slots handle
  unfold resized at bound ⊢
  split at bound
  · rename_i beyond
    rw [if_pos beyond, getElem?_append_right beyond, getElem?_replicate,
      getElem?_eq_none beyond, if_pos (by omega)]
    rfl
  · rename_i within
    rw [if_neg within, getElem?_eq_getElem (by omega)]
    rfl

end

section

variable (socket : Option Nat) (interest : Interest)

theorem add_slots : (reactor.add socket handle interest).slots =
      (resized reactor.slots handle).set handle (some reactor.entries.length) := by
  cases socket <;> rfl

theorem add_size : (reactor.add socket handle interest).size = reactor.size + 1 := by
  cases socket <;> rfl

end

theorem add_occupied (reactor : Reactor) (handle : Nat) (socket : Option Nat)
    (interest : Interest) : (reactor.add socket handle interest).occupied +
        (if (reactor.lookup handle).isSome then 1 else 0) = reactor.occupied + 1 := by
  unfold occupied
  rw [add_slots]
  have counts := Lists.countP_set_add isSome (resized_get reactor.slots handle)
    (some reactor.entries.length)
  rw [resized_count] at counts
  exact counts

/-- An entry that is added is counted exactly where the slot was empty. -/
theorem add_bookkept_iff (bookkept : Bookkept reactor) (socket : Option Nat) (interest : Interest) :
    Bookkept (reactor.add socket handle interest) ↔ reactor.lookup handle = none := by
  unfold Bookkept at *
  have counts := reactor.add_occupied handle socket interest
  rw [add_size]
  cases isFound : reactor.lookup handle with
  | none =>
    rw [isFound, isSome_none, if_neg Bool.false_ne_true] at counts
    refine iff_of_true ?_ rfl
    omega
  | some =>
    rw [isFound, isSome_some, if_pos rfl] at counts
    refine iff_of_false ?_ nofun
    omega

theorem vacate_occupied (isFound : reactor.lookup handle = some entry) :
    (reactor.vacate handle).occupied + 1 = reactor.occupied := by
  have isSlot : reactor.slots[handle]? = some (some entry) := join_eq_some_iff.mp isFound
  have counts := Lists.countP_set_add isSome isSlot none
  simpa [vacate, occupied] using counts

section

variable (bookkept : Bookkept reactor)
include bookkept

theorem vacate_bookkept (isFound : reactor.lookup handle = some entry) :
    Bookkept (reactor.vacate handle) := by
  unfold Bookkept at *
  have counts := vacate_occupied isFound
  have isSize : (reactor.vacate handle).size = reactor.size - 1 := rfl
  omega

theorem clear_bookkept : Bookkept (reactor.clear entry) := by
  unfold Bookkept at *
  rw [clear_size, occupied_congr clear_slots]
  exact bookkept

theorem remove_bookkept (handle : Nat) : Bookkept (reactor.remove handle) := by
  unfold remove
  split
  · rename_i isFound
    exact clear_bookkept (vacate_bookkept bookkept isFound)
  · exact bookkept

end

theorem vacated_count (controller index : Nat) (slots : List (Option Nat)) :
    (vacated controller index slots).countP isSome +
    (cleared controller index slots).length = slots.countP isSome := by
  induction slots generalizing index with
  | nil => rfl
  | cons slot _ ih =>
    have counts := ih (index + 1)
    simp only [vacated, cleared, countP_cons, length_append]
    by_cases isController : index = controller
    · rw [if_pos isController, if_pos isController, length_nil]
      omega
    · rw [if_neg isController, if_neg isController]
      cases slot with
      | none => simpa using counts
      | some =>
        simp
        omega

theorem foldl_clear_slots (entries : List Nat) (reactor : Reactor) :
    (entries.foldl clear reactor).slots = reactor.slots ∧
      (entries.foldl clear reactor).size = reactor.size := by
  induction entries generalizing reactor with
  | nil => exact ⟨rfl, rfl⟩
  | cons _ _ ih =>
    rw [foldl_cons, (ih _).1, (ih _).2]
    exact ⟨clear_slots, clear_size⟩

theorem clearAll_bookkept (bookkept : Bookkept reactor) (controller : Nat) :
    Bookkept (reactor.clearAll controller) := by
  have counts := vacated_count controller 0 reactor.slots
  unfold Bookkept clearAll at *
  rw [(foldl_clear_slots _ _).2, occupied_congr (foldl_clear_slots _ _).1, bookkept]
  show reactor.occupied - _ = (vacated controller 0 reactor.slots).countP isSome
  unfold occupied
  omega

end Reactor

/-! ## Calls that keep the books -/

section Steps

variable {config : Config} {controller : Nat} {reactor : Reactor}

open Reactor

section

variable (bookkept : Bookkept reactor)
include bookkept

theorem setInterest_bookkept (entry : Nat) (interest : Interest) :
    Bookkept (reactor.setInterest entry interest) :=
  bookkept

theorem hideEvent_bookkept (found : Option Nat) (handle : Nat) (dir : Direction)
    (outcome : Outcome) : Bookkept (hideEvent config reactor found handle dir outcome).1 := by
  unfold hideEvent
  cases found with
  | none => exact bookkept
  | some =>
    dsimp only
    split
    · exact bookkept
    · split
      · exact bookkept
      · exact remove_bookkept (setInterest_bookkept bookkept _ _) handle

theorem showEvent_bookkept_iff (found socket : Option Nat) (handle : Nat) (dir : Direction)
    (options : EventOptions) (outcome : Outcome) :
    Bookkept (showEvent config reactor found socket handle dir options outcome).1 ↔
      (found = none -> config.autoAttach = true -> reactor.lookup handle = none) := by
  unfold showEvent
  cases found with
  | some => exact iff_of_true bookkept nofun
  | none =>
    dsimp only
    split
    · rename_i attaches
      rw [add_bookkept_iff bookkept]
      simp [attaches]
    · rename_i refuses
      exact iff_of_true bookkept fun _ attaches => absurd attaches refuses

theorem attach_honest_iff (socket : Option Nat) (handle : Nat) (outcome : Outcome) :
    (Bookkept (reactor.add socket handle config.interest) ∧
        (outcome.added ≠ none -> Unchanged reactor (reactor.add socket handle config.interest))) ↔
      (reactor.lookup handle = none ∧ outcome.add = .done) := by
  rw [add_bookkept_iff bookkept]
  refine and_congr_right fun _ => ?_
  unfold Outcome.added
  by_cases isDone : outcome.add = .done
  · rw [if_pos isDone]
    exact iff_of_true (fun fails => absurd rfl fails) isDone
  · rw [if_neg isDone]
    refine iff_of_false (fun unchanged => ?_) isDone
    have sameSize := (unchanged nofun).size
    rw [add_size] at sameSize
    omega

theorem detach_honest_iff (handle : Nat) (outcome : Outcome) :
    (Bookkept (detachSocket reactor handle outcome).1 ∧
        ((detachSocket reactor handle outcome).2 ≠ none ->
          Unchanged reactor (detachSocket reactor handle outcome).1)) ↔
      (reactor.lookup handle ≠ none -> outcome.delete ≠ .failed) := by
  unfold detachSocket
  cases isFound : reactor.lookup handle with
  | none =>
    exact iff_of_true ⟨bookkept, fun _ => ⟨fun _ => rfl, rfl, rfl, rfl⟩⟩
      (fun isOccupied => absurd rfl isOccupied)
  | some entry =>
    have stays : Bookkept (clear
        { reactor.vacate handle with dispatched := reactor.dispatched + 1 } entry) :=
      clear_bookkept (vacate_bookkept bookkept isFound)
    unfold Outcome.removed
    by_cases fails : outcome.delete = .failed
    · rw [if_pos fails]
      refine iff_of_false (fun honest => ?_) (fun removed => removed nofun fails)
      have sameSize : (reactor.vacate handle).size = reactor.size := by
        rw [← (honest.2 nofun).size, clear_size]
      have isSize : (reactor.vacate handle).size = reactor.size - 1 := rfl
      have counts := vacate_occupied isFound
      unfold Bookkept at bookkept
      omega
    · rw [if_neg fails]
      exact iff_of_true ⟨stays, fun isError => absurd rfl isError⟩ (fun _ => fails)

open Action

theorem honest_iff_clean (call : Action × Outcome) :
    Honest config controller reactor call ↔ Clean config reactor call := by
  obtain ⟨action, outcome⟩ := call
  unfold Honest Clean perform
  cases action with
  | attachSocket socket handle =>
    simpa [registers] using attach_honest_iff bookkept (some socket) handle outcome
  | attachHandle handle => simpa [registers] using attach_honest_iff bookkept none handle outcome
  | showSocket socket handle dir options =>
    simpa [registers] using showEvent_bookkept_iff bookkept (reactor.context socket)
      (some socket) handle dir options outcome
  | showHandle handle dir options =>
    simpa [registers] using (showEvent_bookkept_iff bookkept (reactor.lookup handle)
      none handle dir options outcome).mpr fun isEmpty _ => isEmpty
  | hideSocket socket handle dir =>
    simpa [registers] using hideEvent_bookkept bookkept (reactor.context socket) handle dir outcome
  | hideHandle handle dir =>
    simpa [registers] using hideEvent_bookkept bookkept (reactor.lookup handle) handle dir outcome
  | detachSocket handle => simpa [registers] using detach_honest_iff bookkept handle outcome
  | clearSockets => simpa [registers] using clearAll_bookkept bookkept controller
  | deinitializeControl => simpa [registers] using remove_bookkept bookkept controller

end

section

variable (config : Config) (controller controllerSocket : Nat)

theorem initialized_bookkept : Bookkept (initialized config controller controllerSocket) := by
  have isEmpty : Bookkept {} := rfl
  refine (add_bookkept_iff isEmpty _ _).mpr ?_
  show (replicate 64 none)[controller]?.join = none
  rw [getElem?_replicate]
  split <;> rfl

/-- The calls of a run are honest exactly when they are clean; and after calls that are,
nothing is counted once every slot is empty. -/
theorem honest_along_iff (calls : List (Action × Outcome)) :
    (Run.Along (step config controller) (Honest config controller)
        (initialized config controller controllerSocket) calls ↔
      Run.Along (step config controller) (Clean config)
        (initialized config controller controllerSocket) calls) ∧
    (Run.Along (step config controller) (Clean config)
        (initialized config controller controllerSocket) calls ->
      ∀ final, Run.run (step config controller)
          (initialized config controller controllerSocket) calls = some final ->
        (∀ handle, final.lookup handle = none) -> final.size = 0) := by
  have keeps : ∀ reactor call next, Bookkept reactor -> Clean config reactor call ->
      step config controller reactor call = some next -> Bookkept next := by
    intro reactor call next bookkept clean taken
    cases taken
    exact ((honest_iff_clean bookkept call).mpr clean).1
  have start := initialized_bookkept config controller controllerSocket
  refine ⟨Run.along_iff (fun _ call _ bookkept _ => honest_iff_clean bookkept call) keeps
    start, fun clean final taken allEmpty => ?_⟩
  have always := Run.always_of_along keeps start clean
  have bookkept : Bookkept final :=
    (Run.always_iff _ _).mp always calls [] final (append_nil _) taken
  rw [bookkept]
  refine countP_eq_zero.mpr fun slot mem isSome => ?_
  obtain ⟨handle, isSlot⟩ := getElem?_of_mem mem
  have isEmpty : final.slots[handle]?.join = none := allEmpty handle
  rw [isSlot] at isEmpty
  rw [show slot = none from isEmpty] at isSome
  contradiction

end

def attachedOnce : List (Action × Outcome) :=
  [(.attachSocket 1 5, {}), (.showSocket 1 5 .readable {}, {}), (.hideSocket 1 5 .readable, {}),
    (.detachSocket 5, {}), (.deinitializeControl, {})]

theorem attachedOnce_honest :
    Run.Along (step {} 3) (Honest {} 3) (initialized {} 3 0) attachedOnce := by
  refine (honest_along_iff {} 3 0 attachedOnce).1.mpr ?_
  exact ⟨⟨rfl, rfl⟩, nofun, trivial, nofun, trivial, trivial⟩

/-- The kernel refuses a socket that is attached, which stays in its slot; and a socket
that it fails to remove is detached nonetheless. -/
theorem not_honest : ¬ Run.Along (step {} 3) (Honest {} 3) (initialized {} 3 0)
        [(.attachSocket 1 5, { add := .failed })] ∧
      ¬ Run.Along (step {} 3) (Honest {} 3) (initialized {} 3 0)
        [(.attachSocket 1 5, {}), (.detachSocket 5, { delete := .failed })] := by
  constructor
  · rintro ⟨⟨_, honest⟩, _⟩
    exact absurd (honest rfl nofun).size (by decide)
  · rintro ⟨_, ⟨_, honest⟩, _⟩
    exact absurd (honest rfl nofun).size (by decide)

end Steps

end Registration

end NtfCore.Ntco.Epoll
