import Mathlib.Data.List.Nodup
import NtfCore.Ntcdns.Client.Model

/-!
Contract: the custody of the operations of the DNS client.

Owns: the invariant of the places of the operations (`Sound`), with the operations on
the move between two places, and how each elementary change keeps it.
-/

namespace NtfCore.Ntcdns

open List

namespace ClientNameServer

variable (server : ClientNameServer) (txn : UInt16) (id : Nat)

theorem held_push : (server.push id).held.Perm (id :: server.held) := by
  simp only [held, push, append_assoc, singleton_append]
  exact perm_middle

theorem held_add : (server.add txn id).held.Perm (id :: server.held) := perm_middle

theorem held_pop {server : ClientNameServer} {id : Nat} {rest : List Nat}
    (isQueue : server.operationQueue = id :: rest) : server.held = id :: server.pop.held := by
  simp [held, pop, isQueue]

/-- Removing the first entry that meets a condition takes its operation out. -/
theorem map_snd_eraseP {entries : List (UInt16 × Nat)} {condition : UInt16 × Nat -> Bool}
    {entry : UInt16 × Nat} (isFirst : entries.find? condition = some entry) :
    (entries.map Prod.snd).Perm (entry.2 :: (entries.eraseP condition).map Prod.snd) := by
  induction entries with
  | nil => simp at isFirst
  | cons head _ ih =>
    cases meets : condition head with
    | true =>
      rw [find?_cons_of_pos meets] at isFirst
      cases isFirst
      simp [meets]
    | false =>
      rw [find?_cons_of_neg (by simp [meets])] at isFirst
      rw [eraseP_cons_of_neg (by simp [meets])]
      exact ((ih isFirst).cons head.2).trans (Perm.swap _ _ _)

theorem held_remove {server : ClientNameServer} {txn : UInt16} {id : Nat}
    (isFound : server.find txn = some id) : server.held.Perm (id :: (server.remove txn).held) := by
  obtain ⟨_, isEntry, rfl⟩ := Option.map_eq_some_iff.mp isFound
  exact ((map_snd_eraseP isEntry).append_left _).trans perm_middle

theorem held_removeValue {server : ClientNameServer} {id : Nat} (isHeld : id ∈ server.held) :
    server.held.Perm (id :: (server.removeValue id).held) := by
  by_cases inMap : id ∈ server.operationMap.map Prod.snd
  · obtain ⟨entry, isMem, isValue⟩ := mem_map.mp inMap
    have exists_first : (server.operationMap.find? fun entry => entry.2 = id).isSome :=
      find?_isSome.mpr ⟨entry, isMem, by simpa using isValue⟩
    obtain ⟨first, isFirst⟩ := Option.isSome_iff_exists.mp exists_first
    have firstValue : first.2 = id := by simpa using find?_some isFirst
    rw [removeValue, if_pos inMap, ← firstValue]
    rw [← firstValue] at isFirst
    exact ((map_snd_eraseP isFirst).append_left _).trans perm_middle
  · have inQueue : id ∈ server.operationQueue := (mem_append.mp isHeld).resolve_right inMap
    rw [removeValue, if_neg inMap]
    exact (perm_cons_erase inQueue).append_right _

theorem removeValue_of_not_held {server : ClientNameServer} {id : Nat}
    (isNotHeld : id ∉ server.held) : server.removeValue id = server := by
  obtain ⟨notQueued, notInMap⟩ := not_or.mp (fun isEither => isNotHeld (mem_append.mpr isEither))
  rw [removeValue, if_neg notInMap, erase_of_not_mem notQueued]

theorem outstanding_remove : (server.remove txn).outstanding.Sublist server.outstanding :=
  Sublist.map _ eraseP_sublist

/-- Adding a key that is not there and removing it leaves the map as it was. -/
theorem remove_add : (server.add txn id).remove txn = server := by
  simp [remove, add]

end ClientNameServer

namespace Client

variable {client : Client} {moving : List Nat}

section Modify

variable (client : Client) (server id : Nat) (change : ClientNameServer -> ClientNameServer)
  (alter : ClientOperation -> ClientOperation)

@[simp] theorem modifyServer_same :
    (client.modifyServer server change).servers server = change (client.servers server) := by
  simp [modifyServer]

theorem modifyServer_other {other : Nat} (isOther : other ≠ server) :
    (client.modifyServer server change).servers other = client.servers other := by
  simp [modifyServer, isOther]

@[simp] theorem modifyOperation_same :
    (client.modifyOperation id alter).operations id = alter (client.operations id) := by
  simp [modifyOperation]

theorem modifyOperation_other {other : Nat} (isOther : other ≠ id) :
    (client.modifyOperation id alter).operations other = client.operations other := by
  simp [modifyOperation, isOther]

end Modify

/-- Where the operations are: every one that a name server holds is pending and at the
server that its index says, every pending one is held or on the move, and none is in
two places. -/
structure Sound (client : Client) (moving : List Nat) : Prop where
  defined : client.undefined = false
  home : ∀ server, ∀ id ∈ (client.servers server).held,
    (client.operations id).pending = true ∧ (client.operations id).serverIndex = server ∧
      server < client.numServers
  distinct : ∀ server, (client.servers server).held.Nodup
  kept : ∀ id, (client.operations id).pending = true -> (client.operations id).initiated = true ->
    id ∈ moving ∨ id ∈ (client.servers (client.operations id).serverIndex).held
  away : ∀ id ∈ moving, (client.operations id).pending = true ∧
    (client.operations id).serverIndex < client.numServers ∧
      ∀ server, id ∉ (client.servers server).held
  apart : moving.Nodup
  once : ∀ id, (client.operations id).invocations ≤ 1 ∧
    ((client.operations id).pending = true -> (client.operations id).invocations = 0)
  new : ∀ id, client.numOperations ≤ id -> (client.operations id).pending = false

namespace Sound

section

variable (sound : Sound client moving)
include sound

theorem surrounded (surroundings : Surroundings) :
    Sound { client with surroundings := surroundings } moving :=
  ⟨sound.defined, sound.home, sound.distinct, sound.kept, sound.away, sound.apart, sound.once,
    sound.new⟩

variable {server : Nat} {change : ClientNameServer -> ClientNameServer}

theorem rehold {moving' : List Nat} (same : (moving ++ (client.servers server).held).Perm
      (moving' ++ (change (client.servers server)).held))
    (settled : ∀ id ∈ (change (client.servers server)).held,
      (client.operations id).serverIndex = server) (known : server < client.numServers) :
    Sound (client.modifyServer server change) moving' := by
  have together : (moving ++ (client.servers server).held).Nodup :=
    nodup_append'.mpr ⟨sound.apart, sound.distinct server,
      fun id isMoving isHeld => (sound.away id isMoving).2.2 server isHeld⟩
  obtain ⟨apart, _, disjoint⟩ := nodup_append'.mp (same.nodup_iff.mp together)
  have facts : ∀ id ∈ moving' ++ (change (client.servers server)).held,
      (client.operations id).pending = true ∧
        (client.operations id).serverIndex < client.numServers := by
    intro id isMem
    rcases mem_append.mp (same.mem_iff.mpr isMem) with isMoving | isHeld
    · exact ⟨(sound.away id isMoving).1, (sound.away id isMoving).2.1⟩
    · obtain ⟨isPending, isIndex, _⟩ := sound.home server id isHeld
      exact ⟨isPending, isIndex ▸ known⟩
  refine ⟨sound.defined, ?_, ?_, ?_, ?_, apart, sound.once, sound.new⟩
  · intro other id isHeld
    by_cases isOther : other = server
    · subst isOther
      rw [modifyServer_same] at isHeld
      exact ⟨(facts id (mem_append_right _ isHeld)).1, settled id isHeld, known⟩
    · rw [modifyServer_other _ _ _ isOther] at isHeld
      exact sound.home other id isHeld
  · intro other
    by_cases isOther : other = server
    · subst isOther
      rwa [modifyServer_same]
    · rw [modifyServer_other _ _ _ isOther]
      exact sound.distinct other
  · intro id isPending isInitiated
    have place := sound.kept id isPending isInitiated
    by_cases atServer : (client.operations id).serverIndex = server
    · have isMem : id ∈ moving ++ (client.servers server).held := mem_append.mpr (atServer ▸ place)
      refine (mem_append.mp (same.mem_iff.mp isMem)).imp_right ?_
      intro isHeld
      change id ∈ ((client.modifyServer server change).servers
        (client.operations id).serverIndex).held
      rwa [atServer, modifyServer_same]
    · rcases place with isMoving | isHeld
      · rcases mem_append.mp (same.mem_iff.mp (mem_append_left _ isMoving))
          with staysMoving | isHeld
        · exact .inl staysMoving
        · exact absurd (settled id isHeld) atServer
      · refine .inr ?_
        change id ∈ ((client.modifyServer server change).servers
          (client.operations id).serverIndex).held
        rwa [modifyServer_other _ _ _ atServer]
  · intro id isMoving
    obtain ⟨isPending, isBelow⟩ := facts id (mem_append_left _ isMoving)
    refine ⟨isPending, isBelow, ?_⟩
    intro other isHeld
    by_cases isOther : other = server
    · subst isOther
      rw [modifyServer_same] at isHeld
      exact disjoint isMoving isHeld
    · rw [modifyServer_other _ _ _ isOther] at isHeld
      rcases mem_append.mp (same.mem_iff.mpr (mem_append_left _ isMoving)) with wasMoving | wasHeld
      · exact (sound.away id wasMoving).2.2 other isHeld
      · exact isOther ((sound.home other id isHeld).2.1.symm.trans
          (sound.home server id wasHeld).2.1)

theorem rearrange (same : (change (client.servers server)).held = (client.servers server).held)
    (known : server < client.numServers) : Sound (client.modifyServer server change) moving := by
  refine sound.rehold (by rw [same]) ?_ known
  intro id isHeld
  rw [same] at isHeld
  exact (sound.home server id isHeld).2.1

theorem out {id : Nat} (known : server < client.numServers)
    (taken : (client.servers server).held.Perm (id :: (change (client.servers server)).held)) :
    Sound (client.modifyServer server change) (id :: moving) := by
  refine sound.rehold ((taken.append_left moving).trans perm_middle) ?_ known
  intro other isHeld
  exact (sound.home server other (taken.mem_iff.mpr (mem_cons_of_mem _ isHeld))).2.1

end

variable {id : Nat}

theorem into {server : Nat} (sound : Sound client (id :: moving))
    {change : ClientNameServer -> ClientNameServer}
    (isIndex : (client.operations id).serverIndex = server)
    (given : (change (client.servers server)).held.Perm (id :: (client.servers server).held)) :
    Sound (client.modifyServer server change) moving := by
  refine sound.rehold ((given.append_left moving).trans perm_middle).symm ?_ ?_
  · intro other isHeld
    rcases mem_cons.mp (given.mem_iff.mp isHeld) with rfl | wasHeld
    · exact isIndex
    · exact (sound.home server other wasHeld).2.1
  · exact isIndex ▸ (sound.away id mem_cons_self).2.1

theorem alter (sound : Sound client (id :: moving)) {change : ClientOperation -> ClientOperation}
    (pending : (change (client.operations id)).pending = (client.operations id).pending)
    (invocations : (change (client.operations id)).invocations = (client.operations id).invocations)
    (below : (change (client.operations id)).serverIndex < client.numServers) :
    Sound (client.modifyOperation id change) (id :: moving) := by
  have others : ∀ other, other ≠ id ->
      (client.modifyOperation id change).operations other = client.operations other :=
    fun other isOther => modifyOperation_other _ _ _ isOther
  have heldElsewhere : ∀ server, ∀ other ∈ (client.servers server).held, other ≠ id := by
    intro server other isHeld isSame
    exact (sound.away id mem_cons_self).2.2 server (isSame ▸ isHeld)
  refine ⟨sound.defined, ?_, sound.distinct, ?_, ?_, sound.apart, ?_, ?_⟩
  · intro server other isHeld
    rw [others other (heldElsewhere server other isHeld)]
    exact sound.home server other isHeld
  · intro other
    by_cases isOther : other = id
    · intro _ _
      exact .inl (isOther ▸ mem_cons_self)
    · rw [others other isOther]
      exact sound.kept other
  · intro other isMoving
    by_cases isOther : other = id
    · subst isOther
      rw [modifyOperation_same, pending]
      exact ⟨(sound.away other isMoving).1, below, (sound.away other isMoving).2.2⟩
    · rw [others other isOther]
      exact sound.away other isMoving
  · intro other
    by_cases isOther : other = id
    · subst isOther
      rw [modifyOperation_same, pending, invocations]
      exact sound.once other
    · rw [others other isOther]
      exact sound.once other
  · intro other isNew
    by_cases isOther : other = id
    · subst isOther
      rw [modifyOperation_same, pending]
      exact sound.new other isNew
    · rw [others other isOther]
      exact sound.new other isNew

/-- The callback of an operation on the move is invoked. -/
theorem complete (sound : Sound client (id :: moving)) : Sound (client.processError id) moving := by
  obtain ⟨notMoving, apart⟩ := nodup_cons.mp sound.apart
  obtain ⟨isPending, _, isNowhere⟩ := sound.away id mem_cons_self
  rw [processError, if_pos isPending]
  have others : ∀ other, other ≠ id ->
      (client.invoked id).operations other = client.operations other :=
    fun other isOther => modifyOperation_other _ _ _ isOther
  have isDone : ((client.invoked id).operations id).pending = false := by simp [invoked]
  refine ⟨sound.defined, ?_, sound.distinct, ?_, ?_, apart, ?_, ?_⟩
  · intro server other isHeld
    have isOther : other ≠ id := fun isSame => isNowhere server (isSame ▸ isHeld)
    rw [others other isOther]
    exact sound.home server other isHeld
  · intro other stillPending
    have isOther : other ≠ id := by
      intro isSame
      rw [isSame, isDone] at stillPending
      contradiction
    rw [others other isOther] at stillPending ⊢
    intro isInitiated
    refine (sound.kept other stillPending isInitiated).imp_left ?_
    intro isMoving
    exact (mem_cons.mp isMoving).resolve_left isOther
  · intro other isMoving
    have isOther : other ≠ id := fun isSame => notMoving (isSame ▸ isMoving)
    rw [others other isOther]
    exact sound.away other (mem_cons_of_mem _ isMoving)
  · intro other
    by_cases isOther : other = id
    · subst isOther
      simp [invoked, (sound.once other).2 isPending]
    · rw [others other isOther]
      exact sound.once other
  · intro other isNew
    by_cases isOther : other = id
    · rw [isOther, isDone]
    · rw [others other isOther]
      exact sound.new other isNew

/-- The callbacks of all the operations on the move are invoked. -/
theorem completeAll {ids : List Nat} (sound : Sound client (ids ++ moving)) :
    Sound (ids.foldl (fun client id => client.processError id) client) moving := by
  induction ids generalizing client with
  | nil => exact sound
  | cons _ _ ih => exact ih (complete sound)

/-- An operation whose initiation failed need not be kept. -/
theorem drop (sound : Sound client (id :: moving))
    (isNotInitiated : (client.operations id).initiated = false) : Sound client moving := by
  refine { sound with
    kept := ?_
    away := fun other isMoving => sound.away other (mem_cons_of_mem _ isMoving)
    apart := (nodup_cons.mp sound.apart).2 }
  intro other isPending isInitiated
  refine (sound.kept other isPending isInitiated).imp_left ?_
  intro isMoving
  refine (mem_cons.mp isMoving).resolve_left ?_
  intro isSame
  rw [isSame, isNotInitiated] at isInitiated
  contradiction

theorem create (sound : Sound client []) (searchList : List (List UInt8))
    (exists_server : 0 < client.numServers) :
    Sound (client.created searchList) [client.numOperations] := by
  have others : ∀ other, other ≠ client.numOperations ->
      (client.created searchList).operations other = client.operations other := by
    intro other isOther
    simp [created, modifyOperation, isOther]
  have isNew : ((client.created searchList).operations client.numOperations) =
      { searchList := searchList, pending := true, initiated := true } := by
    simp [created, modifyOperation]
  have wasNotPending := sound.new client.numOperations .refl
  have heldElsewhere : ∀ server, ∀ other ∈ (client.servers server).held,
      other ≠ client.numOperations := by
    intro server other isHeld isSame
    have isPending := (sound.home server other isHeld).1
    rw [isSame, wasNotPending] at isPending
    contradiction
  refine ⟨sound.defined, ?_, sound.distinct, ?_, ?_, nodup_singleton _, ?_, ?_⟩
  · intro server other isHeld
    rw [others other (heldElsewhere server other isHeld)]
    exact sound.home server other isHeld
  · intro other
    by_cases isOther : other = client.numOperations
    · intro _ _
      exact .inl (mem_singleton.mpr isOther)
    · rw [others other isOther]
      intro isPending isInitiated
      exact .inr ((sound.kept other isPending isInitiated).resolve_left not_mem_nil)
  · intro other isMoving
    cases mem_singleton.mp isMoving
    rw [isNew]
    exact ⟨rfl, exists_server, fun server isHeld => heldElsewhere server _ isHeld rfl⟩
  · intro other
    by_cases isOther : other = client.numOperations
    · rw [isOther, isNew]
      exact ⟨Nat.zero_le _, fun _ => rfl⟩
    · rw [others other isOther]
      exact sound.once other
  · intro other isLater
    have isPast : client.numOperations + 1 ≤ other := isLater
    rw [others other (by omega)]
    exact sound.new other (by omega)

end Sound

end Client

end NtfCore.Ntcdns
