import NtfCore.Ntcdns.Client.Custody

/-!
Contract: no operation of the DNS client is lost or held twice.

Owns: what the loops of the client and each of its events do to the places of the
operations (`Ready`), the condition on a step under which none is lost or doubled
(`Careful`), and the theorem about whole runs.

The condition leaves out four things the client does not handle: a response that is an
error and is truncated, a socket that is not created, a transaction identifier that is
in use, and a cancellation at a name server that does not hold the operation.
-/

namespace NtfCore.Ntcdns

open NtfCore.Foundation List
open ClientNameServer

namespace Client

variable {client after : Client} {moving : List Nat} {id server : Nat}

def drawn (client : Client) : List UInt16 :=
  client.surroundings.generations.map generateTransactionId

def Supplied (client : Client) : Prop :=
  client.drawn.Nodup ∧
    (∀ server, server < client.numServers ->
      ∀ transactionId ∈ client.drawn, transactionId ∉ (client.servers server).outstanding) ∧
    ∀ outcome ∈ client.surroundings.creates, outcome = true

-- The identifiers are taken from the list, not from all the numbers of 16 bits.
instance : Decidable (Supplied client) :=
  @instDecidableAnd _ _ (List.nodupDecidable _)
    (@instDecidableAnd _ _
      (@Nat.decidableBallLT _ _ fun _ _ => List.decidableBAll _ _)
      (List.decidableBAll _ _))

structure Ready (client : Client) (moving : List Nat) : Prop where
  sound : Sound client moving
  supplied : Supplied client

structure Below (bound : Nat) (before after : Client) : Prop where
  numServers : after.numServers = before.numServers
  servers : ∀ server, server < bound -> after.servers server = before.servers server

namespace Below

theorem refl (bound : Nat) (client : Client) : Below bound client client := ⟨rfl, fun _ _ => rfl⟩

theorem trans {bound : Nat} {first second third : Client} (left : Below bound first second)
    (right : Below bound second third) : Below bound first third :=
  ⟨right.numServers.trans left.numServers, fun server isBelow =>
    (right.servers server isBelow).trans (left.servers server isBelow)⟩

theorem mono {low high : Nat} {before after : Client} (below : Below high before after)
    (isLe : low ≤ high) : Below low before after :=
  ⟨below.numServers, fun server _ => below.servers server (by omega)⟩

theorem modifyServer (client : Client) (server : Nat)
    (change : ClientNameServer -> ClientNameServer) :
    Below server client (client.modifyServer server change) :=
  ⟨rfl, fun _ _ => modifyServer_other _ _ _ (by omega)⟩

end Below

namespace Supplied

theorem modifyServer (supplied : Supplied client) {change : ClientNameServer -> ClientNameServer}
    (fresh : ∀ txn ∈ (change (client.servers server)).outstanding,
      txn ∈ (client.servers server).outstanding ∨ txn ∉ client.drawn) :
    Supplied (client.modifyServer server change) := by
  refine ⟨supplied.1, ?_, supplied.2.2⟩
  intro other isKnown txn isDrawn isOutstanding
  by_cases isOther : other = server
  · subst isOther
    rw [modifyServer_same] at isOutstanding
    rcases fresh txn isOutstanding with wasOutstanding | isNotDrawn
    · exact supplied.2.1 other isKnown txn isDrawn wasOutstanding
    · exact isNotDrawn isDrawn
  · rw [modifyServer_other _ _ _ isOther] at isOutstanding
    exact supplied.2.1 other isKnown txn isDrawn isOutstanding

end Supplied

namespace Ready

variable {moving' : List Nat}

/-- The name server loses no key that matters and gains none. -/
theorem modified {change : ClientNameServer -> ClientNameServer} (ready : Ready client moving)
    (fewer : ∀ txn ∈ (change (client.servers server)).outstanding,
      txn ∈ (client.servers server).outstanding)
    (sound : Sound (client.modifyServer server change) moving') :
    Ready (client.modifyServer server change) moving' :=
  ⟨sound, ready.supplied.modifyServer fun txn isOutstanding =>
    .inl (fewer txn isOutstanding)⟩

theorem altered {change : ClientOperation -> ClientOperation}
    (ready : Ready client moving) (sound : Sound (client.modifyOperation id change) moving') :
    Ready (client.modifyOperation id change) moving' :=
  ⟨sound, ready.supplied⟩

theorem complete (ready : Ready client (id :: moving)) : Ready (client.processError id) moving := by
  refine ⟨ready.sound.complete, ?_⟩
  unfold processError
  split
  · exact ready.supplied
  · exact ready.supplied

/-- An identifier drawn is not outstanding, and is not drawn again. -/
theorem draw {txn : UInt16} (ready : Ready client moving)
    (isDrawn : client.drawTransactionId = some (txn, after)) :
    Ready after moving ∧ after.servers = client.servers ∧ after.operations = client.operations ∧
      after.numServers = client.numServers ∧ txn ∉ after.drawn ∧
      ∀ server, server < client.numServers -> txn ∉ (client.servers server).outstanding := by
  unfold drawTransactionId at isDrawn
  cases isGenerations : client.surroundings.generations with
  | nil =>
    rw [isGenerations] at isDrawn
    contradiction
  | cons =>
    rw [isGenerations] at isDrawn
    cases isDrawn
    obtain ⟨distinct, fresh, creates⟩ := ready.supplied
    simp only [drawn, isGenerations, map_cons] at distinct fresh
    obtain ⟨isNew, distinctRest⟩ := nodup_cons.mp distinct
    refine ⟨⟨ready.sound.surrounded _, distinctRest, ?_, creates⟩, rfl, rfl, rfl, isNew, ?_⟩
    · intro server isKnown txn isLater
      exact fresh server isKnown txn (mem_cons_of_mem _ isLater)
    · intro server isKnown
      exact fresh server isKnown _ mem_cons_self

/-- Sending through a socket that is there changes nothing of the client. -/
theorem send {sent : Bool} (ready : Ready client moving)
    (isSent : client.sendRequest true id = (sent, after)) :
    Ready after moving ∧ after.servers = client.servers ∧ after.operations = client.operations ∧
      after.numServers = client.numServers := by
  unfold sendRequest at isSent
  split at isSent
  · cases isSent
    exact ⟨ready, rfl, rfl, rfl⟩
  · split at isSent
    · cases isSent
      exact ⟨ready, rfl, rfl, rfl⟩
    · rw [if_neg (by decide)] at isSent
      cases isSent
      exact ⟨⟨ready.sound.surrounded _, ready.supplied⟩, rfl, rfl, rfl⟩

end Ready

/-- What a flush of a server does, with so many servers to go to: it leaves every
operation in place, and the servers before as they were. -/
def Flushes (flush : Nat -> Client -> Option Client) (depth : Nat) : Prop :=
  ∀ server client after, Ready client [] -> server < client.numServers ->
    client.numServers ≤ depth + server ->
    ((client.servers server).connected = true ∨ (client.servers server).operationQueue = []) ->
    flush server client = some after -> Ready after [] ∧ Below server client after

section Loops

variable {flush : Nat -> Client -> Option Client} {depth : Nat}

section

variable (flushes : Flushes flush depth)
include flushes

section

variable (ready : Ready client [id])
include ready

variable {taken : Bool}

theorem initiate_spec (isIndex : (client.operations id).serverIndex = server)
    (deep : client.numServers ≤ depth + server)
    (isInitiated : client.initiate flush server id = some (taken, after)) :
    Below server client after ∧ (taken = true -> Ready after []) ∧
      (taken = false -> after = client) := by
  have known : server < client.numServers := isIndex ▸ (ready.sound.away id (by simp)).2.1
  have pushed : Ready (client.modifyServer server fun found => found.push id) [] :=
    ready.modified (fun _ isOutstanding => isOutstanding) (ready.sound.into isIndex (held_push _ _))
  have below := Below.modifyServer client server fun found => found.push id
  unfold initiate at isInitiated
  split at isInitiated
  · split at isInitiated
    · rename_i isConnected
      obtain ⟨_, isFlushed, isResult⟩ := Option.map_eq_some_iff.mp isInitiated
      cases isResult
      have spec := flushes server _ _ pushed known deep
        (.inl (by rw [modifyServer_same]; exact isConnected)) isFlushed
      exact ⟨below.trans spec.2, fun _ => spec.1, nofun⟩
    · cases isInitiated
      have isCreated : client.surroundings.creates.headD true = true := by
        cases isOutcome : client.surroundings.creates with
        | nil => rfl
        | cons outcome => exact ready.supplied.2.2 outcome (by simp [isOutcome])
      refine ⟨⟨below.numServers, below.servers⟩, fun _ => ⟨pushed.sound.surrounded _, ?_⟩, ?_⟩
      · refine ⟨pushed.supplied.1, pushed.supplied.2.1, ?_⟩
        intro outcome isOutcome
        exact pushed.supplied.2.2 outcome (mem_of_mem_tail isOutcome)
      · intro isFailed
        exact absurd (isCreated.symm.trans isFailed) (by decide)
  · cases isInitiated
    exact ⟨Below.refl _ _, nofun, fun _ => rfl⟩

/-- Offering the operation to the servers after its own: the first that is started
takes it. -/
theorem tryServers_spec {turns : Nat}
    (enough : client.numServers ≤ turns + (client.operations id).serverIndex)
    (deep : client.numServers ≤ depth + (client.operations id).serverIndex + 1)
    (isTried : client.tryServers flush id turns = some (taken, after)) :
    Below ((client.operations id).serverIndex + 1) client after ∧
      (taken = true -> Ready after []) ∧ (taken = false -> Ready after [id]) := by
  have isAway := ready.sound.away id (by simp)
  induction turns generalizing client with
  | zero => exact absurd isAway.2.1 (by omega)
  | succ _ ih =>
    simp only [tryServers, tryNextServer, isAway.1, Bool.true_eq_false, if_false] at isTried
    by_cases hasNext : (client.operations id).serverIndex + 1 < client.numServers
    · rw [if_pos hasNext] at isTried
      dsimp only at isTried
      have advanced : Ready (client.modifyOperation id fun op =>
          { op with serverIndex := op.serverIndex + 1, searchIndex := 0 }) [id] :=
        ready.altered (ready.sound.alter rfl rfl hasNext)
      have isIndex : ((client.modifyOperation id fun op =>
          { op with serverIndex := op.serverIndex + 1,
                           searchIndex := 0 }).operations id).serverIndex =
          (client.operations id).serverIndex + 1 := by
        rw [modifyOperation_same]
      have deeper : client.numServers ≤ depth + ((client.operations id).serverIndex + 1) := by omega
      cases isInitiated : (client.modifyOperation id fun op =>
          { op with serverIndex := op.serverIndex + 1,
                           searchIndex := 0 }).initiate flush
            ((client.operations id).serverIndex + 1) id with
      | none =>
        rw [isInitiated] at isTried
        contradiction
      | some result =>
        obtain ⟨isTaken, next⟩ := result
        have spec := initiate_spec flushes advanced isIndex deeper isInitiated
        have below : Below ((client.operations id).serverIndex + 1) client next :=
          ⟨spec.1.numServers, spec.1.servers⟩
        rw [isInitiated] at isTried
        cases isTaken with
        | true =>
          cases isTried
          exact ⟨below, spec.2.1, nofun⟩
        | false =>
          cases spec.2.2 rfl
          have rest := ih advanced (by rw [isIndex]; exact Nat.le_trans enough (by omega))
            (by rw [isIndex]; exact Nat.le_trans deep (by omega)) isTried
            (advanced.sound.away id (by simp))
          exact ⟨below.trans (rest.1.mono (by omega)), rest.2⟩
    · rw [if_neg hasNext] at isTried
      cases isTried
      exact ⟨Below.refl _ _, nofun, fun _ => ready⟩

/-- An operation that leaves its server is taken by a later one, or ends. -/
theorem reassign_spec (deep : client.numServers ≤ depth + (client.operations id).serverIndex + 1)
    (isReassigned : client.reassign flush id = some after) :
    Ready after [] ∧ Below ((client.operations id).serverIndex + 1) client after := by
  unfold reassign at isReassigned
  cases isTried : client.tryServers flush id client.numServers with
  | none =>
    rw [isTried] at isReassigned
    contradiction
  | some result =>
    obtain ⟨taken, _⟩ := result
    have spec := tryServers_spec flushes ready (by omega) deep isTried
    rw [isTried] at isReassigned
    cases taken with
    | true =>
      cases isReassigned
      exact ⟨spec.2.1 rfl, spec.1⟩
    | false =>
      cases isReassigned
      have completed := (spec.2.2 rfl).complete
      refine ⟨completed, ?_⟩
      unfold processError
      split
      · exact ⟨spec.1.numServers, spec.1.servers⟩
      · exact spec.1

/-- An operation under a new identifier is sent, or goes to a later server. The queue
of its own server stays. -/
theorem request_spec {txn : UInt16}
    (isIndex : (client.operations id).serverIndex = server) (isNew : txn ∉ client.drawn)
    (deep : client.numServers ≤ depth + server + 1)
    (isRequested : (client.modifyServer server fun found =>
      found.add txn id).request flush true server id txn = some after) :
    Ready after [] ∧ Below server client after ∧
      (after.servers server).operationQueue = (client.servers server).operationQueue ∧
      (after.servers server).connected = (client.servers server).connected := by
  have known : server < client.numServers := isIndex ▸ (ready.sound.away id (by simp)).2.1
  have added : Ready (client.modifyServer server fun found => found.add txn id) [] := by
    refine ⟨ready.sound.into isIndex (held_add _ _ _), ?_⟩
    refine ready.supplied.modifyServer ?_
    intro other isOutstanding
    rcases mem_cons.mp isOutstanding with rfl | wasOutstanding
    · exact .inr isNew
    · exact .inl wasOutstanding
  have below := Below.modifyServer client server fun found => found.add txn id
  unfold request at isRequested
  cases isSent : (client.modifyServer server fun found =>
      found.add txn id).sendRequest true id with
  | mk sent next =>
    obtain ⟨nextReady, nextServers, nextOperations, nextNumServers⟩ := added.send isSent
    have nextServer : next.servers server = (client.servers server).add txn id := by
      rw [nextServers, modifyServer_same]
    rw [isSent] at isRequested
    cases sent with
    | true =>
      cases isRequested
      refine ⟨nextReady, ⟨nextNumServers, ?_⟩, ?_, ?_⟩
      · rw [nextServers]
        exact below.servers
      · rw [nextServer]
        rfl
      · rw [nextServer]
        rfl
    | false =>
      -- The entry just made is taken out again, so the server is as it was.
      have nextIndex : (next.operations id).serverIndex = server := by
        rw [nextOperations]
        exact isIndex
      have isFound : (next.servers server).find txn = some id := by
        rw [nextServer]
        simp [find, add]
      have removed : Ready (next.modifyServer server fun found =>
          found.remove txn) [id] :=
        nextReady.modified (fun _ isOutstanding =>
            (outstanding_remove _ _).subset isOutstanding)
          (nextReady.sound.out (nextNumServers.symm ▸ known) (held_remove isFound))
      have numServers : next.numServers = client.numServers := nextNumServers
      have spec := reassign_spec flushes removed (by
          change next.numServers ≤ depth + (next.operations id).serverIndex + 1
          rw [numServers, nextIndex]
          exact deep)
        isRequested
      change _ ∧ Below ((next.operations id).serverIndex + 1) _ _ at spec
      have isServer : after.servers server = client.servers server := by
        rw [spec.2.servers server (by omega), modifyServer_same, nextServer]
        exact remove_add _ _ _
      refine ⟨spec.1, ⟨spec.2.numServers.trans numServers, ?_⟩, by rw [isServer], by rw [isServer]⟩
      intro other isBelow
      rw [spec.2.servers other (by omega), modifyServer_other _ _ _ (by omega), nextServers]
      exact below.servers other isBelow

end

theorem flushLoop_spec {turns : Nat} (ready : Ready client []) (known : server < client.numServers)
    (deep : client.numServers ≤ depth + server + 1)
    (connected : (client.servers server).connected = true ∨
      (client.servers server).operationQueue = [])
    (enough : (client.servers server).operationQueue.length ≤ turns)
    (isFlushed : client.flushLoop flush server turns = some after) :
    Ready after [] ∧ Below server client after := by
  induction turns generalizing client with
  | zero =>
    have isEmpty : (client.servers server).operationQueue = [] :=
      length_eq_zero_iff.mp (Nat.le_zero.mp enough)
    rw [flushLoop, if_pos isEmpty] at isFlushed
    cases isFlushed
    exact ⟨ready, Below.refl _ _⟩
  | succ _ ih =>
    unfold flushLoop at isFlushed
    cases isQueue : (client.servers server).operationQueue with
    | nil =>
      rw [isQueue] at isFlushed
      cases isFlushed
      exact ⟨ready, Below.refl _ _⟩
    | cons id rest =>
      have isHead : id ∈ (client.servers server).held := by simp [held, isQueue]
      have isIndex := (ready.sound.home server id isHead).2.1
      have isConnected : (client.servers server).connected = true :=
        connected.resolve_right (by simp [isQueue])
      have popped : Ready (client.modifyServer server pop) [id] :=
        ready.modified (fun _ isOutstanding => isOutstanding)
          (ready.sound.out known (held_pop isQueue ▸ Perm.refl _))
      rw [isQueue] at isFlushed
      cases isDrawn : (client.modifyServer server pop).drawTransactionId with
      | none =>
        rw [isDrawn] at isFlushed
        contradiction
      | some result =>
        obtain ⟨txn, next⟩ := result
        obtain ⟨nextReady, nextServers, nextOperations, nextNumServers, isNew, isFresh⟩ :=
          popped.draw isDrawn
        have nextServer : next.servers server = (client.servers server).pop := by
          rw [nextServers, modifyServer_same]
        have isAbsent : txn ∉ (next.servers server).outstanding := by
          rw [nextServers]
          exact isFresh server known
        rw [isDrawn] at isFlushed
        dsimp only at isFlushed
        rw [if_neg isAbsent] at isFlushed
        have stillConnected : (next.servers server).connected = true := by
          rw [nextServer]
          exact isConnected
        rw [stillConnected] at isFlushed
        cases isRequested : (next.modifyServer server fun found =>
            found.add txn id).request flush true server id txn with
        | none =>
          rw [isRequested] at isFlushed
          contradiction
        | some requested =>
          rw [isRequested] at isFlushed
          have numServers : next.numServers = client.numServers := nextNumServers
          obtain ⟨ready', below, queue, connection⟩ := request_spec flushes nextReady
            (by rw [nextOperations]; exact isIndex) isNew (by rw [numServers]; exact deep)
            isRequested
          have isRest : (requested.servers server).operationQueue = rest := by
            rw [queue, nextServer, pop, isQueue]
            rfl
          have toRequested : Below server client requested := by
            refine Below.trans ⟨nextNumServers, ?_⟩ below
            rw [nextServers]
            exact (Below.modifyServer client server pop).servers
          have loop := ih ready' (by rw [toRequested.numServers]; exact known)
            (by rw [toRequested.numServers]; exact deep)
            (.inl (by rw [connection]; exact stillConnected))
            (by
              rw [isRest]
              rw [isQueue, length_cons] at enough
              omega)
            isFlushed
          exact ⟨loop.1, toRequested.trans loop.2⟩

end

end Loops

/-- A flush goes from server to later server, so as many levels as there are servers
are enough. -/
theorem flush_spec (depth : Nat) : Flushes (flush depth) depth := by
  induction depth with
  | zero =>
    intro server client after _ known deep
    exact absurd known (by omega)
  | succ _ ih =>
    intro _ _ _ ready known _ connected isFlushed
    exact flushLoop_spec ih ready known (by omega) connected .refl isFlushed

theorem flushServer_spec (ready : Ready client []) (known : server < client.numServers)
    (connected : (client.servers server).connected = true ∨
      (client.servers server).operationQueue = [])
    (isFlushed : client.flushServer server = some after) : Ready after [] :=
  (flush_spec _ server client after ready known (Nat.le_add_right _ _) connected isFlushed).1

/-- An operation that a response takes from its server goes to the next one. -/
theorem reassign_ready (ready : Ready client [id])
    (isReassigned : client.reassign (flush client.numServers) id = some after) : Ready after [] :=
  (reassign_spec (flush_spec _) ready (by omega) isReassigned).1

theorem searchNext_ready (ready : Ready client [id])
    (isIndex : (client.operations id).serverIndex = server)
    (isSearched : client.searchNext server id = some after) : Ready after [] := by
  have isAway := ready.sound.away id (by simp)
  have searched : Ready (client.searchedNext id) [id] :=
    ready.altered (ready.sound.alter rfl rfl isAway.2.1)
  unfold searchNext at isSearched
  cases isDrawn : (client.searchedNext id).drawTransactionId with
  | none =>
    rw [isDrawn] at isSearched
    contradiction
  | some result =>
    obtain ⟨_, next⟩ := result
    obtain ⟨nextReady, _, nextOperations, _, isNew, _⟩ := searched.draw isDrawn
    have nextIndex : (next.operations id).serverIndex = server := by
      rw [nextOperations, searchedNext, modifyOperation_same]
      exact isIndex
    rw [isDrawn] at isSearched
    dsimp only at isSearched
    split at isSearched
    · cases isSearched
      exact nextReady.complete
    · exact (request_spec (flush_spec _) nextReady nextIndex isNew (by omega) isSearched).1

variable {error : Error} {truncated : Bool}

theorem respond_ready (ready : Ready client [id])
    (isIndex : (client.operations id).serverIndex = server)
    (whole : error ≠ .ok -> truncated = false)
    (isResponse : client.respond server id error truncated = some after) : Ready after [] := by
  cases error with
  | ok =>
    cases isResponse
    rw [processResponse, if_pos isIndex]
    exact ready.complete
  | nameError =>
    cases whole (by decide)
    by_cases canSearch : client.canTryNextSearch id = true
    · simp only [respond, Bool.false_eq_true, if_false, if_pos canSearch] at isResponse
      exact searchNext_ready ready isIndex isResponse
    · simp only [respond, Bool.false_eq_true, if_false, if_neg canSearch] at isResponse
      exact reassign_ready ready isResponse
  | refused | serverFailure | notImplemented =>
    cases whole (by decide)
    exact reassign_ready ready isResponse
  | formatError =>
    cases whole (by decide)
    cases isResponse
    exact ready.complete

section

variable (ready : Ready client []) (known : server < client.numServers)
include ready known

theorem processReadQueueLowWatermark_ready {txn : UInt16}
    (whole : error ≠ .ok -> truncated = true -> (client.servers server).find txn = none)
    (isResponse : client.processReadQueueLowWatermark server txn error truncated =
      some after) : Ready after [] := by
  unfold processReadQueueLowWatermark at isResponse
  cases isFound : (client.servers server).find txn with
  | none =>
    rw [isFound] at isResponse
    cases isResponse
    exact ready
  | some id =>
    rw [isFound] at isResponse
    have taken := held_remove isFound
    have isIndex := (ready.sound.home server id (taken.mem_iff.mpr mem_cons_self)).2.1
    have removed : Ready (client.modifyServer server fun found =>
        found.remove txn) [id] :=
      ready.modified (fun _ isOutstanding => (outstanding_remove _ _).subset isOutstanding)
        (ready.sound.out known taken)
    refine respond_ready removed isIndex ?_ isResponse
    intro isError
    by_contra isTruncated
    rw [whole isError (by simpa using isTruncated)] at isFound
    contradiction

theorem processDatagramSocketConnected_ready {connected relaxed : Bool}
    (isConnected : client.processDatagramSocketConnected server connected relaxed =
      some after) : Ready after [] := by
  unfold processDatagramSocketConnected at isConnected
  split at isConnected
  · split at isConnected
    · have isThere : Ready (client.modifyServer server fun found =>
          { found with connected := true }) [] :=
        ready.modified (fun _ isOutstanding => isOutstanding) (ready.sound.rearrange rfl known)
      exact flushServer_spec isThere known (.inl (by rw [modifyServer_same])) isConnected
    · cases isConnected
      exact ready.modified (fun _ isOutstanding => isOutstanding) (ready.sound.rearrange rfl known)
  · cases isConnected
    exact ready

end

/-- A call that fails leaves a new operation that was not initiated; one that succeeds
has found it a place. -/
theorem getIpAddress_sound (ready : Ready client []) {name : List UInt8}
    {domainName : Option (Bool × Nat)}
    (isCalled : client.getIpAddress name domainName = some after) : Sound after [] := by
  unfold getIpAddress at isCalled
  split at isCalled
  · cases isCalled
    exact ready.sound
  · cases domainName with
    | none =>
      cases isCalled
      exact ready.sound
    | some parsed =>
      obtain ⟨absolute, dots⟩ := parsed
      dsimp only at isCalled
      have exists_server : 0 < client.numServers := by omega
      generalize client.searchListOf name absolute dots = searchList at isCalled
      have created : Ready (client.created searchList) [client.numOperations] :=
        ⟨ready.sound.create _ exists_server, ready.supplied⟩
      have isIndex : ((client.created searchList).operations
          client.numOperations).serverIndex = 0 := by simp [Client.created, modifyOperation]
      unfold initiateFirst at isCalled
      cases isInitiated : (client.created searchList).initiate
          (flush (client.created searchList).numServers) 0 client.numOperations with
      | none =>
        rw [isInitiated] at isCalled
        contradiction
      | some result =>
        obtain ⟨taken, _⟩ := result
        have first := initiate_spec (flush_spec _) created isIndex (by omega) isInitiated
        rw [isInitiated] at isCalled
        cases taken with
        | true =>
          cases isCalled
          exact (first.2.1 rfl).sound
        | false =>
          cases first.2.2 rfl
          dsimp only at isCalled
          cases isTried : (client.created searchList).tryServers
              (flush (client.created searchList).numServers) client.numOperations
              (client.created searchList).numServers with
          | none =>
            rw [isTried] at isCalled
            contradiction
          | some result =>
            obtain ⟨taken, _⟩ := result
            have rest := tryServers_spec (flush_spec _) created (by omega) (by omega) isTried
            rw [isTried] at isCalled
            cases taken with
            | true =>
              cases isCalled
              exact (rest.2.1 rfl).sound
            | false =>
              cases isCalled
              have left := (rest.2.2 rfl).sound
              have isAway := left.away client.numOperations (by simp)
              refine (left.alter rfl rfl isAway.2.1).drop ?_
              rw [modifyOperation_same]

section

variable (sound : Sound client []) (known : server < client.numServers)
include sound known

theorem cancel_sound
    (holds : (client.operations id).pending = true -> id ∈ (client.servers server).held) :
    Sound (client.cancel server id) [] := by
  unfold cancel
  by_cases isPending : (client.operations id).pending = true
  · exact (sound.out known (held_removeValue (holds isPending))).complete
  · have isNotHeld : id ∉ (client.servers server).held :=
      fun isHeld => isPending (sound.home server id isHeld).1
    have removed : Sound (client.modifyServer server fun found => found.removeValue id) [] := by
      refine sound.rearrange ?_ known
      rw [removeValue_of_not_held isNotHeld]
    have isDone : ¬ ((client.modifyServer server fun found =>
        found.removeValue id).operations id).pending = true := isPending
    rwa [processError, if_neg isDone]

theorem cancelAll_sound : Sound (client.cancelAll server) [] := by
  refine Sound.completeAll ?_
  refine sound.rehold ?_ nofun known
  have isEmpty : (cleared (client.servers server)).held = [] := rfl
  rw [isEmpty, append_nil, append_nil, nil_append]
  exact perm_append_comm

end

theorem cancelAll_numServers : (client.cancelAll server).numServers = client.numServers := by
  unfold cancelAll
  generalize (client.servers server).operationMap.map Prod.snd ++
    (client.servers server).operationQueue = ids
  have isBase : (client.modifyServer server cleared).numServers = client.numServers := rfl
  rw [← isBase]
  generalize client.modifyServer server cleared = base
  induction ids generalizing base with
  | nil => rfl
  | cons _ _ ih =>
    rw [foldl_cons, ih]
    unfold processError
    split <;> rfl

theorem shutdown_sound (sound : Sound client []) (known : server < client.numServers) :
    Sound (client.shutdown server) [] := by
  unfold shutdown
  split
  · refine (cancelAll_sound sound known).rearrange rfl ?_
    rw [cancelAll_numServers]
    exact known
  · exact sound

/-- The condition on a step: the identifiers drawn are not in use, the sockets are
created, a truncated error is for no operation, a cancellation is at the server that
holds the operation, and a flush has a socket. -/
def Careful (client : Client) (taken : Step) : Prop :=
  Supplied { client with surroundings := taken.surroundings } ∧
    match taken.action with
    | .processWriteQueueLowWatermark server =>
      (client.servers server).connected = true ∨ (client.servers server).operationQueue = []
    | .processReadQueueLowWatermark server transactionId error truncated =>
      error ≠ .ok -> truncated = true -> (client.servers server).find transactionId = none
    | .cancel server id =>
      (client.operations id).pending = true -> id ∈ (client.servers server).held
    | _ => True

/-- Every step under the condition leaves each operation in its place. -/
theorem step_sound (client : Client) (taken : Step) (after : Client) (sound : Sound client [])
    (careful : Careful client taken) (isTaken : client.step taken = some after) :
    Sound after [] := by
  obtain ⟨action, surroundings⟩ := taken
  unfold step at isTaken
  split at isTaken
  · rename_i names
    have ready : Ready { client with surroundings := surroundings } [] :=
      ⟨sound.surrounded _, careful.1⟩
    have particular := careful.2
    cases action with
    | getIpAddress => exact getIpAddress_sound ready isTaken
    | processDatagramSocketConnected server =>
      exact (processDatagramSocketConnected_ready ready (of_decide_eq_true names) isTaken).sound
    | processShutdownComplete server =>
      cases isTaken
      exact ready.sound.rearrange rfl (of_decide_eq_true names)
    | processWriteQueueLowWatermark server =>
      exact (flushServer_spec ready (of_decide_eq_true names) particular isTaken).sound
    | processReadQueueLowWatermark server =>
      exact (processReadQueueLowWatermark_ready ready (of_decide_eq_true names) particular
        isTaken).sound
    | cancel server id =>
      cases isTaken
      have known : (decide (server < client.numServers) && decide (id < client.numOperations)) =
          true := names
      rw [Bool.and_eq_true] at known
      exact cancel_sound ready.sound (of_decide_eq_true known.1) particular
    | shutdown =>
      cases isTaken
      exact shutdown_sound ready.sound (of_decide_eq_true names)
  · contradiction

def holdings (client : Client) (server id : Nat) : Nat :=
  (client.servers server).operationQueue.count id +
    ((client.servers server).operationMap.map Prod.snd).count id

/-- No operation is lost or doubled: each pending operation whose initiation did not fail
is held by exactly one name server, once, and no callback is invoked twice. -/
structure Conserved (client : Client) : Prop where
  defined : client.undefined = false
  held : ∀ id, (client.operations id).pending = true -> (client.operations id).initiated = true ->
    ∃ server, server < client.numServers ∧ client.holdings server id = 1 ∧
      ∀ other, other ≠ server -> client.holdings other id = 0
  once : ∀ id, (client.operations id).invocations ≤ 1

theorem holdings_eq_count (client : Client) (server id : Nat) :
    client.holdings server id = (client.servers server).held.count id := by
  simp [holdings, held, count_append]

theorem Sound.conserved (sound : Sound client []) : Conserved client := by
  refine ⟨sound.defined, ?_, fun id => (sound.once id).1⟩
  intro id isPending isInitiated
  have isHeld := (sound.kept id isPending isInitiated).resolve_left not_mem_nil
  refine ⟨_, (sound.home _ id isHeld).2.2, ?_, ?_⟩
  · rw [holdings_eq_count]
    exact count_eq_one_of_mem (sound.distinct _) isHeld
  · intro other isOther
    rw [holdings_eq_count]
    refine count_eq_zero.mpr ?_
    intro isHeldThere
    exact isOther (sound.home other id isHeldThere).2.1.symm

def initial (numServers : Nat) (search : List (List UInt8)) : Client :=
  { numServers := numServers, search := search }

section

variable (numServers : Nat) (search : List (List UInt8))

theorem initial_sound : Sound (initial numServers search) [] where
  defined := rfl
  home := nofun
  distinct _ := nodup_nil
  kept := nofun
  away := nofun
  apart := nodup_nil
  once _ := ⟨Nat.zero_le _, fun _ => rfl⟩
  new _ _ := rfl

/-- In every run whose steps meet the condition, no operation is lost or doubled. -/
theorem conserved_of_careful (steps : List Step)
    (careful : Run.Along step Careful (initial numServers search) steps) :
    Run.Always step Conserved (initial numServers search) steps :=
  (Run.always_of_along step_sound (initial_sound numServers search) careful).mono
    fun _ sound => sound.conserved

end

/-- Two operations over two name servers: the first server fails one of them, which the
second server then answers, and the other is cancelled. -/
def answered : List Step :=
  [{ action := .getIpAddress [97] (some (false, 0)) },
    { action := .getIpAddress [98] (some (true, 1)) },
    { action := .processDatagramSocketConnected 0 true true
      surroundings := { generations := [7, 9] } },
    { action := .processReadQueueLowWatermark 0 8 .serverFailure false },
    { action := .processDatagramSocketConnected 1 true true
      surroundings := { generations := [65535] } },
    { action := .processReadQueueLowWatermark 1 1 .ok false },
    { action := .cancel 0 1 }]

/-- Both callbacks are invoked, once. -/
theorem answered_conserved : Run.Always step Conserved (initial 2 [[99]]) answered ∧
      ∃ final, Run.run step (initial 2 [[99]]) answered = some final ∧
        (final.operations 0).invocations = 1 ∧ (final.operations 1).invocations = 1 := by
  refine ⟨conserved_of_careful 2 [[99]] answered ?_, _, rfl, rfl, rfl⟩
  refine ⟨⟨by decide, trivial⟩, ⟨by decide, trivial⟩, ⟨by decide, trivial⟩,
    ⟨by decide, fun _ => nofun⟩, ⟨by decide, trivial⟩, ⟨by decide, fun isError => ?_⟩,
    ⟨by decide, fun _ => by decide⟩, trivial⟩
  contradiction

def truncatedError : List Step :=
  [{ action := .getIpAddress [97] (some (true, 0)) },
    { action := .processDatagramSocketConnected 0 true true
      surroundings := { generations := [0] } },
    { action := .processReadQueueLowWatermark 0 1 .serverFailure true }]

/-- The operation is pending and no server holds it. -/
theorem truncatedError_lost : ¬ Run.Always step Conserved (initial 1 []) truncatedError ∧
      ∃ final, Run.run step (initial 1 []) truncatedError = some final ∧
        (final.operations 0).pending = true ∧ (final.operations 0).initiated = true ∧
        ∀ server, final.holdings server 0 = 0 := by
  have isNowhere : ∀ final, Run.run step (initial 1 []) truncatedError = some final ->
      ∀ server, final.holdings server 0 = 0 := by
    intro _ isFinal server
    cases isFinal
    by_cases isFirst : server = 0
    · subst isFirst
      rfl
    · simp [holdings, modifyServer, created, modifyOperation, initial, isFirst]
  refine ⟨?_, _, rfl, rfl, rfl, isNowhere _ rfl⟩
  intro always
  obtain ⟨_, _, _, conserved⟩ := always
  obtain ⟨server, _, isHeld, _⟩ := conserved.held 0 rfl rfl
  rw [isNowhere _ rfl server] at isHeld
  contradiction

end Client

end NtfCore.Ntcdns
