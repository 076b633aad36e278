import NtfCore.Foundation.Run
import NtfCore.Ntcdns.Vocabulary

/-!
Contract: the operations of the DNS client and the name servers that hold them
(`ntcdns::Client`, `ntcdns::ClientNameServer`, `ntcdns::ClientGetIpAddressOperation`).

Owns: the operation queue and the operation map of each name server, and every call
and every event of `ntcdns_client.cpp` that moves an operation between them.

Does not own: the contents of the requests and responses, and the cache.

An operation is known by the order of its creation, a name server by its index. The
counter the transaction identifiers come from belongs to the process, so the value it
has at each draw is given with the step, as are the outcomes of sending a request and
of creating a socket. The name servers are those of an initialized client. The list of
servers of an operation is emptied when its callback is invoked; reading it after that,
or sending through a socket that is not there, makes the behavior `undefined`.
-/

namespace NtfCore.Ntcdns

/-- `ntcdns::ClientGetIpAddressOperation`, with whether the call that initiated it has
not failed and how often its callback was invoked. -/
structure ClientOperation where
  searchList : List (List UInt8) := []
  serverIndex : Nat := 0
  searchIndex : Nat := 0
  pending : Bool := false
  initiated : Bool := false
  invocations : Nat := 0

/-- `ClientNameServer::State`. -/
inductive ClientNameServerState where
  | stopped
  | started
  | stopping
deriving DecidableEq

/-- `ntcdns::ClientNameServer`; `connected` is that `d_datagramSocket_sp` is set. -/
structure ClientNameServer where
  state : ClientNameServerState := .started
  connected : Bool := false
  operationQueue : List Nat := []
  operationMap : List (UInt16 × Nat) := []

/-- What a step finds outside the client: the counter at each draw of a transaction
identifier, whether each request is sent, and whether each socket is created. -/
structure Surroundings where
  generations : List Nat := []
  sends : List Bool := []
  creates : List Bool := []

/-- `ntcdns::Client`, with the operations created so far. -/
structure Client where
  numServers : Nat
  search : List (List UInt8) := []
  servers : Nat -> ClientNameServer := fun _ => {}
  operations : Nat -> ClientOperation := fun _ => {}
  numOperations : Nat := 0
  surroundings : Surroundings := {}
  undefined : Bool := false

/-- `ClientNameServer::Impl::generateTransactionId`, at a value of the counter. -/
def generateTransactionId (generation : Nat) : UInt16 :=
  if 65535 ≤ generation then 1 else UInt16.ofNat (generation + 1)

namespace ClientNameServer

def held (server : ClientNameServer) : List Nat :=
  server.operationQueue ++ server.operationMap.map Prod.snd

def outstanding (server : ClientNameServer) : List UInt16 :=
  server.operationMap.map Prod.fst

/-- `Queue::push`. -/
def push (server : ClientNameServer) (id : Nat) : ClientNameServer :=
  { server with operationQueue := server.operationQueue ++ [id] }

/-- `Queue::pop`, of a queue that is not empty. -/
def pop (server : ClientNameServer) : ClientNameServer :=
  { server with operationQueue := server.operationQueue.tail }

/-- `Map::add`, of a key that the map does not have. -/
def add (server : ClientNameServer) (transactionId : UInt16) (id : Nat) : ClientNameServer :=
  { server with operationMap := (transactionId, id) :: server.operationMap }

/-- `Map::find`. -/
def find (server : ClientNameServer) (transactionId : UInt16) : Option Nat :=
  (server.operationMap.find? fun entry => entry.1 = transactionId).map Prod.snd

/-- `Map::remove`. -/
def remove (server : ClientNameServer) (transactionId : UInt16) : ClientNameServer :=
  { server with
    operationMap := server.operationMap.eraseP fun entry => entry.1 = transactionId }

/-- `Map::removeValue`, and `Queue::remove` when the map does not have the value. -/
def removeValue (server : ClientNameServer) (id : Nat) : ClientNameServer :=
  if id ∈ server.operationMap.map Prod.snd then
    { server with operationMap := server.operationMap.eraseP fun entry => entry.2 = id }
  else { server with operationQueue := server.operationQueue.erase id }

def cleared (server : ClientNameServer) : ClientNameServer :=
  { server with operationQueue := [], operationMap := [] }

end ClientNameServer

namespace Client

def modifyServer (client : Client) (server : Nat)
    (change : ClientNameServer -> ClientNameServer) : Client :=
  { client with servers := fun other =>
      if other = server then change (client.servers server) else client.servers other }

def modifyOperation (client : Client) (id : Nat)
    (change : ClientOperation -> ClientOperation) : Client :=
  { client with operations := fun other =>
      if other = id then change (client.operations id) else client.operations other }

def drawTransactionId (client : Client) : Option (UInt16 × Client) :=
  match client.surroundings.generations with
  | [] => none
  | generation :: rest =>
    some (generateTransactionId generation,
      { client with surroundings := { client.surroundings with generations := rest } })

/-- The outcome of `DatagramSocket::send` and of the encoding before it. -/
def sends (client : Client) : Bool × Client :=
  (client.surroundings.sends.headD true,
    { client with surroundings :=
        { client.surroundings with sends := client.surroundings.sends.tail } })

/-- `ClientNameServer::createDatagramSocket`. -/
def createDatagramSocket (client : Client) : Bool × Client :=
  (client.surroundings.creates.headD true,
    { client with surroundings :=
        { client.surroundings with creates := client.surroundings.creates.tail } })

/-- `ClientGetIpAddressOperation::sendRequest`. -/
def sendRequest (socket : Bool) (id : Nat) (client : Client) : Bool × Client :=
  if (client.operations id).searchList.length ≤ (client.operations id).searchIndex then
    (false, client)
  else if (client.operations id).pending = false then (false, client)
  else if socket = false then (false, { client with undefined := true })
  else client.sends

def invoked (client : Client) (id : Nat) : Client :=
  client.modifyOperation id fun operation =>
    { operation with pending := false, invocations := operation.invocations + 1 }

/-- `ClientGetIpAddressOperation::processError`. -/
def processError (id : Nat) (client : Client) : Client :=
  if (client.operations id).pending then client.invoked id else client

/-- `ClientGetIpAddressOperation::processResponse`. -/
def processResponse (server id : Nat) (client : Client) : Client :=
  if (client.operations id).serverIndex = server then client.processError id else client

/-- `ClientGetIpAddressOperation::tryNextServer`. The list of servers is empty once the
operation is not pending, and the index then wraps around. -/
def tryNextServer (id : Nat) (client : Client) : Option Nat × Client :=
  if (client.operations id).pending = false then (none, { client with undefined := true })
  else if (client.operations id).serverIndex + 1 < client.numServers then
    (some ((client.operations id).serverIndex + 1),
      client.modifyOperation id fun operation =>
        { operation with serverIndex := operation.serverIndex + 1, searchIndex := 0 })
  else (none, client)

/-- The condition of `ClientGetIpAddressOperation::tryNextSearch`: of an empty list the
size less one wraps around. -/
def canTryNextSearch (id : Nat) (client : Client) : Bool :=
  (client.operations id).searchList.isEmpty ||
    (client.operations id).searchIndex + 1 < (client.operations id).searchList.length

/-- The effect of `ClientGetIpAddressOperation::tryNextSearch` when it succeeds. -/
def searchedNext (id : Nat) (client : Client) : Client :=
  client.modifyOperation id fun operation =>
    { operation with searchIndex := operation.searchIndex + 1 }

/-- `ClientNameServer::initiate`, over `ClientNameServer::flush`. -/
def initiate (flush : Nat -> Client -> Option Client) (server id : Nat) (client : Client) :
    Option (Bool × Client) :=
  if (client.servers server).state = .started then
    if (client.servers server).connected then
      (flush server (client.modifyServer server fun found => found.push id)).map
        fun flushed => (true, flushed)
    else
      some (client.modifyServer server fun found => found.push id).createDatagramSocket
  else some (false, client)

def tryServers (flush : Nat -> Client -> Option Client) (id : Nat) :
    Nat -> Client -> Option (Bool × Client)
  | 0, client => some (false, { client with undefined := true })
  | turns + 1, client =>
    match client.tryNextServer id with
    | (none, client) => some (false, client)
    | (some server, client) =>
      match client.initiate flush server id with
      | none => none
      | some (true, client) => some (true, client)
      | some (false, client) => tryServers flush id turns client

/-- The loop of `flush` and of `processReadQueueLowWatermark`: an operation that no
server takes ends with an error. -/
def reassign (flush : Nat -> Client -> Option Client) (id : Nat) (client : Client) : Option Client :=
  match client.tryServers flush id client.numServers with
  | none => none
  | some (true, client) => some client
  | some (false, client) => some (client.processError id)

/-- Send the request of an operation whose transaction identifier is in the map. An
operation that is not sent goes to the next server. -/
def request (flush : Nat -> Client -> Option Client) (socket : Bool) (server id : Nat)
    (transactionId : UInt16) (client : Client) : Option Client :=
  match client.sendRequest socket id with
  | (true, client) => some client
  | (false, client) =>
    (client.modifyServer server fun found => found.remove transactionId).reassign flush id

/-- The loop of `ClientNameServer::flush`, for at most so many operations. An operation
whose transaction identifier is in use ends the loop. -/
def flushLoop (flush : Nat -> Client -> Option Client) (server : Nat) : Nat -> Client -> Option Client
  | 0, client =>
    if (client.servers server).operationQueue = [] then some client
    else some { client with undefined := true }
  | turns + 1, client =>
    match (client.servers server).operationQueue with
    | [] => some client
    | id :: _ =>
      match (client.modifyServer server ClientNameServer.pop).drawTransactionId with
      | none => none
      | some (transactionId, client) =>
        if transactionId ∈ (client.servers server).outstanding then some client
        else
          match (client.modifyServer server fun found =>
              found.add transactionId id).request flush
                (client.servers server).connected server id transactionId with
          | none => none
          | some client => flushLoop flush server turns client

/-- `ClientNameServer::flush`, with so many servers to go to. -/
def flush : Nat -> Nat -> Client -> Option Client
  | 0, _, client => some { client with undefined := true }
  | depth + 1, server, client =>
    client.flushLoop (flush depth) server (client.servers server).operationQueue.length

/-- `ClientNameServer::flush`. -/
def flushServer (server : Nat) (client : Client) : Option Client :=
  flush client.numServers server client

/-- Try the next name of the search list after `e_NAME_ERROR`. -/
def searchNext (server id : Nat) (client : Client) : Option Client :=
  match (client.searchedNext id).drawTransactionId with
  | none => none
  | some (transactionId, client) =>
    if transactionId ∈ (client.servers server).outstanding then some (client.processError id)
    else
      (client.modifyServer server fun found => found.add transactionId id).request
        (flush client.numServers) true server id transactionId

/-- What `ClientNameServer::processReadQueueLowWatermark` does with the operation that
the response is for. -/
def respond (server id : Nat) (error : Error) (truncated : Bool) (client : Client) :
    Option Client :=
  match error with
  | .ok => some (client.processResponse server id)
  | .nameError =>
    if truncated then some client
    else if client.canTryNextSearch id then client.searchNext server id
    else client.reassign (flush client.numServers) id
  | .refused | .serverFailure | .notImplemented =>
    if truncated then some client
    else client.reassign (flush client.numServers) id
  | .formatError =>
    if truncated then some client
    else some (client.processError id)

/-- `ClientNameServer::processReadQueueLowWatermark`, of a response that is decoded. -/
def processReadQueueLowWatermark (server : Nat) (transactionId : UInt16) (error : Error)
    (truncated : Bool) (client : Client) : Option Client :=
  match (client.servers server).find transactionId with
  | none => some client
  | some id =>
    (client.modifyServer server fun found => found.remove transactionId).respond server id
      error truncated

/-- `ClientNameServer::processDatagramSocketConnected`: whether the socket is connected,
and whether its flow control is relaxed. -/
def processDatagramSocketConnected (server : Nat) (connected relaxed : Bool) (client : Client) :
    Option Client :=
  if connected then
    if relaxed then
      (client.modifyServer server fun found => { found with connected := true }).flushServer
        server
    else some (client.modifyServer server fun found => { found with connected := false })
  else some client

/-- `ClientNameServer::processShutdownComplete`, for the socket in use. -/
def processShutdownComplete (server : Nat) (client : Client) : Client :=
  client.modifyServer server fun found =>
    { found with
      connected := false
      state := if found.state = .stopping then .stopped else found.state }

/-- `ClientNameServer::cancel`. -/
def cancel (server id : Nat) (client : Client) : Client :=
  (client.modifyServer server fun found => found.removeValue id).processError id

/-- `ClientNameServer::cancelAll`. -/
def cancelAll (server : Nat) (client : Client) : Client :=
  ((client.servers server).operationMap.map Prod.snd ++
      (client.servers server).operationQueue).foldl
    (fun client id => client.processError id)
    (client.modifyServer server ClientNameServer.cleared)

/-- `ClientNameServer::shutdown`. -/
def shutdown (server : Nat) (client : Client) : Client :=
  if (client.servers server).state = .started then
    (client.cancelAll server).modifyServer server fun found =>
      { found with state := if found.connected then .stopping else .stopped }
  else client

/-- The search list of `Client::getIpAddress`. -/
def searchListOf (client : Client) (name : List UInt8) (absolute : Bool) (dots : Nat) :
    List (List UInt8) :=
  if absolute then [name]
  else
    (if 0 < dots then [name] else []) ++
      client.search.map fun searchDomain => name ++ 46 :: searchDomain

def created (client : Client) (searchList : List (List UInt8)) : Client :=
  { client.modifyOperation client.numOperations fun _ =>
      { searchList := searchList, pending := true, initiated := true } with
    numOperations := client.numOperations + 1 }

/-- The initiation of the newest operation by `Client::getIpAddress`. A call that fails
has not initiated it. -/
def initiateFirst (id : Nat) (client : Client) : Option Client :=
  match client.initiate (flush client.numServers) 0 id with
  | none => none
  | some (true, client) => some client
  | some (false, client) =>
    match client.tryServers (flush client.numServers) id client.numServers with
    | none => none
    | some (true, client) => some client
    | some (false, client) =>
      some (client.modifyOperation id fun operation => { operation with initiated := false })

/-- `Client::getIpAddress`: the name, and what `ntsa::DomainName::parse` finds in it. -/
def getIpAddress (name : List UInt8) (domainName : Option (Bool × Nat)) (client : Client) :
    Option Client :=
  if client.numServers = 0 then some client
  else
    match domainName with
    | none => some client
    | some (absolute, dots) =>
      (client.created (client.searchListOf name absolute dots)).initiateFirst
        client.numOperations

inductive Action where
  | getIpAddress (name : List UInt8) (domainName : Option (Bool × Nat))
  | processDatagramSocketConnected (server : Nat) (connected relaxed : Bool)
  | processShutdownComplete (server : Nat)
  | processWriteQueueLowWatermark (server : Nat)
  | processReadQueueLowWatermark (server : Nat) (transactionId : UInt16) (error : Error)
      (truncated : Bool)
  | cancel (server id : Nat)
  | shutdown (server : Nat)

structure Step where
  action : Action
  surroundings : Surroundings := {}

def perform (client : Client) : Action -> Option Client
  | .getIpAddress name domainName => client.getIpAddress name domainName
  | .processDatagramSocketConnected server connected relaxed =>
    client.processDatagramSocketConnected server connected relaxed
  | .processShutdownComplete server => some (client.processShutdownComplete server)
  | .processWriteQueueLowWatermark server => client.flushServer server
  | .processReadQueueLowWatermark server transactionId error truncated =>
    client.processReadQueueLowWatermark server transactionId error truncated
  | .cancel server id => some (client.cancel server id)
  | .shutdown server => some (client.shutdown server)

def names (client : Client) : Action -> Bool
  | .getIpAddress _ _ => true
  | .processDatagramSocketConnected server _ _
  | .processShutdownComplete server
  | .processWriteQueueLowWatermark server
  | .processReadQueueLowWatermark server _ _ _
  | .shutdown server => server < client.numServers
  | .cancel server id => server < client.numServers && id < client.numOperations

def step (client : Client) (taken : Step) : Option Client :=
  if client.names taken.action then
    { client with surroundings := taken.surroundings }.perform taken.action
  else none

end Client

end NtfCore.Ntcdns
