import Hixl.ProgramRuns
import Hixl.SegmentTableModel

/-!
# The adxl engine and its channels

`AdxlInnerEngine` keeps its connections in a `ChannelManager`: a map from type
and id to channel objects.  The functions are programs whose requests are the
critical sections of the locks, the accesses to atomic fields of a channel, and
the calls of the network and the device, whose results an oracle gives.
-/

namespace Hixl.Adxl.InnerEngine

open SharedObjectPrograms ProgramRuns

def notConnected : ℕ := 103902
def alreadyConnected : ℕ := 103903

def noNeedRetry : ℕ := 1

inductive ChannelType where
  | client
  | server
  deriving DecidableEq, Repr

abbrev Key := ChannelType × String

structure AddrInfo where
  start : ℕ
  stop : ℕ
  memType : MemType
  deriving DecidableEq, Repr

structure ConnectInfo where
  channelId : String := ""
  addrs : List AddrInfo := []
  deriving DecidableEq, Repr

/-- An entry of `req_map_`, with the channel object that the transfer was issued
on, which the source does not keep. -/
structure TransferInfo where
  id : ℕ
  remote : String
  issuedOn : ℕ
  deriving DecidableEq, Repr

/-- `connection_mutex_` and `req2channel_mutex_` -/
inductive Lock where
  | connection
  | requests
  deriving DecidableEq, Repr

structure Options where
  pool : Bool := true
  autoConnect : Bool := false
  maxChannel : ℤ := 3
  highWaterline : ℤ := 2
  lowWaterline : ℤ := 1
  deriving DecidableEq, Repr

/-- Channel objects have numbers.  `keys` lists the type and id of all that were
created; `channels` are those in the map of the manager.  The counter of request
ids has 64 bits and does not wrap. -/
structure World where
  keys : List Key := []
  count : ℕ → ℤ := fun _ => 0
  disconnecting : ℕ → Bool := fun _ => false
  hasTransferred : ℕ → Bool := fun _ => false
  channels : List ℕ := []
  segmentTable : Option SegmentTable := some []
  evictQueue : List Key := []
  reqMap : List TransferInfo := []
  nextReqId : ℕ := 1
  busy : Lock → Bool := fun _ => false
  inserted : ℕ := 0

namespace World

def getChannel (w : World) (key : Key) : Option ℕ :=
  w.channels.find? fun obj => w.keys[obj]? = some key

def ofType (w : World) (type : ChannelType) : List ℕ :=
  w.channels.filter fun obj => (w.keys[obj]?.map Prod.fst) = some type

/-- The channels of a kind are finalized and taken out of the map. -/
def destroy (w : World) (gone : ℕ → Bool) : World :=
  { w with
    channels := w.channels.filter fun obj => !gone obj
    count := fun obj => if gone obj then 0 else w.count obj
    disconnecting := fun obj => !gone obj && w.disconnecting obj }

def emplace (w : World) (key : Key) : World :=
  { w with
    keys := w.keys ++ [key]
    count := Function.update w.count w.keys.length 0
    disconnecting := Function.update w.disconnecting w.keys.length false
    hasTransferred := Function.update w.hasTransferred w.keys.length false
    channels := w.channels ++ [w.keys.length]
    inserted := w.inserted + 1 }

def addCount (w : World) (obj : ℕ) (n : ℤ) : World :=
  { w with count := Function.update w.count obj (w.count obj + n) }

end World

/-! ## Requests -/

/-- Which `DestroyChannel`: that of the guard of `DoConnect`, of the `Disconnect`
of an eviction, or another. -/
inductive Cause where
  | guard
  | eviction
  | other
  deriving DecidableEq, Repr

inductive Outside where
  | connectToPeer
  | rankTable
  | initChannel
  | recvStatus
  | peerStatus
  | setSocketNonBlocking
  | addSocketToEpoll
  | parseListenInfo
  | connectForDisconnect
  | sendDisconnect (cause : Cause) (remote : String)
  | validateIdentity
  | sendConnect
  | transferType
  | transfer
  | sendHeartbeat (obj : ℕ)
  | heartbeatTimeout (obj : ℕ)
  | requestDisconnect (obj : ℕ)
  deriving DecidableEq, Repr

/-- Who looks at a channel: the check of `Connect`, the guard of `DoConnect`, a
call before its transfer, `ProcessEviction`, or another. -/
inductive Lookup where
  | check
  | guard
  | transfer
  | evict
  | other
  deriving DecidableEq, Repr

inductive Target where
  | key (key : Key)
  | object (obj : ℕ)
  | all
  deriving DecidableEq, Repr

inductive Request where
  | outside (step : Outside)
  | exchangeConnectInfo
  | pollTransfer
  | getChannel (lookup : Lookup) (key : Key)
  | allChannels (type : ChannelType)
  | sortByTransferred (clients : List ℕ)
  | keyOf (obj : ℕ)
  | getTransferCount (lookup : Lookup) (obj : ℕ)
  | isDisconnecting (obj : ℕ)
  | setDisconnecting (obj : ℕ) (value : Bool)
  | setHasTransferred (obj : ℕ) (value : Bool)
  | increment (obj : ℕ)
  | decrement (obj : ℕ)
  | emplace (key : Key)
  | destroy (cause : Cause) (target : Target)
  | addRange (channelId : String) (addr : AddrInfo)
  | removeSegments (channelId : String)
  | pushEvict (objs : List ℕ)
  | takeEvict
  | evictionDone
  | newReqId
  | emplaceReq (id : ℕ) (remote : String) (obj : ℕ)
  | lookupReq (id : ℕ)
  | reapReq (id : ℕ) (counted : Option ℕ)
  | lock (lock : Lock)
  | unlock (lock : Lock)
  deriving DecidableEq, Repr

abbrev Answer : Request → Type
  | .outside _ => ℕ
  | .exchangeConnectInfo => ℕ × ConnectInfo
  | .pollTransfer => ℕ × Bool
  | .getChannel _ _ => Option ℕ
  | .allChannels _ => List ℕ
  | .sortByTransferred _ => List ℕ
  | .keyOf _ => Option Key
  | .getTransferCount _ _ => ℤ
  | .isDisconnecting _ => Bool
  | .emplace _ => Option ℕ
  | .destroy _ _ => ℕ
  | .addRange _ _ => Bool
  | .takeEvict => List Key
  | .newReqId => ℕ
  | .emplaceReq _ _ _ => Bool
  | .lookupReq _ => Option (String × Option ℕ)
  | _ => Unit

/-- A code, what the peer says, an order of the channels, and whether a polled
transfer is still waiting. -/
structure Oracle where
  status : ℕ := 0
  peer : ConnectInfo := {}
  order : List ℕ := []
  waiting : Bool := false
  deriving DecidableEq, Repr

namespace World

def ready (w : World) : Request → Bool
  | .takeEvict => !w.evictQueue.isEmpty
  | .emplaceReq _ _ _ => !w.busy .requests
  | .lock lock => !w.busy lock
  | _ => true

def isTarget (w : World) : Target → ℕ → Bool
  | .key key, obj => decide (obj ∈ w.channels) && decide (w.keys[obj]? = some key)
  | .object target, obj => decide (obj ∈ w.channels) && decide (obj = target)
  | .all, obj => decide (obj ∈ w.channels)

def reply (oracle : Oracle) (w : World) : (request : Request) → Answer request
  | .outside _ => oracle.status
  | .exchangeConnectInfo => (oracle.status, oracle.peer)
  | .pollTransfer => (oracle.status, oracle.waiting)
  | .getChannel _ key => w.getChannel key
  -- the map lists channels by their ids: here they come in any order
  | .allChannels type =>
    if oracle.order.isPerm (w.ofType type) then oracle.order else w.ofType type
  | .sortByTransferred clients =>
    (clients.filter fun obj => !w.hasTransferred obj) ++ clients.filter w.hasTransferred
  | .keyOf obj => w.keys[obj]?
  | .getTransferCount _ obj => w.count obj
  | .isDisconnecting obj => w.disconnecting obj
  | .emplace key => if (w.getChannel key).isSome then none else some w.keys.length
  | .destroy _ target => if w.channels.any (w.isTarget target) then oracle.status else 0
  | .addRange _ _ => w.segmentTable.isSome
  | .takeEvict => w.evictQueue
  | .newReqId => w.nextReqId
  | .emplaceReq id _ _ => !w.reqMap.any fun info => info.id = id
  | .lookupReq id =>
    (w.reqMap.find? fun info => info.id = id).map fun info =>
      (info.remote, w.getChannel (.client, info.remote))
  | .setDisconnecting _ _ | .setHasTransferred _ _ | .increment _ | .decrement _
  | .removeSegments _ | .pushEvict _ | .evictionDone | .reapReq _ _ | .lock _ | .unlock _ => ()

def effect (w : World) : (request : Request) → Answer request → World
  | .setDisconnecting obj value, _ =>
    { w with disconnecting := Function.update w.disconnecting obj value }
  | .setHasTransferred obj value, _ =>
    { w with hasTransferred := Function.update w.hasTransferred obj value }
  | .increment obj, _ => w.addCount obj 1
  | .decrement obj, _ => w.addCount obj (-1)
  | .emplace key, created => if created.isSome then w.emplace key else w
  | .destroy _ target, _ => w.destroy (w.isTarget target)
  | .addRange channelId addr, _ =>
    { w with
      segmentTable := w.segmentTable.map
        (SegmentTable.addRange channelId addr.start addr.stop addr.memType) }
  | .removeSegments channelId, _ =>
    { w with segmentTable := w.segmentTable.map (SegmentTable.removeChannel channelId) }
  | .pushEvict objs, _ =>
    { w with evictQueue := w.evictQueue ++ objs.filterMap fun obj => w.keys[obj]? }
  | .takeEvict, _ => { w with evictQueue := [] }
  | .newReqId, _ => { w with nextReqId := w.nextReqId + 1 }
  | .emplaceReq id remote obj, inserted =>
    { w with reqMap := if inserted then w.reqMap ++ [⟨id, remote, obj⟩] else w.reqMap }
  | .lock lock, _ => { w with busy := Function.update w.busy lock true }
  | .unlock lock, _ => { w with busy := Function.update w.busy lock false }
  | .lookupReq id, found =>
    -- the entry goes when its remote has no channel
    { w with
      reqMap := if found.any fun entry => entry.2.isNone then
          w.reqMap.eraseP fun info => info.id = id
        else w.reqMap }
  | .reapReq id counted, _ =>
    { w with
      reqMap := w.reqMap.eraseP fun info => info.id = id
      count := counted.elim w.count fun obj => (w.addCount obj (-1)).count }
  | _, _ => w

end World

/-! ## The message handler -/

abbrev EngineProg := Prog Request Answer

def send (request : Request) : EngineProg (Answer request) := .call request .ret

def chkStatusRet (first rest : EngineProg ℕ) : EngineProg ℕ := do
  let ret ← first
  if ret = 0 then rest else return ret

def forEach {ι : Type} (f : ι → EngineProg Unit) : List ι → EngineProg Unit
  | [] => return ()
  | i :: is => do
      f i
      forEach f is

def getTotalChannelCount : EngineProg ℤ := do
  let clients ← send (.allChannels .client)
  let servers ← send (.allChannels .server)
  return (clients.length + servers.length : ℕ)

/-- The first loop of `SelectEvictionCandidates`: the picked channels and those
that are left of each type. -/
def pickExtra (clientFirst : Bool) : ℕ → List ℕ → List ℕ → List ℕ × List ℕ × List ℕ
  | 0, clients, servers => ([], clients, servers)
  | n + 1, clients, servers =>
    match clientFirst, clients, servers with
    | true, obj :: clients, servers => ((pickExtra clientFirst n clients servers).map (obj :: ·) id)
    | _, clients, obj :: servers => ((pickExtra clientFirst n clients servers).map (obj :: ·) id)
    | _, clients, [] => pickExtra clientFirst n clients []

/-- The second loop: the types take turns, also where one has no channel left. -/
def pickInTurn : ℕ → Bool → List ℕ → List ℕ → List ℕ
  | 0, _, _, _ => []
  | n + 1, true, obj :: clients, servers => obj :: pickInTurn n false clients servers
  | n + 1, false, clients, obj :: servers => obj :: pickInTurn n true clients servers
  | n + 1, turn, clients, servers => pickInTurn n (!turn) clients servers

def candidates (needExpire : ℕ) (clients servers : List ℕ) : List ℕ :=
  let diff := max clients.length servers.length - min clients.length servers.length
  let extra := min diff needExpire
  let first := pickExtra (servers.length < clients.length) extra clients servers
  first.1 ++ pickInTurn (needExpire - extra) true first.2.1 first.2.2

def selectEvictionCandidates (needExpire : ℕ) : EngineProg (List ℕ) := do
  let clients ← send (.allChannels .client)
  let servers ← send (.allChannels .server)
  let clients ← send (.sortByTransferred clients)
  let picked := candidates needExpire clients servers
  forEach (fun obj => send (.setDisconnecting obj true)) picked
  return picked

def notifyEviction (options : Options) : EngineProg Unit := do
  let count ← getTotalChannelCount
  if count < options.highWaterline then return ()
  else
    let count ← getTotalChannelCount
    if count - options.lowWaterline ≤ 0 then return ()
    else
      let picked ← selectEvictionCandidates (count - options.lowWaterline).toNat
      send (.pushEvict picked)

def ifRoom (options : Options) (otherwise : EngineProg ℕ) : EngineProg ℕ := do
  let count ← getTotalChannelCount
  if count < options.maxChannel then return 0 else otherwise

/-- The wait of `ConnectInfoProcess`; `polls` is how often the channels are
counted again before the time is over. -/
def waitForChannel (options : Options) : ℕ → EngineProg ℕ
  | 0 => ifRoom options (return Status.resourceExhausted.code)
  | polls + 1 => ifRoom options (waitForChannel options polls)

def managerCreateChannel (key : Key) : EngineProg ℕ := do
  let found ← send (.getChannel .other key)
  if found.isSome then return alreadyConnected
  else
    chkStatusRet (send (.outside .initChannel)) do
      let created ← send (.emplace key)
      return if created.isSome then 0 else alreadyConnected

def addRanges (channelId : String) : List AddrInfo → EngineProg ℕ
  | [] => return 0
  | addr :: addrs => do
      let added ← send (.addRange channelId addr)
      if added then addRanges channelId addrs else return Status.failed.code

def destroyPrevious (key : Key) : EngineProg ℕ :=
  match key.1 with
  | .client => return 0
  | .server => do
      let found ← send (.getChannel .other key)
      if found.isSome then send (.destroy .other (.key key)) else return 0

def createChannel (type : ChannelType) (peer : ConnectInfo) : EngineProg ℕ :=
  chkStatusRet (destroyPrevious (type, peer.channelId)) <|
    if peer.addrs.any fun addr => addr.stop < addr.start then
      return Status.paramInvalid.code
    else
      chkStatusRet (managerCreateChannel (type, peer.channelId))
        (addRanges peer.channelId peer.addrs)

def awaitCapacity (options : Options) (polls : ℕ) : EngineProg ℕ :=
  if options.pool then do
    notifyEviction options
    waitForChannel options polls
  else return 0

def connectInfoProcess (options : Options) (polls : ℕ) (type : ChannelType)
    (peer : ConnectInfo) : EngineProg ℕ :=
  chkStatusRet (awaitCapacity options polls) <|
    chkStatusRet (send (.outside .rankTable)) (createChannel type peer)

/-- The end of `DoConnect` and `StartChannelHeartbeat`. -/
def startHeartbeat (key : Key) : EngineProg ℕ := do
  let found ← send (.getChannel .other key)
  if found.isSome then
    chkStatusRet (send (.outside .setSocketNonBlocking)) (send (.outside .addSocketToEpoll))
  else return Status.failed.code

/-- `DoConnect` between the two ends of its guard. -/
def connectToEngine (options : Options) (polls : ℕ) (remote : String) : EngineProg ℕ := do
  let exchanged ← send .exchangeConnectInfo
  if exchanged.1 ≠ 0 then return exchanged.1
  else
    let ret ← connectInfoProcess options polls .client exchanged.2
    chkStatusRet (send (.outside .recvStatus)) <| chkStatusRet (send (.outside .peerStatus)) <|
        chkStatusRet (return ret) (startHeartbeat (.client, remote))

/-- The guard of `DoConnect`, with the status that is returned. -/
def closeConnection (remote : String) (ret : ℕ) : EngineProg ℕ := do
  let found ← send (.getChannel .guard (.client, remote))
  if found.isSome then
    let _ ← send (.destroy .guard (.key (.client, remote)))
    return ret
  else return ret

def doConnect (options : Options) (polls : ℕ) (remote : String) : EngineProg ℕ :=
  chkStatusRet (send (.outside .connectToPeer)) do
    let ret ← connectToEngine options polls remote
    if ret = 0 then return 0 else closeConnection remote ret

def handlerConnect (options : Options) (polls : ℕ) (remote : String) : EngineProg ℕ := do
  let found ← send (.getChannel .check (.client, remote))
  if found.isSome then return alreadyConnected else doConnect options polls remote

def validateDisconnectResponse : EngineProg ℕ :=
  chkStatusRet (send (.outside .recvStatus)) (send (.outside .peerStatus))

def sendDisconnectRequest (cause : Cause) (remote : String) (connected : ℕ) : EngineProg ℕ :=
  if connected = 0 then send (.outside (.sendDisconnect cause remote))
  else return Status.failed.code

/-- `Disconnect` after `PrepareDisconnect` has found the channel. -/
def disconnectChannel (cause : Cause) (remote : String) : EngineProg ℕ := do
  let connected ← send (.outside .connectForDisconnect)
  if connected = Status.paramInvalid.code then return connected
  else
    let sent ← sendDisconnectRequest cause remote connected
    send (.removeSegments remote)
    chkStatusRet (send (.destroy cause (.key (.client, remote)))) <|
      if sent = 0 then validateDisconnectResponse else return 0

def disconnect (cause : Cause) (remote : String) : EngineProg ℕ :=
  chkStatusRet (send (.outside .parseListenInfo)) do
    let found ← send (.getChannel .other (.client, remote))
    if found.isSome then disconnectChannel cause remote else return notConnected

def processConnectRequest (options : Options) (polls : ℕ) (peer : ConnectInfo) : EngineProg ℕ :=
  chkStatusRet (send (.outside .validateIdentity)) <| chkStatusRet (send (.outside .sendConnect)) <|
      chkStatusRet (connectInfoProcess options polls .server peer)
        (startHeartbeat (.server, peer.channelId))

def processDisconnectRequest (channelId : String) : EngineProg ℕ :=
  chkStatusRet (send (.outside .validateIdentity))
    (send (.destroy .other (.key (.server, channelId))))

/-- `HandleRequestDisconnectMessage` with the callback of the channel pool. -/
def handleRequestDisconnect (options : Options) (obj : ℕ) : EngineProg ℕ := do
  let count ← send (.getTransferCount .other obj)
  if count = 0 ∧ options.pool then
    match ← send (.keyOf obj) with
    | some (.client, _) =>
      send (.setDisconnecting obj true)
      send (.pushEvict [obj])
      return 0
    | _ => return notConnected
  else return Status.failed.code

def hasNoTransfer (obj : ℕ) : EngineProg Bool := do
  let count ← send (.getTransferCount .evict obj)
  if count > 0 then return false else send (.isDisconnecting obj)

/-- `ProcessServerEviction`, which clears the mark however the peer answers,
`ProcessClientEviction`, or neither. -/
def evict (item : Key) (obj : ℕ) (evictable : Bool) : EngineProg Unit :=
  match evictable, item with
  | true, (.client, id) => do
      let _ ← disconnect .eviction id
      return ()
  | true, (.server, _) => do
      let _ ← send (.outside (.requestDisconnect obj))
      send (.setDisconnecting obj false)
  | false, _ => send (.setDisconnecting obj false)

def processEviction (item : Key) : EngineProg Unit := do
  match ← send (.getChannel .evict item) with
  | none => send .evictionDone
  | some obj =>
    evict item obj (← hasNoTransfer obj)
    send .evictionDone

def resetTransferFlag (obj : ℕ) : EngineProg Unit := do
  let count ← send (.getTransferCount .other obj)
  if count = 0 then send (.setHasTransferred obj false) else return ()

def evictionTurn : EngineProg ℕ := do
  let items ← send .takeEvict
  forEach processEviction items
  let clients ← send (.allChannels .client)
  let servers ← send (.allChannels .server)
  forEach resetTransferFlag (clients ++ servers)
  return 0

def destroyById (type : ChannelType) (obj : ℕ) : EngineProg Unit := do
  match ← send (.keyOf obj) with
  | none => return ()
  | some key =>
    let _ ← send (.destroy .other (.key (type, key.2)))
    return ()

def sendHeartbeat (options : Options) (obj : ℕ) : EngineProg Unit := do
  let ret ← send (.outside (.sendHeartbeat obj))
  if ret = noNeedRetry ∧ options.autoConnect then destroyById .client obj else return ()

def checkHeartbeatTimeout (obj : ℕ) : EngineProg Unit := do
  let expired ← send (.outside (.heartbeatTimeout obj))
  if expired = 0 then return () else destroyById .server obj

def locked {α : Type} (program : EngineProg α) : EngineProg α := do
  send (.lock .connection)
  let result ← program
  send (.unlock .connection)
  return result

def connect (options : Options) (polls : ℕ) (remote : String) : EngineProg ℕ :=
  if options.pool then locked (handlerConnect options polls remote)
  else handlerConnect options polls remote

def connectUnlessConnected (options : Options) (polls : ℕ) (remote : String) : EngineProg ℕ := do
  let found ← send (.getChannel .other (.client, remote))
  if found.isSome then return 0 else handlerConnect options polls remote

/-- One turn of the loop of `ConnectWhenTransfer`, with what follows while the
channel is disconnecting. -/
def connectTurn (options : Options) (remote : String) (polls : ℕ) (again : EngineProg ℕ) :
    EngineProg ℕ := do
  match ← send (.getChannel .other (.client, remote)) with
  | none => locked (connectUnlessConnected options polls remote)
  | some obj =>
    let disconnecting ← send (.isDisconnecting obj)
    if disconnecting then again else return 0

def connectWhenTransfer (options : Options) (remote : String) (polls : ℕ) : ℕ → EngineProg ℕ
  | 0 => connectTurn options remote polls (return Status.failed.code)
  | waits + 1 => connectTurn options remote polls (connectWhenTransfer options remote polls waits)

def prepareTransfer (options : Options) (remote : String) (polls waits : ℕ) :
    EngineProg (Option ℕ) :=
  if options.pool || options.autoConnect then do
    let _ ← connectWhenTransfer options remote polls waits
    send (.getChannel .transfer (.client, remote))
  else send (.getChannel .transfer (.client, remote))

def disconnectOnError (options : Options) (remote : String) : EngineProg ℕ :=
  if options.autoConnect then disconnect .other remote else return 0

/-- `DisconnectOnError` and then the error. -/
def failTransfer (options : Options) (remote : String) (ret : ℕ) : EngineProg ℕ :=
  chkStatusRet (disconnectOnError options remote) (return ret)

def startCount (options : Options) (obj : ℕ) : EngineProg Unit :=
  if options.pool then do
    send (.setHasTransferred obj true)
    send (.increment obj)
  else return ()

def endCount (options : Options) (obj : ℕ) : EngineProg Unit :=
  if options.pool then send (.decrement obj) else return ()

def transferSync (options : Options) (remote : String) (polls waits : ℕ) : EngineProg ℕ := do
  match ← prepareTransfer options remote polls waits with
  | none => return notConnected
  | some obj =>
    startCount options obj
    let ret ← chkStatusRet (send (.outside .transferType)) do
      let ret ← send (.outside .transfer)
      if ret = 0 then return 0 else failTransfer options remote ret
    endCount options obj
    return ret

def transferAsync (options : Options) (remote : String) (polls waits : ℕ) : EngineProg ℕ := do
  match ← prepareTransfer options remote polls waits with
  | none => return notConnected
  | some obj =>
    let id ← send .newReqId
    startCount options obj
    let ret ← send (.outside .transfer)
    if ret = 0 then
      let _ ← send (.emplaceReq id remote obj)
      return 0
    else
      let ret ← failTransfer options remote ret
      endCount options obj
      return ret

/-- `GetTransferStatus` once the channel is found. -/
def pollRequest (options : Options) (id : ℕ) (remote : String) (obj : ℕ) : EngineProg ℕ := do
  let counted := if options.pool then some obj else none
  let polled ← send .pollTransfer
  if polled.1 ≠ 0 then
    send (.reapReq id counted)
    failTransfer options remote polled.1
  else if polled.2 then return 0
  else
    send (.reapReq id counted)
    return 0

def requestStatus (options : Options) (id : ℕ) : Option (String × Option ℕ) → EngineProg ℕ
  | none => return Status.paramInvalid.code
  | some (_, none) => return notConnected
  | some (remote, some obj) => pollRequest options id remote obj

/-- The whole function holds `req2channel_mutex_`, so that the entry is found,
and erased where it has no channel, in one section. -/
def getTransferStatus (options : Options) (id : ℕ) : EngineProg ℕ := do
  send (.lock .requests)
  let found ← send (.lookupReq id)
  let ret ← requestStatus options id found
  send (.unlock .requests)
  return ret

/-! ## The system -/

/-- What runs on the engine.  `polls` and `waits` bound the waiting loops. -/
inductive Call where
  | connect (remote : String) (polls : ℕ)
  | disconnect (remote : String)
  | disconnectAll
  | transferSync (remote : String) (polls waits : ℕ)
  | transferAsync (remote : String) (polls waits : ℕ)
  | getTransferStatus (id : ℕ)
  | connectRequest (peer : ConnectInfo) (polls : ℕ)
  | disconnectRequest (channelId : String)
  | requestDisconnect (obj : ℕ)
  | evictionTurn
  | sendHeartbeats
  | checkHeartbeatTimeouts
  | socketError (obj : ℕ)

def Call.program (options : Options) : Call → EngineProg ℕ
  | .connect remote polls => InnerEngine.connect options polls remote
  | .disconnect remote => InnerEngine.disconnect .other remote
  | .disconnectAll => send (.destroy .other .all)
  | .transferSync remote polls waits => InnerEngine.transferSync options remote polls waits
  | .transferAsync remote polls waits => InnerEngine.transferAsync options remote polls waits
  | .getTransferStatus id => InnerEngine.getTransferStatus options id
  | .connectRequest peer polls => processConnectRequest options polls peer
  | .disconnectRequest channelId => processDisconnectRequest channelId
  | .requestDisconnect obj => handleRequestDisconnect options obj
  | .evictionTurn => InnerEngine.evictionTurn
  | .sendHeartbeats => do
      forEach (sendHeartbeat options) (← send (.allChannels .client))
      return 0
  | .checkHeartbeatTimeouts => do
      forEach checkHeartbeatTimeout (← send (.allChannels .server))
      return 0
  | .socketError obj => send (.destroy .other (.object obj))

structure TransferNotes where
  found : Option (String × ℕ) := none
  held : Option (String × ℕ) := none
  polled : Option ℕ := none
  deriving DecidableEq, Repr

/-- What a call that connects has done: the name that it dials, the channels
that it created. -/
structure ConnectNotes where
  dialled : Option String := none
  created : List ℕ := []
  deriving DecidableEq, Repr

/-- The client channel that `ProcessEviction` has found, and whether it has no
transfer. -/
structure EvictNotes where
  name : String
  obj : ℕ
  checked : Bool
  deriving DecidableEq, Repr

/-- The last count of the channels, and how many were inserted before it. -/
structure CountNotes where
  clients : ℕ := 0
  total : Option ℕ := none
  readAt : Option ℕ := none
  deriving DecidableEq, Repr

structure Notes where
  transfer : TransferNotes := {}
  connect : ConnectNotes := {}
  evict : Option EvictNotes := none
  counts : CountNotes := {}
  owns : Lock → Bool := fun _ => false

def TransferNotes.after (notes : TransferNotes) :
    (request : Request) → Answer request → TransferNotes
  | .getChannel .transfer key, found => { notes with found := found.map (key.2, ·) }
  | .increment _, _ => { notes with held := notes.found }
  | .decrement _, _ => { notes with held := none }
  | .emplaceReq _ _ _, inserted => { notes with held := if inserted then none else notes.held }
  | .lookupReq id, found =>
    { notes with polled := if found.any fun entry => entry.2.isSome then some id else none }
  | .reapReq _ _, _ => { notes with polled := none }
  | .unlock .requests, _ => { notes with polled := none }
  | _, _ => notes

def ConnectNotes.after (notes : ConnectNotes) : (request : Request) → Answer request → ConnectNotes
  | .getChannel .check key, found =>
    { notes with dialled := if found.isSome then none else some key.2 }
  | .outside .connectToPeer, ret =>
    { notes with dialled := if ret = 0 then notes.dialled else none }
  | .outside .addSocketToEpoll, ret =>
    { notes with dialled := if ret ≠ 0 then notes.dialled else none }
  | .getChannel .guard _, found =>
    { notes with dialled := if found.isSome then notes.dialled else none }
  | .destroy .guard _, _ => { notes with dialled := none }
  | .emplace _, created => { notes with created := created.toList ++ notes.created }
  | _, _ => notes

def EvictNotes.after (notes : Option EvictNotes) :
    (request : Request) → Answer request → Option EvictNotes
  | .getChannel .evict (.client, name), found => found.map (⟨name, ·, false⟩)
  | .getTransferCount .evict _, count => notes.map ({ · with checked := count ≤ 0 })
  | .destroy .eviction _, _ => none
  | .evictionDone, _ => none
  | _, _ => notes

def CountNotes.after (inserted : ℕ) (notes : CountNotes) :
    (request : Request) → Answer request → CountNotes
  | .allChannels .client, clients => ⟨clients.length, none, some inserted⟩
  | .allChannels .server, servers => { notes with total := some (notes.clients + servers.length) }
  | _, _ => notes

def ownsAfter (owns : Lock → Bool) : Request → Lock → Bool
  | .lock lock => Function.update owns lock true
  | .unlock lock => Function.update owns lock false
  | _ => owns

def Notes.after (w : World) (notes : Notes) (request : Request) (answer : Answer request) :
    Notes where
  transfer := notes.transfer.after request answer
  connect := notes.connect.after request answer
  evict := EvictNotes.after notes.evict request answer
  counts := notes.counts.after w.inserted request answer
  owns := ownsAfter notes.owns request

/-- The world, and the notes of the call, after a request was answered. -/
abbrev World.serve (oracle : Oracle) (request : Request) (w : World) : World :=
  w.effect request (w.reply oracle request)

abbrev Notes.serve (oracle : Oracle) (request : Request) (w : World) (notes : Notes) : Notes :=
  notes.after w request (w.reply oracle request)

def engine (options : Options) : System Call World Notes Oracle Request Answer ℕ where
  program := Call.program options
  fresh := {}
  ready := World.ready
  reply := World.reply
  effect := World.effect
  note := Notes.after

abbrev EngineConfig := Config World Notes Request Answer ℕ

def serves (i n : ℕ) (oracle : Oracle) : List (Action Call Oracle) :=
  List.replicate n (.serve i oracle)

def peerA : Oracle := { peer := { channelId := "a" } }

end Hixl.Adxl.InnerEngine
