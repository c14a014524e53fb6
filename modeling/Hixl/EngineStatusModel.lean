import Hixl.AsyncRequestModel

/-!
# Asynchronous requests of the engine

`HixlEngine` finds the client of a request in an index that `ClientManager`
keeps: the requests in the order of their registration, and a table from
requests to clients.  Status queries look a request up, ask its client and erase
it in different critical sections.

A request is named by its handle, which may be given out again once it is free;
a registration is told apart by the number of its transfer.
-/

namespace Hixl

open InterleavedCalls

structure ReqOwner where
  client : ℕ
  userData : ℕ
  orderIt : ℕ
  deriving DecidableEq, Repr

structure TransferReqInfo where
  req : ℕ
  client : ℕ
  userData : ℕ
  id : ℕ
  deriving DecidableEq, Repr

structure RequestIndex where
  /-- The nodes of `ordered_reqs_` with their requests. -/
  orderedReqs : List (ℕ × ℕ) := []
  reqToClient : AList (fun _ : ℕ => ReqOwner) := ∅

namespace RequestIndex

def eraseTransferReq (req : ℕ) (x : RequestIndex) : RequestIndex :=
  match x.reqToClient.lookup req with
  | none => x
  | some owner =>
    { orderedReqs := x.orderedReqs.erase (owner.orderIt, req)
      reqToClient := x.reqToClient.erase req }

/-- A null request is not registered; an older registration of the same
handle is replaced. -/
def registerTransferReq (info : TransferReqInfo) (x : RequestIndex) : RequestIndex :=
  if info.req = 0 then x
  else
    { orderedReqs := (x.eraseTransferReq info.req).orderedReqs ++ [(info.id, info.req)]
      reqToClient := (x.eraseTransferReq info.req).reqToClient.insert info.req
        ⟨info.client, info.userData, info.id⟩ }

/-- The index refers to clients weakly: `alive` says which references can
still be followed. -/
def getClientByReq (alive : ℕ → Bool) (req : ℕ) (x : RequestIndex) :
    Option TransferReqInfo × RequestIndex :=
  match x.reqToClient.lookup req with
  | none => (none, x)
  | some owner =>
    if alive owner.client then
      (some ⟨req, owner.client, owner.userData, owner.orderIt⟩, x)
    else (none, x.eraseTransferReq req)

/-- The loop of `GetOrderedReqs` without a limit over the nodes that are
left. -/
def collectReqs (alive : ℕ → Bool) (x : RequestIndex) :
    List (ℕ × ℕ) → List TransferReqInfo × RequestIndex
  | [] => ([], x)
  | (node, req) :: rest =>
    match x.reqToClient.lookup req with
    | none => collectReqs alive { x with orderedReqs := x.orderedReqs.erase (node, req) } rest
    | some owner =>
      if alive owner.client then
        (⟨req, owner.client, owner.userData, owner.orderIt⟩ :: (collectReqs alive x rest).1,
          (collectReqs alive x rest).2)
      else
        collectReqs alive
          { orderedReqs := x.orderedReqs.erase (node, req)
            reqToClient := x.reqToClient.erase req } rest

def getOrderedReqs (alive : ℕ → Bool) (x : RequestIndex) : List TransferReqInfo × RequestIndex :=
  collectReqs alive x x.orderedReqs

def eraseReqIndexByClient (alive : ℕ → Bool) (client : ℕ) (x : RequestIndex) : RequestIndex :=
  (x.reqToClient.entries.filter fun entry => !alive entry.2.client || entry.2.client = client).foldl
    (fun x entry => x.eraseTransferReq entry.1) x

end RequestIndex

structure EngineState where
  autoConnect : Bool := true
  clients : AList (fun _ : String => ℕ) := ∅
  remoteOf : ℕ → String := fun _ => ""
  nextClient : ℕ := 0
  finalized : Finset ℕ := ∅
  /-- The requests in the `req_map_` of each client. -/
  reqMap : Finset (ℕ × ℕ) := ∅
  /-- The transfers that the handlers of the clients work on; their handles
  are live. -/
  pending : List TransferReqInfo := []
  index : RequestIndex := {}
  nextId : ℕ := 0
  registered : List TransferReqInfo := []
  /-- The clients that `DestroyClient` has taken out of `clients_`. -/
  destroyed : List ℕ := []
  errors : List ℕ := []
  /-- The transfers that the CS layer has reported as completed or failed. -/
  completed : List ℕ := []
  failed : List ℕ := []

structure EngineInput where
  held : ℕ → Bool := fun _ => true
  ok : Bool := true
  submit : Except Status ℕ := .error .failed
  query : Except Status HixlCompleteStatus := .ok .waiting

namespace EngineState

def alive (input : EngineInput) (s : EngineState) (client : ℕ) : Bool :=
  s.clients.entries.any (fun entry => entry.2 = client) || input.held client

/-- The client of the engine; a new one if `create` says so. -/
def connect (remote : String) (create : Bool) (s : EngineState) : Option ℕ × EngineState :=
  match s.clients.lookup remote with
  | some client => (some client, s)
  | none =>
    if create then
      (some s.nextClient,
        { s with
          clients := s.clients.insert remote s.nextClient
          remoteOf := Function.update s.remoteOf s.nextClient remote
          nextClient := s.nextClient + 1 })
    else (none, s)

/-- `HixlClient::TransferAsync`.  No result: the handle is not free. -/
def clientTransferAsync (client userData : ℕ) (answer : Except Status ℕ)
    (s : EngineState) : Option (Except Status TransferReqInfo × EngineState) :=
  if client ∈ s.finalized then some (.error .notConnected, s)
  else
    match answer with
    | .error ret => some (.error ret, s)
    | .ok req =>
      if s.pending.any fun info => info.req = req then none
      else
        let info : TransferReqInfo := ⟨req, client, userData, s.nextId⟩
        some (.ok info,
          { s with
            reqMap := insert (client, req) s.reqMap
            pending := info :: s.pending
            nextId := s.nextId + 1 })

def settle (info : TransferReqInfo) (s : EngineState) : EngineState :=
  { s with pending := s.pending.erase info }

def removeTransferReq (client req : ℕ) (s : EngineState) : EngineState :=
  { s with reqMap := s.reqMap.erase (client, req) }

def pendingAt (client req : ℕ) (s : EngineState) : Option TransferReqInfo :=
  s.pending.find? fun info => info.client = client ∧ info.req = req

/-- `HixlClient::GetTransferStatus`; the status is `FAILED` with an error.  A
transfer that ends with `TIMEOUT` stays in `req_map_`. -/
def clientGetTransferStatus (client req : ℕ)
    (answer : Except Status HixlCompleteStatus) (s : EngineState) :
    Except Status TransferStatus × EngineState :=
  if (client, req) ∈ s.reqMap then
    match s.pendingAt client req with
    | none => (.error .paramInvalid, s.removeTransferReq client req)
    | some info =>
      match answer with
      | .error ret =>
        (.error ret,
          { (s.settle info).removeTransferReq client req with
            errors := client :: s.errors })
      | .ok .waiting => (.ok .waiting, s)
      | .ok .completed =>
        (.ok .completed,
          { (s.settle info).removeTransferReq client req with
            completed := info.id :: s.completed })
      | .ok .timeout => (.ok .timeout, s.settle info)
      | .ok .failed =>
        (.ok .failed,
          { (s.settle info).removeTransferReq client req with
            failed := info.id :: s.failed })
  else (.error .paramInvalid, s)

def registerTransferReq (info : TransferReqInfo) (s : EngineState) : EngineState :=
  { s with
    index := s.index.registerTransferReq info
    registered :=
      if info.req = 0 then s.registered else info :: s.registered }

def eraseTransferReq (req : ℕ) (s : EngineState) : EngineState :=
  { s with index := s.index.eraseTransferReq req }

/-- `HixlClient::Finalize` frees the handles of the client. -/
def finalize (client : ℕ) (s : EngineState) : EngineState :=
  { s with
    finalized := insert client s.finalized
    reqMap := s.reqMap.filter fun entry => entry.1 ≠ client
    pending := s.pending.filter fun info => info.client ≠ client }

end EngineState

/-! ## The calls in progress -/

structure TransferResult where
  info : TransferReqInfo
  status : TransferStatus
  deriving DecidableEq, Repr

structure BatchQuery where
  maxQueryCount : ℕ
  skipWaiting : Bool
  /-- The requests that `GetOrderedReqs` has returned, and those of them that
  the loop has not reached. -/
  reqs : List TransferReqInfo
  left : List TransferReqInfo
  results : List TransferResult := []
  disconnectedEngines : List String := []
  deriving DecidableEq, Repr

inductive EngineCall where
  | transferAsync (remote : String) (userData : ℕ)
  | submit (client userData : ℕ)
  | register (info : TransferReqInfo)
  | transferred (ret : Status) (req : Option ℕ)
  | getTransferStatus (req : ℕ)
  | query (info : TransferReqInfo)
  | erase (info : TransferReqInfo) (result : Except Status TransferStatus)
  | answered (info : Option TransferReqInfo) (ret : Status)
      (status : TransferStatus)
  | getTransferStatuses (maxQueryCount : ℕ) (skipWaiting : Bool)
  | batch (b : BatchQuery)
  | batchErase (b : BatchQuery) (info : TransferReqInfo)
      (status : TransferStatus)
  | batchAnswered (b : BatchQuery)
  | connect (remote : String)
  | disconnect (remote : String)
  /-- `AutoDisconnect` and `DestroyClient`, then the rest of the call. -/
  | autoDisconnect (remote : String) (rest : EngineCall)
  | destroyClient (remote : String) (rest : EngineCall)
  | destroyIndex (client : ℕ) (rest : EngineCall)
  | destroyFinal (client : ℕ) (rest : EngineCall)
  | returned (ret : Status)

namespace BatchQuery

def skip (b : BatchQuery) (left : List TransferReqInfo) : EngineCall := .batch { b with left }

def push (b : BatchQuery) (info : TransferReqInfo) (status : TransferStatus)
    (left : List TransferReqInfo) : EngineCall :=
  if b.maxQueryCount ≤ b.results.length + 1 then
    .batchAnswered { b with left := [], results := b.results ++ [⟨info, status⟩] }
  else .batch { b with left, results := b.results ++ [⟨info, status⟩] }

end BatchQuery

namespace EngineCall

/-- A failed `Disconnect` decides the code that the call returns; a batch
query ignores it. -/
def disconnectFailed : EngineCall → EngineCall
  | .answered info _ status => .answered info .failed status
  | .transferred _ req => .transferred .failed req
  | .returned _ => .returned .failed
  | call => call

/-- How the loop of a batch query goes on with the answer of the client. -/
def batchAnswer (s : EngineState) (b : BatchQuery) (info : TransferReqInfo)
    (left : List TransferReqInfo) : Except Status TransferStatus → EngineCall
  | .error _ =>
    .autoDisconnect (s.remoteOf info.client) (.batchErase
        { b with
          left
          disconnectedEngines := s.remoteOf info.client :: b.disconnectedEngines }
        info .failed)
  | .ok .waiting =>
    if b.skipWaiting then b.skip left else b.push info .waiting left
  | .ok status => .batchErase { b with left } info status

def queryAnswer (info : TransferReqInfo) : Except Status TransferStatus → EngineCall
  | .ok .waiting => .answered (some info) .success .waiting
  | result => .erase info result

def nextTransfer (input : EngineInput) (s : EngineState) :
    EngineCall → Option (EngineState × EngineCall)
  | .transferAsync remote userData =>
    match s.connect remote (s.autoConnect && input.ok) with
    | (none, s) =>
      some (s, .transferred (if s.autoConnect then .failed else .notConnected) none)
    | (some client, s) => some (s, .submit client userData)
  | .submit client userData =>
    match s.clientTransferAsync client userData input.submit with
    | none => none
    | some (.error ret, s) => some (s, .autoDisconnect (s.remoteOf client) (.transferred ret none))
    | some (.ok info, s) => some (s, .register info)
  | .register info => some (s.registerTransferReq info, .transferred .success (some info.req))
  | .connect remote =>
    if remote ∈ s.clients then some (s, .returned .alreadyConnected)
    else
      match s.connect remote input.ok with
      | (none, s) => some (s, .returned .failed)
      | (some _, s) => some (s, .returned .success)
  | _ => none

def nextQuery (input : EngineInput) (s : EngineState) :
    EngineCall → Option (EngineState × EngineCall)
  | .getTransferStatus req =>
    let found := s.index.getClientByReq (s.alive input) req
    match found.1 with
    | none => some ({ s with index := found.2 }, .answered none .paramInvalid .failed)
    | some info => some ({ s with index := found.2 }, .query info)
  | .query info =>
    let answer := s.clientGetTransferStatus info.client info.req input.query
    some (answer.2, queryAnswer info answer.1)
  | .erase info (.ok status) =>
    some (s.eraseTransferReq info.req, .answered (some info) .success status)
  | .erase info (.error ret) =>
    some (s.eraseTransferReq info.req, .autoDisconnect (s.remoteOf info.client)
        (.answered (some info) ret .failed))
  | _ => none

def nextBatch (input : EngineInput) (s : EngineState) :
    EngineCall → Option (EngineState × EngineCall)
  | .getTransferStatuses maxQueryCount skipWaiting =>
    if maxQueryCount = 0 then
      some (s, .batchAnswered ⟨maxQueryCount, skipWaiting, [], [], [], []⟩)
    else
      let found := s.index.getOrderedReqs (s.alive input)
      some ({ s with index := found.2 },
        .batch ⟨maxQueryCount, skipWaiting, found.1, found.1, [], []⟩)
  | .batch b =>
    match b.left with
    | [] => some (s, .batchAnswered b)
    | info :: left =>
      if s.remoteOf info.client ∈ b.disconnectedEngines then
        some (s.eraseTransferReq info.req, b.push info .failed left)
      else
        let answer := s.clientGetTransferStatus info.client info.req input.query
        some (answer.2, batchAnswer s b info left answer.1)
  | .batchErase b info status => some (s.eraseTransferReq info.req, b.push info status b.left)
  | _ => none

def nextDisconnect (input : EngineInput) (s : EngineState) :
    EngineCall → Option (EngineState × EngineCall)
  | .disconnect remote => some (s, .destroyClient remote (.returned .success))
  | .autoDisconnect remote rest =>
    if s.autoConnect && remote ∈ s.clients then
      some (s, .destroyClient remote rest)
    else some (s, rest)
  | .destroyClient remote rest =>
    match s.clients.lookup remote with
    | none => some (s, rest.disconnectFailed)
    | some client =>
      some
        ({ s with
            clients := s.clients.erase remote
            destroyed := client :: s.destroyed },
          .destroyIndex client rest)
  | .destroyIndex client rest =>
    some
      ({ s with
          index := s.index.eraseReqIndexByClient (s.alive input) client },
        .destroyFinal client rest)
  | .destroyFinal client rest =>
    some (s.finalize client,
      if input.ok then rest else rest.disconnectFailed)
  | _ => none

def next (input : EngineInput) (s : EngineState) (call : EngineCall) :
    Option (EngineState × EngineCall) :=
  match call with
  | .transferAsync _ _ | .submit _ _ | .register _ | .connect _ => call.nextTransfer input s
  | .getTransferStatus _ | .query _ | .erase _ _ => call.nextQuery input s
  | .getTransferStatuses _ _ | .batch _ | .batchErase _ _ _ => call.nextBatch input s
  | .disconnect _ | .autoDisconnect _ _ | .destroyClient _ _
  | .destroyIndex _ _ | .destroyFinal _ _ => call.nextDisconnect input s
  | .transferred _ _ | .answered _ _ _ | .batchAnswered _ | .returned _ => none

def starts : EngineCall → Bool
  | .transferAsync _ _ | .getTransferStatus _ | .getTransferStatuses _ _ => true
  | .connect _ | .disconnect _ => true
  | _ => false

end EngineCall

def engineProgram : Program EngineState EngineCall EngineInput where
  starts := EngineCall.starts
  next := fun input s call => call.next input s

def engineStart (autoConnect : Bool) : Config EngineState EngineCall where
  shared := { autoConnect }
  calls := []

end Hixl
