import Hixl.InterleavedCalls
import Hixl.NamedRequests
import Hixl.UbMemEngineModel
import Hixl.UbMemImportModel

/-!
# Asynchronous transfers of several sub-transfers

`UbClientHandler` splits a transfer by the kind of memory on both sides,
`MultiChannelDispatcher` over its workers.  Both get a handle for each
sub-transfer from the CS layer, which gives out handles that are not live, and
keep the sub-transfers under one of them until the transfer has ended.
-/

namespace Hixl

open InterleavedCalls NamedRequests

inductive TransferStatus where
  | waiting
  | completed
  | timeout
  | failed
  deriving DecidableEq, Repr

def toTransferStatus : HixlCompleteStatus → TransferStatus
  | .waiting => .waiting
  | .completed => .completed
  | .timeout => .timeout
  | .failed => .failed

structure TransferOpDesc where
  localAddr : ℕ
  remoteAddr : ℕ
  len : ℕ
  deriving DecidableEq, Repr

def releaseSettled (answer : Except Status HixlCompleteStatus) (handle : ℕ)
    (live : Finset ℕ) : Finset ℕ :=
  match answer with
  | .ok .waiting | .error _ => live
  | .ok _ => live.erase handle

/-! ## UbClientHandler -/

/-- The kinds of `CommType` that `ClassifyTransfers` uses, in the order of the
enumeration. -/
inductive CommType where
  | ubD2D
  | ubH2D
  | ubD2H
  | ubH2H
  deriving DecidableEq, Repr

def CommType.all : List CommType := [.ubD2D, .ubH2D, .ubD2H, .ubH2H]

structure SubReq where
  type : CommType
  req : ℕ
  status : TransferStatus := .waiting
  deriving DecidableEq, Repr

structure UbClientHandler where
  /-- The kinds with an entry in `handles_`. -/
  handles : CommType → Bool := fun _ => true
  /-- `GetMemType` over the local and over the remote segments. -/
  localMemType : ℕ → ℕ → Option MemType
  remoteMemType : ℕ → ℕ → Option MemType
  lazyMode : Bool := false
  asyncWorkers : AList (fun _ : ℕ => List SubReq) := ∅

structure UbAnswers where
  links : Except Status Unit := .ok ()
  submit : CommType → Except Status ℕ := fun _ => .error .failed
  query : CommType → ℕ → Except Status HixlCompleteStatus := fun _ _ => .ok .waiting

namespace UbClientHandler

def commType : MemType → MemType → CommType
  | .device, .device => .ubD2D
  | .device, .host => .ubD2H
  | .host, .device => .ubH2D
  | .host, .host => .ubH2H

def classifyOp (h : UbClientHandler) (op : TransferOpDesc) : Option CommType := do
  let _ ← checkedAdd 64 op.localAddr op.len
  let _ ← checkedAdd 64 op.remoteAddr op.len
  let localType ← h.localMemType op.localAddr op.len
  let remoteType ← h.remoteMemType op.remoteAddr op.len
  pure (commType localType remoteType)

/-- The table of `ClassifyTransfers`, which is iterated in the order of its
keys. -/
def classifyTransfers (h : UbClientHandler) (ops : List TransferOpDesc) :
    Except Status (List (CommType × List TransferOpDesc)) :=
  if ops.all fun op => (h.classifyOp op).isSome then
    .ok (CommType.all.filterMap fun type =>
      let descs := ops.filter fun op => h.classifyOp op = some type
      if descs.isEmpty then none else some (type, descs))
  else .error .paramInvalid

def submitDescsForType (h : UbClientHandler) (answers : UbAnswers)
    (type : CommType) : Except Status ℕ :=
  if h.handles type then answers.submit type else .error .failed

/-- The loop over the table: the sub-transfers that were submitted, and the
error that ends it early. -/
def submitTable (h : UbClientHandler) (answers : UbAnswers) :
    List (CommType × List TransferOpDesc) → List SubReq × Option Status
  | [] => ([], none)
  | (type, _) :: rest =>
    match h.submitDescsForType answers type with
    | .error status => ([], some status)
    | .ok req => ({ type, req } :: (h.submitTable answers rest).1, (h.submitTable answers rest).2)

def checkSubReqStatus (h : UbClientHandler) (answers : UbAnswers)
    (sub : SubReq) : Except Status TransferStatus :=
  if h.handles sub.type then
    (answers.query sub.type sub.req).map toTransferStatus
  else .error .failed

def queryReleases (h : UbClientHandler) (answers : UbAnswers) (sub : SubReq)
    (live : Finset ℕ) : Finset ℕ :=
  if h.handles sub.type then
    releaseSettled (answers.query sub.type sub.req) sub.req live
  else live

end UbClientHandler

inductive SubsOutcome where
  | stopped (ret : Status) (status : TransferStatus)
  | scanned (allComplete : Bool) (subs : List SubReq)
  deriving DecidableEq, Repr

def SubsOutcome.keep (sub : SubReq) (waiting : Bool) : SubsOutcome → SubsOutcome
  | .stopped ret status => .stopped ret status
  | .scanned allComplete subs => .scanned (allComplete && !waiting) (sub :: subs)

namespace UbClientHandler

def querySubs (h : UbClientHandler) (answers : UbAnswers)
    (live : Finset ℕ) : List SubReq → SubsOutcome × Finset ℕ
  | [] => (.scanned true [], live)
  | sub :: rest =>
    if sub.status = .completed then
      ((h.querySubs answers live rest).1.keep sub false, (h.querySubs answers live rest).2)
    else
      let live := h.queryReleases answers sub live
      match h.checkSubReqStatus answers sub with
      | .error ret => (.stopped ret .failed, live)
      | .ok .waiting =>
        ((h.querySubs answers live rest).1.keep sub true, (h.querySubs answers live rest).2)
      | .ok .completed =>
        ((h.querySubs answers live rest).1.keep { sub with status := .completed } false,
          (h.querySubs answers live rest).2)
      | .ok status => (.stopped .success status, live)

end UbClientHandler

/-- The handler with the live handles of the CS layer and the transfers that
were submitted. -/
structure UbWorld where
  handler : UbClientHandler
  live : Finset ℕ := ∅
  log : List (Transfer ℕ) := []

inductive UbCall where
  | transferAsync (ops : List TransferOpDesc)
  | submitted (ret : Status) (req : Option ℕ)
  | getTransferStatus (req : ℕ)
  | answered (ret : Status) (status : TransferStatus)

namespace UbWorld

def record (req : ℕ) (subs : List SubReq) (w : UbWorld) : UbWorld :=
  { w with
    handler := { w.handler with
      asyncWorkers := w.handler.asyncWorkers.insert req subs }
    log := { name := req, handles := subs.map SubReq.req } :: w.log }

def transferAsync (ops : List TransferOpDesc) (answers : UbAnswers)
    (w : UbWorld) : Option (UbWorld × UbCall) :=
  match w.handler.classifyTransfers ops with
  | .error ret => some (w, .submitted ret none)
  | .ok table =>
    match (if w.handler.lazyMode then answers.links else .ok ()) with
    | .error ret => some (w, .submitted ret none)
    | .ok _ =>
      let subs := (w.handler.submitTable answers table).1
      match issue w.live (subs.map SubReq.req) with
      | none => none
      | some live =>
        match (w.handler.submitTable answers table).2, subs with
        | some ret, _ => some ({ w with live }, .submitted ret none)
        | none, [] => some ({ w with live }, .submitted .paramInvalid none)
        | none, sub :: rest =>
          some ({ w with live }.record sub.req (sub :: rest), .submitted .success (some sub.req))

def close (req : ℕ) (live : Finset ℕ) (w : UbWorld) : UbWorld :=
  { handler := { w.handler with
      asyncWorkers := w.handler.asyncWorkers.erase req }
    live
    log := report req w.log }

def update (req : ℕ) (subs : List SubReq) (live : Finset ℕ) (w : UbWorld) : UbWorld :=
  { w with
    handler := { w.handler with
      asyncWorkers := w.handler.asyncWorkers.insert req subs }
    live }

def getTransferStatus (req : ℕ) (answers : UbAnswers) (w : UbWorld) : UbWorld × UbCall :=
  if w.handler.asyncWorkers.entries.isEmpty then
    ({ w with log := report req w.log }, .answered .failed .failed)
  else
    match w.handler.asyncWorkers.lookup req with
    | none => ({ w with log := report req w.log }, .answered .paramInvalid .failed)
    | some subs =>
      match w.handler.querySubs answers w.live subs with
      | (.stopped ret status, live) => (w.close req live, .answered ret status)
      | (.scanned true _, live) => (w.close req live, .answered .success .completed)
      | (.scanned false subs, live) => (w.update req subs live, .answered .success .waiting)

end UbWorld

namespace UbCall

def starts : UbCall → Bool
  | .transferAsync _ | .getTransferStatus _ => true
  | _ => false

/-- Both calls hold `complete_handles_mutex_` while they work. -/
def next (answers : UbAnswers) (w : UbWorld) : UbCall → Option (UbWorld × UbCall)
  | .transferAsync ops => w.transferAsync ops answers
  | .getTransferStatus req => some (w.getTransferStatus req answers)
  | .submitted _ _ | .answered _ _ => none

end UbCall

def ubProgram : Program UbWorld UbCall UbAnswers where
  starts := UbCall.starts
  next := fun answers w call => call.next answers w

/-- A handler without transfers; other users of the CS layer may have
handles. -/
def ubStart (handler : UbClientHandler) (live : Finset ℕ) : Config UbWorld UbCall where
  shared := { handler := { handler with asyncWorkers := ∅ }, live }
  calls := []

/-! ## MultiChannelDispatcher -/

inductive WorkerState where
  | pending
  | completed
  | failed
  deriving DecidableEq, Repr

/-- A null `CompleteHandle` is no value. -/
structure WorkerEntry where
  clientIdx : ℕ
  handle : Option ℕ
  state : WorkerState := .pending
  deriving DecidableEq, Repr

structure MultiChannelDispatcher where
  workers : ℕ
  splitBatchSize : ℕ := 128
  pool : Bool := true
  asyncWorkers : AList (fun _ : ℕ => List WorkerEntry) := ∅

structure WorkerAnswers where
  submit : ℕ → List HixlOneSideOpDesc → Except Status (Option ℕ) := fun _ _ => .error .failed
  query : ℕ → Option ℕ → Except Status HixlCompleteStatus := fun _ _ => .ok .waiting

def TransferOpDesc.convert (op : TransferOpDesc) : HixlOneSideOpDesc where
  remoteBuf := op.remoteAddr
  localBuf := op.localAddr
  len := op.len

namespace MultiChannelDispatcher

def resolveActualWorkerNum (configured descCount splitBatchSize : ℕ) : ℕ :=
  if configured ≤ 1 ∨ splitBatchSize = 0 then 1
  else if descCount ≤ splitBatchSize then 1
  else if splitBatchSize * (configured - 1) < descCount then configured
  else descCount / splitBatchSize

/-- The descriptors of worker `i` and of the workers after it: the first
`remainder` workers have one more. -/
def splitFrom (base remainder : ℕ) : ℕ → ℕ → List TransferOpDesc → List (List HixlOneSideOpDesc)
  | _, 0, _ => []
  | i, n + 1, descs =>
    let count := base + (if i < remainder then 1 else 0)
    (descs.take count).map TransferOpDesc.convert ::
      splitFrom base remainder (i + 1) n (descs.drop count)

def splitDescs (descs : List TransferOpDesc) (workerNum : ℕ) : List (List HixlOneSideOpDesc) :=
  splitFrom (descs.length % 2 ^ 32 / workerNum)
    (descs.length % 2 ^ 32 % workerNum) 0 workerNum descs

/-- `SubmitWorkersToPool`: every worker submits its part, and the first error
in the order of the workers is returned. -/
def submitWorkers (d : MultiChannelDispatcher) (answers : WorkerAnswers) :
    ℕ → List (List HixlOneSideOpDesc) → List WorkerEntry × Option Status
  | _, [] => ([], none)
  | i, descs :: rest =>
    if d.pool then
      match answers.submit i descs with
      | .error ret => ((d.submitWorkers answers (i + 1) rest).1, some ret)
      | .ok handle =>
        ({ clientIdx := i, handle } :: (d.submitWorkers answers (i + 1) rest).1,
          (d.submitWorkers answers (i + 1) rest).2)
    else ([], some .failed)

def submitParts (d : MultiChannelDispatcher) (answers : WorkerAnswers)
    (descs : List TransferOpDesc) : List WorkerEntry × Option Status :=
  let actualN := resolveActualWorkerNum d.workers
    (descs.length % 2 ^ 32) d.splitBatchSize
  if actualN ≤ 1 then
    if d.workers = 0 then ([], some .failed)
    else
      match answers.submit 0 (descs.map TransferOpDesc.convert) with
      | .error ret => ([], some ret)
      | .ok handle => ([{ clientIdx := 0, handle }], none)
  else d.submitWorkers answers 0 (splitDescs descs actualN)

/-- The loop of `QueryWorkersStatus` over one entry. -/
def queryWorker (answers : WorkerAnswers) (entry : WorkerEntry) : WorkerEntry :=
  match entry.state with
  | .pending =>
    match answers.query entry.clientIdx entry.handle with
    | .error _ => { entry with state := .failed }
    | .ok .waiting => entry
    | .ok .completed => { entry with state := .completed }
    | .ok _ => { entry with state := .failed }
  | _ => entry

def workerReleases (answers : WorkerAnswers) (entry : WorkerEntry) (live : Finset ℕ) : Finset ℕ :=
  match entry.state, entry.handle with
  | .pending, some handle => releaseSettled (answers.query entry.clientIdx entry.handle) handle live
  | _, _ => live

def queryWorkersStatus (answers : WorkerAnswers) (live : Finset ℕ) :
    List WorkerEntry → List WorkerEntry × Finset ℕ
  | [] => ([], live)
  | entry :: rest =>
    let live := workerReleases answers entry live
    (queryWorker answers entry :: (queryWorkersStatus answers live rest).1,
      (queryWorkersStatus answers live rest).2)

end MultiChannelDispatcher

structure DispatcherWorld where
  dispatcher : MultiChannelDispatcher
  live : Finset ℕ := ∅
  log : List (Transfer (Option ℕ)) := []

inductive DispatcherCall where
  | submit (descs : List TransferOpDesc)
  | submitted (ret : Status) (req : Option ℕ)
  | checkStatus (req : ℕ)
  | answered (ret : Status) (status : TransferStatus)

namespace DispatcherWorld

/-- `RecordAsyncWorkers` names the transfer by the first handle that is not
null. -/
def recordAsyncWorkers (entries : List WorkerEntry) (w : DispatcherWorld) :
    DispatcherWorld × DispatcherCall :=
  match entries.filterMap WorkerEntry.handle with
  | [] => (w, .submitted .paramInvalid none)
  | req :: _ =>
    ({ w with
        dispatcher := { w.dispatcher with
          asyncWorkers := w.dispatcher.asyncWorkers.insert req entries }
        log := { name := req,
                 handles := entries.map WorkerEntry.handle } :: w.log },
      .submitted .success (some req))

/-- `Submit` in the mode `ASYNC`.  No result: the CS layer does not give out a
live handle. -/
def submit (descs : List TransferOpDesc) (answers : WorkerAnswers)
    (w : DispatcherWorld) : Option (DispatcherWorld × DispatcherCall) :=
  let parts := w.dispatcher.submitParts answers descs
  match issue w.live (parts.1.filterMap WorkerEntry.handle) with
  | none => none
  | some live =>
    match parts.2 with
    | some ret => some ({ w with live }, .submitted ret none)
    | none => some ({ w with live }.recordAsyncWorkers parts.1)

def close (req : ℕ) (live : Finset ℕ) (w : DispatcherWorld) : DispatcherWorld :=
  { dispatcher := { w.dispatcher with
      asyncWorkers := w.dispatcher.asyncWorkers.erase req }
    live
    log := report req w.log }

def update (req : ℕ) (entries : List WorkerEntry) (live : Finset ℕ)
    (w : DispatcherWorld) : DispatcherWorld :=
  { w with
    dispatcher := { w.dispatcher with
      asyncWorkers := w.dispatcher.asyncWorkers.insert req entries }
    live }

def checkStatus (req : ℕ) (answers : WorkerAnswers) (w : DispatcherWorld) :
    DispatcherWorld × DispatcherCall :=
  if w.dispatcher.asyncWorkers.entries.isEmpty then
    ({ w with log := report req w.log }, .answered .failed .failed)
  else
    match w.dispatcher.asyncWorkers.lookup req with
    | none => ({ w with log := report req w.log }, .answered .paramInvalid .failed)
    | some entries =>
      let queried := MultiChannelDispatcher.queryWorkersStatus answers
        w.live entries
      if queried.1.any fun entry => entry.state = .failed then
        (w.close req queried.2, .answered .success .failed)
      else if queried.1.any fun entry => entry.state = .pending then
        (w.update req queried.1 queried.2, .answered .success .waiting)
      else (w.close req queried.2, .answered .success .completed)

end DispatcherWorld

namespace DispatcherCall

def starts : DispatcherCall → Bool
  | .submit _ | .checkStatus _ => true
  | _ => false

/-- The callers of the dispatcher serialise its calls. -/
def next (answers : WorkerAnswers) (w : DispatcherWorld) :
    DispatcherCall → Option (DispatcherWorld × DispatcherCall)
  | .submit descs => w.submit descs answers
  | .checkStatus req => some (w.checkStatus req answers)
  | .submitted _ _ | .answered _ _ => none

end DispatcherCall

def dispatcherProgram : Program DispatcherWorld DispatcherCall WorkerAnswers where
  starts := DispatcherCall.starts
  next := fun answers w call => call.next answers w

def dispatcherStart (dispatcher : MultiChannelDispatcher)
    (live : Finset ℕ) : Config DispatcherWorld DispatcherCall where
  shared := { dispatcher := { dispatcher with asyncWorkers := ∅ }, live }
  calls := []

end Hixl
