import Hixl.LeaseLogs
import Hixl.UbMemEngineModel

/-!
# Transfers of the control client

The transfers of `HixlCSClient` take a host or a device path.  Both share a
latch: after a failed transfer the client refuses every later one.  All methods
hold `mutex_`.

On the device path all unfinished transfers share `active_slot_`, a reference
counted slot of the pool.  On the host path the operations are posted one by
one, and then a read of the remote completion flag into an entry of
`flag_queue_`; the free entries are `available_indices_` below `top_index_`.
-/

namespace Hixl

open LeaseLogs

structure TransferLatch where
  transferFailureLatched : Bool := false
  transferFailureStatus : ℕ := Status.success.code
  deriving DecidableEq, Repr

def shouldLatchTransferFailure (ret : ℕ) : Bool :=
  ret = Status.failed.code || ret = Status.timeout.code

namespace TransferLatch

def latchTransferFailure (ret : ℕ) (latch : TransferLatch) : TransferLatch :=
  if latch.transferFailureLatched then latch
  else { transferFailureLatched := true, transferFailureStatus := ret }

def latchTransferFailureIfNeeded (ret : ℕ) (latch : TransferLatch) : TransferLatch :=
  if ret ≠ Status.success.code ∧ shouldLatchTransferFailure ret then
    latch.latchTransferFailure ret
  else latch

theorem latched_of_latch (latch : TransferLatch) (ret : ℕ) :
    (latch.latchTransferFailure ret).transferFailureLatched = true := by
  unfold latchTransferFailure
  split_ifs with hlatched
  · exact hlatched
  · rfl

theorem latched_of_latchIfNeeded {latch : TransferLatch}
    (hlatched : latch.transferFailureLatched = true) (ret : ℕ) :
    (latch.latchTransferFailureIfNeeded ret).transferFailureLatched = true := by
  unfold latchTransferFailureIfNeeded
  split_ifs
  · exact latched_of_latch latch ret
  · exact hlatched

end TransferLatch

/-! ## Device transfers -/

/-- `host_flag` is absent for a synchronous transfer; the device writes it. -/
structure DeviceCompleteHandle where
  id : ℕ
  sharedSlot : ℕ
  hostFlag : Option Bool
  deriving DecidableEq, Repr

/-- `liveHandles` are the allocated handles, `syncHandle` that of the call of
`BatchTransferSync` in progress.  Slot objects are named by references; the
device writes the error flags.  `slotLog` records what happens to the slots of
the pool. -/
structure DeviceClient extends TransferLatch where
  endpointPresent : Bool := true
  configurableTransferSupported : Bool
  config : TransferConfig
  activeSlot : Option ℕ := none
  slotObjects : ℕ → SlotHandle
  nextRef : ℕ := 0
  errFlags : ℕ → Bool := fun _ => false
  liveHandles : List DeviceCompleteHandle := []
  pendingDeviceHandles : List ℕ := []
  syncHandle : Option DeviceCompleteHandle := none
  nextHandle : ℕ := 0
  abortActiveSlot : Bool := false
  slotLog : List (Event ℕ) := []

structure DeviceRequest where
  listNum : ℕ
  descListPresent : Bool := true

inductive KernelAnswer where
  | launched
  | notLaunched (status : ℕ) (nonzero : status ≠ 0)
  | waitFailed (error : AclError)

structure DeviceAnswers where
  /-- `ValidateAddress`, and the conversion of mapped host addresses -/
  validate : ℕ := 0
  convert : ℕ := 0
  acquire : Except ℕ SlotHandle
  allocHostFlag : Option AclError := none
  allocHandle : Bool := true
  allocDescBuf : Option AclError := none
  kernels : ℕ → KernelAnswer := fun _ => .launched
  copyFlag : Option AclError := none

def launchDeviceKernels (kernels : ℕ → KernelAnswer) : ℕ → List Chunk → ℕ × ℕ
  | _, [] => (Status.success.code, 0)
  | chunkIdx, chunk :: rest =>
    let (status, tasks) := launchDeviceKernels kernels (chunkIdx + 1) rest
    match kernels chunkIdx with
    | .launched => (status, chunk.listNum + tasks)
    | .notLaunched error _ => (error, 0)
    | .waitFailed error =>
      -- without a notify the kernel is not waited for
      if chunk.needNotifyWait then (error.status, chunk.listNum)
      else (status, chunk.listNum + tasks)

namespace DeviceClient

def useCount (slotRef : ℕ) (s : DeviceClient) : ℕ :=
  (if s.activeSlot = some slotRef then 1 else 0) +
    s.liveHandles.countP fun handle => handle.sharedSlot = slotRef

def slotIndexOf (slotRef : ℕ) (s : DeviceClient) : ℕ := (s.slotObjects slotRef).slotIndex

def record (event : Event ℕ) (s : DeviceClient) : DeviceClient :=
  { s with slotLog := event :: s.slotLog }

def acquireSharedSlot (answer : Except ℕ SlotHandle) (s : DeviceClient) :
    Except ℕ ℕ × DeviceClient :=
  match s.activeSlot with
  | some slotRef => (.ok slotRef, s)
  | none =>
    match answer with
    | .error status => (.error status, s)
    | .ok newSlot =>
      (.ok s.nextRef,
        { s with
          activeSlot := some s.nextRef
          slotObjects := Function.update s.slotObjects s.nextRef newSlot
          nextRef := s.nextRef + 1
          slotLog := .acquired s.nextRef newSlot.slotIndex :: s.slotLog })

/-- `err_flag_host_addr` of the slot is cleared, if there is one. -/
def clearErrFlag (slotRef : ℕ) (s : DeviceClient) : DeviceClient :=
  match (s.slotObjects slotRef).errFlagAddr with
  | none => s
  | some address => { s with errFlags := Function.update s.errFlags address false }

def releaseSharedSlotRef (slotRef : ℕ) (s : DeviceClient) : DeviceClient :=
  if s.activeSlot ≠ some slotRef then s
  else if s.useCount slotRef = 1 then
    let s := s.clearErrFlag slotRef
    let s :=
      if s.transferFailureLatched || s.abortActiveSlot then
        s.record (.aborted slotRef (s.slotIndexOf slotRef))
      else s.record (.released slotRef (s.slotIndexOf slotRef))
    { s with abortActiveSlot := false, activeSlot := none }
  else s

def releaseDevCompleteHandle (id : ℕ) (s : DeviceClient) : DeviceClient :=
  match s.liveHandles.find? fun handle => handle.id = id with
  | none => s
  | some handle =>
    releaseSharedSlotRef handle.sharedSlot
      { s with
        pendingDeviceHandles := s.pendingDeviceHandles.filter (· ≠ id)
        liveHandles := s.liveHandles.filter fun other => other.id ≠ id }

def cleanupActiveSlot (s : DeviceClient) : DeviceClient :=
  match s.activeSlot with
  | none => { s with abortActiveSlot := false }
  | some slotRef =>
    { s.record (.aborted slotRef (s.slotIndexOf slotRef)) with
      activeSlot := none
      abortActiveSlot := false }

def launchDeviceChunkedKernels (kernels : ℕ → KernelAnswer) (listNum : ℕ)
    (s : DeviceClient) : ℕ × ℕ :=
  launchDeviceKernels kernels 0 (chunkPlan (if s.configurableTransferSupported then
      s.config.maxTransferCountPerBatch
    else defaultMaxTransferCountPerBatch) listNum)

def newHandle (slotRef : ℕ) (hostFlag : Option Bool) (s : DeviceClient) : DeviceClient :=
  { s with
    liveHandles := ⟨s.nextHandle, slotRef, hostFlag⟩ :: s.liveHandles
    nextHandle := s.nextHandle + 1 }

def issueWork (slotRef id tasks : ℕ) (s : DeviceClient) : DeviceClient :=
  let slot := s.slotObjects slotRef
  { s with
    slotObjects := Function.update s.slotObjects slotRef
      { slot with launchedTasks := slot.launchedTasks + tasks }
    slotLog := .issued slotRef id :: s.slotLog }

/-- The descriptors are copied to the device and the kernels launched; the
guard of the handle runs on every error. -/
def launchTransfer (handle : DeviceCompleteHandle) (listNum : ℕ)
    (answers : DeviceAnswers) (s : DeviceClient) : Except ℕ DeviceCompleteHandle × DeviceClient :=
  match answers.allocDescBuf with
  | some error => (.error error.status, s.releaseDevCompleteHandle handle.id)
  | none =>
    let (status, tasks) := s.launchDeviceChunkedKernels answers.kernels listNum
    let s := s.issueWork handle.sharedSlot handle.id tasks
    if status ≠ Status.success.code then
      (.error status, releaseDevCompleteHandle handle.id { s with abortActiveSlot := true })
    else (.ok handle, s)

/-- The slot is acquired; its guard runs until the handle has it.  Only the
asynchronous call allocates a flag. -/
def openHandle (isAsync : Bool) (slotRef listNum : ℕ) (answers : DeviceAnswers) (s : DeviceClient) :
    Except ℕ DeviceCompleteHandle × DeviceClient :=
  if (s.slotObjects slotRef).notify.isNone then
    (.error Status.paramInvalid.code, s.releaseSharedSlotRef slotRef)
  else
    match if isAsync then answers.allocHostFlag else none with
    | some error => (.error error.status, s.releaseSharedSlotRef slotRef)
    | none =>
      if !answers.allocHandle then
        (.error Status.failed.code, s.releaseSharedSlotRef slotRef)
      else
        let hostFlag := if isAsync then some false else none
        launchTransfer ⟨s.nextHandle, slotRef, hostFlag⟩ listNum answers
          (s.newHandle slotRef hostFlag)

/-- What the two ways of submitting share, up to the launch of the
kernels. -/
def submitDevice (isAsync : Bool) (request : DeviceRequest)
    (answers : DeviceAnswers) (s : DeviceClient) : Except ℕ DeviceCompleteHandle × DeviceClient :=
  if request.listNum = 0 ∨ !request.descListPresent then
    (.error Status.paramInvalid.code, s)
  else
    match s.acquireSharedSlot answers.acquire with
    | (.error status, s) => (.error status, s)
    | (.ok slotRef, s) => s.openHandle isAsync slotRef request.listNum answers

def batchTransferDeviceAsync (request : DeviceRequest)
    (answers : DeviceAnswers) (s : DeviceClient) : Except ℕ ℕ × DeviceClient :=
  match s.submitDevice true request answers with
  | (.error status, s) => (.error status, s)
  | (.ok handle, s) =>
    match answers.copyFlag with
    | some error =>
      (.error error.status, releaseDevCompleteHandle handle.id { s with abortActiveSlot := true })
    | none =>
      (.ok handle.id,
        { s with
          pendingDeviceHandles := handle.id :: s.pendingDeviceHandles })

def refuseTransfer (answers : DeviceAnswers) (s : DeviceClient) : Option ℕ :=
  if s.transferFailureLatched then some Status.failed.code
  else if answers.validate ≠ Status.success.code then some answers.validate
  else if !s.endpointPresent then some Status.paramInvalid.code
  else if answers.convert ≠ Status.success.code then some answers.convert
  else none

def latchIfNeeded (ret : ℕ) (s : DeviceClient) : DeviceClient :=
  { s with
    toTransferLatch := s.toTransferLatch.latchTransferFailureIfNeeded ret }

def batchTransferAsync (request : DeviceRequest) (answers : DeviceAnswers)
    (s : DeviceClient) : Except ℕ ℕ × DeviceClient :=
  match s.refuseTransfer answers with
  | some status => (.error status, s)
  | none =>
    match s.batchTransferDeviceAsync request answers with
    | (.error status, s) => (.error status, s.latchIfNeeded status)
    | (.ok id, s) => (.ok id, s)

/-- `BatchTransferSync` up to the wait for the stream. -/
def beginTransferSync (request : DeviceRequest) (answers : DeviceAnswers)
    (s : DeviceClient) : Except ℕ Unit × DeviceClient :=
  match s.refuseTransfer answers with
  | some status => (.error status, s)
  | none =>
    match s.submitDevice false request answers with
    | (.error status, s) => (.error status, s.latchIfNeeded status)
    | (.ok handle, s) => (.ok (), { s with syncHandle := some handle })

def endTransferSync (handle : DeviceCompleteHandle)
    (synchronize : Option AclError) (s : DeviceClient) : ℕ × DeviceClient :=
  let s := { s with syncHandle := none }
  match synchronize with
  | some error =>
    (error.status, latchIfNeeded error.status
      (releaseDevCompleteHandle handle.id { s with abortActiveSlot := true }))
  | none =>
    (Status.success.code, releaseDevCompleteHandle handle.id
      (s.record (.observed handle.sharedSlot handle.id)))

def errFlagSet (slotRef : ℕ) (s : DeviceClient) : Bool :=
  match (s.slotObjects slotRef).errFlagAddr with
  | none => false
  | some address => s.errFlags address

def checkStatusDevice (id : ℕ) (s : DeviceClient) :
    (ℕ × Option HixlCompleteStatus) × DeviceClient :=
  match s.liveHandles.find? fun handle => handle.id = id with
  | none => ((Status.paramInvalid.code, none), s)
  | some handle =>
    match handle.hostFlag with
    | none => ((Status.paramInvalid.code, none), s)
    | some true =>
      ((Status.success.code, some .completed), releaseDevCompleteHandle id
          (s.record (.observed handle.sharedSlot id)))
    | some false =>
      if s.transferFailureLatched then
        ((Status.success.code, some .failed), s.releaseDevCompleteHandle id)
      else if s.errFlagSet handle.sharedSlot then
        ((Status.success.code, some .failed), releaseDevCompleteHandle id
            { s with
              toTransferLatch := s.toTransferLatch.latchTransferFailure
                Status.failed.code })
      else ((Status.success.code, some .waiting), s)

def abortAllPendingDeviceHandles (s : DeviceClient) : DeviceClient :=
  if s.pendingDeviceHandles = [] then s
  else
    s.pendingDeviceHandles.foldl (fun s id => s.releaseDevCompleteHandle id)
      { s with pendingDeviceHandles := [], abortActiveSlot := true }

def destroy (s : DeviceClient) : DeviceClient :=
  { s.abortAllPendingDeviceHandles.cleanupActiveSlot with
    endpointPresent := false }

end DeviceClient

/-- The calls of the client; `BatchTransferSync` is two actions, so that its
wait is visible.  The device completes a transfer or raises an error flag at
any time. -/
inductive DeviceAction where
  | batchTransferAsync (request : DeviceRequest) (answers : DeviceAnswers)
  | beginTransferSync (request : DeviceRequest) (answers : DeviceAnswers)
  | endTransferSync (synchronize : Option AclError)
  | checkStatus (id : ℕ)
  | destroy
  | flagLands (id : ℕ)
  | raiseErrFlag (address : ℕ)

namespace DeviceClient

def flagLands (id : ℕ) (s : DeviceClient) : DeviceClient :=
  { s with liveHandles := s.liveHandles.map fun handle =>
      if handle.id = id then
        { handle with hostFlag := handle.hostFlag.map fun _ => true }
      else handle }

def step (s : DeviceClient) : DeviceAction → DeviceClient
  | .flagLands id => s.flagLands id
  | .raiseErrFlag address => { s with errFlags := Function.update s.errFlags address true }
  | .endTransferSync synchronize =>
    match s.syncHandle with
    | none => s
    | some handle => (s.endTransferSync handle synchronize).2
  | .batchTransferAsync request answers =>
    if s.syncHandle.isSome then s
    else (s.batchTransferAsync request answers).2
  | .beginTransferSync request answers =>
    if s.syncHandle.isSome then s
    else (s.beginTransferSync request answers).2
  | .checkStatus id =>
    if s.syncHandle.isSome then s else (s.checkStatusDevice id).2
  | .destroy => if s.syncHandle.isSome then s else s.destroy

def run (s : DeviceClient) (actions : List DeviceAction) : DeviceClient := actions.foldl step s

def start (configurableTransferSupported : Bool) (config : TransferConfig)
    (slotObjects : ℕ → SlotHandle) : DeviceClient where
  configurableTransferSupported := configurableTransferSupported
  config := config
  slotObjects := slotObjects

end DeviceClient

/-! ## Host transfers -/

def flagQueueSize : ℕ := 4096

def flagDoneValue : ℕ := 1

def flagResetValue : ℕ := 0

inductive HcclResult where
  | success
  | para
  | timeout
  | notSupport
  | again
  | other
  deriving DecidableEq, Repr

def convertHcommErrorToStatus : HcclResult → Status
  | .success => .success
  | .para => .paramInvalid
  | .timeout => .timeout
  | .notSupport => .notSupported
  | .again => .failed
  | .other => .failed

/-- One attempt to post an operation, and the fence before the next one. -/
structure PostAttempt where
  post : HcclResult
  fence : HcclResult := .success

/-- Post one operation.  The attempts of the loop end with the deadline: the
one after those listed is told to try again, too late. -/
def transferWithRetry : List PostAttempt → Status
  | [] => .timeout
  | attempt :: rest =>
    match attempt.post with
    | .success => .success
    | .again =>
      if attempt.fence = .success then transferWithRetry rest
      else convertHcommErrorToStatus attempt.fence
    | result => convertHcommErrorToStatus result

/-- What happens to transfers: an operation is posted, a flag index is handed
out, the read of the flag is posted or lands, and the transfer is reported
complete. -/
inductive HostEvent where
  | posted (isGet : Bool) (desc : HixlOneSideOpDesc)
  | handed (transfer index : ℕ)
  | flagPosted (transfer index : ℕ)
  | landed (transfer : ℕ)
  | completed (transfer : ℕ)
  deriving DecidableEq, Repr

structure CompleteHandleInfo where
  id : ℕ
  flagIndex : ℕ
  deriving DecidableEq, Repr

/-- `handles` are the allocated handles, `outstanding` the posted reads of a
flag that have not landed, each with its transfer and index; `hostLog` records
the events, the newest first. -/
structure HostClient extends TransferLatch where
  endpointPresent : Bool := true
  configurableTransferSupported : Bool
  config : TransferConfig
  flagQueue : ℕ → ℕ := fun _ => flagResetValue
  availableIndices : ℕ → ℕ := fun i => i
  topIndex : ℕ := flagQueueSize
  liveHandles : ℕ → Option ℕ := fun _ => none
  handles : List CompleteHandleInfo := []
  outstanding : List (ℕ × ℕ) := []
  nextTransfer : ℕ := 0
  hostLog : List HostEvent := []

structure HostRequest where
  isGet : Bool
  descs : List HixlOneSideOpDesc

/-- The attempts for each operation and for the flag, the fence after each
chunk, and the other answers of the environment. -/
structure HostAnswers where
  validate : Status := .success
  attempts : ℕ → List PostAttempt := fun _ => [⟨.success, .success⟩]
  fence : ℕ → HcclResult := fun _ => .success
  flagAttempts : List PostAttempt := [⟨.success, .success⟩]
  allocHandle : Bool := true

def postOps (attempts : ℕ → List PostAttempt) :
    ℕ → List HixlOneSideOpDesc → Status × List HixlOneSideOpDesc
  | _, [] => (.success, [])
  | i, desc :: rest =>
    match transferWithRetry (attempts i) with
    | .success =>
      let (status, posted) := postOps attempts (i + 1) rest
      (status, desc :: posted)
    | status => (status, [])

def batchTransferTask (answers : HostAnswers) (chunkIdx offset : ℕ)
    (descs : List HixlOneSideOpDesc) : Status × List HixlOneSideOpDesc :=
  match postOps answers.attempts offset descs with
  | (.success, posted) => (convertHcommErrorToStatus (answers.fence chunkIdx), posted)
  | (status, posted) => (status, posted)

def batchTransferTasks (answers : HostAnswers) (batchSize : ℕ) (descs : List HixlOneSideOpDesc) :
    ℕ → ℕ → Status × List HixlOneSideOpDesc
  | 0, _ => (.success, [])
  | left + 1, chunkIdx =>
    let offset := chunkIdx * batchSize
    let size := min batchSize (descs.length - offset)
    match batchTransferTask answers chunkIdx offset ((descs.drop offset).take size) with
    | (.success, posted) =>
      let (status, more) := batchTransferTasks answers batchSize descs left
        (chunkIdx + 1)
      (status, posted ++ more)
    | (status, posted) => (status, posted)

namespace HostClient

def recordAll (events : List HostEvent) (s : HostClient) : HostClient :=
  { s with hostLog := events.reverse ++ s.hostLog }

def acquireFlagIndex (s : HostClient) : Option (ℕ × HostClient) :=
  if s.topIndex = 0 then none
  else
    let index := s.availableIndices (s.topIndex - 1)
    some (index,
      { s with
        topIndex := s.topIndex - 1
        nextTransfer := s.nextTransfer + 1
        hostLog := .handed s.nextTransfer index :: s.hostLog })

def releaseFlagIndex (flagIndex : ℕ) (s : HostClient) : HostClient :=
  if s.topIndex < flagQueueSize then
    { s with
      availableIndices := Function.update s.availableIndices s.topIndex flagIndex
      flagQueue := Function.update s.flagQueue flagIndex flagResetValue
      topIndex := s.topIndex + 1 }
  else s

def releaseCompleteHandle (handle : CompleteHandleInfo) (s : HostClient) : HostClient :=
  let s :=
    if s.topIndex < flagQueueSize then
      { s.releaseFlagIndex handle.flagIndex with
        liveHandles := Function.update s.liveHandles handle.flagIndex none }
    else s
  { s with handles := s.handles.filter fun other => other.id ≠ handle.id }

def transferBatchSize (s : HostClient) : ℕ :=
  if s.configurableTransferSupported then s.config.maxTransferCountPerBatch
  else maxKernelBatchSize

def postTransfer (request : HostRequest) (answers : HostAnswers)
    (s : HostClient) : Status × HostClient :=
  let batchSize := s.transferBatchSize
  let listNum := request.descs.length
  let numChunks := listNum / batchSize +
    if listNum % batchSize ≠ 0 then 1 else 0
  let (status, posted) := batchTransferTasks answers batchSize request.descs numChunks 0
  (status, s.recordAll (posted.map fun desc => .posted request.isGet desc))

/-- The flag of the transfer is read into its entry; the guard of the index
runs on every error. -/
def postFlag (transfer index : ℕ) (answers : HostAnswers) (s : HostClient) :
    Except Status CompleteHandleInfo × HostClient :=
  match transferWithRetry answers.flagAttempts with
  | .success =>
    let s :=
      { s with
        outstanding := (transfer, index) :: s.outstanding
        hostLog := .flagPosted transfer index :: s.hostLog }
    if !answers.allocHandle then (.error .failed, s.releaseFlagIndex index)
    else
      (.ok ⟨transfer, index⟩,
        { s with
          handles := ⟨transfer, index⟩ :: s.handles
          liveHandles := Function.update s.liveHandles index (some transfer) })
  | status => (.error status, s.releaseFlagIndex index)

def batchTransferHostAsync (request : HostRequest) (answers : HostAnswers)
    (s : HostClient) : Except Status CompleteHandleInfo × HostClient :=
  if request.descs.length = 0 then (.error .paramInvalid, s)
  else
    match s.postTransfer request answers with
    | (.success, s) =>
      match s.acquireFlagIndex with
      | none => (.error .resourceExhausted, s)
      | some (index, acquired) => acquired.postFlag s.nextTransfer index answers
    | (status, s) => (.error status, s)

def flagLands (transfer : ℕ) (s : HostClient) : HostClient :=
  match s.outstanding.find? fun entry => entry.1 = transfer with
  | none => s
  | some (_, index) =>
    { s with
      flagQueue := Function.update s.flagQueue index flagDoneValue
      outstanding := s.outstanding.filter fun entry => entry.1 ≠ transfer
      hostLog := .landed transfer :: s.hostLog }

def checkStatusHost (handle : CompleteHandleInfo) (s : HostClient) :
    (Status × Option HixlCompleteStatus) × HostClient :=
  if handle.flagIndex ≥ flagQueueSize then ((.paramInvalid, none), s)
  else if s.flagQueue handle.flagIndex = flagDoneValue then
    ((.success, some .completed), releaseCompleteHandle handle
      { s with hostLog := .completed handle.id :: s.hostLog })
  else ((.success, some .waiting), s)

def checkStatusLocked (copied : Bool) (handle : CompleteHandleInfo)
    (s : HostClient) : (Status × Option HixlCompleteStatus) × HostClient :=
  if !copied then ((.failed, none), s) else s.checkStatusHost handle

end HostClient

/-- One round of the wait of a synchronous transfer: the reads that land
before it, and whether the head of the handle can be copied. -/
structure HostPoll where
  landed : List ℕ := []
  copied : Bool := true

namespace HostClient

def hostSyncLoop (handle : CompleteHandleInfo) : List HostPoll → HostClient → Status × HostClient
  | [], s => (.timeout, s.releaseCompleteHandle handle)
  | poll :: rest, s =>
    let s := poll.landed.foldl (fun s transfer => s.flagLands transfer) s
    match s.checkStatusLocked poll.copied handle with
    | ((.success, some .completed), s) => (.success, s)
    | ((.success, _), s) => hostSyncLoop handle rest s
    | ((status, _), s) => (status, s.releaseCompleteHandle handle)

def batchTransferHostSync (request : HostRequest) (answers : HostAnswers)
    (polls : List HostPoll) (s : HostClient) : Status × HostClient :=
  match s.batchTransferHostAsync request answers with
  | (.error status, s) => (status, s)
  | (.ok handle, s) => hostSyncLoop handle polls s

def refuseTransfer (answers : HostAnswers) (s : HostClient) : Option Status :=
  if s.transferFailureLatched then some .failed
  else if answers.validate ≠ .success then some answers.validate
  else if !s.endpointPresent then some .paramInvalid
  else none

def latchIfNeeded (ret : Status) (s : HostClient) : HostClient :=
  { s with toTransferLatch := s.toTransferLatch.latchTransferFailureIfNeeded ret.code }

def batchTransferAsync (request : HostRequest) (answers : HostAnswers)
    (s : HostClient) : Except Status CompleteHandleInfo × HostClient :=
  match s.refuseTransfer answers with
  | some status => (.error status, s)
  | none =>
    match s.batchTransferHostAsync request answers with
    | (.error status, s) => (.error status, s.latchIfNeeded status)
    | (.ok handle, s) => (.ok handle, s)

def batchTransferSync (request : HostRequest) (answers : HostAnswers)
    (polls : List HostPoll) (s : HostClient) : Status × HostClient :=
  match s.refuseTransfer answers with
  | some status => (status, s)
  | none =>
    let (status, s) := s.batchTransferHostSync request answers polls
    (status, s.latchIfNeeded status)

/-- A handle that was deleted is refused. -/
def checkStatus (id : ℕ) (copied : Bool) (s : HostClient) :
    (Status × Option HixlCompleteStatus) × HostClient :=
  match s.handles.find? fun handle => handle.id = id with
  | none => ((.paramInvalid, none), s)
  | some handle => s.checkStatusLocked copied handle

end HostClient

/-- The calls of the client, and a read of a flag that lands between two of
them. -/
inductive HostAction where
  | batchTransferAsync (request : HostRequest) (answers : HostAnswers)
  | batchTransferSync (request : HostRequest) (answers : HostAnswers)
      (polls : List HostPoll)
  | checkStatus (id : ℕ) (copied : Bool)
  | flagLands (transfer : ℕ)

namespace HostClient

def step (s : HostClient) : HostAction → HostClient
  | .batchTransferAsync request answers => (s.batchTransferAsync request answers).2
  | .batchTransferSync request answers polls => (s.batchTransferSync request answers polls).2
  | .checkStatus id copied => (s.checkStatus id copied).2
  | .flagLands transfer => s.flagLands transfer

def run (s : HostClient) (actions : List HostAction) : HostClient := actions.foldl step s

def start (configurableTransferSupported : Bool) (config : TransferConfig) : HostClient where
  configurableTransferSupported := configurableTransferSupported
  config := config

end HostClient

end Hixl
