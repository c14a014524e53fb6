import Hixl.SharedObjectPrograms
import Hixl.TransferPoolModel
import Hixl.UbMemLaunchModel
import Hixl.UbMemRemoteModel

/-!
# The transfer engine over mapped memory

The engine keeps one active slot of the transfer pool and shares it between all
its unfinished transfers.  Its calls to the pool are atomic, but other clients
use the pool between them; hence an operation of the engine is a program over
the pool.  The caller serializes the operations of one engine.
-/

namespace Hixl

open SharedObjectPrograms

inductive PoolRequest where
  | acquire
  | ensureUbMemStream (handle : SlotHandle)
  | readErrFlag (index : ℕ)
  | writeErrFlag (index : ℕ)
  | release (handle : SlotHandle)
  | abort (handle : SlotHandle)
  deriving DecidableEq, Repr

@[reducible] def PoolAnswer : PoolRequest → Type
  | .acquire => Except Status SlotHandle
  | .ensureUbMemStream _ => Status × SlotHandle
  | .readErrFlag _ => Bool
  | .writeErrFlag _ => Unit
  | .release _ => Unit
  | .abort _ => Unit

structure RuntimeAnswers where
  abort : TransferPool.AbortAnswers
  createStream : Option ℕ

def TransferPool.serve (answers : RuntimeAnswers) :
    (request : PoolRequest) → TransferPool → PoolAnswer request × TransferPool
  | .acquire, pool => pool.acquire
  | .ensureUbMemStream handle, pool => pool.ensureUbMemStream answers.createStream handle
  | .readErrFlag index, pool => (pool.errFlagSet index, pool)
  | .writeErrFlag index, pool => ((), pool.setErrFlag index)
  | .release handle, pool => ((), pool.release handle)
  | .abort handle, pool => ((), pool.abort answers.abort handle)

abbrev EngineProg := Prog PoolRequest PoolAnswer

/-- An unfinished transfer.  Its slot is a reference to a shared slot object;
a status buffer exists when the status count is not zero. -/
structure UbMemCompleteHandle where
  id : ℕ
  slot : ℕ
  descCount : ℕ
  statusCount : ℕ
  deriving DecidableEq, Repr

structure UbMemEngine where
  useMemcpyMode : Bool
  config : UbMemClientConfig
  sqeFormat : UbMemStarsSqeFormat
  activeSlot : Option ℕ
  slotObjects : ℕ → SlotHandle
  nextRef : ℕ
  pendingHandles : List UbMemCompleteHandle
  nextHandle : ℕ

inductive HixlCompleteStatus where
  | waiting
  | completed
  | timeout
  | failed
  deriving DecidableEq, Repr

structure TransferRequest where
  isGet : Bool
  ops : List HixlOneSideOpDesc
  timeoutMs : ℕ

structure TransferAnswers where
  index : Option UbMemRemoteIndex
  allocHostFlag : Bool
  allocHandle : Bool
  copyOp : ℕ → Bool
  allocDescBuf : Bool
  allocStatusBuf : Bool
  kernelOk : Bool
  launches : ℕ → LaunchAnswers
  counters : TaskIdCounters
  copyFlag : Bool

namespace UbMemEngine

def useCount (engine : UbMemEngine) (slotRef : ℕ) : ℕ :=
  (if engine.activeSlot = some slotRef then 1 else 0) +
    (engine.pendingHandles.filter fun handle => handle.slot = slotRef).length

def updateSlotObject (engine : UbMemEngine) (slotRef : ℕ) (slot : SlotHandle) : UbMemEngine :=
  { engine with slotObjects := Function.update engine.slotObjects slotRef slot }

def acquireUbMemSlot (engine : UbMemEngine) : EngineProg (Except Status ℕ × UbMemEngine) :=
  match engine.activeSlot with
  | some slotRef => .ret (.ok slotRef, engine)
  | none => .call .acquire fun
      | .error status => .ret (.error status, engine)
      | .ok newSlot => .ret (.ok engine.nextRef,
          { engine with
            activeSlot := some engine.nextRef
            nextRef := engine.nextRef + 1 }.updateSlotObject
              engine.nextRef newSlot)

def slotErrFlagSet (slot : SlotHandle) : EngineProg Bool :=
  match slot.errFlagAddr with
  | none => .ret false
  | some index => .call (.readErrFlag index) .ret

def setSlotErrFlag (slot : SlotHandle) : EngineProg Unit :=
  match slot.errFlagAddr with
  | none => .ret ()
  | some index => .call (.writeErrFlag index) .ret

def abortUbMemSlot (slot : SlotHandle) : EngineProg Unit := .call (.abort slot) .ret

def releaseUbMemSlot (slotRef : ℕ) (engine : UbMemEngine) : EngineProg UbMemEngine :=
  if engine.activeSlot ≠ some slotRef then .ret engine
  else if engine.useCount slotRef = 1 then do
    let slot := engine.slotObjects slotRef
    let failed ← slotErrFlagSet slot
    if failed then .call (.abort slot) .ret else .call (.release slot) .ret
    return { engine with activeSlot := none }
  else .ret engine

/-- A finished transfer drops its reference to the slot and nothing else. -/
def releaseUbMemCompleteHandle (id : ℕ) (engine : UbMemEngine) : UbMemEngine :=
  { engine with
    pendingHandles := engine.pendingHandles.filter fun handle => handle.id ≠ id }

/-! ## Submission -/

def translateUbMemOpDescs (answers : TransferAnswers)
    (ops : List HixlOneSideOpDesc) : Status × List HixlOneSideOpDesc :=
  match answers.index with
  | none => (.paramInvalid, [])
  | some index => translateRemoteOpDescs index ops

/-- What the two ways of submitting share: the slot is acquired first, and the
handle keeps it from then on. -/
def submitThrough (answers : TransferAnswers)
    (issue : List HixlOneSideOpDesc → UbMemCompleteHandle → UbMemEngine →
      EngineProg (Status × UbMemCompleteHandle × UbMemEngine))
    (ops : List HixlOneSideOpDesc) (engine : UbMemEngine) :
    EngineProg (Except Status UbMemCompleteHandle × UbMemEngine) :=
  match translateUbMemOpDescs answers ops with
  | (.success, translated) => do
      let opDescs := if translated.isEmpty then ops else translated
      let (acquired, engine) ← engine.acquireUbMemSlot
      match acquired with
      | .error status => return (.error status, engine)
      | .ok slotRef =>
        if !answers.allocHostFlag || !answers.allocHandle then
          let engine ← engine.releaseUbMemSlot slotRef
          return (.error .failed, engine)
        else
          let handle : UbMemCompleteHandle :=
            { id := engine.nextHandle, slot := slotRef
              descCount := 0, statusCount := 0 }
          let (status, handle, engine) ← issue opDescs handle
            { engine with nextHandle := engine.nextHandle + 1 }
          if status = .success then
            return (.ok handle,
              { engine with
                pendingHandles := handle :: engine.pendingHandles })
          else
            return (.error status, engine.releaseUbMemCompleteHandle handle.id)
  | (status, _) => .ret (.error status, engine)

def issueMemcpy (answers : TransferAnswers) (ops : List HixlOneSideOpDesc)
    (handle : UbMemCompleteHandle) (engine : UbMemEngine) :
    EngineProg (Status × UbMemCompleteHandle × UbMemEngine) :=
  if !(List.range ops.length).all answers.copyOp then
    .ret (.failed, handle, engine)
  else if !answers.copyFlag then .ret (.failed, handle, engine)
  else .ret (.success, handle, engine)

def launchRequest (request : TransferRequest) (engine : UbMemEngine)
    (slot : SlotHandle) : LaunchRequest where
  slot := ⟨slot.notifyId, slot.thread.getD 0⟩
  isGet := request.isGet
  timeoutMs := request.timeoutMs
  sqeFormat := engine.sqeFormat

/-- Launch the kernels of a transfer on its slot, which counts the tasks. -/
def launchOnSlot (request : TransferRequest) (answers : TransferAnswers)
    (handle : UbMemCompleteHandle) (engine : UbMemEngine) : EngineProg (Status × UbMemEngine) :=
  .call (.ensureUbMemStream (engine.slotObjects handle.slot)) fun
    | (.success, slot) =>
      let result := launchAicpuChunks (engine.launchRequest request slot)
        true answers.kernelOk answers.launches engine.config
        (if handle.statusCount = 0 then none else some handle.statusCount)
        handle.descCount answers.counters
      let launched := (result.launches.map fun param => param.descCount).sum
      .ret (result.status, engine.updateSlotObject handle.slot
        { slot with launchedTasks := slot.launchedTasks + launched })
    | (status, slot) => .ret (status, engine.updateSlotObject handle.slot slot)

def issueAicpu (request : TransferRequest) (answers : TransferAnswers)
    (ops : List HixlOneSideOpDesc) (handle : UbMemCompleteHandle) (engine : UbMemEngine) :
    EngineProg (Status × UbMemCompleteHandle × UbMemEngine) :=
  match prepareAicpuDescBuf request.isGet ops with
  | .error status => .ret (status, handle, engine)
  | .ok descs =>
    if !answers.allocDescBuf then .ret (.failed, handle, engine)
    else
      let handle := { handle with descCount := descs.length }
      let kernelCount := calculateAicpuKernelCount handle.descCount
        engine.config.maxTransferCountPerBatch
      if kernelCount ≠ 0 ∧ !answers.allocStatusBuf then
        .ret (.failed, handle, engine)
      else do
        let handle := { handle with statusCount := kernelCount }
        let (status, engine) ← engine.launchOnSlot request answers handle
        if status ≠ .success then return (status, handle, engine)
        else if !answers.copyFlag then return (.failed, handle, engine)
        else return (.success, handle, engine)

def submitMemcpyAsync (request : TransferRequest) (answers : TransferAnswers)
    (engine : UbMemEngine) : EngineProg (Except Status UbMemCompleteHandle × UbMemEngine) :=
  submitThrough answers (issueMemcpy answers) request.ops engine

def submitAicpuAsync (request : TransferRequest) (answers : TransferAnswers)
    (engine : UbMemEngine) : EngineProg (Except Status UbMemCompleteHandle × UbMemEngine) :=
  submitThrough answers (issueAicpu request answers) request.ops engine

/-- Asynchronous transfers run with the default deadline of the device. -/
def submitAsync (request : TransferRequest) (answers : TransferAnswers) (engine : UbMemEngine) :
    EngineProg (Except Status UbMemCompleteHandle × UbMemEngine) :=
  if request.ops.length = 0 then .ret (.error .paramInvalid, engine)
  else if engine.useMemcpyMode then submitMemcpyAsync request answers engine
  else submitAicpuAsync { request with timeoutMs := 0 } answers engine

/-- What a status query finds: whether the completion flag of the transfer is
set, and the downloaded status words. -/
structure QueryAnswers where
  flagDone : Bool
  download : Option (List ℕ)

def checkAicpuStatus (download : Option (List ℕ)) (handle : UbMemCompleteHandle) : Status :=
  if handle.statusCount = 0 then .success
  else
    match download with
    | none => .failed
    | some statuses => if statuses.all (· = 0) then .success else .failed

/-- A handle that is not pending was deleted; it is refused. -/
def checkStatus (id : ℕ) (answers : QueryAnswers) (engine : UbMemEngine) :
    EngineProg ((Status × Option HixlCompleteStatus) × UbMemEngine) :=
  match engine.pendingHandles.find? fun handle => handle.id = id with
  | none => .ret ((.paramInvalid, none), engine)
  | some handle =>
    if answers.flagDone then
      let launchStatus := checkAicpuStatus answers.download handle
      let engine := engine.releaseUbMemCompleteHandle id
      if launchStatus ≠ .success then
        .ret ((launchStatus, some .failed), engine)
      else .ret ((.success, some .completed), engine)
    else do
      let failed ← slotErrFlagSet (engine.slotObjects handle.slot)
      if failed then
        return ((.success, some .failed), engine.releaseUbMemCompleteHandle id)
      else return ((.success, some .waiting), engine)

/-- The answers of the environment while a synchronous transfer is waited for:
the result of waiting for the stream and the downloaded status words, or the
completion flag at the first and at the further polls, at the last of which
the deadline has passed. -/
structure SyncAnswers where
  synchronize : Status
  download : Option (List ℕ)
  firstPoll : Bool
  polls : List Bool

def submitAicpuSync (request : TransferRequest) (answers : TransferAnswers)
    (sync : SyncAnswers) (engine : UbMemEngine) : EngineProg (Status × UbMemEngine) := do
  let (submitted, engine) ← submitAicpuAsync request answers engine
  match submitted with
  | .error status => return (status, engine)
  | .ok handle =>
    if sync.synchronize ≠ .success then
      setSlotErrFlag (engine.slotObjects handle.slot)
      return (sync.synchronize, engine.releaseUbMemCompleteHandle handle.id)
    else
      let status := checkAicpuStatus sync.download handle
      if status ≠ .success then
        return (status, engine.releaseUbMemCompleteHandle handle.id)
      else return (.success, engine)

def memcpySyncLoop (handle : UbMemCompleteHandle) (flagDone : Bool)
    (polls : List Bool) (engine : UbMemEngine) : EngineProg (Status × UbMemEngine) := do
  let ((status, complete), engine) ← checkStatus handle.id ⟨flagDone, none⟩ engine
  if status ≠ .success then
    return (status, engine.releaseUbMemCompleteHandle handle.id)
  else if complete = some .failed then return (.failed, engine)
  else if complete = some .completed then return (.success, engine)
  else
    match polls with
    | [] => do
        setSlotErrFlag (engine.slotObjects handle.slot)
        return (.timeout, engine.releaseUbMemCompleteHandle handle.id)
    | next :: rest => memcpySyncLoop handle next rest engine

def submitMemcpySync (request : TransferRequest) (answers : TransferAnswers)
    (sync : SyncAnswers) (engine : UbMemEngine) : EngineProg (Status × UbMemEngine) := do
  let (submitted, engine) ← submitMemcpyAsync request answers engine
  match submitted with
  | .error status => return (status, engine)
  | .ok handle => memcpySyncLoop handle sync.firstPoll sync.polls engine

def submitSync (request : TransferRequest) (answers : TransferAnswers)
    (sync : SyncAnswers) (engine : UbMemEngine) : EngineProg (Status × UbMemEngine) :=
  if request.ops.length = 0 then .ret (.paramInvalid, engine)
  else if engine.useMemcpyMode then
    submitMemcpySync request answers sync engine
  else submitAicpuSync request answers sync engine

def abortPendingLoop (engine : UbMemEngine) :
    List ℕ → List UbMemCompleteHandle → EngineProg UbMemEngine
  | _, [] => .ret engine
  | abortedSlots, handle :: rest =>
    let slot := engine.slotObjects handle.slot
    if slot.slotIndex ∈ abortedSlots then
      abortPendingLoop engine abortedSlots rest
    else do
      abortUbMemSlot slot
      abortPendingLoop engine (slot.slotIndex :: abortedSlots) rest

def abortPendingHandles (engine : UbMemEngine) : EngineProg UbMemEngine :=
  abortPendingLoop { engine with pendingHandles := [] } [] engine.pendingHandles

def finalize (engine : UbMemEngine) : EngineProg UbMemEngine := do
  let engine ← engine.abortPendingHandles
  match engine.activeSlot with
  | none => return engine
  | some slotRef =>
    abortUbMemSlot (engine.slotObjects slotRef)
    return { engine with activeSlot := none }

end UbMemEngine

inductive EngineOp where
  | submitAsync (request : TransferRequest) (answers : TransferAnswers)
  | submitSync (request : TransferRequest) (answers : TransferAnswers)
      (sync : UbMemEngine.SyncAnswers)
  | checkStatus (id : ℕ) (answers : UbMemEngine.QueryAnswers)
  | finalize

def EngineOp.program (engine : UbMemEngine) : EngineOp → EngineProg UbMemEngine
  | .submitAsync request answers => Prod.snd <$> engine.submitAsync request answers
  | .submitSync request answers sync => Prod.snd <$> engine.submitSync request answers sync
  | .checkStatus id answers => Prod.snd <$> engine.checkStatus id answers
  | .finalize => engine.finalize

def UbMemEngine.fresh (useMemcpyMode : Bool) (config : UbMemClientConfig)
    (sqeFormat : UbMemStarsSqeFormat) : UbMemEngine where
  useMemcpyMode := useMemcpyMode
  config := config
  sqeFormat := sqeFormat
  activeSlot := none
  slotObjects := fun _ => TransferPool.fillHandleFromSlot 0 0 emptySlot none
  nextRef := 0
  pendingHandles := []
  nextHandle := 0

def memcpyEngine : UbMemEngine :=
  UbMemEngine.fresh true ⟨⟨defaultMaxTransferCountPerBatch, default_in_range⟩,
      default_fixed_queue⟩ .starsV1

def oneByteRead : TransferRequest where
  isGet := true
  ops := [{ remoteBuf := 4096, localBuf := 64, len := 1 }]
  timeoutMs := 1000

def transferAccepted : TransferAnswers where
  index := some [⟨4096, ⟨8192, 4096, true⟩⟩]
  allocHostFlag := true
  allocHandle := true
  copyOp := fun _ => true
  allocDescBuf := true
  allocStatusBuf := true
  kernelOk := true
  launches := fun _ => readyAnswers
  counters := fun _ => 0
  copyFlag := true

def runtimeReady : RuntimeAnswers where
  abort := slotRebuilt
  createStream := some 7

end Hixl
