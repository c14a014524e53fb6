import Hixl.MachineWords

/-!
# The transfer slot pool

A pool owns a fixed number of slots, each with its own runtime context, stream,
worker thread and notify.  Clients acquire a slot, and give it back by a
release or by an abort.  An abort tears the slot down and builds it up again;
when that fails the slot is neither in use nor free.  Every call to the runtime
may fail, and its result is an answer of the environment.
-/

namespace Hixl

def maxPoolSize : ℕ := 8192

structure PoolSlot where
  inUse : Bool
  ctx : Option ℕ
  stream : Option ℕ
  thread : Option ℕ
  notify : Option ℕ
  notifyId : ℕ
  notifyAddr : ℕ
  notifyLen : ℕ
  errFlagAddr : Option ℕ
  launchedTasks : ℕ
  ubmemStream : Option ℕ
  deriving DecidableEq, Repr

def emptySlot : PoolSlot where
  inUse := false
  ctx := none
  stream := none
  thread := none
  notify := none
  notifyId := 0
  notifyAddr := 0
  notifyLen := 0
  errFlagAddr := none
  launchedTasks := 0
  ubmemStream := none

structure SlotHandle where
  deviceId : ℤ
  slotIndex : ℕ
  ctx : Option ℕ
  stream : Option ℕ
  thread : Option ℕ
  notify : Option ℕ
  devConstOne : Option ℕ
  notifyId : ℕ
  notifyAddr : ℕ
  notifyLen : ℕ
  errFlagAddr : Option ℕ
  launchedTasks : ℕ
  ubmemStream : Option ℕ
  deriving DecidableEq, Repr

/-- The slots and the error flags are indexed from 0 to the pool size. -/
structure TransferPool where
  deviceId : ℤ
  refCnt : ℕ
  inited : Bool
  poolSize : ℕ
  freeList : List ℕ
  slots : ℕ → PoolSlot
  errFlags : Option (ℕ → ℕ)
  devConstOne : Option ℕ

structure SlotAnswers where
  createContext : Option ℕ
  defaultStream : Option ℕ
  setFailureMode : Bool
  allocThread : Option ℕ
  createNotify : Option ℕ
  getNotifyId : Option ℕ

def andThen (result : Status × PoolSlot)
    (next : PoolSlot → Status × PoolSlot) : Status × PoolSlot :=
  match result with
  | (.success, slot) => next slot
  | (status, slot) => (status, slot)

def ensureContext (answers : SlotAnswers) (slot : PoolSlot) : Status × PoolSlot :=
  if slot.ctx.isSome then (.success, slot)
  else
    match answers.createContext with
    | none => (.failed, slot)
    | some ctx => (.success, { slot with ctx := some ctx })

def ensureDefaultStream (answers : SlotAnswers) (slot : PoolSlot) : Status × PoolSlot :=
  if slot.stream.isSome then (.success, slot)
  else if slot.ctx.isNone then (.failed, slot)
  else
    match answers.defaultStream with
    | none => (.failed, slot)
    | some stream =>
      if answers.setFailureMode then
        (.success, { slot with stream := some stream })
      else (.failed, slot)

def ensureThread (answers : SlotAnswers) (slot : PoolSlot) : Status × PoolSlot :=
  if slot.thread.isSome then (.success, slot)
  else
    match answers.allocThread with
    | none => (.failed, slot)
    | some thread => (.success, { slot with thread := some thread })

def ensureNotify (answers : SlotAnswers) (slot : PoolSlot) : Status × PoolSlot :=
  if slot.notify.isSome then (.success, slot)
  else
    let slot := { slot with notifyId := 0, notifyAddr := 0, notifyLen := 0 }
    match answers.createNotify with
    | none => (.failed, slot)
    | some notify =>
      let slot := { slot with notify := some notify }
      match answers.getNotifyId with
      | none => (.failed, slot)
      | some notifyId => (.success, { slot with notifyId := notifyId })

def assignSlotErrFlag (errFlags : Option (ℕ → ℕ)) (index : ℕ) (slot : PoolSlot) : PoolSlot :=
  if errFlags.isSome then { slot with errFlagAddr := some index } else slot

def initOneSlot (answers : SlotAnswers) (errFlags : Option (ℕ → ℕ))
    (index : ℕ) (slot : PoolSlot) : Status × PoolSlot :=
  andThen (andThen (andThen (andThen (ensureContext answers { slot with launchedTasks := 0 })
    (ensureDefaultStream answers)) (ensureThread answers))
    (ensureNotify answers))
    fun slot => (.success, assignSlotErrFlag errFlags index slot)

namespace TransferPool

/-- The error flags may be allocated and not mapped: then the slots have none. -/
structure InitAnswers where
  createRtsContext : Bool
  loadKernels : Bool
  allocErrFlags : Bool
  mapErrFlags : Bool
  slots : ℕ → SlotAnswers
  allocDevConstOne : Option ℕ
  addContexts : Bool

def InitAnswers.errFlags (answers : InitAnswers) : Option (ℕ → ℕ) :=
  if answers.mapErrFlags then some fun _ => 0 else none

def deinitAllSlots (pool : TransferPool) : TransferPool :=
  { pool with
    inited := false
    poolSize := 0
    freeList := []
    slots := fun _ => emptySlot
    errFlags := none
    devConstOne := none }

def initSlotsLoop (answers : ℕ → SlotAnswers) (errFlags : Option (ℕ → ℕ)) :
    List ℕ → (ℕ → PoolSlot) → Status × (ℕ → PoolSlot)
  | [], slots => (.success, slots)
  | index :: rest, slots =>
    match initOneSlot (answers index) errFlags index (slots index) with
    | (.success, slot) => initSlotsLoop answers errFlags rest
        (Function.update slots index slot)
    | (status, slot) => (status, Function.update slots index slot)

def initializePool (answers : InitAnswers) (poolSize : ℕ)
    (pool : TransferPool) : Status × TransferPool :=
  if poolSize = 0 ∨ poolSize > maxPoolSize then (.paramInvalid, pool)
  else if pool.inited then
    if poolSize ≠ pool.poolSize then (.paramInvalid, pool)
    else (.success, { pool with refCnt := pool.refCnt + 1 })
  else if !answers.createRtsContext then (.failed, pool.deinitAllSlots)
  else if !answers.loadKernels then (.failed, pool.deinitAllSlots)
  else if !answers.allocErrFlags then (.failed, pool.deinitAllSlots)
  else
    let errFlags := answers.errFlags
    match initSlotsLoop answers.slots errFlags (List.range poolSize) fun _ => emptySlot with
    | (.success, slots) =>
      match answers.allocDevConstOne with
      | none => (.failed, pool.deinitAllSlots)
      | some devConstOne =>
        if !answers.addContexts then (.failed, pool.deinitAllSlots)
        else (.success,
          { pool with
            refCnt := 1
            inited := true
            poolSize := poolSize
            freeList := List.range poolSize
            slots := slots
            errFlags := errFlags
            devConstOne := some devConstOne })
    | (status, _) => (status, pool.deinitAllSlots)

def fresh (deviceId : ℤ) : TransferPool where
  deviceId := deviceId
  refCnt := 0
  inited := false
  poolSize := 0
  freeList := []
  slots := fun _ => emptySlot
  errFlags := none
  devConstOne := none

def fillHandleFromSlot (deviceId : ℤ) (index : ℕ) (slot : PoolSlot)
    (devConstOne : Option ℕ) : SlotHandle where
  deviceId := deviceId
  slotIndex := index
  ctx := slot.ctx
  stream := slot.stream
  thread := slot.thread
  notify := slot.notify
  devConstOne := devConstOne
  notifyId := slot.notifyId
  notifyAddr := slot.notifyAddr
  notifyLen := slot.notifyLen
  errFlagAddr := slot.errFlagAddr
  launchedTasks := slot.launchedTasks
  ubmemStream := slot.ubmemStream

def updateSlot (pool : TransferPool) (index : ℕ) (slot : PoolSlot) : TransferPool :=
  { pool with slots := Function.update pool.slots index slot }

def acquire (pool : TransferPool) : Except Status SlotHandle × TransferPool :=
  if !pool.inited then (.error .failed, pool)
  else
    match pool.freeList with
    | [] => (.error .resourceExhausted, pool)
    | index :: rest =>
      let slot := { pool.slots index with inUse := true }
      (.ok (fillHandleFromSlot pool.deviceId index slot pool.devConstOne),
        { pool with freeList := rest }.updateSlot index slot)

def resetSlotErrFlag (pool : TransferPool) (index : ℕ) : TransferPool :=
  { pool with errFlags := pool.errFlags.map (Function.update · index 0) }

def release (handle : SlotHandle) (pool : TransferPool) : TransferPool :=
  if handle.deviceId ≠ pool.deviceId then pool
  else if handle.slotIndex ≥ pool.poolSize then pool
  else
    let slot := pool.slots handle.slotIndex
    if !slot.inUse then pool
    else
      let pool := pool.resetSlotErrFlag handle.slotIndex
      { pool with freeList := pool.freeList ++ [handle.slotIndex] }.updateSlot
        handle.slotIndex
        { slot with launchedTasks := handle.launchedTasks, inUse := false }

def createUbMemStream (createStream : Option ℕ) (slot : PoolSlot) : Status × PoolSlot :=
  if slot.ubmemStream.isSome then (.success, slot)
  else if slot.ctx.isNone then (.failed, slot)
  else
    match createStream with
    | none => (.failed, slot)
    | some stream => (.success, { slot with ubmemStream := some stream })

def ensureUbMemStream (createStream : Option ℕ) (handle : SlotHandle)
    (pool : TransferPool) : (Status × SlotHandle) × TransferPool :=
  if !pool.inited then ((.failed, handle), pool)
  else if handle.deviceId ≠ pool.deviceId then ((.paramInvalid, handle), pool)
  else if handle.slotIndex ≥ pool.poolSize then ((.paramInvalid, handle), pool)
  else if !(pool.slots handle.slotIndex).inUse then ((.failed, handle), pool)
  else
    let (status, slot) := createUbMemStream createStream (pool.slots handle.slotIndex)
    if status = .success then
      ((.success, { handle with ubmemStream := slot.ubmemStream }),
        pool.updateSlot handle.slotIndex slot)
    else ((status, handle), pool)

def errFlagSet (pool : TransferPool) (index : ℕ) : Bool :=
  pool.errFlags.any fun flags => flags index ≠ 0

def setErrFlag (pool : TransferPool) (index : ℕ) : TransferPool :=
  { pool with errFlags := pool.errFlags.map (Function.update · index 1) }

/-- The answers of the runtime during an abort that decide its outcome; the
other calls are only logged when they fail. -/
structure AbortAnswers where
  slot : SlotAnswers
  addContext : Bool

def abortSlotRuntime (slot : PoolSlot) : PoolSlot :=
  { slot with stream := none, ubmemStream := none }

def deleteSlotThreadContextForAbort (slot : PoolSlot) : PoolSlot :=
  { slot with thread := none }

def destroySlotContextForAbort (slot : PoolSlot) : PoolSlot :=
  if slot.ctx.isSome then { slot with ctx := none, stream := none } else slot

def cleanupSlotAfterAbortReinitFailure (slot : PoolSlot) : PoolSlot :=
  { destroySlotContextForAbort (deleteSlotThreadContextForAbort slot) with
    inUse := false }

def reinitSlotAfterAbort (answers : AbortAnswers)
    (errFlags : Option (ℕ → ℕ)) (index : ℕ) (slot : PoolSlot) : Status × PoolSlot :=
  match initOneSlot answers.slot errFlags index slot with
  | (.success, slot) =>
    if answers.addContext then (.success, slot)
    else (.failed, cleanupSlotAfterAbortReinitFailure slot)
  | (status, slot) => (status, cleanupSlotAfterAbortReinitFailure slot)

def returnSlotToFreeList (pool : TransferPool) (index : ℕ) : TransferPool :=
  let pool := pool.resetSlotErrFlag index
  { pool with freeList := pool.freeList ++ [index] }.updateSlot index
    { pool.slots index with inUse := false }

def abortSlotByIndex (answers : AbortAnswers) (index : ℕ) (pool : TransferPool) : TransferPool :=
  if index ≥ pool.poolSize then pool
  else if !(pool.slots index).inUse then pool
  else
    let slot := destroySlotContextForAbort
      (deleteSlotThreadContextForAbort (abortSlotRuntime (pool.slots index)))
    match reinitSlotAfterAbort answers pool.errFlags index slot with
    | (.success, slot) => (pool.updateSlot index slot).returnSlotToFreeList
        index
    | (_, slot) => pool.updateSlot index slot

def abort (answers : AbortAnswers) (handle : SlotHandle) (pool : TransferPool) : TransferPool :=
  if !pool.inited then pool
  else if handle.deviceId ≠ pool.deviceId then pool
  else if handle.slotIndex ≥ pool.poolSize then pool
  else pool.abortSlotByIndex answers handle.slotIndex

end TransferPool

def slotBuilt : SlotAnswers where
  createContext := some 1
  defaultStream := some 2
  setFailureMode := true
  allocThread := some 3
  createNotify := some 4
  getNotifyId := some 5

def poolBuilt : TransferPool.InitAnswers where
  createRtsContext := true
  loadKernels := true
  allocErrFlags := true
  mapErrFlags := true
  slots := fun _ => slotBuilt
  allocDevConstOne := some 6
  addContexts := true

def slotRebuilt : TransferPool.AbortAnswers where
  slot := slotBuilt
  addContext := true

def builtPool (size : ℕ) : TransferPool := ((TransferPool.fresh 0).initializePool poolBuilt size).2

end Hixl
