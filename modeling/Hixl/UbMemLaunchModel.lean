import Hixl.MemStoreModel

/-!
# Host side of the queued copy path

Translated operations are split at the length field of a queue entry, copied
into a descriptor buffer, and handed to the device in launches of at most 128
descriptors.  The last launch of a batch requests a notify record, for which the
host waits.  Each launch reserves its task ids from a counter of its queue.
-/

namespace Hixl

def defaultMaxTransferCountPerBatch : ℕ := 1920

def maxTransferCountLimit : ℕ := 32766

def maxFixedQueueTransferCountPerBatch : ℕ := 1920

structure TransferConfig where
  maxTransferCountPerBatch : ℕ
  in_range : 1 ≤ maxTransferCountPerBatch ∧
    maxTransferCountPerBatch ≤ maxTransferCountLimit

theorem default_in_range : 1 ≤ defaultMaxTransferCountPerBatch ∧
      defaultMaxTransferCountPerBatch ≤ maxTransferCountLimit := by
  decide

def parseTransferConfig : Option ℤ → Except Status TransferConfig
  | none => .ok ⟨defaultMaxTransferCountPerBatch, default_in_range⟩
  | some val =>
    if hout : val < 1 ∨ val > (maxTransferCountLimit : ℤ) then
      .error .paramInvalid
    else .ok ⟨val.toNat, by omega⟩

/-- The configuration of a client over the queued copy path, whose queue has a
fixed depth. -/
structure UbMemClientConfig extends TransferConfig where
  fixed_queue :
    maxTransferCountPerBatch ≤ maxFixedQueueTransferCountPerBatch

theorem default_fixed_queue :
    defaultMaxTransferCountPerBatch ≤ maxFixedQueueTransferCountPerBatch := by
  decide

def parseUbMemClientConfig (value : Option ℤ) : Except Status UbMemClientConfig :=
  match parseTransferConfig value with
  | .error status => .error status
  | .ok config =>
    if hfixed : config.maxTransferCountPerBatch ≤ maxFixedQueueTransferCountPerBatch then
      .ok { config with fixed_queue := hfixed }
    else .error .paramInvalid

structure UbMemAicpuTransferDesc where
  srcAddr : ℕ
  dstAddr : ℕ
  length : ℕ
  deriving DecidableEq, Repr

/-- The largest length that fits into the length field of a queue entry. -/
def maxSdmaTransferBytes : ℕ := 2 ^ 32 - 1

def splitLoop : ℕ → ℕ → ℕ → ℕ → List UbMemAicpuTransferDesc
  | 0, _, _, _ => []
  | fuel + 1, srcAddr, dstAddr, len =>
    if 0 < len then
      let blockSize := min len maxSdmaTransferBytes
      { srcAddr, dstAddr, length := blockSize } ::
        splitLoop fuel (srcAddr + blockSize) (dstAddr + blockSize) (len - blockSize)
    else []

def appendSplitDescs (srcAddr dstAddr len : ℕ) (dst : List UbMemAicpuTransferDesc) :
    Status × List UbMemAicpuTransferDesc :=
  if ¬(srcAddr ≠ 0 ∧ dstAddr ≠ 0 ∧ len > 0) then (.paramInvalid, dst)
  else if ¬(len ≤ wordMax 64 - srcAddr ∧ len ≤ wordMax 64 - dstAddr) then
    (.paramInvalid, dst)
  else (.success, dst ++ splitLoop len srcAddr dstAddr len)

def opSource (isGet : Bool) (op : HixlOneSideOpDesc) : ℕ :=
  if isGet then op.remoteBuf else op.localBuf

def opDestination (isGet : Bool) (op : HixlOneSideOpDesc) : ℕ :=
  if isGet then op.localBuf else op.remoteBuf

def buildLoop (isGet : Bool) (dst : List UbMemAicpuTransferDesc) :
    List HixlOneSideOpDesc → Status × List UbMemAicpuTransferDesc
  | [] => (.success, dst)
  | op :: rest =>
    match appendSplitDescs (opSource isGet op) (opDestination isGet op) op.len dst with
    | (.success, dst) => buildLoop isGet dst rest
    | (status, dst) => (status, dst)

def buildUbMemTransferDescs (isGet : Bool) (ops : List HixlOneSideOpDesc) :
    Status × List UbMemAicpuTransferDesc :=
  if ops.length = 0 then (.paramInvalid, []) else buildLoop isGet [] ops

/-- The descriptor buffer: the descriptors must be countable in 32 bits. -/
def prepareAicpuDescBuf (isGet : Bool) (ops : List HixlOneSideOpDesc) :
    Except Status (List UbMemAicpuTransferDesc) :=
  match buildUbMemTransferDescs isGet ops with
  | (.success, descs) =>
    if descs.length ≤ wordMax 32 then .ok descs else .error .paramInvalid
  | (status, _) => .error status

structure Chunk where
  offset : ℕ
  listNum : ℕ
  needNotifyWait : Bool
  deriving DecidableEq, Repr

def maxKernelBatchSize : ℕ := 128

/-- The loop that both launch functions share.  Every round takes at least one
descriptor when the batch size is not zero, so that the number of descriptors
is enough fuel. -/
def chunkLoop (batchSize descCount : ℕ) : ℕ → ℕ → ℕ → List Chunk
  | 0, _, _ => []
  | fuel + 1, chunkOffset, batchRemaining =>
    if chunkOffset < descCount then
      let chunkListNum := min (min maxKernelBatchSize batchRemaining) (descCount - chunkOffset)
      let batchRemaining := batchRemaining - chunkListNum
      { offset := chunkOffset
        listNum := chunkListNum
        needNotifyWait := batchRemaining = 0 ∨
          chunkOffset + chunkListNum = descCount } ::
        chunkLoop batchSize descCount fuel (chunkOffset + chunkListNum)
          (if batchRemaining = 0 then batchSize else batchRemaining)
    else []

def chunkPlan (batchSize descCount : ℕ) : List Chunk :=
  chunkLoop batchSize descCount descCount 0 batchSize

def calculateAicpuKernelCount (descCount batchSize : ℕ) : ℕ :=
  if descCount = 0 ∨ batchSize = 0 then 0
  else
    let fullBatchCount := descCount / batchSize
    let tailCount := descCount % batchSize
    let launchesPerFullBatch :=
      wrapAdd 32 (batchSize / maxKernelBatchSize)
        (if batchSize % maxKernelBatchSize ≠ 0 then 1 else 0)
    let tailLaunches :=
      wrapAdd 32 (tailCount / maxKernelBatchSize)
        (if tailCount % maxKernelBatchSize ≠ 0 then 1 else 0)
    wrapAdd 32 (wrapMul 32 fullBatchCount launchesPerFullBatch) tailLaunches

/-! ## Kernel launches -/

abbrev TaskIdCounters := ℕ → ℕ

def reserveRtsqTaskIds (counters : TaskIdCounters) (sqId taskCount : ℕ) : ℕ × TaskIdCounters :=
  let firstTaskId := counters sqId
  (firstTaskId, Function.update counters sqId (wrapAdd 32 firstTaskId taskCount))

inductive UbMemStarsSqeFormat where
  | starsV1
  | starsV2
  deriving DecidableEq, Repr

structure UbMemAicpuKernelParam where
  chunkOffset : ℕ
  descCount : ℕ
  isGet : Bool
  deviceId : ℕ
  rtsqId : ℕ
  rtsqStreamId : ℕ
  rtsqLogicCqId : ℕ
  rtsqTaskId : ℕ
  timeoutMs : ℕ
  notifyId : ℕ
  emitNotifyRecord : ℕ
  transferCtxKey : ℕ
  version : ℕ
  sqeFormat : ℕ
  statusIndex : Option ℕ
  deriving DecidableEq, Repr

def kernelParamVersion : ℕ := 2

/-- What the runtime answers about the worker stream of a slot; a failing call
gives no value. -/
structure RtsqAnswers where
  streamId : Option ℤ
  sqId : Option ℕ
  logicCqId : Option ℕ
  physicalDeviceId : Option ℤ

structure LaunchSlot where
  notifyId : ℕ
  thread : ℕ

structure LaunchRequest where
  slot : LaunchSlot
  isGet : Bool
  timeoutMs : ℕ
  sqeFormat : UbMemStarsSqeFormat

def UbMemStarsSqeFormat.code : UbMemStarsSqeFormat → ℕ
  | .starsV1 => 0
  | .starsV2 => 1

def fillRtsqMeta (answers : RtsqAnswers) (taskCount : ℕ)
    (counters : TaskIdCounters) (param : UbMemAicpuKernelParam) :
    Except Status (UbMemAicpuKernelParam × TaskIdCounters) :=
  if taskCount = 0 then .error .paramInvalid
  else
    match answers.streamId with
    | none => .error .failed
    | some streamId =>
      if ¬(0 ≤ streamId ∧ streamId ≤ (wordMax 16 : ℤ)) then
        .error .notSupported
      else
        match answers.sqId, answers.logicCqId, answers.physicalDeviceId with
        | some sqId, some logicCqId, some physicalDeviceId =>
          if physicalDeviceId < 0 then .error .notSupported
          else
            let (first, counters) := reserveRtsqTaskIds counters sqId taskCount
            .ok ({ param with
              deviceId := physicalDeviceId.toNat
              rtsqId := sqId
              rtsqStreamId := streamId.toNat
              rtsqLogicCqId := logicCqId
              rtsqTaskId := first % 2 ^ 16 }, counters)
        | _, _, _ => .error .notSupported

def fillUbMemKernelParam (request : LaunchRequest) (answers : RtsqAnswers)
    (chunk : Chunk) (counters : TaskIdCounters) :
    Except Status (UbMemAicpuKernelParam × TaskIdCounters) :=
  if chunk.listNum = 0 then .error .paramInvalid
  else if request.slot.thread = 0 then .error .paramInvalid
  else
    let emitNotify := if chunk.needNotifyWait then 1 else 0
    fillRtsqMeta answers (wrapAdd 32 chunk.listNum emitNotify) counters
      { chunkOffset := chunk.offset
        descCount := chunk.listNum
        isGet := request.isGet
        deviceId := 0
        rtsqId := 0
        rtsqStreamId := 0
        rtsqLogicCqId := 0
        rtsqTaskId := 0
        timeoutMs := request.timeoutMs
        notifyId := request.slot.notifyId
        emitNotifyRecord := emitNotify
        transferCtxKey := request.slot.thread
        version := kernelParamVersion
        sqeFormat := request.sqeFormat.code
        statusIndex := none }

structure LaunchAnswers where
  rtsq : RtsqAnswers
  launchOk : Bool

structure LaunchResult where
  status : Status
  launches : List UbMemAicpuKernelParam
  counters : TaskIdCounters

/-- Launch one kernel for every chunk.  A status word is assigned to every
launch when there is a status buffer. -/
def launchLoop (request : LaunchRequest) (answers : ℕ → LaunchAnswers) (statusCount : Option ℕ) :
    ℕ → TaskIdCounters → List Chunk → LaunchResult
  | _, counters, [] => ⟨.success, [], counters⟩
  | statusOffset, counters, chunk :: rest =>
    match fillUbMemKernelParam request (answers statusOffset).rtsq chunk counters with
    | .error status => ⟨status, [], counters⟩
    | .ok (param, counters) =>
      if statusCount.any (· ≤ statusOffset) then
        ⟨.paramInvalid, [], counters⟩
      else if !(answers statusOffset).launchOk then
        ⟨.failed, [], counters⟩
      else
        let param :=
          { param with statusIndex := statusCount.map fun _ => statusOffset }
        let result := launchLoop request answers statusCount
          (statusOffset + 1) counters rest
        { result with launches := param :: result.launches }

/-- The worker stream and the kernel must be available before the loop. -/
def launchAicpuChunks (request : LaunchRequest) (streamOk kernelOk : Bool)
    (answers : ℕ → LaunchAnswers) (config : UbMemClientConfig)
    (statusCount : Option ℕ) (descCount : ℕ) (counters : TaskIdCounters) : LaunchResult :=
  if !streamOk then ⟨.failed, [], counters⟩
  else if !kernelOk then ⟨.notSupported, [], counters⟩
  else
    launchLoop request answers statusCount 0 counters
      (chunkPlan config.maxTransferCountPerBatch descCount)

def deviceLaunchLoop (launchOk : ℕ → Bool) : ℕ → List Chunk → Status × List Chunk
  | _, [] => (.success, [])
  | chunkIdx, chunk :: rest =>
    if launchOk chunkIdx then
      let (status, launched) := deviceLaunchLoop launchOk (chunkIdx + 1) rest
      (status, chunk :: launched)
    else (.failed, [])

/-- The device path of the client; its batch size is fixed on communication
libraries that cannot be configured. -/
def launchDeviceChunkedKernels (configurableTransferSupported : Bool)
    (config : TransferConfig) (launchOk : ℕ → Bool) (listNum : ℕ) : Status × List Chunk :=
  deviceLaunchLoop launchOk 0 (chunkPlan
    (if configurableTransferSupported then config.maxTransferCountPerBatch
      else defaultMaxTransferCountPerBatch) listNum)

def readRequest : LaunchRequest where
  slot := ⟨7, 1⟩
  isGet := true
  timeoutMs := 1000
  sqeFormat := .starsV1

def readyAnswers : LaunchAnswers where
  rtsq := ⟨some 3, some 5, some 9, some 0⟩
  launchOk := true

end Hixl
