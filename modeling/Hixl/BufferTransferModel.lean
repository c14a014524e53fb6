import Hixl.IdlePools
import Hixl.MachineWords
import Hixl.StagedCopies

/-!
# Buffered transfers

`BufferTransferService` moves data through staging buffers of `buffer_size_`
bytes on both sides.  `DoTransferTask` packs small operations into one buffer
and cuts large ones; each buffer goes to the peer as a `BufferReq`.  For a write
the client fills its buffer and the peer copies the slices out; for a read the
client copies them out when the `BufferResp` arrives.

The answers of the runtime and of the network are arguments.  A function returns
its status with the slices that it has handed to the runtime; after a failure
any of them may have been copied.
-/

namespace Hixl.Adxl

open StagedCopies

def addressSpace : ℕ := 2 ^ 64

def kTimeoutLoss : ℕ := 100

def kBlockSize : ℕ := 512 * 1024

def kMemcpyBatchLimit : ℕ := 4096

inductive TransferType where
  | writeH2RH
  | readRH2H
  | writeH2RD
  | readRH2D
  | writeD2RH
  | readRD2H
  | writeD2RD
  | readRD2D
  deriving DecidableEq, Repr

def isReadTransferType : TransferType → Bool
  | .readRH2H | .readRD2H | .readRH2D | .readRD2D => true
  | _ => false

structure TransferOpDesc where
  localAddr : ℕ
  remoteAddr : ℕ
  len : ℕ
  deriving DecidableEq, Repr

/-- The transfer type of a message is `none` when its number is `kEnd` or
outside of the enumeration. -/
structure BufferReq where
  transferType : Option TransferType := none
  reqId : ℕ := 0
  timeout : ℕ := 0
  srcAddrs : List ℕ := []
  bufferAddr : ℕ := 0
  dstAddrs : List ℕ := []
  bufferLens : List ℕ := []
  totalBufferLen : ℕ := 0
  localBufferAddr : ℕ := 0
  deriving DecidableEq, Repr

structure BufferResp where
  transferType : Option TransferType := none
  reqId : ℕ := 0
  timeout : ℕ := 0
  srcAddrs : List ℕ := []
  bufferAddr : ℕ := 0
  bufferLens : List ℕ := []
  totalBufferLen : ℕ := 0
  deriving DecidableEq, Repr

structure StagingBuffer (bufferSize : ℕ) where
  addr : ℕ
  fits : addr + bufferSize < addressSpace

/-- One look of `TryGetBuffer` at `buff_addr_idles_`. -/
def tryGetBuffer (pool : IdlePools.Pool ℕ) : Option (ℕ × IdlePools.Pool ℕ) :=
  IdlePools.take pool

def releaseBuffer (bufferAddr : ℕ) (pool : IdlePools.Pool ℕ) : IdlePools.Pool ℕ :=
  if bufferAddr = 0 then pool else IdlePools.release bufferAddr pool

inductive MemcpyKind where
  | hostToDevice
  | deviceToHost
  | deviceToDevice
  deriving DecidableEq, Repr

/-- What comes of a call of `aclrtMemcpyBatch` and of the time checks before
it. -/
inductive BatchAnswer where
  | done
  | failed
  | unsupported
  | timeout
  deriving DecidableEq, Repr

structure CopyEnv where
  supportBatchCopyBatch : Bool
  batch : ℕ → BatchAnswer
  async : Status

def processCopyWithAsync (env : CopyEnv) (slices : List Slice) : Status × List Slice :=
  (env.async, slices)

/-- The loop over the batches; `left` are the slices that are not copied
yet. -/
def processCopyLoop (env : CopyEnv) (slices : List Slice) : ℕ → ℕ → List Slice → Status × List Slice
  | 0, _, _ => (.success, [])
  | fuel + 1, index, left =>
    if left.isEmpty then (.success, [])
    else
      match env.batch index with
      | .timeout => (.timeout, [])
      | .failed => (.failed, left.take kMemcpyBatchLimit)
      | .unsupported => processCopyWithAsync env slices
      | .done =>
        let rest := processCopyLoop env slices fuel (index + 1)
          (left.drop kMemcpyBatchLimit)
        (rest.1, left.take kMemcpyBatchLimit ++ rest.2)

def makeSlices (srcAddrs dstAddrs sizes : List ℕ) : List Slice :=
  List.zipWith (fun addrs size => ⟨addrs.1, addrs.2, size⟩) (srcAddrs.zip dstAddrs) sizes

def processCopy (env : CopyEnv) (kind : MemcpyKind)
    (srcAddrs dstAddrs sizes : List ℕ) : Status × List Slice :=
  if srcAddrs.length ≠ dstAddrs.length then (.paramInvalid, [])
  else if srcAddrs.length ≠ sizes.length then (.paramInvalid, [])
  else
    let slices := makeSlices srcAddrs dstAddrs sizes
    if kind = .deviceToDevice || !env.supportBatchCopyBatch then
      processCopyWithAsync env slices
    else processCopyLoop env slices slices.length 0 slices

/-! ## The client -/

structure Block where
  src : ℕ
  dst : ℕ
  buffer : ℕ
  len : ℕ
  deriving DecidableEq, Repr

def batchBlocks (buffer : ℕ) : List TransferOpDesc → List Block
  | [] => []
  | op :: rest =>
    ⟨op.localAddr, op.remoteAddr, buffer, op.len⟩ :: batchBlocks (wrapAdd 64 buffer op.len) rest

/-- The loop of `GenerateBufferReq`; `fuel` bounds the number of rounds. -/
def generateBlocks : ℕ → ℕ → ℕ → ℕ → ℕ → List Block
  | 0, _, _, _, _ => []
  | fuel + 1, addr, remoteAddr, devBufferAddr, count =>
    if count = 0 then []
    else
      let blockCount := min kBlockSize count
      ⟨addr, remoteAddr, devBufferAddr, blockCount⟩ ::
        generateBlocks fuel (wrapAdd 64 addr blockCount) (wrapAdd 64 remoteAddr blockCount)
          (wrapAdd 64 devBufferAddr blockCount) (count - blockCount)

/-- A call of `FlushBatch`, or one round of `TransferLargeData`. -/
inductive SendCall where
  | flushBatch (ops : List TransferOpDesc)
  | largeData (addr remoteAddr count : ℕ)
  deriving DecidableEq, Repr

namespace SendCall

def blocks (devBuffer : ℕ) : SendCall → List Block
  | .flushBatch ops => batchBlocks devBuffer ops
  | .largeData addr remoteAddr count => generateBlocks count addr remoteAddr devBuffer count

def totalBufferLen : SendCall → ℕ
  | .flushBatch ops => ops.foldl (fun total op => wrapAdd 64 total op.len) 0
  | .largeData _ _ count => count

/-- The request as it is sent; only reads name the local addresses. -/
def bufferReq (type : TransferType) (reqId timeout devBuffer : ℕ)
    (call : SendCall) : BufferReq where
  transferType := some type
  reqId := reqId
  timeout := timeout
  srcAddrs := if isReadTransferType type then
    (call.blocks devBuffer).map Block.src else []
  bufferAddr := devBuffer
  dstAddrs := (call.blocks devBuffer).map Block.dst
  bufferLens := (call.blocks devBuffer).map Block.len
  totalBufferLen := call.totalBufferLen

end SendCall

/-- The loop of `TransferLargeData`; `fuel` bounds the number of rounds. -/
def transferLargeData (bufferSize : ℕ) : ℕ → ℕ → ℕ → ℕ → List SendCall
  | 0, _, _, _ => []
  | fuel + 1, leftSize, addr, remoteAddr =>
    if leftSize = 0 then []
    else
      let count := min bufferSize leftSize
      .largeData addr remoteAddr count :: transferLargeData bufferSize fuel (leftSize - count)
          (wrapAdd 64 addr count) (wrapAdd 64 remoteAddr count)

/-- The calls that `DoTransferTask` makes, in order; the first one that fails
ends it. -/
def doTransferTask (bufferSize : ℕ) (currentBatch : List TransferOpDesc)
    (currentBatchSize : ℕ) : List TransferOpDesc → List SendCall
  | [] => if currentBatch.isEmpty then [] else [.flushBatch currentBatch]
  | op :: rest =>
    if bufferSize ≤ op.len then
      transferLargeData bufferSize op.len op.len op.localAddr op.remoteAddr ++
        doTransferTask bufferSize currentBatch currentBatchSize rest
    else if bufferSize < wrapAdd 64 currentBatchSize op.len then
      .flushBatch currentBatch :: doTransferTask bufferSize [op] (wrapAdd 64 0 op.len) rest
    else
      doTransferTask bufferSize (currentBatch ++ [op]) (wrapAdd 64 currentBatchSize op.len) rest

def clientWriteKind : TransferType → MemcpyKind
  | .writeD2RH | .writeD2RD => .deviceToDevice
  | _ => .hostToDevice

def clientCopy (type : TransferType) (env : CopyEnv) (blocks : List Block) : Status × List Slice :=
  if isReadTransferType type then (.success, [])
  else
    processCopy env (clientWriteKind type) (blocks.map Block.src)
      (blocks.map Block.buffer) (blocks.map Block.len)

structure SendEnv (bufferSize : ℕ) where
  buffer : Option (StagingBuffer bufferSize)
  inTime : Bool
  inTimeAfter : Bool
  copy : CopyEnv
  timeout : ℕ
  send : Status

/-- A request that has been sent, and the slices that the client has copied for
it before. -/
structure SentReq where
  req : BufferReq
  copied : List Slice
  deriving DecidableEq, Repr

/-- `TransferLargeData` looks at the time again after sending. -/
def SendCall.statusAfter (inTimeAfter : Bool) : SendCall → Status
  | .flushBatch _ => .success
  | .largeData _ _ _ => if inTimeAfter then .success else .timeout

def SendCall.run {bufferSize : ℕ} (type : TransferType) (reqId : ℕ)
    (env : SendEnv bufferSize) (call : SendCall) : Status × Option SentReq :=
  match env.buffer with
  | none => (.timeout, none)
  | some buffer =>
    if !env.inTime then (.timeout, none)
    else
      let copied := clientCopy type env.copy (call.blocks buffer.addr)
      if copied.1 ≠ .success then (copied.1, none)
      else if env.send ≠ .success then (env.send, none)
      else
        (call.statusAfter env.inTimeAfter,
          some ⟨call.bufferReq type reqId env.timeout buffer.addr, copied.2⟩)

def runCalls {bufferSize : ℕ} (type : TransferType) (reqId : ℕ) (env : ℕ → SendEnv bufferSize) :
    ℕ → List SendCall → Status × List SentReq
  | _, [] => (.success, [])
  | index, call :: rest =>
    let result := call.run type reqId (env index)
    if result.1 ≠ .success then (result.1, result.2.toList)
    else
      let later := runCalls type reqId env (index + 1) rest
      (later.1, result.2.toList ++ later.2)

def sumBufferLens (bufferLens : List ℕ) : Option ℕ := bufferLens.foldlM (checkedAdd 64) 0

def validatePeerBufferReq (bufferSize : ℕ) (req : BufferReq) : Status :=
  if req.transferType.isNone then .paramInvalid
  else if req.dstAddrs.length ≠ req.bufferLens.length then .paramInvalid
  else if bufferSize < req.totalBufferLen then .paramInvalid
  else
    match sumBufferLens req.bufferLens with
    | none => .paramInvalid
    | some lensSum =>
      if lensSum ≠ req.totalBufferLen then .paramInvalid else .success

def sliceAddrs (baseAddr maxTotalLen : ℕ) : ℕ → List ℕ → Option (List ℕ)
  | _, [] => some []
  | accumulated, len :: rest => do
      let sliceAddr ← checkedAdd 64 baseAddr accumulated
      let accumulated ← checkedAdd 64 accumulated len
      if accumulated ≤ maxTotalLen then
        let addrs ← sliceAddrs baseAddr maxTotalLen accumulated rest
        return sliceAddr :: addrs
      else none

def buildBufferSliceAddrs (baseAddr : ℕ) (bufferLens : List ℕ)
    (count maxTotalLen : ℕ) : Option (List ℕ) :=
  if bufferLens.length < count then none
  else sliceAddrs baseAddr maxTotalLen 0 (bufferLens.take count)

/-- The slice of `D2DTransfer`: the server fetches the buffer of a write and
sends the buffer of a read. -/
def d2dSlice (req : BufferReq) : Slice :=
  if req.transferType.any isReadTransferType then
    ⟨req.localBufferAddr, req.bufferAddr, req.totalBufferLen⟩
  else ⟨req.bufferAddr, req.localBufferAddr, req.totalBufferLen⟩

/-- The transfer of `HandleBufferD2D`, once the server has its buffer. -/
def serverD2D (bufferSize : ℕ) (d2d : Status) (req : BufferReq) : Status × List Slice :=
  if validatePeerBufferReq bufferSize req ≠ .success then (.paramInvalid, [])
  else (d2d, [d2dSlice req])

def processBufferCopyByType (env : CopyEnv) (req : BufferReq)
    (copyBuffAddrs : List ℕ) : Status × List Slice :=
  match req.transferType with
  | some .readRD2H | some .readRD2D =>
    processCopy env .deviceToDevice req.dstAddrs copyBuffAddrs req.bufferLens
  | some .readRH2H | some .readRH2D =>
    processCopy env .hostToDevice req.dstAddrs copyBuffAddrs req.bufferLens
  | some .writeH2RD | some .writeD2RD =>
    processCopy env .deviceToDevice copyBuffAddrs req.dstAddrs req.bufferLens
  | _ => processCopy env .deviceToHost copyBuffAddrs req.dstAddrs
      req.bufferLens

/-- The copy of `HandleBufferCopy`, once the server has its buffer. -/
def serverCopy (bufferSize : ℕ) (env : CopyEnv) (req : BufferReq) : Status × List Slice :=
  if validatePeerBufferReq bufferSize req ≠ .success then (.paramInvalid, [])
  else
    match buildBufferSliceAddrs req.localBufferAddr req.bufferLens
      req.dstAddrs.length bufferSize with
    | none => (.paramInvalid, [])
    | some copyBuffAddrs => processBufferCopyByType env req copyBuffAddrs

/-- The response that `HandleCtrlMsg` sends. -/
def handleCtrlMsg (req : BufferReq) : BufferResp where
  transferType := req.transferType
  reqId := req.reqId
  timeout := req.timeout
  srcAddrs := req.srcAddrs
  bufferAddr := req.bufferAddr
  bufferLens := req.bufferLens
  totalBufferLen := req.totalBufferLen

def resolveReadCopyTotalLen (resp : BufferResp) : Option ℕ := do
  let lensSum ← sumBufferLens resp.bufferLens
  if resp.totalBufferLen = 0 then return lensSum
  else if resp.totalBufferLen ≠ lensSum then none
  else return resp.totalBufferLen

def clientReadKind : Option TransferType → MemcpyKind
  | some .readRH2D | some .readRD2D => .deviceToDevice
  | _ => .deviceToHost

def processBufferReadCopyResp (bufferSize : ℕ) (env : CopyEnv)
    (resp : BufferResp) : Status × List Slice :=
  if resp.srcAddrs.length ≠ resp.bufferLens.length then (.failed, [])
  else
    match resolveReadCopyTotalLen resp with
    | none => (.paramInvalid, [])
    | some maxTotalLen =>
      if bufferSize < maxTotalLen then (.paramInvalid, [])
      else
        match buildBufferSliceAddrs resp.bufferAddr resp.bufferLens
          resp.srcAddrs.length maxTotalLen with
        | none => (.paramInvalid, [])
        | some bufferAddrs =>
          processCopy env (clientReadKind resp.transferType) bufferAddrs
            resp.srcAddrs resp.bufferLens

/-- The copy of `HandleBufferResp`, for a response that names a buffer of its
request. -/
def handleBufferRespCopy (bufferSize : ℕ) (env : CopyEnv)
    (resp : BufferResp) : Status × List Slice :=
  if resp.transferType.any isReadTransferType && !resp.srcAddrs.isEmpty then
    processBufferReadCopyResp bufferSize env resp
  else (.success, [])

end Hixl.Adxl
