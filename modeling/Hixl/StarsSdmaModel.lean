import Hixl.UbMemLaunchModel

/-!
# Device side of the queued copy path

A kernel turns its descriptors into queue entries, collects them in a batch of
at most 128 entries, and publishes the batch: it copies the entries into the
ring of the queue and moves the tail.  The hardware consumes entries at any time
and moves the head.  The driver and runtime calls of a publish are the answers
of an environment.
-/

namespace Hixl

structure SqeHeader where
  type : ℕ
  rtStreamId : ℕ
  taskId : ℕ
  deriving DecidableEq, Repr

structure UbMemSdmaSqe where
  header : SqeHeader
  kernelCredit : ℕ
  sssv : Bool
  dssv : Bool
  sns : Bool
  dns : Bool
  qos : ℕ
  length : ℕ
  srcAddrLow : ℕ
  srcAddrHigh : ℕ
  dstAddrLow : ℕ
  dstAddrHigh : ℕ
  deriving DecidableEq, Repr

structure UbMemNotifySqe where
  header : SqeHeader
  notifyId : ℕ
  kernelCredit : ℕ
  deriving DecidableEq, Repr

inductive UbMemRtsqEntry where
  | sdma (sqe : UbMemSdmaSqe)
  | notify (sqe : UbMemNotifySqe)
  | a5Sdma (sqe : UbMemSdmaSqe)
  | a5Notify (sqe : UbMemNotifySqe)
  deriving DecidableEq, Repr

structure UbMemRtsqState where
  streamId : ℕ
  nextTaskId : ℕ
  depth : ℕ
  head : ℕ
  tail : ℕ
  format : UbMemStarsSqeFormat
  deriving DecidableEq, Repr

def fillSqeHeader (type streamId taskId : ℕ) : SqeHeader where
  type := type
  rtStreamId := streamId % 2 ^ 16
  taskId := taskId % 2 ^ 16

def sdmaSqe (kernelCredit source destination size taskId streamId : ℕ) : UbMemSdmaSqe where
  header := fillSqeHeader 11 streamId taskId
  kernelCredit := kernelCredit
  sssv := true
  dssv := true
  sns := true
  dns := true
  qos := 6
  length := size % 2 ^ 32
  srcAddrLow := source % 2 ^ 32
  srcAddrHigh := source / 2 ^ 32 % 2 ^ 32
  dstAddrLow := destination % 2 ^ 32
  dstAddrHigh := destination / 2 ^ 32 % 2 ^ 32

def buildSdmaEntry (source destination size taskId : ℕ) (state : UbMemRtsqState) : UbMemRtsqEntry :=
  match state.format with
  | .starsV2 => .a5Sdma (sdmaSqe 253 source destination size taskId state.streamId)
  | .starsV1 => .sdma (sdmaSqe 240 source destination size taskId state.streamId)

def notifySqe (kernelCredit notifyId taskId streamId : ℕ) : UbMemNotifySqe where
  header := fillSqeHeader 6 streamId taskId
  notifyId := notifyId
  kernelCredit := kernelCredit

def notifyIdLimit : UbMemStarsSqeFormat → ℕ
  | .starsV2 => 2 ^ 17
  | .starsV1 => 2 ^ 13

def buildNotifyEntry (notifyId taskId : ℕ) (state : UbMemRtsqState) : UbMemRtsqEntry :=
  match state.format with
  | .starsV2 => .a5Notify
      (notifySqe 253 (notifyId % 2 ^ 17) taskId state.streamId)
  | .starsV1 => .notify
      (notifySqe 254 (notifyId % 2 ^ 13) taskId state.streamId)

/-! ## The ring and its consumer -/

/-- The ring as the hardware sees it.  `consumed` counts the entries it has
taken so far. -/
structure RtsqRing where
  cells : ℕ → UbMemRtsqEntry
  head : ℕ
  tail : ℕ
  consumed : ℕ

namespace RtsqRing

def used (depth : ℕ) (ring : RtsqRing) : ℕ := (ring.tail + depth - ring.head) % depth

/-- The hardware takes up to `k` entries; the head never passes the tail. -/
def consume (depth k : ℕ) (ring : RtsqRing) : RtsqRing :=
  let taken := min k (ring.used depth)
  { ring with
    head := (ring.head + taken) % depth
    consumed := ring.consumed + taken }

def write (start : ℕ) (entries : List UbMemRtsqEntry) (ring : RtsqRing) : RtsqRing :=
  { ring with cells := fun cell =>
      if start ≤ cell then entries.getD (cell - start) (ring.cells cell)
      else ring.cells cell }

end RtsqRing

/-- The answers of the environment during one publish: what the hardware
consumes before each step, and whether each call succeeds. -/
structure PublishAnswers where
  beforeCheck : ℕ
  pollOk : Bool
  beforeQuery : ℕ
  queryOk : Bool
  beforeCopy : ℕ
  firstCopyOk : Bool
  betweenCopies : ℕ
  wrapCopyOk : Bool
  beforeCommit : ℕ
  configOk : Bool

def hasRtsqCapacity (state : UbMemRtsqState) (count : ℕ) : Bool :=
  if count = 0 ∨ count ≥ state.depth then false
  else
    let used := wrapSub 32 (wrapAdd 32 state.tail state.depth) state.head % state.depth
    wrapAdd 32 used count < state.depth

def ensureRtsqCapacity (answers : PublishAnswers) (ring : RtsqRing)
    (state : UbMemRtsqState) (count : ℕ) : Bool × RtsqRing × UbMemRtsqState :=
  if count = 0 ∨ count ≥ state.depth then (false, ring, state)
  else if hasRtsqCapacity state count then (true, ring, state)
  else if !answers.pollOk then (false, ring, state)
  else
    let ring := ring.consume state.depth answers.beforeQuery
    if !answers.queryOk then (false, ring, state)
    else
      let state := { state with head := ring.head }
      (hasRtsqCapacity state count, ring, state)

def rtsqEntryBytes : ℕ := 64

structure CopyResult where
  ok : Bool
  ring : RtsqRing
  written : List ℕ

/-- Copy a batch behind the tail, in two blocks when it crosses the end of the
ring.  The offset of the first block is a product of 32-bit numbers. -/
def copySqeBatchToRing (answers : PublishAnswers) (ring : RtsqRing)
    (state : UbMemRtsqState) (entries : List UbMemRtsqEntry) : CopyResult :=
  let firstCount := min entries.length (state.depth - state.tail)
  let firstCell := wrapMul 32 state.tail rtsqEntryBytes / rtsqEntryBytes
  if !answers.firstCopyOk then ⟨false, ring, []⟩
  else
    let ring := ring.write firstCell (entries.take firstCount)
    let written := (List.range firstCount).map (firstCell + ·)
    if firstCount < entries.length then
      let ring := ring.consume state.depth answers.betweenCopies
      if !answers.wrapCopyOk then ⟨false, ring, written⟩
      else
        ⟨true, ring.write 0 (entries.drop firstCount),
          written ++ List.range (entries.length - firstCount)⟩
    else ⟨true, ring, written⟩

structure PublishRecord where
  ok : Bool
  before : RtsqRing
  atCopy : RtsqRing
  after : RtsqRing
  stateBefore : UbMemRtsqState
  stateAfter : UbMemRtsqState
  batchBefore : List UbMemRtsqEntry
  batchAfter : List UbMemRtsqEntry
  written : List ℕ

def publishRtsqBatch (answers : PublishAnswers) (ring : RtsqRing)
    (state : UbMemRtsqState) (batch : List UbMemRtsqEntry) : PublishRecord :=
  if batch.length = 0 then
    ⟨true, ring, ring, ring, state, state, batch, batch, []⟩
  else
    let start := ring.consume state.depth answers.beforeCheck
    match ensureRtsqCapacity answers start state batch.length with
    | (false, checked, state') => ⟨false, ring, checked, checked, state, state', batch, batch, []⟩
    | (true, checked, state') =>
      let newTail := wrapAdd 32 state'.tail batch.length % state'.depth
      let atCopy := checked.consume state'.depth answers.beforeCopy
      let copy := copySqeBatchToRing answers atCopy state' batch
      if !copy.ok then
        ⟨false, ring, atCopy, copy.ring, state, state', batch, batch, copy.written⟩
      else
        let ready := copy.ring.consume state'.depth answers.beforeCommit
        if !answers.configOk then
          ⟨false, ring, atCopy, ready, state, state', batch, batch, copy.written⟩
        else
          ⟨true, ring, atCopy, { ready with tail := newTail }, state,
            { state' with tail := newTail }, batch, [], copy.written⟩

/-! ## A submission -/

/-- The ring, the local copy of its state, the open batch, and the history of
the publishes so far. -/
structure SubmitState where
  ring : RtsqRing
  state : UbMemRtsqState
  batch : List UbMemRtsqEntry
  records : List PublishRecord

/-- The environment of a submission.  Publishes are numbered by their position
in the history, and entries by that number and their position in the batch. -/
structure SubmitAnswers where
  publish : ℕ → PublishAnswers
  buildOk : ℕ → ℕ → Bool
  notifyPollOk : Bool

def maxRtsqEntriesPerPublish : ℕ := 128

def SubmitState.publish (answers : SubmitAnswers) (s : SubmitState) : Bool × SubmitState :=
  let record := publishRtsqBatch (answers.publish s.records.length)
    s.ring s.state s.batch
  (record.ok,
    { ring := record.after
      state := record.stateAfter
      batch := record.batchAfter
      records := s.records ++ [record] })

def SubmitState.flushIfFull (answers : SubmitAnswers) (s : SubmitState) : Bool × SubmitState :=
  if s.batch.length = maxRtsqEntriesPerPublish then s.publish answers
  else (true, s)

def SubmitState.append (answers : SubmitAnswers)
    (build : ℕ → UbMemRtsqState → UbMemRtsqEntry) (s : SubmitState) : Bool × SubmitState :=
  let taskId := s.state.nextTaskId
  let state := { s.state with nextTaskId := wrapAdd 32 taskId 1 }
  if answers.buildOk s.records.length s.batch.length then
    (true, { s with state, batch := s.batch ++ [build taskId state] })
  else (false, { s with state })

def appendDescriptorLoop (answers : SubmitAnswers) :
    ℕ → ℕ → ℕ → ℕ → SubmitState → Bool × SubmitState
  | 0, _, _, _, s => (true, s)
  | fuel + 1, source, destination, remaining, s =>
    if 0 < remaining then
      match s.flushIfFull answers with
      | (false, s) => (false, s)
      | (true, s) =>
        let blockSize := min remaining maxSdmaTransferBytes
        match s.append answers (buildSdmaEntry source destination blockSize) with
        | (false, s) => (false, s)
        | (true, s) =>
          appendDescriptorLoop answers fuel (source + blockSize)
            (destination + blockSize) (remaining - blockSize) s
    else (true, s)

def appendDescriptorTasks (answers : SubmitAnswers)
    (desc : UbMemAicpuTransferDesc) (s : SubmitState) : Bool × SubmitState :=
  appendDescriptorLoop answers desc.length desc.srcAddr desc.dstAddr desc.length s

def appendAllDescriptors (answers : SubmitAnswers) :
    List UbMemAicpuTransferDesc → SubmitState → Bool × SubmitState
  | [], s => (true, s)
  | desc :: rest, s =>
    match appendDescriptorTasks answers desc s with
    | (false, s) => (false, s)
    | (true, s) => appendAllDescriptors answers rest s

def appendAndPublishSdmaTasks (answers : SubmitAnswers)
    (descs : List UbMemAicpuTransferDesc) (s : SubmitState) : Bool × SubmitState :=
  match appendAllDescriptors answers descs s with
  | (false, s) => (false, s)
  | (true, s) => s.publish answers

def appendNotifyTask (answers : SubmitAnswers) (notifyId : ℕ)
    (s : SubmitState) : Bool × SubmitState :=
  match s.flushIfFull answers with
  | (false, s) => (false, s)
  | (true, s) => s.append answers (buildNotifyEntry notifyId)

def emitNotifyRecord (answers : SubmitAnswers) (notifyId : ℕ)
    (s : SubmitState) : Bool × SubmitState :=
  match appendNotifyTask answers notifyId s with
  | (false, s) => (false, s)
  | (true, s) =>
    match s.publish answers with
    | (false, s) => (false, s)
    | (true, s) => (answers.notifyPollOk, s)

def isValidDescriptor (desc : UbMemAicpuTransferDesc) : Bool :=
  if desc.srcAddr = 0 ∨ desc.dstAddr = 0 ∨ desc.length = 0 then false
  else desc.length ≤ wordMax 64 - desc.srcAddr ∧ desc.length ≤ wordMax 64 - desc.dstAddr

def resolveSqeFormat : ℕ → Option UbMemStarsSqeFormat
  | 0 => some .starsV1
  | 1 => some .starsV2
  | _ => none

def validateSubmitArgs (param : UbMemAicpuKernelParam)
    (descs : List UbMemAicpuTransferDesc) : Option UbMemStarsSqeFormat :=
  if descs.length = 0 ∨ param.emitNotifyRecord > 1 then none
  else
    match resolveSqeFormat param.sqeFormat with
    | none => none
    | some format =>
      if param.emitNotifyRecord ≠ 0 ∧ param.notifyId ≥ notifyIdLimit format then none
      else if !descs.all isValidDescriptor then none
      else some format

/-- The local state of the queue, read from the driver; `restoreOk` stands for
the calls before the queries. -/
def initializeRtsq (param : UbMemAicpuKernelParam)
    (format : UbMemStarsSqeFormat) (restoreOk : Bool) (depth : ℕ)
    (ring : RtsqRing) : Option UbMemRtsqState :=
  if param.rtsqId > wordMax 16 ∨ param.rtsqStreamId > wordMax 16 then none
  else if !restoreOk then none
  else if depth ≤ 1 ∨ ring.head ≥ depth ∨ ring.tail ≥ depth then none
  else if depth ≤ maxRtsqEntriesPerPublish then none
  else some
    { streamId := param.rtsqStreamId
      nextTaskId := param.rtsqTaskId
      depth := depth
      head := ring.head
      tail := ring.tail
      format := format }

structure SubmitResult where
  ok : Bool
  ring : RtsqRing
  records : List PublishRecord

def submit (answers : SubmitAnswers) (param : UbMemAicpuKernelParam)
    (descs : List UbMemAicpuTransferDesc) (restoreOk deadlineOk : Bool)
    (depth : ℕ) (ring : RtsqRing) : SubmitResult :=
  match validateSubmitArgs param descs with
  | none => ⟨false, ring, []⟩
  | some format =>
    match initializeRtsq param format restoreOk depth ring with
    | none => ⟨false, ring, []⟩
    | some state =>
      if !deadlineOk then ⟨false, ring, []⟩
      else
        let (sdmaOk, s) := appendAndPublishSdmaTasks answers descs
          ⟨ring, state, [], []⟩
        if param.emitNotifyRecord ≠ 0 then
          let (notifyOk, s) := emitNotifyRecord answers param.notifyId s
          ⟨sdmaOk && notifyOk, s.ring, s.records⟩
        else ⟨sdmaOk, s.ring, s.records⟩

/-- The environment of one kernel: `contextOk` stands for the descriptor buffer
and the transfer context, and `consumedAfter` counts the entries that the
hardware takes before the next kernel starts. -/
structure KernelEnv where
  answers : SubmitAnswers
  contextOk : Bool
  restoreOk : Bool
  deadlineOk : Bool
  consumedAfter : ℕ

def maxDescriptorsPerKernel : ℕ := 128

def executeBatch (env : KernelEnv) (expectedGet : Bool)
    (param : UbMemAicpuKernelParam) (descs : List UbMemAicpuTransferDesc)
    (depth : ℕ) (ring : RtsqRing) : SubmitResult :=
  if param.descCount = 0 ∨ param.descCount > maxDescriptorsPerKernel ∨
      param.isGet ≠ expectedGet ∨ param.transferCtxKey = 0 then
    ⟨false, ring, []⟩
  else if param.version ≠ kernelParamVersion then ⟨false, ring, []⟩
  else if !env.contextOk then ⟨false, ring, []⟩
  else submit env.answers param descs env.restoreOk env.deadlineOk depth ring

def kernelDescs (descs : List UbMemAicpuTransferDesc)
    (param : UbMemAicpuKernelParam) : List UbMemAicpuTransferDesc :=
  (descs.drop param.chunkOffset).take param.descCount

def runKernels (isGet : Bool) (descs : List UbMemAicpuTransferDesc) (depth : ℕ) :
    RtsqRing → List (UbMemAicpuKernelParam × KernelEnv) → List SubmitResult
  | _, [] => []
  | ring, (param, env) :: rest =>
    let result := executeBatch env isGet param (kernelDescs descs param) depth ring
    result :: runKernels isGet descs depth (result.ring.consume depth env.consumedAfter) rest

def WaitsEmpty (isGet : Bool) (descs : List UbMemAicpuTransferDesc) (depth : ℕ) :
    RtsqRing → List (UbMemAicpuKernelParam × KernelEnv) → Prop
  | _, [] => True
  | ring, (param, env) :: rest =>
    let next := (executeBatch env isGet param (kernelDescs descs param)
      depth ring).ring.consume depth env.consumedAfter
    (param.emitNotifyRecord ≠ 0 → next.head = next.tail) ∧ WaitsEmpty isGet descs depth next rest

def quietPublish : PublishAnswers where
  beforeCheck := 0
  pollOk := true
  beforeQuery := 0
  queryOk := true
  beforeCopy := 0
  firstCopyOk := true
  betweenCopies := 0
  wrapCopyOk := true
  beforeCommit := 0
  configOk := true

def quietAnswers : SubmitAnswers where
  publish := fun _ => quietPublish
  buildOk := fun _ _ => true
  notifyPollOk := true

def quietEnv : KernelEnv where
  answers := quietAnswers
  contextOk := true
  restoreOk := true
  deadlineOk := true
  consumedAfter := 0

def notifyRing (head tail : ℕ) : RtsqRing where
  cells := fun _ => .notify (notifySqe 254 0 0 0)
  head := head
  tail := tail
  consumed := 0

end Hixl
