import Hixl.BufferServerModel

/-!
# The client of buffered transfers

`Transfer` enters its request in `req_id_buffers_`, lets `DoTransferTask` send
the requests, waits until the set of its buffers is empty, and gives back what
is left in it.  `HandleBufferResp` takes a buffer out of the set when the answer
has come and, for a read, the data has been copied.

Every access to the pool or to `req_id_buffers_` is one step; `HandleBufferResp`
and the guard of `Transfer` keep `req_id_mutex_` over several.  The clock counts
nanoseconds and never goes back; the code reads it in microseconds.
-/

namespace Hixl.Adxl

open InterleavedCalls IdlePools StagedCopies

/-- A time measurement that was begun at `start`, with its limit in
microseconds. -/
structure Timer where
  start : ℕ
  timeout : ℕ
  deriving DecidableEq, Repr

namespace Timer

def timeCost (t : Timer) (now : ℕ) : ℕ := (now - t.start) / 1000

def inTime (t : Timer) (now : ℕ) : Bool := t.timeCost now < t.timeout

def leftTimeout (t : Timer) (now : ℕ) : ℕ := t.timeout - t.timeCost now

end Timer

structure TransferInfo where
  reqId : ℕ
  type : TransferType
  ops : List TransferOpDesc
  timer : Timer
  deriving DecidableEq, Repr

/-- The variables of `DoTransferTask`, and those of `TransferLargeData` while it
runs: what is left of the operation, and its addresses. -/
structure TaskState where
  ops : List TransferOpDesc
  currentBatch : List TransferOpDesc := []
  currentBatchSize : ℕ := 0
  large : Option (ℕ × ℕ × ℕ) := none
  deriving DecidableEq, Repr

/-- `DoTransferTask` on its way: its own measurement, that of `FlushBatch` or
`TransferLargeData`, and the variables after the current request. -/
structure TaskFrame where
  info : TransferInfo
  task : Timer
  call : Timer
  state : TaskState
  deriving DecidableEq, Repr

/-- A request that has been sent, and the slices that were copied when its
response was handled. -/
structure SentEntry where
  req : BufferReq
  call : SendCall
  copied : Option (List Slice) := none
  deriving DecidableEq, Repr

/-- The state that the calls share.  `reqIds` and `buffers` are the keys and the
elements of `req_id_buffers_`.  The counter of request ids has 64 bits and does
not wrap. -/
structure ClientState where
  now : ℕ := 0
  pool : Pool ℕ
  nextReqId : ℕ := 0
  reqIds : List ℕ := []
  buffers : List (ℕ × ℕ) := []
  locked : Bool := false
  sent : List SentEntry := []

/-- What a step learns: the time that passes before each reading of the clock,
the runtime during a copy, the result of sending, and whether a response is
given up on its way. -/
structure ClientInput where
  delay : ℕ := 0
  delay₂ : ℕ := 0
  delay₃ : ℕ := 0
  copy : CopyEnv
  send : Status := .success
  dropped : Bool := false

inductive ClientCall where
  | transfer (type : TransferType) (ops : List TransferOpDesc)
      (timeoutInMillis : ℤ)
  | rejected
  | emplace (info : TransferInfo)
  | startTask (info : TransferInfo)
  /-- The head of the loop of `DoTransferTask` or of `TransferLargeData`; the
  number is the time that the next `TryGetBuffer` gets from the latter. -/
  | loop (frame : TaskFrame) (leftTimeout : ℕ)
  | getBuffer (frame : TaskFrame) (timer : Timer) (call : SendCall)
  | insert (frame : TaskFrame) (call : SendCall) (buffer : ℕ)
  | copy (frame : TaskFrame) (call : SendCall) (buffer : ℕ)
  | send (frame : TaskFrame) (call : SendCall) (buffer : ℕ)
  | sent (frame : TaskFrame) (call : SendCall)
  /-- `DoTransferTask` has returned; `stuck` is the buffer of a request that
  could not be sent. -/
  | taskDone (info : TransferInfo) (stuck : Option ℕ)
  | checkFinish (info : TransferInfo) (timer : Timer) (stuck : Option ℕ)
  | guard (info : TransferInfo) (ret : Status)
  | guardRelease (info : TransferInfo) (ret : Status) (freed left : List ℕ)
  | returned (info : TransferInfo) (ret : Status)
  /-- The peer answers the request that was sent as number `index`. -/
  | answer (index : ℕ)
  | resp (index : ℕ) (resp : BufferResp)
  | respRelease (index : ℕ) (resp : BufferResp) (copied : List Slice)
  | respErase (index : ℕ) (resp : BufferResp) (copied : List Slice)
  | respDone (index : ℕ)
  deriving DecidableEq, Repr

def ClientState.bufferSet (s : ClientState) (reqId : ℕ) : List ℕ :=
  (s.buffers.filter fun entry => entry.1 = reqId).map Prod.snd

namespace ClientCall

def starts : ClientCall → Bool
  | .transfer _ _ _ | .answer _ => true
  | _ => false

def nextLarge (bufferSize : ℕ) (frame : TaskFrame) (now leftTimeout : ℕ)
    (leftSize addr remoteAddr : ℕ) : ClientCall :=
  if leftSize = 0 then
    .loop { frame with state := { frame.state with large := none } } 0
  else
    let count := min bufferSize leftSize
    .getBuffer
      { frame with
        state := { frame.state with
          large := some (leftSize - count, wrapAdd 64 addr count,
            wrapAdd 64 remoteAddr count) } }
      ⟨now, leftTimeout⟩ (.largeData addr remoteAddr count)

/-- `FlushBatch` is called; `rest` are the variables after it. -/
def flush (frame : TaskFrame) (now now₂ now₃ : ℕ) (rest : TaskState) : ClientCall :=
  .getBuffer
    { frame with
      call := ⟨now₂, frame.task.leftTimeout now⟩
      state := rest }
    ⟨now₃, frame.task.leftTimeout now⟩
    (.flushBatch frame.state.currentBatch)

/-- One round of `DoTransferTask`, with the readings of the clock: in the loop,
at the start of the function that it calls, and in `TryGetBuffer`. -/
def nextTask (bufferSize : ℕ) (frame : TaskFrame) (now now₂ now₃ : ℕ) : ClientCall :=
  match frame.state.ops with
  | [] =>
    if frame.state.currentBatch.isEmpty then .taskDone frame.info none
    else if !frame.task.inTime now then .taskDone frame.info none
    else flush frame now now₂ now₃ { ops := [] }
  | op :: rest =>
    if !frame.task.inTime now then .taskDone frame.info none
    else if bufferSize ≤ op.len then
      .loop
        { frame with
          call := ⟨now₂, frame.task.leftTimeout now⟩
          state := { frame.state with
            ops := rest
            large := some (op.len, op.localAddr, op.remoteAddr) } }
        (frame.task.leftTimeout now)
    else if bufferSize < wrapAdd 64 frame.state.currentBatchSize op.len then
      flush frame now now₂ now₃
        { ops := rest
          currentBatch := [op]
          currentBatchSize := wrapAdd 64 0 op.len }
    else
      .loop
        { frame with
          state := { frame.state with
            ops := rest
            currentBatch := frame.state.currentBatch ++ [op]
            currentBatchSize := wrapAdd 64 frame.state.currentBatchSize op.len } }
        0

/-- The steps of `Transfer` until `DoTransferTask` begins, and its loop. -/
def nextStart (bufferSize : ℕ) (input : ClientInput) (s : ClientState) :
    ClientCall → Option (ClientState × ClientCall)
  | .transfer type ops timeoutInMillis =>
    if timeoutInMillis ≤ 0 then some (s, .rejected)
    else
      let now := s.now + input.delay
      some ({ s with now, nextReqId := s.nextReqId + 1 }, .emplace ⟨s.nextReqId, type, ops,
          ⟨now, timeoutInMillis.toNat * 1000⟩⟩)
  | .emplace info =>
    if s.locked then none
    else some ({ s with reqIds := s.reqIds.insert info.reqId }, .startTask info)
  | .startTask info =>
    let now := s.now + input.delay
    let now₂ := now + input.delay₂
    if !info.timer.inTime now then
      some ({ s with now }, .guard info .timeout)
    else
      let task : Timer := ⟨now₂, info.timer.leftTimeout now⟩
      some ({ s with now := now₂ }, .loop ⟨info, task, task, { ops := info.ops }⟩ 0)
  | .loop frame leftTimeout =>
    let now := s.now + input.delay
    let now₂ := now + input.delay₂
    let now₃ := now₂ + input.delay₃
    match frame.state.large with
    | some (leftSize, addr, remoteAddr) =>
      some ({ s with now }, nextLarge bufferSize frame now leftTimeout leftSize addr remoteAddr)
    | none => some ({ s with now := now₃ }, nextTask bufferSize frame now now₂ now₃)
  | _ => none

/-- The steps of `FlushBatch` and of a round of `TransferLargeData`. -/
def nextSend (input : ClientInput) (s : ClientState) :
    ClientCall → Option (ClientState × ClientCall)
  | .getBuffer frame timer call =>
    match tryGetBuffer s.pool with
    | some (buffer, pool) => some ({ s with pool }, .insert frame call buffer)
    | none =>
      let now := s.now + input.delay
      some ({ s with now }, if timer.inTime now then
        .getBuffer frame timer call else .taskDone frame.info none)
  | .insert frame call buffer =>
    if s.locked then none
    else some ({ s with
        reqIds := s.reqIds.insert frame.info.reqId
        buffers := s.buffers.insert (frame.info.reqId, buffer) },
      .copy frame call buffer)
  | .copy frame call buffer =>
    let now := s.now + input.delay
    let copied := clientCopy frame.info.type input.copy (call.blocks buffer)
    some ({ s with now },
      if frame.call.inTime now && copied.1 = .success then
        .send frame call buffer
      else .taskDone frame.info (some buffer))
  | .send frame call buffer =>
    let now := s.now + input.delay
    if frame.call.inTime now && input.send = .success then
      some ({ s with
          now
          sent := s.sent ++
            [⟨call.bufferReq frame.info.type frame.info.reqId
                (frame.call.leftTimeout now) buffer, call, none⟩] },
        .sent frame call)
    else some ({ s with now }, .taskDone frame.info (some buffer))
  | .sent frame (.flushBatch _) => some (s, .loop frame 0)
  | .sent frame (.largeData _ _ _) =>
    let now := s.now + input.delay
    some ({ s with now }, if frame.call.inTime now then
      .loop frame (frame.call.leftTimeout now)
    else .taskDone frame.info none)
  | _ => none

/-- The steps of `Transfer` after `DoTransferTask`. -/
def nextFinish (input : ClientInput) (s : ClientState) :
    ClientCall → Option (ClientState × ClientCall)
  | .taskDone info stuck =>
    let now := s.now + input.delay
    let now₂ := now + input.delay₂
    if !info.timer.inTime now then
      some ({ s with now }, .guard info .timeout)
    else
      some ({ s with now := now₂ }, .checkFinish info ⟨now₂, info.timer.leftTimeout now⟩ stuck)
  | .checkFinish info timer stuck =>
    if s.locked then none
    else if info.reqId ∉ s.reqIds || (s.bufferSet info.reqId).isEmpty then
      some (s, .guard info .success)
    else
      let now := s.now + input.delay
      some ({ s with now }, if timer.inTime now then
        .checkFinish info timer stuck else .guard info .timeout)
  | .guard info ret =>
    if s.locked then none
    else some ({ s with locked := true }, .guardRelease info ret [] (s.bufferSet info.reqId))
  | .guardRelease info ret freed (buffer :: left) =>
    some ({ s with pool := releaseBuffer buffer s.pool },
      .guardRelease info ret (freed ++ [buffer]) left)
  | .guardRelease info ret _ [] =>
    some ({ s with
        reqIds := s.reqIds.erase info.reqId
        buffers := s.buffers.filter fun entry => entry.1 ≠ info.reqId
        locked := false },
      .returned info ret)
  | _ => none

def markHandled (sent : List SentEntry) (index : ℕ) (copied : List Slice) : List SentEntry :=
  sent.modify index fun entry => { entry with copied := some copied }

/-- A response on its way, and the steps of `HandleBufferResp`. -/
def nextResp (bufferSize : ℕ) (input : ClientInput) (s : ClientState) :
    ClientCall → Option (ClientState × ClientCall)
  | .answer index =>
    match s.sent[index]? with
    | none => none
    | some entry =>
      some (s, if input.dropped then .respDone index
        else .resp index (handleCtrlMsg entry.req))
  | .resp index bufferResp =>
    if s.locked then none
    else if bufferResp.reqId ∉ s.reqIds then some (s, .respDone index)
    else if (bufferResp.reqId, bufferResp.bufferAddr) ∉ s.buffers then
      some (s, .respDone index)
    else
      let copied := handleBufferRespCopy bufferSize input.copy bufferResp
      if copied.1 ≠ .success then some (s, .respDone index)
      else some ({ s with locked := true }, .respRelease index bufferResp copied.2)
  | .respRelease index bufferResp copied =>
    some ({ s with pool := releaseBuffer bufferResp.bufferAddr s.pool },
      .respErase index bufferResp copied)
  | .respErase index bufferResp copied =>
    some ({ s with
        buffers := s.buffers.erase (bufferResp.reqId, bufferResp.bufferAddr)
        sent := markHandled s.sent index copied
        locked := false },
      .respDone index)
  | _ => none

def next (bufferSize : ℕ) (input : ClientInput) (s : ClientState)
    (call : ClientCall) : Option (ClientState × ClientCall) :=
  match call with
  | .transfer _ _ _ | .emplace _ | .startTask _ | .loop _ _ => call.nextStart bufferSize input s
  | .getBuffer _ _ _ | .insert _ _ _ | .copy _ _ _ | .send _ _ _
  | .sent _ _ => call.nextSend input s
  | .taskDone _ _ | .checkFinish _ _ _ | .guard _ _
  | .guardRelease _ _ _ _ => call.nextFinish input s
  | .answer _ | .resp _ _ | .respRelease _ _ _ | .respErase _ _ _ =>
    call.nextResp bufferSize input s
  | .rejected | .returned _ _ | .respDone _ => none

end ClientCall

def clientProgram (bufferSize : ℕ) : Program ClientState ClientCall ClientInput where
  starts := ClientCall.starts
  next := fun input s call => call.next bufferSize input s

def clientStart (pool : PoolAddrs) : Config ClientState ClientCall where
  shared := { pool := pool.addrs.map fun addr => (addr, true) }
  calls := []

end Hixl.Adxl
