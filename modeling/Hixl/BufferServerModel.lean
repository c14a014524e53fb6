import Hixl.BufferTransferModel
import Hixl.InterleavedCalls

/-!
# The server of buffered transfers

Three threads work on the requests of the peers.  The first gets a staging
buffer and fetches the data of a write, or copies the data of a read; the second
does the other half; the third gives the buffer back and answers.  A scope guard
gives the buffer back when a step fails, until the request is about to be pushed
into the next queue.  Each access to the pool or to a queue is one step.
-/

namespace Hixl.Adxl

open InterleavedCalls IdlePools

structure ServerState where
  pool : Pool ℕ
  reqQueue : List BufferReq := []
  secondStepQueue : List BufferReq := []
  ctrlMsgQueue : List BufferReq := []

inductive WorkerStep where
  | first
  | second
  deriving DecidableEq, Repr

inductive WorkerPoint where
  | waiting
  | popped (req : BufferReq)
  /-- The guard is armed, `TryGetServerBuffer` looks for a buffer. -/
  | getBuffer (req : BufferReq)
  | working (req : BufferReq)
  | pushing (req : BufferReq)
  | releasing (bufferAddr : ℕ)
  deriving DecidableEq, Repr

inductive ServerCall where
  | pushBufferReq (req : BufferReq)
  | pushed (ret : Status)
  | worker (step : WorkerStep) (point : WorkerPoint)
  /-- `ProcessCtrlMsg`, with the request that it has taken. -/
  | ctrlMsg (req : Option BufferReq)
  deriving DecidableEq, Repr

/-- What a step learns: whether the channel is finalized, the time that has
passed since the request came or its handler began, how long the transfer or the
copies then take, whether they succeed, and whether copies are made in batches. -/
structure ServerInput where
  finalized : Bool := false
  timeCost : ℕ := 0
  busy : ℕ := 0
  ok : Bool := true
  supportBatchCopyBatch : Bool := false

def kMillisToMicros : ℕ := 1000

def kMemcpyBatchMinTime : ℕ := 100000

namespace BufferReq

def isRead (req : BufferReq) : Bool := req.transferType.any isReadTransferType

def isWrite (req : BufferReq) : Bool := req.transferType.any fun type => !isReadTransferType type

/-- The copy of the server stays on the device. -/
def copiesOnDevice (req : BufferReq) : Bool :=
  req.transferType ∈ [some .readRD2H, some .readRD2D, some .writeH2RD, some .writeD2RD]

end BufferReq

/-- The thread handles the request with `HandleBufferD2D`, not with
`HandleBufferCopy`. -/
def WorkerStep.handlesD2D (req : BufferReq) : WorkerStep → Bool
  | .first => !req.isRead
  | .second => req.isRead

/-- The handler gets a buffer and pushes the request to the second step. -/
def WorkerStep.begins (req : BufferReq) (step : WorkerStep) : Bool :=
  if step.handlesD2D req then req.isWrite else req.isRead

/-- The microseconds that must be left when the work begins: a timeout in whole
milliseconds is needed for a stream, more than `kMemcpyBatchMinTime` for a batch
of copies. -/
def WorkerStep.leastTime (req : BufferReq) (supportBatchCopyBatch : Bool)
    (step : WorkerStep) : ℕ :=
  if step.handlesD2D req || req.copiesOnDevice || !supportBatchCopyBatch then kMillisToMicros
  else if req.dstAddrs.isEmpty then 0
  else kMemcpyBatchMinTime + 1

def pop (step : WorkerStep) (s : ServerState) : Option (BufferReq × ServerState) :=
  match step with
  | .first =>
    match s.reqQueue with
    | [] => none
    | req :: rest => some (req, { s with reqQueue := rest })
  | .second =>
    match s.secondStepQueue with
    | [] => none
    | req :: rest => some (req, { s with secondStepQueue := rest })

def pushSecondStepReq (req : BufferReq) (s : ServerState) : ServerState :=
  if req.timeout ≤ kTimeoutLoss then s
  else
    { s with
      secondStepQueue := s.secondStepQueue ++
        [{ req with timeout := req.timeout - kTimeoutLoss }] }

def pushCtrlMsg (req : BufferReq) (s : ServerState) : ServerState :=
  { s with ctrlMsgQueue := s.ctrlMsgQueue ++ [req] }

/-- A request that is not handled any more; only the second thread has a buffer
to give back. -/
def WorkerStep.skip (req : BufferReq) : WorkerStep → WorkerPoint
  | .first => .waiting
  | .second => .releasing req.localBufferAddr

def WorkerPoint.next (bufferSize : ℕ) (step : WorkerStep) (input : ServerInput) (s : ServerState) :
    WorkerPoint → Option (ServerState × WorkerPoint)
  | .waiting => (pop step s).map fun popped => (popped.2, .popped popped.1)
  | .popped req =>
    if input.finalized || req.timeout ≤ input.timeCost then
      some (s, step.skip req)
    else if validatePeerBufferReq bufferSize req ≠ .success then
      some (s, .waiting)
    else if step.begins req then some (s, .getBuffer req)
    else some (s, .working req)
  | .getBuffer req =>
    match tryGetBuffer s.pool with
    | some (bufferAddr, pool) =>
      some ({ s with pool }, .working { req with localBufferAddr := bufferAddr })
    | none =>
      if input.timeCost < req.timeout then some (s, .getBuffer req)
      else some (s, .releasing req.localBufferAddr)
  | .working req =>
    if !input.ok ||
        req.timeout < input.timeCost + step.leastTime req input.supportBatchCopyBatch ||
        req.timeout ≤ input.timeCost + input.busy then
      some (s, .releasing req.localBufferAddr)
    else
      some (s, .pushing { req with timeout := req.timeout - (input.timeCost + input.busy) })
  | .pushing req =>
    if step.begins req then some (pushSecondStepReq req s, .waiting)
    else some (pushCtrlMsg req s, .waiting)
  | .releasing bufferAddr => some ({ s with pool := releaseBuffer bufferAddr s.pool }, .waiting)

namespace ServerCall

def starts : ServerCall → Bool
  | .pushBufferReq req => req.localBufferAddr = 0
  | _ => false

def next (bufferSize : ℕ) (input : ServerInput) (s : ServerState) :
    ServerCall → Option (ServerState × ServerCall)
  | .pushBufferReq req =>
    if req.timeout ≤ kTimeoutLoss then some (s, .pushed .timeout)
    else
      some ({ s with
          reqQueue := s.reqQueue ++
            [{ req with timeout := req.timeout - kTimeoutLoss }] },
        .pushed .success)
  | .pushed _ => none
  | .worker step point => (point.next bufferSize step input s).map fun r => (r.1, .worker step r.2)
  | .ctrlMsg none =>
    match s.ctrlMsgQueue with
    | [] => none
    | req :: rest => some ({ s with ctrlMsgQueue := rest }, .ctrlMsg (some req))
  | .ctrlMsg (some req) =>
    some ({ s with pool := releaseBuffer req.localBufferAddr s.pool }, .ctrlMsg none)

end ServerCall

def serverProgram (bufferSize : ℕ) : Program ServerState ServerCall ServerInput where
  starts := ServerCall.starts
  next := fun input s call => call.next bufferSize input s

structure PoolAddrs where
  addrs : List ℕ
  nodup : addrs.Nodup
  nonzero : 0 ∉ addrs

def serverStart (pool : PoolAddrs) : Config ServerState ServerCall where
  shared := { pool := pool.addrs.map fun addr => (addr, true) }
  calls := [.worker .first .waiting, .worker .second .waiting, .ctrlMsg none]

def owner (addr bufferAddr : ℕ) : ℕ :=
  if addr = bufferAddr then 1 else 0

theorem owner_zero {bufferAddr : ℕ} (hne : bufferAddr ≠ 0) : owner 0 bufferAddr = 0 :=
  if_neg (Ne.symm hne)

theorem owner_comm (addr bufferAddr : ℕ) :
    owner addr bufferAddr = if bufferAddr = addr then 1 else 0 :=
  if_congr eq_comm rfl rfl

section Pool

variable {pool pool' : Pool ℕ} {holders holders' : ℕ → ℕ} {addr : ℕ}

theorem conserved_tryGetBuffer (hconserved : Conserved pool holders)
    (htake : tryGetBuffer pool = some (addr, pool'))
    (hone : ∀ b ∈ pool.map Prod.fst, holders' b = holders b + owner addr b) :
    Conserved pool' holders' := by
  refine hconserved.take htake ?_
  intro b hb
  rw [hone b hb, owner_comm]

theorem names_releaseBuffer (addr : ℕ) (pool : Pool ℕ) :
    (releaseBuffer addr pool).map Prod.fst = pool.map Prod.fst := by
  rw [releaseBuffer]
  split_ifs
  · rfl
  · exact names_release addr pool

theorem conserved_releaseBuffer
    (hconserved : Conserved pool holders) (hzero : 0 ∉ pool.map Prod.fst)
    (hone : ∀ b ∈ pool.map Prod.fst, holders b = holders' b + owner addr b) :
    Conserved (releaseBuffer addr pool) holders' := by
  rw [releaseBuffer]
  split_ifs with hnull
  · refine hconserved.congr ?_
    intro b hb
    have hne : b ≠ 0 := fun heq => hzero (heq ▸ hb)
    rw [hone b hb, hnull, owner_zero hne, Nat.add_zero]
  · refine hconserved.release ?_
    intro b hb
    rw [hone b hb, owner_comm]

end Pool

end Hixl.Adxl
