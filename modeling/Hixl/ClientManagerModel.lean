import Hixl.InterleavedCalls
import Mathlib.Data.List.AList
import Mathlib.Data.Prod.Lex
import Mathlib.Data.String.Basic

/-!
# The pool of client connections

`ClientManager` keeps one client per remote engine.  With `max_channel` the
established clients and the connects in flight stay within that limit: a call
that needs a new client reserves a place first, and evicts the least recently
used idle clients when the pool is full.

The functions are critical sections of one mutex.  The mutex per remote engine
is left out, which only adds interleavings.  A client is named by a number.
-/

namespace Hixl

open InterleavedCalls

inductive ConnectStatus where
  | success
  | alreadyConnected
  | notConnected
  | resourceExhausted
  | failed
  deriving DecidableEq, Repr

/-- The access counter of 64 bits is a natural number: it counts calls and does
not wrap. -/
structure ClientManager where
  clients : AList (fun _ : String => ℕ) := ∅
  lastAccessSeq : AList (fun _ : String => ℕ) := ∅
  accessSeq : ℕ := 0
  maxChannel : Option ℕ := none
  creatingCount : ℕ := 0
  useCount : ℕ → ℕ := fun _ => 0
  reqMap : ℕ → List ℕ := fun _ => []
  nextClient : ℕ := 0

structure ChannelAdmit where
  client : Option ℕ := none
  reserved : Bool := false
  poolExhausted : Bool := false
  victims : List String := []
  evictCount : ℕ := 0

namespace ClientManager

def size (m : ClientManager) : ℕ := m.clients.keys.length

def acquireUse (client : ℕ) (m : ClientManager) : ClientManager :=
  { m with
    useCount := Function.update m.useCount client (m.useCount client + 1) }

def releaseUse (client : ℕ) (m : ClientManager) : ClientManager :=
  { m with
    useCount := Function.update m.useCount client (m.useCount client - 1) }

/-- `locked` says whether another thread holds the mutex of the client. -/
def isBusy (locked : ℕ → Bool) (m : ClientManager) (client : ℕ) : Bool :=
  0 < m.useCount client || locked client || m.reqMap client ≠ []

def touchClientLocked (remote : String) (m : ClientManager) : ClientManager :=
  match m.maxChannel with
  | none => m
  | some _ =>
    { m with
      accessSeq := m.accessSeq + 1
      lastAccessSeq := m.lastAccessSeq.insert remote (m.accessSeq + 1) }

/-- The flag `transfer_use` of a caller is false when it is passed in. -/
def claimTransferUseLocked (client : ℕ) (m : ClientManager) : ClientManager × Bool :=
  match m.maxChannel with
  | none => (m, false)
  | some _ => (m.acquireUse client, true)

def claimFor (use : Bool) (client : ℕ) (m : ClientManager) : ClientManager × Bool :=
  if use then m.claimTransferUseLocked client else (m, false)

def idleClients (locked : ℕ → Bool) (m : ClientManager) : List (ℕ ×ₗ String) :=
  (m.clients.entries.filter fun entry => !m.isBusy locked entry.2).map fun entry =>
      toLex ((m.lastAccessSeq.lookup entry.1).getD 0, entry.1)

def selectLruIdleClientsLocked (locked : ℕ → Bool) (evictCount : ℕ) (m : ClientManager) :
    List String :=
  let sorted := (m.idleClients locked).mergeSort fun a b => a ≤ b
  (sorted.take evictCount).map fun entry => (ofLex entry).2

def releaseChannelSlot (m : ClientManager) : ClientManager :=
  { m with creatingCount := m.creatingCount - 1 }

def findClientLocked (remote : String) (use : Bool) (m : ClientManager) :
    ClientManager × Option (ℕ × Bool) :=
  match m.clients.lookup remote with
  | none => (m, none)
  | some client =>
    ((m.claimFor use client).1.touchClientLocked remote, some (client, (m.claimFor use client).2))

def evaluateChannelAdmit (locked : ℕ → Bool) (remote : String) (use : Bool) (m : ClientManager) :
    ClientManager × ChannelAdmit × Bool :=
  match m.findClientLocked remote use with
  | (m, some (client, claimed)) => (m, { client := some client }, claimed)
  | (m, none) =>
    match m.maxChannel with
    | none => (m, {}, false)
    | some maxChannel =>
      let occupied := m.size + m.creatingCount
      if occupied < maxChannel then
        ({ m with creatingCount := m.creatingCount + 1 }, { reserved := true }, false)
      else
        let evictCount := occupied - maxChannel + 1
        let victims := m.selectLruIdleClientsLocked locked evictCount
        (m,
          { victims := victims
            evictCount := evictCount
            poolExhausted := victims.length < evictCount }, false)

def eraseClient (remote : String) (m : ClientManager) : ClientManager :=
  { m with
    clients := m.clients.erase remote
    lastAccessSeq := m.lastAccessSeq.erase remote }

/-- The check and the removal are one critical section; the removed client is
finalized after it. -/
def destroyIdleClient (locked : ℕ → Bool) (remote : String) (m : ClientManager) : ClientManager :=
  match m.clients.lookup remote with
  | none => m
  | some client =>
    if m.isBusy locked client then m else m.eraseClient remote

def destroyClient (remote : String) (m : ClientManager) : ClientManager :=
  match m.clients.lookup remote with
  | none => m
  | some _ => m.eraseClient remote

/-- Victims that are still in the pool when `FinishEvict` looks again. -/
def stillPresent (victims : List String) (m : ClientManager) : ℕ :=
  victims.countP fun victim => victim ∈ m.clients

def newClient (m : ClientManager) : ClientManager :=
  { m with
    useCount := Function.update m.useCount m.nextClient 0
    reqMap := Function.update m.reqMap m.nextClient []
    nextClient := m.nextClient + 1 }

/-- `clients_.emplace` keeps an entry that is already there. -/
def emplaceEntry (remote : String) (client : ℕ) (m : ClientManager) : ClientManager :=
  if remote ∈ m.clients then m
  else { m with clients := m.clients.insert remote client }

def emplaceClient (remote : String) (client : ℕ) (use reserved : Bool) (m : ClientManager) :
    ClientManager × Bool :=
  let claim := (m.emplaceEntry remote client).claimFor use client
  let m := claim.1.touchClientLocked remote
  (if reserved then m.releaseChannelSlot else m, claim.2)

def addRequest (client req : ℕ) (m : ClientManager) : ClientManager :=
  { m with
    reqMap := Function.update m.reqMap client (req :: m.reqMap client) }

def removeTransferReq (client req : ℕ) (m : ClientManager) : ClientManager :=
  { m with
    reqMap := Function.update m.reqMap client ((m.reqMap client).erase req) }

end ClientManager

inductive ChannelCall where
  | getClientForUse (remote : String)
  | getClient (remote : String)
  /-- `GetOrCreateClient` before `EvaluateChannelAdmit`; `use` says whether
  the caller passes `transfer_use`. -/
  | reserveSlot (remote : String) (use : Bool)
  /-- `DestroyIdleClients`, with the victims that have not been tried. -/
  | evict (remote : String) (use : Bool) (victims left : List String)
  /-- `CreateClient`, `RegisterMem` and `Connect`. -/
  | create (remote : String) (use reserved : Bool)
  | giveBack
  /-- A transfer on the client, before `TransferUseGuard` runs. -/
  | transfer (client : ℕ) (claimed : Bool)
  | finishRequest (client req : ℕ)
  | destroyClient (remote : String)
  | done (status : ConnectStatus)
  deriving DecidableEq, Repr

/-- What a step learns from outside: which clients are locked by other
threads, whether a connect succeeds, and which request a transfer adds
before it ends. -/
structure ChannelInput where
  locked : ℕ → Bool := fun _ => false
  ok : Bool := true
  request : Option ℕ := none

namespace ChannelCall

/-- A call that was handed a client goes on with its transfer. -/
def handed (use : Bool) (client : ℕ) (claimed : Bool) (status : ConnectStatus) : ChannelCall :=
  if use then .transfer client claimed else .done status

def next (input : ChannelInput) (m : ClientManager) :
    ChannelCall → Option (ClientManager × ChannelCall)
  | .getClientForUse remote =>
    match m.findClientLocked remote true with
    | (m, none) => some (m, .done .notConnected)
    | (m, some (client, claimed)) => some (m, .transfer client claimed)
  | .getClient remote =>
    match m.findClientLocked remote false with
    | (m, none) => some (m, .done .notConnected)
    | (m, some _) => some (m, .done .success)
  | .reserveSlot remote use =>
    match m.evaluateChannelAdmit input.locked remote use with
    | (m, answer, claimed) =>
      match answer.client with
      | some client => some (m, handed use client claimed .alreadyConnected)
      | none =>
        if answer.poolExhausted then some (m, .done .resourceExhausted)
        else if answer.reserved || answer.victims.isEmpty then
          some (m, .create remote use answer.reserved)
        else some (m, .evict remote use answer.victims answer.victims)
  | .evict remote use victims (victim :: left) =>
    some (m.destroyIdleClient input.locked victim, .evict remote use victims left)
  | .evict remote use victims [] =>
    if victims.length ≤ m.stillPresent victims then
      some (m, .done .resourceExhausted)
    else some (m, .reserveSlot remote use)
  | .create remote use reserved =>
    if input.ok then
      match m.newClient.emplaceClient remote m.nextClient use reserved with
      | (m', claimed) => some (m', handed use m.nextClient claimed .success)
    else if reserved then some (m, .giveBack)
    else some (m, .done .failed)
  | .giveBack => some (m.releaseChannelSlot, .done .failed)
  | .transfer client claimed =>
    match input.request with
    | some req => some (m.addRequest client req, .transfer client claimed)
    | none => some (if claimed then m.releaseUse client else m, .done .success)
  | .finishRequest client req => some (m.removeTransferReq client req, .done .success)
  | .destroyClient remote => some (m.destroyClient remote, .done .success)
  | .done _ => none

def starts : ChannelCall → Bool
  | .getClientForUse _ | .getClient _ | .reserveSlot _ _ => true
  | .finishRequest _ _ | .destroyClient _ => true
  | _ => false

def accessed (input : ChannelInput) (m : ClientManager) : ChannelCall → Option String
  | .getClientForUse remote | .getClient remote | .reserveSlot remote _ =>
    if remote ∈ m.clients then some remote else none
  | .create remote _ _ => if input.ok then some remote else none
  | _ => none

end ChannelCall

/-- The manager, and the engines in the order of their accesses, the latest
first. -/
structure ChannelState where
  manager : ClientManager
  log : List String

def channelProgram : Program ChannelState ChannelCall ChannelInput where
  starts := ChannelCall.starts
  next input s call :=
    (call.next input s.manager).map fun r =>
      ({ manager := r.1
         log := (call.accessed input s.manager).toList ++ s.log }, r.2)

def channelStart (maxChannel : Option ℕ) : Config ChannelState ChannelCall where
  shared := { manager := { maxChannel := maxChannel }, log := [] }
  calls := []

end Hixl
