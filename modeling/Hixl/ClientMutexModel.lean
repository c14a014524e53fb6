import Hixl.ClientManagerModel
import Mathlib.Data.Finset.Basic

/-!
# The mutex of a remote engine

`GetOrCreateClient`, `DestroyClient` and the evictions take a mutex for the
remote engine that they work on.  `GetClientMutex` makes the object for an
engine without one, and `DestroyClient` erases the entry while it still holds
the object.

A call stops between its critical sections, and between fetching a mutex and
locking it.  The log keeps the clients that were taken out of the pool.
-/

namespace Hixl

open InterleavedCalls

structure MutexState where
  manager : ClientManager := {}
  clientMutexes : AList (fun _ : String => ℕ) := ∅
  nextMutex : ℕ := 0
  locked : Finset ℕ := ∅
  removed : List (String × ℕ) := []

namespace MutexState

def getClientMutex (remote : String) (s : MutexState) : ℕ × MutexState :=
  match s.clientMutexes.lookup remote with
  | some mutex => (mutex, s)
  | none =>
    (s.nextMutex,
      { s with
        clientMutexes := s.clientMutexes.insert remote s.nextMutex
        nextMutex := s.nextMutex + 1 })

def destroyClientMutex (remote : String) (s : MutexState) : MutexState :=
  { s with clientMutexes := s.clientMutexes.erase remote }

def lock (mutex : ℕ) (s : MutexState) : Option MutexState :=
  if mutex ∈ s.locked then none
  else some { s with locked := insert mutex s.locked }

def unlock (mutex : ℕ) (s : MutexState) : MutexState :=
  { s with locked := s.locked.erase mutex }

/-- The manager after a removal, with the client that is gone in the log. -/
def remove (remote : String) (manager : ClientManager) (s : MutexState) : MutexState :=
  match s.manager.clients.lookup remote with
  | some client =>
    if remote ∈ manager.clients then { s with manager }
    else { s with manager, removed := (remote, client) :: s.removed }
  | none => { s with manager }

end MutexState

inductive MutexCall where
  | fetch (remote : String) (use : Bool)
  | lock (remote : String) (use : Bool) (mutex : ℕ)
  | evaluate (remote : String) (use : Bool) (mutex : ℕ)
  /-- `CreateClient`, `RegisterMem` and `Connect`, between the admission and
  `clients_.emplace`. -/
  | create (remote : String) (use reserved : Bool) (mutex : ℕ)
  | giveBack
  /-- `GetOrCreateClient` has returned `SUCCESS` with this client. -/
  | connected (remote : String) (client : ℕ)
  /-- `DestroyIdleClients`, with the victims that have not been tried. -/
  | evict (remote : String) (use : Bool) (victims left : List String)
  | evictLock (remote : String) (use : Bool) (victims left : List String)
      (victim : String) (mutex : ℕ)
  | evictErase (remote : String) (use : Bool) (victims left : List String)
      (victim : String) (mutex : ℕ)
  | destroy (remote : String)
  | destroyLock (remote : String) (mutex : ℕ)
  | destroyErase (remote : String) (mutex : ℕ)
  | destroyMutex (remote : String) (mutex : ℕ) (status : ConnectStatus)
  | unlock (mutex : ℕ) (rest : MutexCall)
  | releaseUse (client : ℕ)
  | done (status : ConnectStatus)
  deriving DecidableEq, Repr

namespace MutexCall

/-- How `ReserveChannelSlot` goes on after `EvaluateChannelAdmit`. -/
def admitted (remote : String) (use : Bool) (mutex : ℕ) (answer : ChannelAdmit) : MutexCall :=
  match answer.client with
  | some _ => .unlock mutex (.done .alreadyConnected)
  | none =>
    if answer.poolExhausted then .unlock mutex (.done .resourceExhausted)
    else if answer.reserved || answer.victims.isEmpty then
      .create remote use answer.reserved mutex
    else .unlock mutex (.evict remote use answer.victims answer.victims)

def next (input : ChannelInput) (s : MutexState) : MutexCall → Option (MutexState × MutexCall)
  | .fetch remote use =>
    some ((s.getClientMutex remote).2, .lock remote use (s.getClientMutex remote).1)
  | .lock remote use mutex => (s.lock mutex).map fun s => (s, .evaluate remote use mutex)
  | .evaluate remote use mutex =>
    some ({ s with
          manager := (s.manager.evaluateChannelAdmit input.locked remote use).1 },
        admitted remote use mutex (s.manager.evaluateChannelAdmit input.locked remote use).2.1)
  | .create remote use reserved mutex =>
    if input.ok then
      some ({ s with
            manager := (s.manager.newClient.emplaceClient remote
              s.manager.nextClient use reserved).1 },
          .unlock mutex (.connected remote s.manager.nextClient))
    else
      some (s, .unlock mutex (if reserved then .giveBack else .done .failed))
  | .giveBack => some ({ s with manager := s.manager.releaseChannelSlot }, .done .failed)
  | .evict remote use victims (victim :: left) =>
    some ((s.getClientMutex victim).2, .evictLock remote use victims left victim
        (s.getClientMutex victim).1)
  | .evict remote use victims [] =>
    if victims.length ≤ s.manager.stillPresent victims then
      some (s, .done .resourceExhausted)
    else some (s, .fetch remote use)
  | .evictLock remote use victims left victim mutex =>
    (s.lock mutex).map fun s => (s, .evictErase remote use victims left victim mutex)
  | .evictErase remote use victims left victim mutex =>
    some (s.remove victim (s.manager.destroyIdleClient input.locked victim),
        .unlock mutex (.evict remote use victims left))
  | .destroy remote =>
    some ((s.getClientMutex remote).2, .destroyLock remote (s.getClientMutex remote).1)
  | .destroyLock remote mutex => (s.lock mutex).map fun s => (s, .destroyErase remote mutex)
  | .destroyErase remote mutex =>
    some (s.remove remote (s.manager.destroyClient remote), .destroyMutex remote mutex
        (if remote ∈ s.manager.clients then
          if input.ok then .success else .failed
        else .notConnected))
  | .destroyMutex remote mutex status =>
    some (s.destroyClientMutex remote, .unlock mutex (.done status))
  | .unlock mutex rest => some (s.unlock mutex, rest)
  | .releaseUse client => some ({ s with manager := s.manager.releaseUse client }, .done .success)
  | .connected _ _ => none
  | .done _ => none

def starts : MutexCall → Bool
  | .fetch _ _ | .destroy _ | .releaseUse _ => true
  | _ => false

def creating (remote : String) : MutexCall → Bool
  | .create engine _ _ _ => engine = remote
  | _ => false

end MutexCall

def mutexProgram : Program MutexState MutexCall ChannelInput where
  starts := MutexCall.starts
  next := fun input s call => call.next input s

def mutexStart (maxChannel : Option ℕ) : Config MutexState MutexCall where
  shared := { manager := { maxChannel := maxChannel } }
  calls := []

end Hixl
