import Hixl.ClientManagerPool
import Hixl.ClientMutexModel
import Hixl.ExclusiveOwners
import Hixl.HeldResources

/-!
# One client per remote engine

While `DestroyClient` erases the mutex of an engine only when no other call
waits for it, every call that works on an engine has the mutex in hand that the
table has for it.  Then the mutex keeps two creations for one engine apart.  A
call that waits while the mutex is erased goes on with an object that the table
no longer has, next to calls that lock a new one.
-/

namespace Hixl

open InterleavedCalls
open ExclusiveOwners
open HeldResources

namespace MutexCall

def owns (mutex : ℕ) : MutexCall → Bool
  | .evaluate _ _ held | .create _ _ _ held => mutex = held
  | .evictErase _ _ _ _ _ held => mutex = held
  | .destroyErase _ held | .destroyMutex _ held _ => mutex = held
  | .unlock held _ => mutex = held
  | _ => false

/-- The engine that the call creates or destroys a client of, with the mutex
object that it has fetched. -/
def engaged : MutexCall → Option (String × ℕ)
  | .lock remote _ mutex | .evaluate remote _ mutex => some (remote, mutex)
  | .create remote _ _ mutex => some (remote, mutex)
  | .destroyLock remote mutex | .destroyErase remote mutex => some (remote, mutex)
  | .destroyMutex remote mutex _ => some (remote, mutex)
  | _ => none

def created : MutexCall → Option String
  | .create remote _ _ _ => some remote
  | _ => none

def result : MutexCall → Option (String × ℕ)
  | .connected remote client => some (remote, client)
  | .unlock _ rest => rest.result
  | _ => none

def quiet : MutexCall → Bool
  | .fetch _ _ | .giveBack | .connected _ _ | .evict _ _ _ _ => true
  | .destroy _ | .releaseUse _ | .done _ => true
  | _ => false

def tame : MutexCall → Bool
  | .unlock _ rest => rest.quiet
  | _ => true

def waitsFor (remote : String) : MutexCall → Bool
  | .lock engine _ _ | .destroyLock engine _ => engine = remote
  | _ => false

variable {call : MutexCall}

attribute [local simp] quiet

theorem quiet_owns (hquiet : call.quiet = true) (mutex : ℕ) : call.owns mutex = false := by
  cases call <;> simp_all [quiet, owns]

theorem quiet_engaged (hquiet : call.quiet = true) : call.engaged = none := by
  cases call <;> simp_all [quiet, engaged]

theorem quiet_created (hquiet : call.quiet = true) : call.created = none := by
  cases call <;> simp_all [quiet, created]

theorem quiet_tame (hquiet : call.quiet = true) : call.tame = true := by
  cases call <;> simp_all [quiet, tame]

theorem waitsFor_or_owns {remote : String} {mutex : ℕ}
    (hengaged : call.engaged = some (remote, mutex)) :
    call.waitsFor remote = true ∨ call.owns mutex = true := by
  cases call <;> simp_all [engaged, waitsFor, owns]

theorem starts_quiet (hstarts : call.starts = true) : call.quiet = true ∧ call.result = none := by
  cases call <;> simp_all [starts, quiet, result]

end MutexCall

/-! ## What a step does -/

inductive MutexStep (s : MutexState) :
    MutexCall → MutexState → MutexCall → Prop where
  | fetched {call next : MutexCall} {remote : String}
      (howns : ∀ mutex, next.owns mutex = call.owns mutex)
      (hengaged : next.engaged = none ∨
        next.engaged = some (remote, (s.getClientMutex remote).1))
      (hcreated : next.created = none) (hresult : next.result = none)
      (htame : next.tame = true) :
      MutexStep s call (s.getClientMutex remote).2 next
  | locked {call next : MutexCall} {taken : ℕ}
      (hfree : taken ∉ s.locked)
      (howns : ∀ mutex, next.owns mutex = (call.owns mutex || mutex = taken))
      (hengaged : next.engaged = none ∨ next.engaged = call.engaged)
      (hcreated : next.created = none) (hresult : next.result = none)
      (htame : next.tame = true) :
      MutexStep s call { s with locked := insert taken s.locked } next
  | moved {call next : MutexCall} {manager : ClientManager}
      (hclients : manager.clients = s.manager.clients)
      (howns : ∀ mutex, next.owns mutex = call.owns mutex)
      (hengaged : next.engaged = none ∨ next.engaged = call.engaged)
      (hcreated : ∀ remote, next.created = some remote → remote ∉ s.manager.clients)
      (hresult : next.result = none) (htame : next.tame = true) :
      MutexStep s call { s with manager } next
  | emplaced {remote : String} {use reserved : Bool} {mutex : ℕ} :
      MutexStep s (.create remote use reserved mutex)
        { s with
          manager := (s.manager.newClient.emplaceClient remote
            s.manager.nextClient use reserved).1 }
        (.unlock mutex (.connected remote s.manager.nextClient))
  | removed {call next : MutexCall} {remote : String}
      {manager : ClientManager}
      (hclients : manager.clients = s.manager.clients ∨ remote ∈ s.manager.clients ∧
          manager.clients = s.manager.clients.erase remote)
      (howns : ∀ mutex, next.owns mutex = call.owns mutex)
      (hengaged : next.engaged = none ∨ next.engaged = call.engaged)
      (hcreated : next.created = none) (hresult : next.result = none)
      (htame : next.tame = true) :
      MutexStep s call (s.remove remote manager) next
  | dropped {remote : String} {mutex : ℕ} {status : ConnectStatus} :
      MutexStep s (.destroyMutex remote mutex status)
        (s.destroyClientMutex remote) (.unlock mutex (.done status))
  | unlocked {mutex : ℕ} {rest : MutexCall} (hquiet : rest.quiet = true) :
      MutexStep s (.unlock mutex rest) (s.unlock mutex) rest

namespace ClientManager

variable {m : ClientManager} {remote : String} {use reserved : Bool}
  {client : ℕ} {locked : ℕ → Bool}

theorem clients_hand_out : ((m.claimFor use client).1.touchClientLocked remote).clients =
      m.clients := by
  obtain ⟨useCount, hclaim, -⟩ := m.claimFor_eq use client .success
  obtain ⟨_, _, htouch⟩ := (m.claimFor use client).1.touchClientLocked_eq remote
  rw [htouch, hclaim]

theorem evaluateChannelAdmit_clients :
    (m.evaluateChannelAdmit locked remote use).1.clients = m.clients := by
  cases hclient : m.clients.lookup remote with
  | some client =>
    rw [evaluateChannelAdmit_found hclient]
    exact clients_hand_out
  | none =>
    cases hmax : m.maxChannel with
    | none => rw [evaluateChannelAdmit_unlimited hclient hmax]
    | some max =>
      by_cases hroom : m.size + m.creatingCount < max
      · rw [evaluateChannelAdmit_room hclient hmax hroom]
      · rw [evaluateChannelAdmit_full hclient hmax (Nat.not_lt.mp hroom)]

theorem lookup_of_evaluateChannelAdmit
    (hnone : (m.evaluateChannelAdmit locked remote use).2.1.client = none) :
    remote ∉ m.clients := by
  rw [← AList.lookup_eq_none]
  cases hclient : m.clients.lookup remote with
  | some client =>
    rw [evaluateChannelAdmit_found hclient] at hnone
    cases hnone
  | none => rfl

theorem emplaceClient_clients : (m.emplaceClient remote client use reserved).1.clients =
      (m.emplaceEntry remote client).clients := by
  cases reserved with
  | false | true => exact clients_hand_out

theorem destroyIdleClient_clients :
    (m.destroyIdleClient locked remote).clients = m.clients ∨ remote ∈ m.clients ∧
        (m.destroyIdleClient locked remote).clients = m.clients.erase remote := by
  unfold destroyIdleClient
  cases hclient : m.clients.lookup remote with
  | none => exact Or.inl rfl
  | some client =>
    dsimp only
    split_ifs
    · exact Or.inl rfl
    · exact Or.inr ⟨mem_of_lookup hclient, rfl⟩

theorem destroyClient_clients : (m.destroyClient remote).clients = m.clients ∨ remote ∈ m.clients ∧
        (m.destroyClient remote).clients = m.clients.erase remote := by
  unfold destroyClient
  cases hclient : m.clients.lookup remote with
  | none => exact Or.inl rfl
  | some client => exact Or.inr ⟨mem_of_lookup hclient, rfl⟩

end ClientManager

namespace MutexStep

variable {input : ChannelInput} {s s' : MutexState} {call next : MutexCall} {mutex : ℕ}

theorem of_lock {after : MutexCall}
    (hnext : ((s.lock mutex).map fun s => (s, after)) = some (s', next))
    (howns : ∀ other, after.owns other = (call.owns other || other = mutex))
    (hengaged : after.engaged = none ∨ after.engaged = call.engaged)
    (hcreated : after.created = none) (hresult : after.result = none) (htame : after.tame = true) :
    MutexStep s call s' next := by
  unfold MutexState.lock at hnext
  split_ifs at hnext with hbusy
  · simp at hnext
  · cases hnext
    exact locked hbusy howns hengaged hcreated hresult htame

theorem of_unlock (manager : ClientManager) {rest : MutexCall}
    (hclients : manager.clients = s.manager.clients)
    (howns : ∀ other, call.owns other = decide (other = mutex)) (hquiet : rest.quiet = true)
    (hresult : rest.result = none) : MutexStep s call { s with manager } (.unlock mutex rest) := by
  apply moved hclients
  · exact fun other => (howns other).symm
  · exact Or.inl rfl
  · intro remote hcreated
    exact absurd hcreated (by simp [MutexCall.created])
  · exact hresult
  · exact hquiet

theorem admitted_cases (remote : String) (use : Bool) (mutex : ℕ) (answer : ChannelAdmit) :
    (∃ rest, MutexCall.admitted remote use mutex answer =
        .unlock mutex rest ∧ rest.quiet = true ∧ rest.result = none) ∨
      (MutexCall.admitted remote use mutex answer =
        .create remote use answer.reserved mutex ∧ answer.client = none) := by
  unfold MutexCall.admitted
  cases answer.client with
  | some client => exact Or.inl ⟨_, rfl, rfl, rfl⟩
  | none =>
    split_ifs
    · exact Or.inl ⟨_, rfl, rfl, rfl⟩
    · exact Or.inr ⟨rfl, rfl⟩
    · exact Or.inl ⟨_, rfl, rfl, rfl⟩

theorem of_evaluate (remote : String) (use : Bool) (mutex : ℕ) :
    MutexStep s (.evaluate remote use mutex)
      { s with
        manager := (s.manager.evaluateChannelAdmit input.locked remote use).1 }
      (.admitted remote use mutex
        (s.manager.evaluateChannelAdmit input.locked remote use).2.1) := by
  have hclients :
      (s.manager.evaluateChannelAdmit input.locked remote use).1.clients =
        s.manager.clients := ClientManager.evaluateChannelAdmit_clients
  obtain ⟨rest, heq, hquiet, hresult⟩ | ⟨heq, hnone⟩ :=
    admitted_cases remote use mutex (s.manager.evaluateChannelAdmit input.locked remote use).2.1
  · rw [heq]
    exact of_unlock _ hclients (fun _ => rfl) hquiet hresult
  · rw [heq]
    apply moved hclients
    · exact fun _ => rfl
    · exact Or.inr rfl
    · intro engine hcreated
      cases hcreated
      exact ClientManager.lookup_of_evaluateChannelAdmit hnone
    all_goals rfl

variable {remote : String} {use : Bool}

theorem of_create {reserved : Bool}
    (hnext : (MutexCall.create remote use reserved mutex).next input s = some (s', next)) :
    MutexStep s (.create remote use reserved mutex) s' next := by
  simp only [MutexCall.next] at hnext
  split_ifs at hnext
  · cases hnext
    exact emplaced
  all_goals
    cases hnext
    exact of_unlock s.manager rfl (fun _ => rfl) rfl rfl

theorem of_quiet (manager : ClientManager) (hclients : manager.clients = s.manager.clients)
    (hcall : call.quiet = true) (hnext : next.quiet = true) (hresult : next.result = none) :
    MutexStep s call { s with manager } next := by
  apply moved hclients
  · intro mutex
    rw [MutexCall.quiet_owns hcall, MutexCall.quiet_owns hnext]
  · exact Or.inl (MutexCall.quiet_engaged hnext)
  · intro remote hcreated
    rw [MutexCall.quiet_created hnext] at hcreated
    cases hcreated
  · exact hresult
  · exact MutexCall.quiet_tame hnext

theorem of_evict {victims left : List String}
    (hnext : (MutexCall.evict remote use victims left).next input s = some (s', next)) :
    MutexStep s (.evict remote use victims left) s' next := by
  cases left with
  | cons victim left =>
    cases hnext
    exact fetched (fun _ => rfl) (Or.inl rfl) rfl rfl rfl
  | nil =>
    simp only [MutexCall.next] at hnext
    split_ifs at hnext
    all_goals
      cases hnext
      exact of_quiet s.manager rfl rfl rfl rfl

theorem of_next (htame : call.tame = true) (hnext : call.next input s = some (s', next)) :
    MutexStep s call s' next := by
  cases call with
  | fetch | destroy =>
    cases hnext
    exact fetched (fun _ => rfl) (Or.inr rfl) rfl rfl rfl
  | lock | destroyLock => exact of_lock hnext (fun _ => rfl) (Or.inr rfl) rfl rfl rfl
  | evaluate remote use mutex =>
    cases hnext
    exact of_evaluate remote use mutex
  | create remote use reserved mutex => exact of_create hnext
  | giveBack | releaseUse =>
    cases hnext
    exact of_quiet _ rfl rfl rfl rfl
  | connected | done => simp [MutexCall.next] at hnext
  | evict remote use victims left => exact of_evict hnext
  | evictLock remote use victims left victim mutex =>
    exact of_lock hnext (fun _ => rfl) (Or.inl rfl) rfl rfl rfl
  | evictErase remote use victims left victim mutex =>
    cases hnext
    exact removed ClientManager.destroyIdleClient_clients (fun _ => rfl) (Or.inl rfl) rfl rfl rfl
  | destroyErase remote mutex =>
    cases hnext
    exact removed ClientManager.destroyClient_clients (fun _ => rfl) (Or.inr rfl) rfl rfl rfl
  | destroyMutex remote mutex status =>
    cases hnext
    exact dropped
  | unlock mutex rest =>
    cases hnext
    exact unlocked htame

end MutexStep

/-! ## The invariant -/

def MutexState.isLocked (s : MutexState) (mutex : ℕ) : Bool := mutex ∈ s.locked

/-- What the tables say about the engine of a call and about its client. -/
structure MutexCallFits (s : MutexState) (call : MutexCall) : Prop where
  tame : call.tame = true
  current : ∀ remote mutex, call.engaged = some (remote, mutex) →
    s.clientMutexes.lookup remote = some mutex
  absent : ∀ remote, call.created = some remote →
    remote ∉ s.manager.clients
  stored : ∀ remote client, call.result = some (remote, client) →
    (remote, client) ∉ s.removed → s.manager.clients.lookup remote = some client

structure MutexInvariant (s : Config MutexState MutexCall) : Prop where
  owners : Owned MutexCall.owns s.shared.isLocked s.calls
  fits : ∀ call ∈ s.calls, MutexCallFits s.shared call

namespace MutexCallFits

variable {s : MutexState} {call : MutexCall} {remote : String}

theorem of_idle (hcurrent : ∀ remote mutex, call.engaged = some (remote, mutex) →
      s.clientMutexes.lookup remote = some mutex) (hcreated : call.created = none)
    (hresult : call.result = none) (htame : call.tame = true) : MutexCallFits s call :=
  ⟨htame, hcurrent, fun _ hsome => by simp [hcreated] at hsome,
    fun _ _ hsome => by simp [hresult] at hsome⟩

theorem of_quiet (hquiet : call.quiet = true)
    (hstored : ∀ remote client, call.result = some (remote, client) →
      (remote, client) ∉ s.removed → s.manager.clients.lookup remote = some client) :
    MutexCallFits s call :=
  ⟨MutexCall.quiet_tame hquiet,
    fun _ _ hengaged => by simp [MutexCall.quiet_engaged hquiet] at hengaged,
    fun _ hcreated => by simp [MutexCall.quiet_created hquiet] at hcreated, hstored⟩

theorem engaged_or (hfits : MutexCallFits s call) {next : MutexCall}
    (hengaged : next.engaged = none ∨ next.engaged = call.engaged) (remote : String) (mutex : ℕ)
    (hnext : next.engaged = some (remote, mutex)) : s.clientMutexes.lookup remote = some mutex := by
  obtain hnone | hsame := hengaged
  · simp [hnone] at hnext
  · exact hfits.current remote mutex (hsame ▸ hnext)

theorem owns_of_created (hfits : MutexCallFits s call) (hcreated : call.created = some remote) :
    ∃ mutex, s.clientMutexes.lookup remote = some mutex ∧ call.owns mutex = true := by
  cases call with
  | create engine use reserved mutex =>
    cases hcreated
    exact ⟨mutex, hfits.current _ _ rfl, by simp [MutexCall.owns]⟩
  | _ => simp [MutexCall.created] at hcreated

end MutexCallFits

namespace MutexState

theorem isLocked_insert (s : MutexState) (mutex : ℕ) :
    { s with locked := insert mutex s.locked }.isLocked =
      Function.update s.isLocked mutex true := by
  funext other
  by_cases hsame : other = mutex <;> simp [isLocked, hsame]

theorem isLocked_unlock (s : MutexState) (mutex : ℕ) :
    (s.unlock mutex).isLocked = Function.update s.isLocked mutex false := by
  funext other
  by_cases hsame : other = mutex <;> simp [isLocked, unlock, hsame]

variable {s : MutexState} {remote : String}

theorem getClientMutex_eq (s : MutexState) (remote : String) : ∃ clientMutexes nextMutex,
      (s.getClientMutex remote).2 = { s with clientMutexes, nextMutex } ∧
      clientMutexes.lookup remote = some (s.getClientMutex remote).1 ∧
      ∀ other mutex, s.clientMutexes.lookup other = some mutex →
        clientMutexes.lookup other = some mutex := by
  unfold getClientMutex
  cases hlookup : s.clientMutexes.lookup remote with
  | some found => exact ⟨_, _, rfl, hlookup, fun _ _ h => h⟩
  | none =>
    exact ⟨_, _, rfl, AList.lookup_insert _, fun _ _ => lookup_insert_of_none hlookup⟩

theorem remove_eq {manager : ClientManager} (hclients : manager.clients = s.manager.clients ∨
      remote ∈ s.manager.clients ∧ manager.clients = s.manager.clients.erase remote) :
    ∃ removed, s.remove remote manager = { s with manager, removed } ∧
      (manager.clients = s.manager.clients ∧ removed = s.removed ∨
      ∃ client, s.manager.clients.lookup remote = some client ∧
        manager.clients = s.manager.clients.erase remote ∧
        removed = (remote, client) :: s.removed) := by
  unfold remove
  cases hlookup : s.manager.clients.lookup remote with
  | none =>
    have habsent := AList.lookup_eq_none.mp hlookup
    exact ⟨_, rfl, Or.inl ⟨hclients.resolve_right fun h => habsent h.1, rfl⟩⟩
  | some client =>
    dsimp only
    obtain hsame | ⟨-, herase⟩ := hclients
    · rw [if_pos (hsame ▸ mem_of_lookup hlookup)]
      exact ⟨_, rfl, Or.inl ⟨hsame, rfl⟩⟩
    · have hgone : remote ∉ manager.clients := by
        rw [herase, AList.mem_erase]
        exact fun hmem => hmem.1 rfl
      rw [if_neg hgone]
      exact ⟨_, rfl, Or.inr ⟨client, rfl, herase, rfl⟩⟩

end MutexState

namespace MutexInvariant

variable {s : Config MutexState MutexCall} {s' : MutexState} {i j mutex : ℕ}
  {call next other rest : MutexCall} {remote : String}

theorem start (maxChannel : Option ℕ) : MutexInvariant (mutexStart maxChannel) where
  owners := Owned.empty
  fits := List.forall_mem_nil _

variable (hinv : MutexInvariant s)

include hinv

theorem startCall (hstarts : call.starts = true) :
    MutexInvariant { s with calls := s.calls ++ [call] } := by
  obtain ⟨hquiet, hresult⟩ := MutexCall.starts_quiet hstarts
  constructor
  · exact hinv.owners.append (MutexCall.quiet_owns hquiet)
  · exact forall_mem_append (.of_quiet hquiet fun _ _ hsome => by simp [hresult] at hsome) hinv.fits

theorem fitsAt (hj : s.calls[j]? = some other) : MutexCallFits s.shared other :=
  hinv.fits other (List.mem_of_getElem? hj)

theorem eq_of_created (hi : s.calls[i]? = some call) (hj : s.calls[j]? = some other)
    (hcall : call.created = some remote) (hother : other.created = some remote) : i = j := by
  obtain ⟨mutex, hmutex, howns⟩ := (hinv.fitsAt hi).owns_of_created hcall
  obtain ⟨mutex', hmutex', howns'⟩ := (hinv.fitsAt hj).owns_of_created hother
  obtain rfl := Option.some.inj (hmutex.symm.trans hmutex')
  exact hinv.owners.eq_of_owns hi hj howns howns'

theorem stepFetched (hi : s.calls[i]? = some call)
    (howns : ∀ mutex, next.owns mutex = call.owns mutex) (hengaged : next.engaged = none ∨
      next.engaged = some (remote, (s.shared.getClientMutex remote).1))
    (hcreated : next.created = none) (hresult : next.result = none) (htame : next.tame = true) :
    MutexInvariant
      { shared := (s.shared.getClientMutex remote).2
        calls := s.calls.set i next } := by
  obtain ⟨clientMutexes, nextMutex, heq, hlookup, hkeeps⟩ := s.shared.getClientMutex_eq remote
  rw [heq]
  refine ⟨hinv.owners.keep hi howns, forall_mem_set ?_ fun j other _ hj => ?_⟩
  · refine MutexCallFits.of_idle (fun engine mutex hnext => ?_) hcreated hresult htame
    obtain hnone | hsome := hengaged
    · simp [hnone] at hnext
    · cases hsome.symm.trans hnext
      exact hlookup
  · have hfits := hinv.fitsAt hj
    exact { hfits with
      current := fun engine held h => hkeeps engine held (hfits.current engine held h) }

theorem stepEmplaced {use reserved : Bool}
    (hi : s.calls[i]? = some (.create remote use reserved mutex)) : MutexInvariant
      { shared := { s.shared with
          manager := (s.shared.manager.newClient.emplaceClient remote
            s.shared.manager.nextClient use reserved).1 }
        calls := s.calls.set i
          (.unlock mutex (.connected remote s.shared.manager.nextClient)) }
    := by
  have habsent : remote ∉ s.shared.manager.clients := (hinv.fitsAt hi).absent remote rfl
  have hclients :
      (s.shared.manager.newClient.emplaceClient remote
          s.shared.manager.nextClient use reserved).1.clients =
        s.shared.manager.clients.insert remote
          s.shared.manager.nextClient := by
    rw [ClientManager.emplaceClient_clients, ClientManager.emplaceEntry]
    exact congrArg ClientManager.clients (if_neg habsent)
  refine ⟨hinv.owners.keep hi (fun _ => rfl), forall_mem_set ?_ fun j other hne hj => ?_⟩
  · refine ⟨rfl, fun _ _ hengaged => ?_, fun _ hcreated => ?_, ?_⟩
    · cases hengaged
    · cases hcreated
    intro engine client hresult _
    cases hresult
    exact hclients ▸ AList.lookup_insert _
  · have hfits := hinv.fitsAt hj
    refine ⟨hfits.tame, hfits.current, ?_, ?_⟩
    · intro engine hcreated hmem
      rw [hclients, AList.mem_insert] at hmem
      obtain rfl | hmem := hmem
      · exact hne (hinv.eq_of_created hj hi hcreated rfl)
      · exact hfits.absent engine hcreated hmem
    · intro engine client hresult hkept
      rw [hclients]
      exact lookup_insert_of_none (AList.lookup_eq_none.mpr habsent)
        (hfits.stored engine client hresult hkept)

theorem stepRemoved (hi : s.calls[i]? = some call)
    {manager : ClientManager} (hclients : manager.clients = s.shared.manager.clients ∨
      remote ∈ s.shared.manager.clients ∧ manager.clients = s.shared.manager.clients.erase remote)
    (howns : ∀ mutex, next.owns mutex = call.owns mutex)
    (hengaged : next.engaged = none ∨ next.engaged = call.engaged) (hcreated : next.created = none)
    (hresult : next.result = none) (htame : next.tame = true) : MutexInvariant
      { shared := s.shared.remove remote manager
        calls := s.calls.set i next } := by
  obtain ⟨removed, heq, hcases⟩ := MutexState.remove_eq hclients
  rw [heq]
  refine ⟨hinv.owners.keep hi howns, forall_mem_set
    (.of_idle ((hinv.fitsAt hi).engaged_or hengaged) hcreated hresult htame) fun j other _ hj => ?_⟩
  have hfits := hinv.fitsAt hj
  obtain ⟨hsame, rfl⟩ | ⟨gone, hgone, herase, rfl⟩ := hcases
  · exact { hfits with absent := hsame ▸ hfits.absent, stored := hsame ▸ hfits.stored }
  · refine { hfits with absent := ?_, stored := ?_ }
    · intro engine hengine hmem
      rw [herase, AList.mem_erase] at hmem
      exact hfits.absent engine hengine hmem.2
    · intro engine client hclient hkept
      rw [List.mem_cons, not_or, Prod.mk.injEq] at hkept
      have hold := hfits.stored engine client hclient hkept.2
      have hother : engine ≠ remote := by
        rintro rfl
        exact hkept.1 ⟨rfl, Option.some.inj (hold.symm.trans hgone)⟩
      rwa [herase, AList.lookup_erase_ne hother]

/-- The calls with a mutex of the engine are those that wait for it and the
one that has locked it. -/
theorem stepDropped {status : ConnectStatus}
    (hi : s.calls[i]? = some (.destroyMutex remote mutex status))
    (hunawaited : ∀ other ∈ s.calls, other.waitsFor remote = false) : MutexInvariant
      { shared := s.shared.destroyClientMutex remote
        calls := s.calls.set i (.unlock mutex (.done status)) } := by
  have hmutex := (hinv.fitsAt hi).current remote mutex rfl
  refine ⟨hinv.owners.keep hi (fun _ => rfl), forall_mem_set ?_ fun j other hne hj => ?_⟩
  · exact MutexCallFits.of_idle nofun rfl rfl rfl
  · have hfits := hinv.fitsAt hj
    refine { hfits with current := fun engine held hengaged => ?_ }
    have hheld := hfits.current engine held hengaged
    have hother : engine ≠ remote := by
      rintro rfl
      have hsame := Option.some.inj (hheld.symm.trans hmutex)
      cases MutexCall.waitsFor_or_owns hengaged with
      | inl hwaits => simp [hunawaited other (List.mem_of_getElem? hj)] at hwaits
      | inr howns =>
        rw [hsame] at howns
        exact hne (hinv.owners.eq_of_owns hj hi howns (by simp [MutexCall.owns]))
    exact (AList.lookup_erase_ne hother).trans hheld

theorem step (hi : s.calls[i]? = some call)
    (hunawaited : ∀ remote mutex status, call = .destroyMutex remote mutex status →
        ∀ other ∈ s.calls, other.waitsFor remote = false)
    (hstep : MutexStep s.shared call s' next) :
    MutexInvariant { shared := s', calls := s.calls.set i next } := by
  have hfits := hinv.fitsAt hi
  cases hstep with
  | fetched howns hengaged hcreated hresult htame =>
    exact hinv.stepFetched hi howns hengaged hcreated hresult htame
  | @locked _ _ taken hfree howns hengaged hcreated hresult htame =>
    refine ⟨?_, forall_mem_set ?_ fun j other _ hj => { hinv.fitsAt hj with }⟩
    · rw [MutexState.isLocked_insert]
      exact hinv.owners.take hi (decide_eq_false hfree) howns
    · exact MutexCallFits.of_idle (hfits.engaged_or hengaged) hcreated hresult htame
  | moved hclients howns hengaged hcreated hresult htame =>
    refine ⟨hinv.owners.keep hi howns, forall_mem_set ?_ fun j other _ hj => ?_⟩
    · exact ⟨htame, hfits.engaged_or hengaged, hclients ▸ hcreated,
        fun _ _ hclient => by simp [hresult] at hclient⟩
    · have hother := hinv.fitsAt hj
      exact { hother with absent := hclients ▸ hother.absent, stored := hclients ▸ hother.stored }
  | emplaced => exact hinv.stepEmplaced hi
  | removed hclients howns hengaged hcreated hresult htame =>
    exact hinv.stepRemoved hi hclients howns hengaged hcreated hresult htame
  | dropped => exact hinv.stepDropped hi (hunawaited _ _ _ rfl)
  | unlocked hquiet =>
    refine ⟨?_, forall_mem_set ?_ fun j other _ hj => { hinv.fitsAt hj with }⟩
    · rw [MutexState.isLocked_unlock]
      apply hinv.owners.giveBack hi
      · simp [MutexCall.owns]
      · intro other
        rw [MutexCall.quiet_owns hquiet]
        simp [MutexCall.owns]
    · exact MutexCallFits.of_quiet hquiet (hinv.fitsAt hi).stored

end MutexInvariant

/-- `DestroyClient` erases the mutex of an engine while no other call has
fetched it and waits to lock it. -/
def dropsUnawaited (s : Config MutexState MutexCall) : Action MutexCall ChannelInput → Bool
  | .start _ => true
  | .run i _ =>
    match s.calls[i]? with
    | some (.destroyMutex remote _ _) => s.calls.all fun call => !call.waitsFor remote
    | _ => true

variable {s : Config MutexState MutexCall} {remote : String}

theorem MutexInvariant.run {s' : Config MutexState MutexCall}
    {actions : List (Action MutexCall ChannelInput)} (hreach : mutexProgram.run s actions = some s')
    (halong : mutexProgram.along dropsUnawaited s actions = true) (hinv : MutexInvariant s) :
    MutexInvariant s' := by
  apply Program.run_invariant_along MutexInvariant dropsUnawaited _ _ actions hreach halong hinv
  · intro s call hstarts _ hinv
    exact hinv.startCall hstarts
  · intro s i input call next shared hi hnext hok hinv
    apply hinv.step hi _ (MutexStep.of_next (hinv.fitsAt hi).tame hnext)
    rintro remote mutex status rfl
    simpa only [dropsUnawaited, hi, List.all_eq_true, Bool.not_eq_true'] using hok

/-- At most one call is creating a client for an engine, and a client with
which a call has returned `SUCCESS` is the stored one until it is removed. -/
structure ClientExclusive (s : Config MutexState MutexCall) : Prop where
  one_creating : ∀ remote,
    s.calls.countP (MutexCall.creating remote) ≤ 1
  stored : ∀ remote client, .connected remote client ∈ s.calls →
    (remote, client) ∉ s.shared.removed → s.shared.manager.clients.lookup remote = some client

theorem created_of_creating {call : MutexCall} (hcreating : call.creating remote = true) :
    call.created = some remote := by
  cases call <;> simp_all [MutexCall.creating, MutexCall.created]

theorem MutexInvariant.exclusive (hinv : MutexInvariant s) : ClientExclusive s where
  one_creating := by
    intro remote
    cases hmutex : s.shared.clientMutexes.lookup remote with
    | none =>
      have hnone : s.calls.countP (MutexCall.creating remote) = 0 := by
        rw [List.countP_eq_zero]
        intro call hcall hcreating
        obtain ⟨mutex, hsome, -⟩ := (hinv.fits call hcall).owns_of_created
          (created_of_creating hcreating)
        rw [hmutex] at hsome
        cases hsome
      omega
    | some mutex =>
      apply le_trans _ (hinv.owners.countP_le_one mutex)
      apply List.countP_mono_left
      intro call hcall hcreating
      obtain ⟨held, hheld, howns⟩ := (hinv.fits call hcall).owns_of_created
        (created_of_creating hcreating)
      rw [hmutex] at hheld
      exact Option.some.inj hheld ▸ howns
  stored := fun remote client hcall => (hinv.fits _ hcall).stored remote client rfl

/-- In every interleaving in which no call waits for a mutex that
`DestroyClient` erases, one client at a time is created for an engine and the
clients handed out are the stored ones. -/
theorem clientManager_exclusive (maxChannel : Option ℕ)
    (actions : List (Action MutexCall ChannelInput)) (s : Config MutexState MutexCall)
    (hreach : mutexProgram.run (mutexStart maxChannel) actions = some s)
    (hdrops : mutexProgram.along dropsUnawaited (mutexStart maxChannel) actions = true) :
    ClientExclusive s :=
  ((MutexInvariant.start maxChannel).run hreach hdrops).exclusive

def calmRun : List (Action MutexCall ChannelInput) :=
  [.start (.fetch "r" true), .run 0 {}, .run 0 {}, .run 0 {}, .run 0 {},
    .run 0 {}, .start (.destroy "r"), .run 1 {}, .run 1 {}, .run 1 {},
    .run 1 {}, .run 1 {}, .start (.fetch "r" true),
    .start (.fetch "r" true), .run 2 {}, .run 3 {}, .run 3 {}, .run 3 {},
    .run 3 {}, .run 3 {}]

theorem clientManager_exclusive_calmRun :
    ∃ s, mutexProgram.run (mutexStart (some 2)) calmRun = some s ∧
      s.shared.manager.clients.lookup "r" = some 1 ∧ ClientExclusive s :=
  ⟨_, rfl, rfl, clientManager_exclusive (some 2) calmRun _ rfl rfl⟩

/-- A call waits for the mutex that `DestroyClient` erases, and the next call
makes a new one: both are admitted. -/
def droppedMutexRun : List (Action MutexCall ChannelInput) :=
  [.start (.destroy "r"), .run 0 {}, .run 0 {}, .start (.fetch "r" true),
    .run 1 {}, .run 0 {}, .run 0 {}, .run 0 {}, .run 1 {}, .run 1 {},
    .start (.fetch "r" true), .run 2 {}, .run 2 {}, .run 2 {}]

theorem not_clientExclusive_droppedMutexRun :
    (∃ s, mutexProgram.run (mutexStart none) droppedMutexRun = some s ∧
      s.calls.countP (MutexCall.creating "r") = 2) ∧ ∃ s, mutexProgram.run (mutexStart none)
        (droppedMutexRun ++ [.run 1 {}, .run 1 {}, .run 2 {}, .run 2 {}]) = some s ∧
      MutexCall.connected "r" 1 ∈ s.calls ∧ s.shared.removed = [] ∧
      s.shared.manager.clients.lookup "r" = some 0 := by
  constructor
  · exact ⟨_, rfl, rfl⟩
  · exact ⟨_, rfl, by decide, rfl, rfl⟩

end Hixl
