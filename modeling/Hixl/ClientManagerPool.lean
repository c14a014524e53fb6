import Hixl.ClientManagerModel
import Hixl.HeldResources

/-!
# The bound of the client pool and the safety of its evictions

`ChannelStep` says once what the step of a call does to the tables, and every
invariant is kept by each of its cases: the places reserved are those of the
creations in progress, the use counts are those of the transfers in progress,
and the sequence numbers are the positions of the last accesses in the log.
-/

namespace Hixl

open ChannelCall

open ClientManager

open HeldResources

open InterleavedCalls

/-- The position of the last access to an engine in the log of accesses,
counted from the first access; zero without one. -/
def lastAccess (log : List String) (remote : String) : ℕ := log.length - log.idxOf remote

variable {other remote : String}

theorem lastAccess_cons_ne (log : List String) (hne : other ≠ remote) :
    lastAccess (other :: log) remote = lastAccess log remote := by
  unfold lastAccess
  rw [List.idxOf_cons_ne _ hne, List.length_cons]
  omega

variable {log : List String}

theorem lastAccess_inj {a b : String} (ha : a ∈ log) (hb : b ∈ log)
    (heq : lastAccess log a = lastAccess log b) : a = b := by
  have hblt := List.idxOf_lt_length_iff.mpr hb
  unfold lastAccess at heq
  apply (List.idxOf_inj ha).mp
  omega

namespace ChannelCall

def isCreating : ChannelCall → Bool
  | .create _ _ reserved => reserved
  | .giveBack => true
  | _ => false

def uses (client : ℕ) : ChannelCall → Bool
  | .transfer used claimed => claimed && used = client
  | _ => false

/-- The client object of a transfer exists, and a creation without a place
happens only in a pool without a limit. -/
def Valid (m : ClientManager) : ChannelCall → Prop
  | .transfer client _ => client < m.nextClient
  | .create _ _ reserved => reserved = false → m.maxChannel = none
  | _ => True

end ChannelCall

/-- The step of a call with the changes to the tables, the place that it
holds and the use that it has claimed. -/
inductive ChannelStep (input : ChannelInput) (m : ClientManager) :
    ChannelCall → ClientManager → ChannelCall → Prop where
  | still {call next : ChannelCall}
      (haccess : call.accessed input m = none := by rfl)
      (hcreating : next.isCreating = call.isCreating := by rfl)
      (huses : ∀ client, next.uses client = call.uses client := by exact fun _ => rfl)
      (hvalid : call.Valid m → next.Valid m := by exact fun _ => trivial) :
      ChannelStep input m call m next
  | found {call : ChannelCall} {remote : String} {use : Bool} {client : ℕ}
      {status : ConnectStatus}
      (hcreating : call.isCreating = false)
      (huses : ∀ client, call.uses client = false)
      (haccess : call.accessed input m = some remote)
      (hclient : m.clients.lookup remote = some client) :
      ChannelStep input m call ((m.claimFor use client).1.touchClientLocked remote)
        (.handed use client (m.claimFor use client).2 status)
  | reserved {remote : String} {use : Bool} {maxChannel : ℕ}
      (hmax : m.maxChannel = some maxChannel)
      (hroom : m.size + m.creatingCount < maxChannel)
      (habsent : m.clients.lookup remote = none) :
      ChannelStep input m (.reserveSlot remote use) { m with creatingCount := m.creatingCount + 1 }
        (.create remote use true)
  | evicted {remote : String} {use : Bool} {victims left : List String}
      {victim : String} {client : ℕ}
      (hclient : m.clients.lookup victim = some client)
      (hidle : m.isBusy input.locked client = false) :
      ChannelStep input m (.evict remote use victims (victim :: left))
        (m.eraseClient victim) (.evict remote use victims left)
  | destroyed {remote : String} :
      ChannelStep input m (.destroyClient remote) (m.eraseClient remote) (.done .success)
  | created {remote : String} {use reserved : Bool}
      (hok : input.ok = true) :
      ChannelStep input m (.create remote use reserved)
        (m.newClient.emplaceClient remote m.nextClient use reserved).1
        (.handed use m.nextClient (m.newClient.emplaceClient remote m.nextClient use reserved).2
          .success)
  | gaveBack :
      ChannelStep input m .giveBack m.releaseChannelSlot (.done .failed)
  | added {client req : ℕ} {claimed : Bool} :
      ChannelStep input m (.transfer client claimed)
        (m.addRequest client req) (.transfer client claimed)
  | ended {client req : ℕ} :
      ChannelStep input m (.finishRequest client req)
        (m.removeTransferReq client req) (.done .success)
  | released {client : ℕ} :
      ChannelStep input m (.transfer client true) (m.releaseUse client) (.done .success)

variable {m : ClientManager}

theorem accessed_of_lookup_none (hnone : m.clients.lookup remote = none) :
    (if remote ∈ m.clients then some remote else none) = none := by
  rw [if_neg (AList.lookup_eq_none.mp hnone)]

variable {client : ℕ}

theorem accessed_of_lookup_some (hsome : m.clients.lookup remote = some client) :
    (if remote ∈ m.clients then some remote else none) = some remote := by
  rw [if_pos (mem_of_lookup hsome)]

/-! ## Admission -/

namespace ClientManager

variable {m : ClientManager} {locked : ℕ → Bool} {remote : String}
  {use : Bool} {client maxChannel : ℕ}

theorem findClientLocked_some (hclient : m.clients.lookup remote = some client) :
    m.findClientLocked remote use = ((m.claimFor use client).1.touchClientLocked remote,
        some (client, (m.claimFor use client).2)) := by
  simp only [findClientLocked, hclient]

theorem findClientLocked_none (habsent : m.clients.lookup remote = none) :
    m.findClientLocked remote use = (m, none) := by
  simp only [findClientLocked, habsent]

theorem evaluateChannelAdmit_found (hclient : m.clients.lookup remote = some client) :
    m.evaluateChannelAdmit locked remote use = ((m.claimFor use client).1.touchClientLocked remote,
        { client := some client }, (m.claimFor use client).2) := by
  simp only [evaluateChannelAdmit, findClientLocked_some hclient]

theorem evaluateChannelAdmit_unlimited (habsent : m.clients.lookup remote = none)
    (hmax : m.maxChannel = none) : m.evaluateChannelAdmit locked remote use = (m, {}, false) := by
  simp only [evaluateChannelAdmit, findClientLocked_none habsent, hmax]

theorem evaluateChannelAdmit_room (habsent : m.clients.lookup remote = none)
    (hmax : m.maxChannel = some maxChannel) (hroom : m.size + m.creatingCount < maxChannel) :
    m.evaluateChannelAdmit locked remote use = ({ m with creatingCount := m.creatingCount + 1 },
        { reserved := true }, false) := by
  simp only [evaluateChannelAdmit, findClientLocked_none habsent, hmax, hroom, if_true]

theorem evaluateChannelAdmit_full (habsent : m.clients.lookup remote = none)
    (hmax : m.maxChannel = some maxChannel) (hfull : maxChannel ≤ m.size + m.creatingCount) :
    m.evaluateChannelAdmit locked remote use = (m,
        { victims := m.selectLruIdleClientsLocked locked
            (m.size + m.creatingCount - maxChannel + 1)
          evictCount := m.size + m.creatingCount - maxChannel + 1
          poolExhausted :=
            (m.selectLruIdleClientsLocked locked
              (m.size + m.creatingCount - maxChannel + 1)).length <
              m.size + m.creatingCount - maxChannel + 1 }, false) := by
  simp only [evaluateChannelAdmit, findClientLocked_none habsent, hmax,
    Nat.not_lt.mpr hfull, if_false]

end ClientManager

namespace ChannelStep

variable {input : ChannelInput} {m m' : ClientManager}
  {next : ChannelCall} {remote : String} {use : Bool}

attribute [local simp] ChannelCall.next

theorem of_find {call : ChannelCall}
    (hcall : call = .getClientForUse remote ∨ call = .getClient remote)
    (hnext : call.next input m = some (m', next)) : ChannelStep input m call m' next := by
  cases hclient : m.clients.lookup remote with
  | none =>
    rcases hcall with rfl | rfl
    all_goals
      rw [ChannelCall.next, ClientManager.findClientLocked_none hclient] at hnext
      cases hnext
      exact still (accessed_of_lookup_none hclient)
  | some client =>
    have haccess := accessed_of_lookup_some hclient
    rcases hcall with rfl | rfl
    all_goals
      rw [ChannelCall.next, ClientManager.findClientLocked_some hclient] at hnext
      cases hnext
    · change ChannelStep input m _ _ (.handed true client (m.claimFor true client).2 .success)
      exact found rfl (fun _ => rfl) haccess hclient
    · exact found rfl (fun _ => rfl) haccess hclient

theorem of_reserveSlot (hnext : (ChannelCall.reserveSlot remote use).next input m =
      some (m', next)) : ChannelStep input m (.reserveSlot remote use) m' next := by
  simp only [ChannelCall.next] at hnext
  cases hclient : m.clients.lookup remote with
  | some client =>
    rw [evaluateChannelAdmit_found hclient] at hnext
    cases hnext
    exact found rfl (fun _ => rfl) (accessed_of_lookup_some hclient) hclient
  | none =>
    have haccess := accessed_of_lookup_none hclient
    cases hmax : m.maxChannel with
    | none =>
      rw [evaluateChannelAdmit_unlimited hclient hmax] at hnext
      cases hnext
      exact still haccess rfl (fun _ => rfl) fun _ _ => hmax
    | some maxChannel =>
      by_cases hroom : m.size + m.creatingCount < maxChannel
      · rw [evaluateChannelAdmit_room hclient hmax hroom] at hnext
        cases hnext
        exact reserved hmax hroom hclient
      · simp only [evaluateChannelAdmit_full hclient hmax
          (Nat.not_lt.mp hroom), Bool.false_or] at hnext
        split_ifs at hnext with hexhausted hempty
        · cases hnext
          exact still haccess
        · simp [List.isEmpty_iff.mp hempty] at hexhausted
        · cases hnext
          exact still haccess

theorem of_evict {victims left : List String}
    (hnext : (ChannelCall.evict remote use victims left).next input m = some (m', next)) :
    ChannelStep input m (.evict remote use victims left) m' next := by
  cases left with
  | nil =>
    simp only [ChannelCall.next] at hnext
    split_ifs at hnext
    all_goals
      cases hnext
      exact still
  | cons victim left =>
    cases hnext
    unfold destroyIdleClient
    cases hclient : m.clients.lookup victim with
    | none => exact still
    | some client =>
      dsimp only
      split_ifs with hbusy
      · exact still
      · exact evicted hclient (by simpa using hbusy)

theorem of_create {reservedSlot : Bool}
    (hnext : (ChannelCall.create remote use reservedSlot).next input m = some (m', next)) :
    ChannelStep input m (.create remote use reservedSlot) m' next := by
  simp only [ChannelCall.next] at hnext
  split_ifs at hnext with hok hreserved
  · cases hnext
    exact created hok
  all_goals
    cases hnext
    exact still (if_neg hok) (by simp [isCreating, hreserved])

theorem of_transfer {client : ℕ} {claimed : Bool}
    (hnext : (ChannelCall.transfer client claimed).next input m = some (m', next)) :
    ChannelStep input m (.transfer client claimed) m' next := by
  simp only [ChannelCall.next] at hnext
  cases hrequest : input.request with
  | some req =>
    rw [hrequest] at hnext
    cases hnext
    exact added
  | none =>
    rw [hrequest] at hnext
    cases hnext
    cases claimed with
    | true => exact released
    | false => exact still

theorem of_next {call : ChannelCall} (hnext : call.next input m = some (m', next)) :
    ChannelStep input m call m' next := by
  cases call with
  | getClientForUse remote => exact of_find (.inl rfl) hnext
  | getClient remote => exact of_find (.inr rfl) hnext
  | reserveSlot remote use => exact of_reserveSlot hnext
  | evict remote use victims left => exact of_evict hnext
  | create remote use reservedSlot => exact of_create hnext
  | giveBack =>
    cases hnext
    exact gaveBack
  | transfer client claimed => exact of_transfer hnext
  | finishRequest client req =>
    cases hnext
    exact ended
  | destroyClient remote =>
    cases hnext
    unfold ClientManager.destroyClient
    cases m.clients.lookup remote with
    | none => exact still
    | some client => exact destroyed
  | done status => cases hnext

end ChannelStep

namespace ClientManager

theorem claimFor_eq (use : Bool) (client : ℕ) (status : ConnectStatus) (m : ClientManager) :
    ∃ useCount, (m.claimFor use client).1 = { m with useCount } ∧ ∀ other,
      useCount other = m.useCount other + if (handed use client
        (m.claimFor use client).2 status).uses other then 1 else 0 := by
  unfold claimFor claimTransferUseLocked
  cases use with
  | false => exact ⟨_, rfl, fun _ => by simp [handed, uses]⟩
  | true =>
    simp only [if_true]
    split
    · exact ⟨_, rfl, fun _ => by simp [handed, uses]⟩
    · refine ⟨_, rfl, fun other => ?_⟩
      by_cases hsame : other = client
      · simp [handed, uses, hsame]
      · simp [handed, uses, hsame, Ne.symm hsame]

theorem touchClientLocked_eq (remote : String) (m : ClientManager) : ∃ accessSeq lastAccessSeq,
      m.touchClientLocked remote = { m with accessSeq, lastAccessSeq } := by
  unfold touchClientLocked
  split <;> exact ⟨_, _, rfl⟩

theorem emplaceEntry_eq (remote : String) (client : ℕ) (m : ClientManager) :
    ∃ clients, m.emplaceEntry remote client = { m with clients } ∧
      clients.keys.length ≤ m.size + 1 ∧ (∀ other found, clients.lookup other = some found →
        other = remote ∧ found = client ∨ m.clients.lookup other = some found) ∧
      ∀ other found, m.clients.lookup other = some found → clients.lookup other = some found := by
  unfold emplaceEntry
  split_ifs with hmem
  · exact ⟨_, rfl, Nat.le_succ _, fun _ _ h => Or.inr h, fun _ _ h => h⟩
  · refine ⟨_, rfl, ?_, fun other found hother => ?_, fun other found hother => ?_⟩
    · have hle := List.length_erase_le (a := remote) (l := m.clients.keys)
      simp only [size, AList.keys_insert, List.length_cons]
      omega
    · exact (lookup_insert_cases hother).imp_right And.right
    · exact lookup_insert_of_none (AList.lookup_eq_none.mpr hmem) hother

end ClientManager

structure AccessOrder (m : ClientManager) (log : List String) : Prop where
  seq : m.maxChannel ≠ none → m.accessSeq = log.length
  last : m.maxChannel ≠ none → ∀ remote ∈ m.clients,
    remote ∈ log ∧ m.lastAccessSeq.lookup remote = some (lastAccess log remote)

namespace AccessOrder

variable {m : ClientManager} {log : List String}

theorem touch (horder : AccessOrder m log) (remote : String) (useCount : ℕ → ℕ)
    (reqMap : ℕ → List ℕ) (nextClient : ℕ) {clients : AList fun _ : String => ℕ}
    (hclients : ∀ other ∈ clients, other = remote ∨ other ∈ m.clients) :
    AccessOrder (ClientManager.touchClientLocked remote
      { m with clients, useCount, reqMap, nextClient }) (remote :: log) := by
  unfold touchClientLocked
  split
  next hmax => exact ⟨fun h => absurd hmax h, fun h => absurd hmax h⟩
  next limit hmax =>
    have hsome : m.maxChannel ≠ none := Option.ne_none_iff_exists'.mpr ⟨limit, hmax⟩
    have hlen := horder.seq hsome
    constructor
    · intro _
      simp only [List.length_cons]
      omega
    · intro _ other hother
      by_cases hsame : other = remote
      · rw [hsame]
        simp only [AList.lookup_insert]
        exact ⟨List.mem_cons_self, by simp [lastAccess, hlen]⟩
      · have hprev := horder.last hsome other ((hclients other hother).resolve_left hsame)
        simp only [AList.lookup_insert_ne hsame]
        rw [lastAccess_cons_ne log (Ne.symm hsame)]
        exact ⟨List.mem_cons_of_mem _ hprev.1, hprev.2⟩

theorem eraseClient (horder : AccessOrder m log) (remote : String) :
    AccessOrder (m.eraseClient remote) log where
  seq := horder.seq
  last := by
    intro hmax other hother
    have hmem := (AList.mem_erase).mp hother
    simp only [ClientManager.eraseClient, AList.lookup_erase_ne hmem.1]
    exact horder.last hmax other hmem.2

end AccessOrder

/-! ## Places and uses -/

structure ChannelInvariant
    (maxChannel : Option ℕ) (s : Config ChannelState ChannelCall) :
    Prop where
  limit : s.shared.manager.maxChannel = maxChannel
  bound : ∀ max ∈ maxChannel,
    s.shared.manager.size + s.shared.manager.creatingCount ≤ max
  creating :
    s.shared.manager.creatingCount = s.calls.countP ChannelCall.isCreating
  uses : ∀ client,
    s.shared.manager.useCount client = s.calls.countP (ChannelCall.uses client)
  order : AccessOrder s.shared.manager s.shared.log
  valid : ∀ call ∈ s.calls, call.Valid s.shared.manager
  exists_client : ∀ remote client,
    s.shared.manager.clients.lookup remote = some client → client < s.shared.manager.nextClient

theorem isCreating_handed (use : Bool) (client : ℕ) (claimed : Bool) (status : ConnectStatus) :
    (handed use client claimed status).isCreating = false := by
  cases use <;> rfl

theorem valid_handed (hlt : client < m.nextClient) (use claimed : Bool) (status : ConnectStatus) :
    (handed use client claimed status).Valid m := by
  cases use with
  | false => trivial
  | true => exact hlt

namespace ChannelInvariant

variable {maxChannel : Option ℕ} {s : Config ChannelState ChannelCall}

theorem start (maxChannel : Option ℕ) : ChannelInvariant maxChannel (channelStart maxChannel) where
  limit := rfl
  bound := fun max _ => Nat.zero_le max
  creating := rfl
  uses := fun _ => rfl
  order :=
    { seq := fun _ => rfl
      last := fun _ _ h => absurd h (AList.notMem_empty _) }
  valid := List.forall_mem_nil _
  exists_client := by
    intro remote client h
    simp [channelStart] at h

variable {i limit : ℕ} {call next : ChannelCall} {use reserved : Bool}

theorem startCall (hinv : ChannelInvariant maxChannel s) (hstarts : call.starts = true) :
    ChannelInvariant maxChannel { s with calls := s.calls ++ [call] } := by
  have hcreating : call.isCreating = false := by
    cases call <;> simp_all [starts, ChannelCall.isCreating]
  have huses : ∀ client, call.uses client = false := by
    intro client
    cases call <;> simp_all [starts, ChannelCall.uses]
  have hvalid : call.Valid s.shared.manager := by
    cases call <;> simp_all [starts, ChannelCall.Valid]
  exact { hinv with
    creating := by simp [List.countP_append, hinv.creating, hcreating]
    uses := fun client => by simp [List.countP_append, hinv.uses, huses client]
    valid := List.forall_mem_append.mpr ⟨hinv.valid, fun other hother => by
      rwa [List.mem_singleton.mp hother]⟩ }

def moved (s : Config ChannelState ChannelCall) (manager : ClientManager) (log : List String)
    (i : ℕ) (next : ChannelCall) : Config ChannelState ChannelCall :=
  { shared := { manager, log }, calls := s.calls.set i next }

/-- The parts of the invariant that concern one step: the place and the use
of the call are exchanged for those of its successor. -/
theorem stepCall (hinv : ChannelInvariant maxChannel s) {log : List String}
    (hcall : s.calls[i]? = some call) (hlimit : m.maxChannel = s.shared.manager.maxChannel)
    (hbound : ∀ max ∈ maxChannel, m.size + m.creatingCount ≤ max) (hcreating :
      m.creatingCount + (if call.isCreating then 1 else 0) = s.shared.manager.creatingCount +
          (if next.isCreating then 1 else 0)) (huses : ∀ client,
      m.useCount client + (if call.uses client then 1 else 0) = s.shared.manager.useCount client +
          (if next.uses client then 1 else 0)) (horder : AccessOrder m log) (hvalid : next.Valid m)
    (hnextClient : s.shared.manager.nextClient ≤ m.nextClient)
    (hclients : ∀ remote client, m.clients.lookup remote = some client → client < m.nextClient) :
    ChannelInvariant maxChannel (moved s m log i next) := by
  refine ⟨hlimit.trans hinv.limit, hbound, ?_, fun client => ?_, horder, ?_, hclients⟩
  · have hcount := countP_set_add hcall next isCreating
    have hold := hinv.creating
    simp only [moved]
    omega
  · have hcount := countP_set_add hcall next (ChannelCall.uses client)
    have hold := hinv.uses client
    have hnew := huses client
    simp only [moved]
    omega
  · refine forall_mem_set_of_forall hvalid fun other hmem => ?_
    have hother := hinv.valid other hmem
    cases other with
    | transfer client claimed => exact lt_of_lt_of_le hother hnextClient
    | create remote use reserved => exact fun h => hlimit.trans (hother h)
    | _ => trivial

section Steps

variable (hinv : ChannelInvariant maxChannel s)

include hinv

theorem found (hcall : s.calls[i]? = some call)
    (hcreating : call.isCreating = false) (huses : ∀ client, call.uses client = false)
    (hclient : s.shared.manager.clients.lookup remote = some client) (use : Bool)
    (status : ConnectStatus) : ChannelInvariant maxChannel
      (moved s ((s.shared.manager.claimFor use client).1.touchClientLocked remote)
        (remote :: s.shared.log) i
        (.handed use client (s.shared.manager.claimFor use client).2 status)) := by
  obtain ⟨useCount, hclaim, hcount⟩ := s.shared.manager.claimFor_eq use client status
  have horder := hinv.order.touch remote useCount s.shared.manager.reqMap
    s.shared.manager.nextClient fun other hother => Or.inr hother
  rw [hclaim]
  obtain ⟨accessSeq, lastAccessSeq, htouch⟩ := touchClientLocked_eq remote
    { s.shared.manager with useCount }
  rw [htouch] at horder ⊢
  refine hinv.stepCall hcall rfl hinv.bound ?_ (fun other => ?_) horder ?_ le_rfl hinv.exists_client
  · rw [hcreating, isCreating_handed]
  · rw [huses other, ← hcount other]
    rfl
  · exact valid_handed (hinv.exists_client remote client hclient) _ _ _

theorem unchanged (hcall : s.calls[i]? = some call) (reqMap : ℕ → List ℕ)
    (hcreating : next.isCreating = call.isCreating)
    (huses : ∀ client, next.uses client = call.uses client)
    (hvalid : next.Valid { s.shared.manager with reqMap }) :
    ChannelInvariant maxChannel (moved s { s.shared.manager with reqMap } s.shared.log i next) := by
  refine hinv.stepCall hcall rfl hinv.bound ?_ (fun client => ?_)
    { hinv.order with } hvalid le_rfl hinv.exists_client
  · rw [hcreating]
  · rw [huses client]

theorem reserve (hcall : s.calls[i]? = some (.reserveSlot remote use))
    (hlimit : s.shared.manager.maxChannel = some limit)
    (hroom : s.shared.manager.size + s.shared.manager.creatingCount < limit) :
    ChannelInvariant maxChannel
      (moved s { s.shared.manager with creatingCount := s.shared.manager.creatingCount + 1 }
        s.shared.log i (.create remote use true)) := by
  refine hinv.stepCall hcall rfl (fun max hmax => ?_) rfl (fun _ => rfl)
    { hinv.order with } nofun le_rfl hinv.exists_client
  have hmax := Option.mem_def.mp hmax
  rw [← hinv.limit, hlimit, Option.some.injEq] at hmax
  simp only [size] at hroom ⊢
  omega

theorem erase (hcall : s.calls[i]? = some call) (remote : String)
    (hcreating : next.isCreating = call.isCreating)
    (huses : ∀ client, next.uses client = call.uses client)
    (hvalid : next.Valid (s.shared.manager.eraseClient remote)) : ChannelInvariant maxChannel
      (moved s (s.shared.manager.eraseClient remote) s.shared.log i next) := by
  refine hinv.stepCall hcall rfl (fun max hmax => ?_) ?_ (fun client => ?_)
    (hinv.order.eraseClient remote) hvalid le_rfl fun other client hother => ?_
  · have hbound := hinv.bound max hmax
    have hsize := @List.length_erase_le _ _ remote s.shared.manager.clients.keys
    rw [← AList.keys_erase] at hsize
    exact (Nat.add_le_add_right hsize _).trans hbound
  · rw [hcreating]
    rfl
  · rw [huses client]
    rfl
  · exact forall_lookup_erase hinv.exists_client other client hother

theorem creatingCount_pos (hcall : s.calls[i]? = some call) (hcreating : call.isCreating = true) :
    0 < s.shared.manager.creatingCount := by
  rw [hinv.creating, List.countP_pos_iff]
  exact ⟨_, List.mem_of_getElem? hcall, hcreating⟩

theorem giveBack (hcall : s.calls[i]? = some .giveBack) : ChannelInvariant maxChannel
      (moved s s.shared.manager.releaseChannelSlot s.shared.log i (.done .failed)) := by
  have hpos := hinv.creatingCount_pos hcall rfl
  refine hinv.stepCall hcall rfl (fun max hmax => ?_) ?_ (fun _ => rfl)
    { hinv.order with } trivial le_rfl hinv.exists_client
  · have hbound := hinv.bound max hmax
    simp only [size, releaseChannelSlot] at hbound ⊢
    omega
  · simp only [releaseChannelSlot, isCreating,
      if_true, Bool.false_eq_true, if_false]
    omega

theorem release (hcall : s.calls[i]? = some (.transfer client true)) : ChannelInvariant maxChannel
      (moved s (s.shared.manager.releaseUse client) s.shared.log i (.done .success)) := by
  have hpos : 0 < s.shared.manager.useCount client := by
    rw [hinv.uses, List.countP_pos_iff]
    exact ⟨_, List.mem_of_getElem? hcall, by simp [ChannelCall.uses]⟩
  refine hinv.stepCall hcall rfl hinv.bound rfl (fun other => ?_)
    { hinv.order with } trivial le_rfl hinv.exists_client
  by_cases hsame : other = client
  · subst other
    simp only [releaseUse, Function.update_self, ChannelCall.uses]
    simp
    omega
  · simp [releaseUse, Function.update_of_ne hsame, ChannelCall.uses, Ne.symm hsame]

theorem useCount_newClient : s.shared.manager.newClient.useCount = s.shared.manager.useCount := by
  have hzero : s.shared.manager.useCount s.shared.manager.nextClient = 0 := by
    rw [hinv.uses, List.countP_eq_zero]
    intro call hcall
    have hvalid := hinv.valid call hcall
    cases call with
    | transfer client claimed =>
      have hlt : client < s.shared.manager.nextClient := hvalid
      simp [ChannelCall.uses, hlt.ne]
    | _ => simp [ChannelCall.uses]
  exact Function.update_eq_self_iff.mpr hzero.symm

theorem create (hcall : s.calls[i]? = some (.create remote use reserved)) :
    ChannelInvariant maxChannel (moved s (s.shared.manager.newClient.emplaceClient remote
          s.shared.manager.nextClient use reserved).1 (remote :: s.shared.log) i
        (.handed use s.shared.manager.nextClient (s.shared.manager.newClient.emplaceClient remote
            s.shared.manager.nextClient use reserved).2 .success)) := by
  obtain ⟨clients, hentry, hsize, hfrom, -⟩ := s.shared.manager.newClient.emplaceEntry_eq remote
    s.shared.manager.nextClient
  obtain ⟨useCount, hclaim, hcount⟩ := claimFor_eq use s.shared.manager.nextClient
    .success { s.shared.manager.newClient with clients }
  have horder : AccessOrder (touchClientLocked remote
      { s.shared.manager.newClient with clients, useCount }) (remote :: s.shared.log) := by
    refine hinv.order.touch remote useCount _ _ fun other hother => ?_
    obtain ⟨found, hfound⟩ := exists_lookup hother
    exact (hfrom other found hfound).imp And.left mem_of_lookup
  simp only [emplaceClient, hentry, hclaim]
  obtain ⟨accessSeq, lastAccessSeq, htouch⟩ := touchClientLocked_eq remote
    { s.shared.manager.newClient with clients, useCount }
  rw [htouch] at horder ⊢
  have hlt : ∀ other found, clients.lookup other = some found →
      found < s.shared.manager.nextClient + 1 := by
    intro other found hfound
    obtain ⟨-, rfl⟩ | hold := hfrom other found hfound
    · exact Nat.lt_succ_self _
    · exact Nat.lt_succ_of_lt (hinv.exists_client other found hold)
  have huses : ∀ other, useCount other + 0 = s.shared.manager.useCount other + _ := fun other =>
    (hcount other).trans (congrArg (· other + _) hinv.useCount_newClient)
  have hplace : ∀ count, count + (if reserved then 1 else 0) = s.shared.manager.creatingCount →
      (∀ max ∈ maxChannel, clients.keys.length + count ≤ max) →
      ChannelInvariant maxChannel (moved s { s.shared.manager.newClient with
        clients, useCount, accessSeq, lastAccessSeq, creatingCount := count }
        (remote :: s.shared.log) i (.handed use s.shared.manager.nextClient
          (claimFor use s.shared.manager.nextClient
            { s.shared.manager.newClient with clients }).2 .success)) := by
    intro count hcreating hbound
    refine hinv.stepCall hcall rfl hbound ?_ huses ⟨horder.seq, horder.last⟩
      (valid_handed (Nat.lt_succ_self _) _ _ _) (Nat.le_succ _) hlt
    rwa [isCreating_handed]
  cases reserved with
  | true =>
    have hpos := hinv.creatingCount_pos hcall rfl
    refine hplace (s.shared.manager.creatingCount - 1) (Nat.sub_add_cancel hpos) fun max hmax => ?_
    have hbound := hinv.bound max hmax
    simp only [size, newClient] at hsize hbound
    omega
  | false =>
    have hnone : s.shared.manager.maxChannel = none := hinv.valid _ (List.mem_of_getElem? hcall) rfl
    refine hplace s.shared.manager.creatingCount rfl fun max hmax => ?_
    rw [← hinv.limit, hnone] at hmax
    cases hmax

theorem step {input : ChannelInput}
    (hcall : s.calls[i]? = some call) (hstep : ChannelStep input s.shared.manager call m next) :
    ChannelInvariant maxChannel
      (moved s m ((call.accessed input s.shared.manager).toList ++ s.shared.log) i next) := by
  have hvalid := hinv.valid _ (List.mem_of_getElem? hcall)
  cases hstep with
  | still haccess hcreating huses hkeep =>
    rw [haccess]
    exact hinv.unchanged hcall _ hcreating huses (hkeep hvalid)
  | found hcreating huses haccess hclient =>
    rw [haccess]
    exact hinv.found hcall hcreating huses hclient _ _
  | reserved hmax hroom habsent =>
    have haccess := accessed_of_lookup_none habsent
    simp only [accessed, haccess]
    exact hinv.reserve hcall hmax hroom
  | evicted | destroyed => exact hinv.erase hcall _ rfl (fun _ => rfl) trivial
  | created hok =>
    simp only [accessed, hok, if_true]
    exact hinv.create hcall
  | gaveBack => exact hinv.giveBack hcall
  | added => exact hinv.unchanged hcall _ rfl (fun _ => rfl) hvalid
  | ended => exact hinv.unchanged hcall _ rfl (fun _ => rfl) trivial
  | released => exact hinv.release hcall

end Steps

theorem run {s' : Config ChannelState ChannelCall} (hinv : ChannelInvariant maxChannel s)
    (actions : List (Action ChannelCall ChannelInput))
    (hreach : channelProgram.run s actions = some s') : ChannelInvariant maxChannel s' := by
  refine Program.run_invariant (ChannelInvariant maxChannel) ?_ ?_ actions hreach hinv
  · intro s call hstarts hinv
    exact hinv.startCall hstarts
  · intro s i input call next shared hcall hnext hinv
    obtain ⟨r, hr, heq⟩ := Option.map_eq_some_iff.mp hnext
    cases heq
    exact hinv.step hcall (ChannelStep.of_next hr)

end ChannelInvariant

namespace ClientManager

variable {m : ClientManager} {locked : ℕ → Bool} {evictCount : ℕ}

def IsIdle (locked : ℕ → Bool) (m : ClientManager) (remote : String) : Prop :=
  ∃ client, m.clients.lookup remote = some client ∧ m.isBusy locked client = false

def lruKey (m : ClientManager) (remote : String) : ℕ ×ₗ String :=
  toLex ((m.lastAccessSeq.lookup remote).getD 0, remote)

variable {key : ℕ ×ₗ String}

def sortedIdle (locked : ℕ → Bool) (m : ClientManager) : List (ℕ ×ₗ String) :=
  (m.idleClients locked).mergeSort fun a b => a ≤ b

theorem mem_sortedIdle :
    key ∈ m.sortedIdle locked ↔ ∃ remote, m.IsIdle locked remote ∧ key = m.lruKey remote := by
  rw [sortedIdle, List.mem_mergeSort]
  simp only [idleClients, IsIdle, lruKey, List.mem_map, List.mem_filter, Sigma.exists,
    ← AList.mem_lookup_iff, Option.mem_def, Bool.not_eq_true', exists_and_right]
  exact exists_congr fun _ => and_congr_right fun _ => eq_comm

variable {victim : String}

theorem mem_victims : victim ∈ m.selectLruIdleClientsLocked locked evictCount ↔
      m.lruKey victim ∈ (m.sortedIdle locked).take evictCount := by
  have hunfold : m.selectLruIdleClientsLocked locked evictCount =
      ((m.sortedIdle locked).take evictCount).map fun entry => (ofLex entry).2 := rfl
  rw [hunfold, List.mem_map]
  constructor
  · intro hvictim
    obtain ⟨key, hkey, hname⟩ := hvictim
    obtain ⟨remote, -, heq⟩ := mem_sortedIdle.mp (List.mem_of_mem_take hkey)
    have hsame : remote = victim := by rwa [heq] at hname
    rwa [← hsame, ← heq]
  · intro hkey
    exact ⟨_, hkey, rfl⟩

theorem victim_isIdle (hvictim : victim ∈ m.selectLruIdleClientsLocked locked evictCount) :
    m.IsIdle locked victim := by
  have hkey := mem_victims.mp hvictim
  obtain ⟨remote, hidle, heq⟩ := mem_sortedIdle.mp (List.mem_of_mem_take hkey)
  have hsame : victim = remote := congrArg (fun k => (ofLex k).2) heq
  rwa [hsame]

theorem victims_nodup : (m.selectLruIdleClientsLocked locked evictCount).Nodup := by
  have hnames : ((m.idleClients locked).map fun entry => (ofLex entry).2).Nodup := by
    have hmap : (m.idleClients locked).map (fun entry => (ofLex entry).2) =
        (m.clients.entries.filter fun entry => !m.isBusy locked entry.2).map Sigma.fst := by
      rw [idleClients, List.map_map]
      rfl
    rw [hmap]
    exact List.Nodup.sublist (List.Sublist.map Sigma.fst List.filter_sublist) m.clients.keys_nodup
  have hperm := (List.mergeSort_perm (m.idleClients locked)
    fun a b => decide (a ≤ b)).map fun entry => (ofLex entry).2
  exact List.Nodup.sublist (List.Sublist.map _ (List.take_sublist _ _)) (hperm.nodup_iff.mpr hnames)

end ClientManager

/-! ## The pool in every interleaving -/

/-- What a full pool selects: idle clients, as many as bring the occupied
places below the limit, and each of them accessed before every idle client
that is kept. -/
structure LruVictims
    (locked : ℕ → Bool) (maxChannel : ℕ) (s : ChannelState)
    (victims : List String) : Prop where
  idle : ∀ victim ∈ victims, s.manager.IsIdle locked victim
  nodup : victims.Nodup
  enough :
    maxChannel ≤ s.manager.size + s.manager.creatingCount ∧ victims.length =
        s.manager.size + s.manager.creatingCount + 1 - maxChannel
  oldest : ∀ victim ∈ victims, ∀ kept, s.manager.IsIdle locked kept →
    kept ∉ victims → lastAccess s.log victim < lastAccess s.log kept

structure ChannelPoolSafe
    (maxChannel : Option ℕ) (s : Config ChannelState ChannelCall) :
    Prop where
  bound : ∀ max ∈ maxChannel,
    s.shared.manager.size + s.shared.manager.creatingCount ≤ max
  creating :
    s.shared.manager.creatingCount = s.calls.countP ChannelCall.isCreating
  /-- Only `DestroyClient` removes a client that is used or has requests. -/
  removal : ∀ i input s',
    channelProgram.step s (.run i input) = some s' →
      (∀ remote, s.calls[i]? ≠ some (.destroyClient remote)) →
      ∀ remote client, s.shared.manager.clients.lookup remote = some client →
        s'.shared.manager.clients.lookup remote ≠ some client →
        s.shared.manager.useCount client = 0 ∧ s.shared.manager.reqMap client = []
  victims : ∀ i input s' remote use victims left,
    s.calls[i]? = some (.reserveSlot remote use) → channelProgram.step s (.run i input) = some s' →
      s'.calls[i]? = some (.evict remote use victims left) →
      ∃ max, maxChannel = some max ∧ LruVictims input.locked max s.shared victims
  quiescent :
    (∀ call ∈ s.calls, ∃ status, call = .done status) → s.shared.manager.creatingCount = 0

variable {locked : ℕ → Bool} {input : ChannelInput} {m' : ClientManager}

theorem ChannelStep.removes {call next : ChannelCall} (hstep : ChannelStep input m call m' next)
    (hcall : ∀ remote, call ≠ .destroyClient remote)
    (hclient : m.clients.lookup remote = some client)
    (hgone : m'.clients.lookup remote ≠ some client) :
    m.useCount client = 0 ∧ m.reqMap client = [] := by
  cases hstep with
  | @found call other use found status _ _ _ hfound =>
    obtain ⟨useCount, hclaim, -⟩ := m.claimFor_eq use found status
    obtain ⟨_, _, htouch⟩ := (m.claimFor use found).1.touchClientLocked_eq other
    rw [htouch, hclaim] at hgone
    exact absurd hclient hgone
  | @evicted _ _ _ _ victim other hother hidle =>
    by_cases hsame : remote = victim
    · subst remote
      rw [hother, Option.some.injEq] at hclient
      rw [← hclient]
      simp only [isBusy, Bool.or_eq_false_iff, decide_eq_false_iff_not] at hidle
      exact ⟨by omega, by simpa using hidle.2⟩
    · simp only [eraseClient, AList.lookup_erase_ne hsame] at hgone
      exact absurd hclient hgone
  | destroyed => exact absurd rfl (hcall _)
  | @created other use reserved hok =>
    obtain ⟨clients, hentry, -, -, hkeep⟩ := m.newClient.emplaceEntry_eq other m.nextClient
    obtain ⟨useCount, hclaim, -⟩ := claimFor_eq use m.nextClient .success
      { m.newClient with clients }
    obtain ⟨_, _, htouch⟩ := touchClientLocked_eq other
      { m.newClient with clients, useCount }
    simp only [emplaceClient, hentry, hclaim, htouch] at hgone
    cases reserved <;> exact absurd (hkeep remote client hclient) hgone
  | _ => exact absurd hclient hgone

theorem reserveSlot_evict {use use' : Bool} {victims left : List String}
    (hnext : (ChannelCall.reserveSlot remote use).next input m =
      some (m', .evict other use' victims left)) :
    ∃ max, m.maxChannel = some max ∧ max ≤ m.size + m.creatingCount ∧
      victims = m.selectLruIdleClientsLocked input.locked (m.size + m.creatingCount - max + 1) ∧
      m.size + m.creatingCount - max + 1 ≤ victims.length := by
  simp only [next] at hnext
  cases hclient : m.clients.lookup remote with
  | some client =>
    rw [evaluateChannelAdmit_found hclient] at hnext
    cases use <;> simp [handed] at hnext
  | none =>
    cases hmax : m.maxChannel with
    | none => simp [evaluateChannelAdmit_unlimited hclient hmax] at hnext
    | some max =>
      by_cases hroom : m.size + m.creatingCount < max
      · simp [evaluateChannelAdmit_room hclient hmax hroom] at hnext
      · simp only [evaluateChannelAdmit_full hclient hmax
          (Nat.not_lt.mp hroom)] at hnext
        split_ifs at hnext with hexhausted hempty
        · simp at hnext
        · simp at hnext
        · simp only [Option.some.injEq, Prod.mk.injEq, evict.injEq] at hnext
          rw [← hnext.2.2.2.1]
          simp only [decide_eq_true_eq, not_lt] at hexhausted
          exact ⟨max, rfl, by omega, rfl, hexhausted⟩

/-- The sequence numbers that select the victims are the positions of the
last accesses. -/
theorem lastAccess_victim_lt (horder : AccessOrder m log) (hmax : m.maxChannel ≠ none)
    {evictCount : ℕ} {victim kept : String}
    (hvictim : victim ∈ m.selectLruIdleClientsLocked locked evictCount)
    (hidle : m.IsIdle locked kept) (hkept : kept ∉ m.selectLruIdleClientsLocked locked evictCount) :
    lastAccess log victim < lastAccess log kept := by
  have hpresent : ∀ remote, m.IsIdle locked remote → remote ∈ m.clients := by
    intro remote hremote
    obtain ⟨client, hclient, -⟩ := hremote
    exact mem_of_lookup hclient
  have hv := horder.last hmax victim
    (hpresent victim (victim_isIdle hvictim))
  have hk := horder.last hmax kept (hpresent kept hidle)
  have hle : m.lruKey victim ≤ m.lruKey kept := by
    have hsorted : m.lruKey kept ∈ m.sortedIdle locked := mem_sortedIdle.mpr ⟨kept, hidle, rfl⟩
    rw [← List.take_append_drop evictCount (m.sortedIdle locked), List.mem_append] at hsorted
    have hdrop : m.lruKey kept ∈ (m.sortedIdle locked).drop evictCount :=
      hsorted.resolve_left fun h => hkept (mem_victims.mpr h)
    exact (List.pairwise_mergeSort' _ _).rel_of_mem_take_of_mem_drop (mem_victims.mp hvictim) hdrop
  rw [lruKey, lruKey, hv.2, hk.2, Prod.Lex.toLex_le_toLex] at hle
  cases hle with
  | inl hlt => exact hlt
  | inr heq =>
    have hsame := lastAccess_inj hv.1 hk.1 heq.1
    rw [hsame] at hvictim
    exact absurd hvictim hkept

theorem ChannelInvariant.poolSafe {maxChannel : Option ℕ} {s : Config ChannelState ChannelCall}
    (hinv : ChannelInvariant maxChannel s) : ChannelPoolSafe maxChannel s := by
  constructor
  · exact hinv.bound
  · exact hinv.creating
  · intro i input s' hstep hcall remote client hclient hgone
    obtain ⟨call, next, shared, hget, hnext, rfl⟩ := Program.step_run hstep
    obtain ⟨r, hr, heq⟩ := Option.map_eq_some_iff.mp hnext
    cases heq
    apply (ChannelStep.of_next hr).removes ?_ hclient hgone
    intro other hother
    exact hcall other (by rw [hget, hother])
  · intro i input s' remote use victims left hcall hstep hevict
    obtain ⟨call, next, shared, hget, hnext, rfl⟩ := Program.step_run hstep
    have hlt := (List.getElem?_eq_some_iff.mp hget).1
    rw [hcall, Option.some.injEq] at hget
    subst call
    simp only [List.getElem?_set_self hlt, Option.some.injEq] at hevict
    subst next
    obtain ⟨⟨m', next⟩, hr, heq⟩ := Option.map_eq_some_iff.mp hnext
    cases heq
    obtain ⟨max, hmax, hfull, hvictims, henough⟩ := reserveSlot_evict hr
    have hlen := congrArg List.length hvictims
    rw [selectLruIdleClientsLocked, List.length_map, List.length_take] at hlen
    refine ⟨max, hinv.limit.symm.trans hmax, ?_, ?_, ⟨hfull, by omega⟩, ?_⟩
    · intro victim hvictim
      rw [hvictims] at hvictim
      exact victim_isIdle hvictim
    · rw [hvictims]
      exact victims_nodup
    · intro victim hvictim kept hidle hkept
      rw [hvictims] at hvictim hkept
      exact lastAccess_victim_lt hinv.order (by rw [hmax]; simp) hvictim hidle hkept
  · intro hdone
    rw [hinv.creating, List.countP_eq_zero]
    intro call hcall
    obtain ⟨status, rfl⟩ := hdone call hcall
    simp [isCreating]

/-- In every interleaving of the calls on the pool, every configuration that
is reached is within the limit, accounts for every place, evicts only idle
clients, the least recently used first, and has no place left over. -/
theorem clientManager_pool_safe (maxChannel : Option ℕ)
    (actions : List (Action ChannelCall ChannelInput)) (s : Config ChannelState ChannelCall)
    (hreach : channelProgram.run (channelStart maxChannel) actions = some s) :
    ChannelPoolSafe maxChannel s :=
  ((ChannelInvariant.start maxChannel).run actions hreach).poolSafe

/-- The transfer on the only client has ended, so that the connect to another
peer evicts it. -/
def evictingRun : List (Action ChannelCall ChannelInput) :=
  .start (.reserveSlot "a" true) :: List.replicate 3 (.run 0 {}) ++
    .start (.reserveSlot "b" true) :: List.replicate 5 (.run 1 {})

theorem clientManager_pool_safe_evicted :
    ∃ s, channelProgram.run (channelStart (some 1)) evictingRun = some s ∧
      s.shared.manager.clients.keys = ["b"] ∧ ChannelPoolSafe (some 1) s := by
  have hrun : (channelProgram.run (channelStart (some 1)) evictingRun).map
      (fun s => s.shared.manager.clients.keys) = some ["b"] := by
    decide +kernel
  obtain ⟨s, hrun, hkeys⟩ := Option.map_eq_some_iff.mp hrun
  exact ⟨s, hrun, hkeys, clientManager_pool_safe (some 1) evictingRun s hrun⟩

/-- In every interleaving the use count of a client is the number of transfers
that have claimed it; when all calls have returned, no client is in use. -/
theorem clientManager_uses_exact (maxChannel : Option ℕ)
    (actions : List (Action ChannelCall ChannelInput)) (s : Config ChannelState ChannelCall)
    (hreach : channelProgram.run (channelStart maxChannel) actions = some s) (client : ℕ) :
    s.shared.manager.useCount client = s.calls.countP (uses client) ∧
      ((∀ call ∈ s.calls, ∃ status, call = .done status) →
        s.shared.manager.useCount client = 0) := by
  have huses := ((ChannelInvariant.start maxChannel).run actions hreach).uses client
  refine ⟨huses, fun hdone => ?_⟩
  rw [huses, List.countP_eq_zero]
  intro call hcall
  obtain ⟨status, rfl⟩ := hdone call hcall
  exact Bool.false_ne_true

theorem clientManager_uses_exact_one : ∃ s, channelProgram.run (channelStart (some 1))
        [.start (.reserveSlot "a" true), .run 0 {}, .run 0 {}] = some s ∧
      s.calls.countP (uses 0) = 1 ∧ s.shared.manager.useCount 0 = s.calls.countP (uses 0) :=
  ⟨_, rfl, rfl, (clientManager_uses_exact (some 1)
    [.start (.reserveSlot "a" true), .run 0 {}, .run 0 {}] _ rfl 0).1⟩

end Hixl
