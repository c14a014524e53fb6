import Hixl.EngineIndexIntegrity

/-!
# Batch status queries

A batch query takes the registered requests in their order and reports them
one by one until its limit is reached.  Its results are therefore a part of
the sequence of all registrations, in the same order.  As long as whoever
destroys a client reports its requests, a request that is not in the index any
more has been reported or is going to be.
-/

namespace Hixl

open InterleavedCalls EngineCall RequestIndex

/-- The numbers of all registered requests, the first one first. -/
def EngineState.registrations (s : EngineState) : List ℕ :=
  (s.registered.map TransferReqInfo.id).reverse

def BatchQuery.resultIds (b : BatchQuery) : List ℕ := b.results.map fun result => result.info.id

/-- The results of a batch query and the requests that it has still to report
are in the order of their registration, and there is room for a result. -/
def EngineCall.BatchFits (registrations : List ℕ) : EngineCall → Prop
  | .batch b =>
    b.results.length < b.maxQueryCount ∧
      (b.resultIds ++ b.left.map TransferReqInfo.id).Sublist registrations
  | .batchErase b info _ =>
    b.results.length < b.maxQueryCount ∧ (b.resultIds ++
        (info :: b.left).map TransferReqInfo.id).Sublist registrations
  | .batchAnswered b => b.results.length ≤ b.maxQueryCount ∧ b.resultIds.Sublist registrations
  | .autoDisconnect _ rest | .destroyClient _ rest => rest.BatchFits registrations
  | .destroyIndex _ rest | .destroyFinal _ rest => rest.BatchFits registrations
  | _ => True

namespace EngineCall.BatchFits

variable {registrations registrations' : List ℕ} {call : EngineCall}

theorem mono (hfits : call.BatchFits registrations) (hsub : registrations.Sublist registrations') :
    call.BatchFits registrations' := by
  induction call with
  | batch | batchErase | batchAnswered => exact ⟨hfits.1, hfits.2.trans hsub⟩
  | autoDisconnect _ _ ih | destroyClient _ _ ih | destroyIndex _ _ ih | destroyFinal _ _ ih =>
    exact ih hfits
  | _ => trivial

theorem disconnectFailed (hfits : call.BatchFits registrations) :
    call.disconnectFailed.BatchFits registrations := by
  cases call with
  | answered | transferred | returned => trivial
  | _ => exact hfits

section

variable {b : BatchQuery} {info : TransferReqInfo} {left : List TransferReqInfo}
  (hroom : b.results.length < b.maxQueryCount)
  (horder : (b.resultIds ++ (info :: left).map TransferReqInfo.id).Sublist registrations)

include hroom horder

theorem push (status : TransferStatus) : (b.push info status left).BatchFits registrations := by
  unfold BatchQuery.push
  split_ifs with hlimit
  · refine ⟨?_, ?_⟩
    · simp only [List.length_append, List.length_singleton]
      omega
    · apply List.Sublist.trans _ horder
      simp [BatchQuery.resultIds]
  · refine ⟨?_, ?_⟩
    · simp only [List.length_append, List.length_singleton]
      omega
    · simpa [BatchQuery.resultIds] using horder

theorem skip : (b.skip left).BatchFits registrations := by
  refine ⟨hroom, List.Sublist.trans ?_ horder⟩
  exact (List.sublist_cons_self _ _).append_left _

theorem batchAnswer {s : EngineState} (result : Except Status TransferStatus) :
    (batchAnswer s b info left result).BatchFits registrations := by
  cases result with
  | error ret => exact ⟨hroom, horder⟩
  | ok status =>
    cases status with
    | waiting =>
      rw [EngineCall.batchAnswer]
      split_ifs
      · exact skip hroom horder
      · exact push hroom horder .waiting
    | completed | timeout | failed => exact ⟨hroom, horder⟩

end

variable {input : EngineInput} {s s' : EngineState} {next : EngineCall}

theorem nextBatch (hindex : s.index.Consistent)
    (hordered : (s.index.orderedReqs.map Prod.fst).Sublist registrations)
    (hfits : call.BatchFits registrations) (hnext : call.nextBatch input s = some (s', next)) :
    next.BatchFits registrations := by
  cases call with
  | getTransferStatuses maxQueryCount skipWaiting =>
    simp only [EngineCall.nextBatch] at hnext
    split_ifs at hnext with hzero
    · cases hnext
      exact ⟨Nat.zero_le _, List.nil_sublist _⟩
    · cases hnext
      have hlooked := getOrderedReqs_looked hindex (s.alive input)
      exact ⟨Nat.pos_of_ne_zero hzero, hlooked.ids.trans hordered⟩
  | batch b =>
    simp only [EngineCall.nextBatch] at hnext
    obtain ⟨hroom, horder⟩ := hfits
    split at hnext
    · next hleft =>
        cases hnext
        rw [hleft, List.map_nil, List.append_nil] at horder
        exact ⟨hroom.le, horder⟩
    · next info left hleft =>
        rw [hleft] at horder
        split_ifs at hnext
        · cases hnext
          exact push hroom horder .failed
        · cases hnext
          exact batchAnswer hroom horder _
  | batchErase b info status =>
    cases hnext
    exact push hfits.1 hfits.2 status
  | _ => simp [EngineCall.nextBatch] at hnext

theorem nextDisconnect (hfits : call.BatchFits registrations)
    (hnext : call.nextDisconnect input s = some (s', next)) : next.BatchFits registrations := by
  unfold EngineCall.nextDisconnect at hnext
  repeat' split at hnext
  all_goals cases hnext
  all_goals first
    | trivial
    | exact hfits
    | exact disconnectFailed hfits

theorem nextTransfer (hnext : call.nextTransfer input s = some (s', next)) :
    next.BatchFits registrations := by
  unfold EngineCall.nextTransfer at hnext
  repeat' split at hnext
  all_goals cases hnext
  all_goals trivial

theorem nextQuery (hnext : call.nextQuery input s = some (s', next)) :
    next.BatchFits registrations := by
  simp only [EngineCall.nextQuery, queryAnswer] at hnext
  repeat' split at hnext
  all_goals cases hnext
  all_goals trivial

theorem of_next (hindex : s.index.Consistent)
    (hordered : (s.index.orderedReqs.map Prod.fst).Sublist registrations)
    (hfits : call.BatchFits registrations) (hnext : call.next input s = some (s', next)) :
    next.BatchFits registrations := by
  unfold EngineCall.next at hnext
  split at hnext
  all_goals first
    | exact nextTransfer hnext
    | exact nextQuery hnext
    | exact nextBatch hindex hordered hfits hnext
    | exact nextDisconnect hfits hnext
    | cases hnext

end EngineCall.BatchFits

theorem EngineStep.ordered {input : EngineInput} {s s' : EngineState} {call next : EngineCall}
    (hstep : EngineStep input s call s' next)
    (hordered : (s.index.orderedReqs.map Prod.fst).Sublist s.registrations) :
    (s'.index.orderedReqs.map Prod.fst).Sublist s'.registrations ∧
      s.registrations.Sublist s'.registrations := by
  cases hstep with
  | kept | refused | destroyed | finalized => exact ⟨hordered, List.Sublist.refl _⟩
  | opened hconnect | connected hconnect =>
    obtain ⟨-, rfl⟩ | ⟨-, -, rfl⟩ := EngineState.connect_some hconnect
    all_goals exact ⟨hordered, List.Sublist.refl _⟩
  | submitted hsubmit =>
    obtain ⟨-, -, rfl⟩ := EngineState.clientTransferAsync_ok hsubmit
    exact ⟨hordered, List.Sublist.refl _⟩
  | @registered info =>
    by_cases hreq : info.req = 0
    · have hsame : s.registerTransferReq info = s := by
        simp [EngineState.registerTransferReq, RequestIndex.registerTransferReq, hreq]
      rw [hsame]
      exact ⟨hordered, List.Sublist.refl _⟩
    · have hlog : (s.registerTransferReq info).registrations = s.registrations ++ [info.id] := by
        simp [EngineState.registrations, EngineState.registerTransferReq, hreq]
      rw [hlog]
      refine ⟨?_, List.sublist_append_left _ _⟩
      rw [EngineState.registerTransferReq, RequestIndex.registerTransferReq, if_neg hreq]
      rw [List.map_append]
      have herase := ((ordered_eraseTransferReq (x := s.index)
        info.req).map Prod.fst).trans hordered
      exact herase.append (List.Sublist.refl _)
  | looked hlooked => exact ⟨(hlooked.cleans.ordered.map _).trans hordered, List.Sublist.refl _⟩
  | asked hask =>
    have hasked := EngineState.asked_of_clientGetTransferStatus hask
    rw [EngineState.registrations, hasked.index, hasked.registered]
    exact ⟨hordered, List.Sublist.refl _⟩
  | erased | gaveUp =>
    exact ⟨((ordered_eraseTransferReq _).map _).trans hordered, List.Sublist.refl _⟩
  | dropped =>
    exact ⟨((eraseReqIndexByClient_cleans _ _).ordered.map _).trans hordered, List.Sublist.refl _⟩

structure BatchInvariant (s : Config EngineState EngineCall) : Prop where
  index : IndexInvariant s
  ordered : (s.shared.index.orderedReqs.map Prod.fst).Sublist
    s.shared.registrations
  fits : ∀ call ∈ s.calls, call.BatchFits s.shared.registrations

namespace BatchInvariant

theorem start (autoConnect : Bool) : BatchInvariant (engineStart autoConnect) where
  index := IndexInvariant.start autoConnect
  ordered := List.Sublist.refl _
  fits := List.forall_mem_nil _

theorem run {s s' : Config EngineState EngineCall} {actions : List (Action EngineCall EngineInput)}
    (hreach : engineProgram.run s actions = some s')
    (hinv : BatchInvariant s) : BatchInvariant s' := by
  apply Program.run_invariant BatchInvariant _ _ actions hreach hinv
  · intro s call hstarts hinv
    refine ⟨⟨hinv.index.consistent, forall_mem_append
      (tame_of_starts hstarts) hinv.index.tame⟩, hinv.ordered, ?_⟩
    apply forall_mem_append _ hinv.fits
    have hstarts : call.starts = true := hstarts
    cases call <;> simp_all [starts, BatchFits]
  · intro s i input call next shared hi hnext hinv
    obtain ⟨hstep, hindex⟩ := hinv.index.step hi hnext
    obtain ⟨hordered, hgrows⟩ := hstep.ordered hinv.ordered
    refine ⟨hindex, hordered, ?_⟩
    refine forall_mem_set_of_forall ?_ fun other hother => (hinv.fits other hother).mono hgrows
    have hfits := hinv.fits call (List.mem_of_getElem? hi)
    exact (hfits.of_next hinv.index.consistent hinv.ordered hnext).mono hgrows

end BatchInvariant

/-! ## Requests of a destroyed client -/

/-- A batch query that is going to report the request as failed: it has still
to reach it, has given up its engine and has room for all that is left. -/
def EngineCall.reports (engine : String) (info : TransferReqInfo) : EngineCall → Bool
  | .batch b =>
    info ∈ b.left ∧ engine ∈ b.disconnectedEngines ∧
      b.results.length + b.left.length ≤ b.maxQueryCount
  | .batchErase b _ _ =>
    info ∈ b.left ∧ engine ∈ b.disconnectedEngines ∧
      b.results.length + b.left.length < b.maxQueryCount
  | .autoDisconnect _ rest | .destroyClient _ rest => rest.reports engine info
  | .destroyIndex _ rest | .destroyFinal _ rest => rest.reports engine info
  | _ => false

def EngineState.requestsOf (client : ℕ) (s : EngineState) : List TransferReqInfo :=
  (s.index.reqToClient.entries.filter fun entry => entry.2.client = client).map fun entry =>
    ⟨entry.1, client, entry.2.userData, entry.2.orderIt⟩

/-- A call that is about to destroy a client reports all requests of the client
that are in the index and have not ended, and no transfer uses the client. -/
def EngineCall.destroysReported (s : Config EngineState EngineCall) : EngineCall → Bool
  | .destroyClient remote rest => (s.shared.clients.lookup remote).all fun client =>
    ((s.shared.requestsOf client).all fun info =>
      (s.calls.any fun other => other.ended.any fun result => result.1 = info.id) ||
        rest.reports (s.shared.remoteOf client) info) &&
      s.calls.all fun other => other.transferClient ≠ some client
  | _ => true

/-- The condition on the states of a run. -/
def reportsDestroyed (s : Config EngineState EngineCall) : Bool :=
  registersAlone s && s.calls.all fun call => call.destroysReported s

section Reports

variable {engine : String} {info : TransferReqInfo}

theorem BatchQuery.push_reports {b : BatchQuery} {first : TransferReqInfo}
    {left : List TransferReqInfo} (status : TransferStatus) (hinfo : info ∈ left)
    (hengine : engine ∈ b.disconnectedEngines)
    (hroom : b.results.length + left.length < b.maxQueryCount) :
    (b.push first status left).reports engine info = true := by
  have hleft := List.length_pos_of_mem hinfo
  rw [push, if_neg (by omega)]
  refine decide_eq_true ⟨hinfo, hengine, ?_⟩
  simp only [List.length_append, List.length_singleton]
  omega

variable {input : EngineInput} {s s' : EngineState} {call next : EngineCall}

theorem EngineCall.reports_batch {b : BatchQuery} (hnext : (batch b).next input s = some (s', next))
    (hreports : (batch b).reports (s.remoteOf info.client) info = true) :
    next.reports (s.remoteOf info.client) info = true ∨ (info.id, .failed) ∈ next.ended := by
  obtain ⟨hinfo, hengine, hroom⟩ := of_decide_eq_true hreports
  simp only [EngineCall.next, nextBatch] at hnext
  split at hnext
  · next hleft => simp [hleft] at hinfo
  · next first left hleft =>
      rw [hleft, List.length_cons] at hroom
      have hrest : b.results.length + left.length < b.maxQueryCount := by omega
      rw [hleft, List.mem_cons] at hinfo
      split_ifs at hnext with hgiven
      · cases hnext
        obtain rfl | hinfo := hinfo
        · right
          rw [(b.push_spec info .failed left s.remoteOf).2.2.2.2.1]
          exact List.mem_append_right _ (List.mem_singleton.mpr rfl)
        · exact Or.inl (BatchQuery.push_reports _ hinfo hengine hrest)
      · cases hnext
        have hinfo : info ∈ left := hinfo.resolve_left fun heq => hgiven (heq ▸ hengine)
        left
        generalize (s.clientGetTransferStatus first.client first.req input.query).1 = answer
        rcases answer with ret | status
        · exact decide_eq_true ⟨hinfo, List.mem_cons_of_mem _ hengine, hrest⟩
        · cases status with
          | waiting =>
            rw [batchAnswer]
            split_ifs
            · exact decide_eq_true ⟨hinfo, hengine, hrest.le⟩
            · exact BatchQuery.push_reports _ hinfo hengine hrest
          | completed | timeout | failed => exact decide_eq_true ⟨hinfo, hengine, hrest⟩

theorem EngineCall.reports_next (hnext : call.next input s = some (s', next))
    (hreports : call.reports (s.remoteOf info.client) info = true) :
    next.reports (s.remoteOf info.client) info = true ∨ (info.id, .failed) ∈ next.ended := by
  have hfailed : ∀ rest : EngineCall, rest.reports (s.remoteOf info.client) info = true →
      rest.disconnectFailed.reports (s.remoteOf info.client) info = true := by
    intro rest hrest
    cases rest <;> exact hrest
  cases call with
  | batch b => exact reports_batch hnext hreports
  | batchErase b first status =>
    obtain ⟨hinfo, hengine, hroom⟩ := of_decide_eq_true hreports
    cases hnext
    exact Or.inl (BatchQuery.push_reports _ hinfo hengine hroom)
  | autoDisconnect _ rest | destroyClient _ rest | destroyIndex _ rest | destroyFinal _ rest =>
    left
    simp only [EngineCall.next, nextDisconnect] at hnext
    repeat' split at hnext
    all_goals cases hnext
    all_goals first
      | exact hreports
      | exact hfailed rest hreports
  | _ => cases hreports

end Reports

/-- Clients are told apart by their numbers; a request of a destroyed client
has ended or is going to be reported. -/
structure DestroyInvariant (s : Config EngineState EngineCall) : Prop where
  named : ∀ remote client, s.shared.clients.lookup remote = some client →
    client < s.shared.nextClient ∧ s.shared.remoteOf client = remote ∧
      client ∉ s.shared.destroyed
  gone : ∀ client ∈ s.shared.destroyed, client < s.shared.nextClient
  transfers : ∀ call ∈ s.calls, ∀ client ∈ call.transferClient, client ∉ s.shared.destroyed
  reported : ∀ info ∈ s.shared.registered, info.client ∈ s.shared.destroyed →
    Ended s.calls info.id ∨
      ∃ call ∈ s.calls, call.reports (s.shared.remoteOf info.client) info = true

theorem mem_requestsOf {s : EngineState} {info : TransferReqInfo} (howns : s.index.owns info) :
    info ∈ s.requestsOf info.client := by
  refine List.mem_map.mpr ⟨⟨info.req, info.client, info.userData, info.id⟩, ?_, rfl⟩
  exact List.mem_filter.mpr ⟨HeldResources.mem_entries_iff.mpr howns, decide_eq_true rfl⟩

namespace DestroyInvariant

variable {s : Config EngineState EngineCall} {s' : EngineState} {i : ℕ} {call next : EngineCall}
  {input : EngineInput}

theorem start (autoConnect : Bool) : DestroyInvariant (engineStart autoConnect) where
  named := fun _ _ hlookup => by simp [engineStart] at hlookup
  gone := List.forall_mem_nil _
  transfers := List.forall_mem_nil _
  reported := List.forall_mem_nil _

theorem startCall (hinv : DestroyInvariant s) (hstarts : call.starts = true) :
    DestroyInvariant { s with calls := s.calls ++ [call] } := by
  refine { hinv with transfers := forall_mem_append ?_ hinv.transfers, reported := ?_ }
  · cases call <;> simp_all [starts, transferClient]
  · intro info hinfo hgone
    refine (hinv.reported info hinfo hgone).imp ?_ ?_
    all_goals exact Exists.imp fun _ => And.imp_left (List.mem_append_left _)

section

variable (hinv : DestroyInvariant s) (hi : s.calls[i]? = some call)
  (hnext : call.next input s.shared = some (s', next))
  (hstep : EngineStep input s.shared call s' next)

include hi hnext hstep

theorem reported_step {info : TransferReqInfo} (hreported : Ended s.calls info.id ∨
      ∃ call ∈ s.calls, call.reports (s.shared.remoteOf info.client) info = true) :
    Ended (s.calls.set i next) info.id ∨ ∃ call ∈ s.calls.set i next,
      call.reports (s.shared.remoteOf info.client) info = true := by
  obtain hended | ⟨other, hother, hreports⟩ := hreported
  · exact Or.inl (hended.step hi hstep.ended)
  · obtain rfl | hset := eq_or_mem_set hi hother
    · obtain hkept | hfailed := reports_next hnext hreports
      · exact Or.inr ⟨next, mem_calls_set hi, hkept⟩
      · exact Or.inl ⟨next, mem_calls_set hi, _, hfailed⟩
    · exact Or.inr ⟨other, hset, hreports⟩

include hinv

/-- A step that leaves the clients alone. -/
theorem stepSame (hclients : s'.clients = s.shared.clients)
    (hremote : s'.remoteOf = s.shared.remoteOf) (hnumber : s'.nextClient = s.shared.nextClient)
    (hdestroyed : s'.destroyed = s.shared.destroyed)
    (hregistered : ∀ info ∈ s'.registered, info ∈ s.shared.registered ∨
      call.transferClient = some info.client)
    (htransfer : ∀ client ∈ next.transferClient, call.transferClient = some client) :
    DestroyInvariant { shared := s', calls := s.calls.set i next } := by
  have hcall := hinv.transfers call (List.mem_of_getElem? hi)
  constructor
  · rw [hclients, hremote, hnumber, hdestroyed]
    exact hinv.named
  · rw [hnumber, hdestroyed]
    exact hinv.gone
  · rw [hdestroyed]
    exact forall_mem_set_of_forall (fun client hclient => hcall client (htransfer client hclient))
      hinv.transfers
  · rw [hremote, hdestroyed]
    intro info hinfo hgone
    obtain hold | hnew := hregistered info hinfo
    · exact reported_step hi hnext hstep (hinv.reported info hold hgone)
    · exact absurd hgone (hcall info.client hnew)

theorem stepConnected {remote : String} {create : Bool} {client : ℕ}
    (hconnect : s.shared.connect remote create = (some client, s'))
    (htransfer : ∀ other ∈ next.transferClient, other = client) :
    DestroyInvariant { shared := s', calls := s.calls.set i next } := by
  obtain ⟨hlookup, rfl⟩ | ⟨hnone, rfl, rfl⟩ := EngineState.connect_some hconnect
  · refine { hinv with transfers := forall_mem_set_of_forall ?_ hinv.transfers, reported := ?_ }
    · intro other hother
      rw [htransfer other hother]
      exact (hinv.named remote client hlookup).2.2
    · exact fun info hinfo hgone => reported_step hi hnext hstep (hinv.reported info hinfo hgone)
  · have hfresh : s.shared.nextClient ∉ s.shared.destroyed := fun hgone =>
      lt_irrefl _ (hinv.gone _ hgone)
    constructor
    · intro engine other hlookup
      by_cases hengine : engine = remote
      · subst hengine
        rw [AList.lookup_insert, Option.some.injEq] at hlookup
        subst hlookup
        exact ⟨Nat.lt_succ_self _, Function.update_self _ _ _, hfresh⟩
      · rw [AList.lookup_insert_ne hengine] at hlookup
        obtain ⟨hlt, hremote, hnot⟩ := hinv.named engine other hlookup
        exact ⟨hlt.trans (Nat.lt_succ_self _),
          (Function.update_of_ne hlt.ne _ _).trans hremote, hnot⟩
    · exact fun other hgone => (hinv.gone other hgone).trans (Nat.lt_succ_self _)
    · refine forall_mem_set_of_forall ?_ hinv.transfers
      intro other hother
      rwa [htransfer other hother]
    · intro info hinfo hgone
      dsimp only
      rw [Function.update_of_ne (hinv.gone _ hgone).ne]
      exact reported_step hi hnext hstep (hinv.reported info hinfo hgone)

theorem stepDestroyed (hreq : RequestInvariant s) {remote : String} {client : ℕ}
    {rest : EngineCall} (hcall : call = .destroyClient remote rest)
    (hlookup : s.shared.clients.lookup remote = some client)
    (hs : s' = { s.shared with
      clients := s.shared.clients.erase remote
      destroyed := client :: s.shared.destroyed })
    (hafter : next = .destroyIndex client rest) (hok : call.destroysReported s = true) :
    DestroyInvariant { shared := s', calls := s.calls.set i next } := by
  have hreported := fun info => @reported_step _ _ _ _ _ _ hi hnext hstep info
  subst hcall hs hafter
  obtain ⟨hlt, hremote, hnot⟩ := hinv.named remote client hlookup
  simp only [destroysReported, hlookup, Option.all_some, Bool.and_eq_true, List.all_eq_true,
    decide_eq_true_eq] at hok
  constructor
  · intro engine other hother
    obtain ⟨hne, hother⟩ := HeldResources.lookup_of_erase hother
    obtain ⟨hlt', hremote', hnot'⟩ := hinv.named engine other hother
    refine ⟨hlt', hremote', List.not_mem_cons_of_ne_of_not_mem ?_ hnot'⟩
    rintro rfl
    exact hne (hremote'.symm.trans hremote)
  · exact List.forall_mem_cons.mpr ⟨hlt, hinv.gone⟩
  · refine forall_mem_set_of_forall nofun fun other hother user huser => ?_
    refine List.not_mem_cons_of_ne_of_not_mem ?_ (hinv.transfers other hother user huser)
    rintro rfl
    exact hok.2 other hother huser
  · intro info hinfo hgone
    refine hreported info ?_
    obtain hended | hgone' | ⟨-, howns⟩ := hreq.kept info hinfo
    · exact Or.inl hended
    · exact hinv.reported info hinfo hgone'
    · obtain rfl | hgone := List.mem_cons.mp hgone
      · have hinfo := hok.1 info (mem_requestsOf howns)
        simp only [Bool.or_eq_true, List.any_eq_true, decide_eq_true_eq] at hinfo
        obtain ⟨other, hother, ⟨id, status⟩, hended, rfl⟩ | hreports := hinfo
        · exact Or.inl ⟨other, hother, status, hended⟩
        · exact Or.inr ⟨_, List.mem_of_getElem? hi, hreports⟩
      · exact hinv.reported info hinfo hgone

theorem step (hreq : RequestInvariant s) (hok : call.destroysReported s = true) :
    DestroyInvariant { shared := s', calls := s.calls.set i next } := by
  have hsame := hinv.stepSame hi hnext hstep
  have hconnected := fun remote create client => @stepConnected _ _ _ _ _ _ hinv hi hnext hstep
    remote create client
  have hdestroyed := @stepDestroyed _ _ _ _ _ _ hinv hi hnext hstep hreq
  clear hnext
  cases hstep with
  | kept hcarries | finalized hcarries | erased _ _ hcarries =>
    exact hsame rfl rfl rfl rfl (fun _ => Or.inl)
      (by simp [transferClient_of_plain hcarries.plain])
  | opened hconnect => exact hconnected _ _ _ hconnect (by simp [transferClient])
  | connected hconnect =>
    exact hconnected _ _ _ hconnect fun _ hother => (Option.some.inj hother).symm
  | submitted hsubmit =>
    obtain ⟨rfl, -, rfl⟩ := EngineState.clientTransferAsync_ok hsubmit
    exact hsame rfl rfl rfl rfl (fun _ => Or.inl) fun _ hother => hother
  | refused => exact hsame rfl rfl rfl rfl (fun _ => Or.inl) (by simp [transferClient])
  | registered =>
    refine hsame rfl rfl rfl rfl ?_ (by simp [transferClient])
    rw [EngineState.registerTransferReq]
    split_ifs
    · exact fun _ => Or.inl
    · exact List.forall_mem_cons.mpr ⟨Or.inr rfl, fun _ => Or.inl⟩
  | looked _ _ _ hplain | gaveUp _ _ _ hplain =>
    exact hsame rfl rfl rfl rfl (fun _ => Or.inl) (by simp [transferClient_of_plain hplain])
  | asked hask _ hplain =>
    have hasked := EngineState.asked_of_clientGetTransferStatus hask
    exact hsame hasked.clients hasked.remoteOf hasked.nextClient hasked.destroyed
      (hasked.registered ▸ fun _ => Or.inl) (by simp [transferClient_of_plain hplain])
  | destroyed hlookup => exact hdestroyed rfl hlookup rfl rfl hok
  | dropped => exact hsame rfl rfl rfl rfl (fun _ => Or.inl) (by simp [transferClient])

end

theorem run {s' : Config EngineState EngineCall} {actions : List (Action EngineCall EngineInput)}
    (hreach : engineProgram.run s actions = some s')
    (hok : engineProgram.throughout reportsDestroyed s actions = true)
    (hinv : RequestInvariant s ∧ DestroyInvariant s) :
    RequestInvariant s' ∧ DestroyInvariant s' := by
  refine (Program.run_invariant_throughout (fun s => RequestInvariant s ∧ DestroyInvariant s)
    reportsDestroyed ?_ ?_ actions hreach hok hinv).1
  · intro s call hstarts _ hinv
    exact ⟨hinv.1.startCall hstarts, hinv.2.startCall hstarts⟩
  · intro s i input call next shared hi hnext hok hafter hinv
    obtain ⟨halone, hdestroys⟩ := Bool.and_eq_true_iff.mp hok
    have hstep := EngineStep.of_next hinv.1.consistent (hinv.1.fitsAt hi).tame hnext
    refine ⟨hinv.1.step halone hi (Bool.and_eq_true_iff.mp hafter).1 hstep,
      hinv.2.step hi hnext hstep hinv.1 ?_⟩
    exact List.all_eq_true.mp hdestroys call (List.mem_of_getElem? hi)

end DestroyInvariant

end Hixl
