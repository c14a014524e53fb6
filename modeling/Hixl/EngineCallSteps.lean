import Hixl.EngineRequestIndex

/-!
# What the calls of the engine do

A call is seen through the requests that it has in hand: a handle that
`TransferAsync` has got and not registered, the requests that a query has still
to ask for, and those that it is about to erase from the index; and through the
ends of requests that it returns.  `EngineStep` says for each step how these
change.
-/

namespace Hixl

open InterleavedCalls

def answerStatus : Except Status TransferStatus → TransferStatus
  | .error _ => .failed
  | .ok status => status

def endOf (info : TransferReqInfo) (status : TransferStatus) : List (ℕ × TransferStatus) :=
  if status = .waiting then [] else [(info.id, status)]

theorem endOf_terminal {info : TransferReqInfo} {status : TransferStatus}
    (hstatus : status ≠ .waiting) : endOf info status = [(info.id, status)] :=
  if_neg hstatus

def BatchQuery.ended (b : BatchQuery) : List (ℕ × TransferStatus) :=
  b.results.flatMap fun result => endOf result.info result.status

namespace EngineCall

/-- The request that `TransferAsync` has got and not registered. -/
def fresh : EngineCall → Option TransferReqInfo
  | .register info => some info
  | _ => none

def todo : EngineCall → List TransferReqInfo
  | .query info => [info]
  | .batch b | .batchErase b _ _ => b.left
  | .autoDisconnect _ rest | .destroyClient _ rest => rest.todo
  | .destroyIndex _ rest | .destroyFinal _ rest => rest.todo
  | _ => []

/-- The requests that a status query has in hand. -/
def taken : EngineCall → List TransferReqInfo
  | .query info | .erase info _ => [info]
  | .batch b => b.left
  | .batchErase b info _ => info :: b.left
  | .autoDisconnect _ rest | .destroyClient _ rest => rest.taken
  | .destroyIndex _ rest | .destroyFinal _ rest => rest.taken
  | _ => []

def hand (call : EngineCall) : List TransferReqInfo := call.fresh.toList ++ call.taken

/-- The ends of requests that the call returns or is going to return. -/
def ended : EngineCall → List (ℕ × TransferStatus)
  | .erase info result => endOf info (answerStatus result)
  | .answered (some info) _ status => endOf info status
  | .batch b | .batchAnswered b => b.ended
  | .batchErase b info status => endOf info status ++ b.ended
  | .autoDisconnect _ rest | .destroyClient _ rest => rest.ended
  | .destroyIndex _ rest | .destroyFinal _ rest => rest.ended
  | _ => []

/-- The client that `TransferAsync` is going to use. -/
def transferClient : EngineCall → Option ℕ
  | .submit client _ => some client
  | .register info => some info.client
  | _ => none

def destroying : EngineCall → Option ℕ
  | .destroyIndex client _ | .destroyFinal client _ => some client
  | _ => none

def plain : EngineCall → Bool
  | .transferAsync _ _ | .submit _ _ | .register _ | .connect _ => false
  | .destroyIndex _ _ | .destroyFinal _ _ => false
  | _ => true

/-- A call erases only requests that have ended, and goes on plainly after a
disconnection. -/
def tame : EngineCall → Bool
  | .erase _ result => answerStatus result ≠ .waiting
  | .batchErase _ _ status => status ≠ .waiting
  | .autoDisconnect _ rest | .destroyClient _ rest => rest.plain && rest.tame
  | .destroyIndex _ rest | .destroyFinal _ rest => rest.plain && rest.tame
  | _ => true

def accused (remoteOf : ℕ → String) : EngineCall → List String
  | .erase info (.error _) => [remoteOf info.client]
  | .batch b | .batchErase b _ _ => b.disconnectedEngines
  | .disconnect remote => [remote]
  | .autoDisconnect remote rest | .destroyClient remote rest => remote :: rest.accused remoteOf
  | .destroyIndex _ rest | .destroyFinal _ rest => rest.accused remoteOf
  | _ => []

variable {call : EngineCall}

theorem fresh_of_plain (hplain : call.plain = true) : call.fresh = none := by
  cases call <;> simp_all [plain, fresh]

theorem destroying_of_plain (hplain : call.plain = true) : call.destroying = none := by
  cases call <;> simp_all [plain, destroying]

theorem transferClient_of_plain (hplain : call.plain = true) : call.transferClient = none := by
  cases call <;> simp_all [plain, transferClient]

theorem fresh_of_taken {info : TransferReqInfo} (htaken : info ∈ call.taken) :
    call.fresh = none := by
  cases call <;> simp_all [fresh, taken]

theorem taken_disconnectFailed (call : EngineCall) : call.disconnectFailed.taken = call.taken := by
  cases call <;> rfl

structure Carries (remoteOf : ℕ → String) (before after : EngineCall) :
    Prop where
  fresh : before.fresh = none := by rfl
  plain : after.plain = true := by rfl
  tame : after.tame = true := by rfl
  todo : after.todo.Sublist before.todo := by exact List.Sublist.refl _
  taken : after.taken ⊆ before.taken := by exact fun _ h => h
  ended : after.ended.Perm before.ended := by exact List.Perm.refl _
  accused : after.accused remoteOf ⊆ before.accused remoteOf := by exact fun _ h => h

variable {remoteOf : ℕ → String}

theorem Carries.refl (hplain : call.plain = true) (htame : call.tame = true) :
    Carries remoteOf call call where
  fresh := fresh_of_plain hplain
  plain := hplain
  tame := htame

theorem Carries.disconnectFailed (hplain : call.plain = true) (htame : call.tame = true) :
    Carries remoteOf call call.disconnectFailed := by
  cases call with
  | answered info ret status =>
    cases info with
    | none | some =>
      exact {}
  | transferred | returned =>
    exact {}
  | _ => exact refl hplain htame

end EngineCall

theorem BatchQuery.push_spec (b : BatchQuery) (info : TransferReqInfo) (status : TransferStatus)
    (left : List TransferReqInfo) (remoteOf : ℕ → String) :
    (b.push info status left).plain = true ∧ (b.push info status left).tame = true ∧
      (b.push info status left).todo.Sublist left ∧ (b.push info status left).taken ⊆ left ∧
      (b.push info status left).ended = b.ended ++ endOf info status ∧
      (b.push info status left).accused remoteOf ⊆ b.disconnectedEngines := by
  unfold push
  split_ifs
  · refine ⟨rfl, rfl, List.nil_sublist _, List.nil_subset _, ?_, List.nil_subset _⟩
    simp [EngineCall.ended, ended]
  · refine ⟨rfl, rfl, List.Sublist.refl _, fun _ h => h, ?_, fun _ h => h⟩
    simp [EngineCall.ended, ended]

namespace EngineState

variable {s s' : EngineState} {client req : ℕ} {remote : String} {ok : Bool}

theorem connect_none (hconnect : s.connect remote ok = (none, s')) : s' = s := by
  unfold connect at hconnect
  split at hconnect
  · cases hconnect
  · split_ifs at hconnect
    all_goals cases hconnect
    rfl

theorem connect_some (hconnect : s.connect remote ok = (some client, s')) :
    s.clients.lookup remote = some client ∧ s' = s ∨
      s.clients.lookup remote = none ∧ client = s.nextClient ∧ s' = { s with
          clients := s.clients.insert remote client
          remoteOf := Function.update s.remoteOf client remote
          nextClient := client + 1 } := by
  unfold connect at hconnect
  split at hconnect
  · next found hlookup =>
      cases hconnect
      exact Or.inl ⟨hlookup, rfl⟩
  · next hnone =>
      split_ifs at hconnect
      all_goals cases hconnect
      exact Or.inr ⟨hnone, rfl, rfl⟩

variable {userData : ℕ} {answer : Except Status ℕ}

theorem clientTransferAsync_error {ret : Status}
    (hsubmit : s.clientTransferAsync client userData answer = some (.error ret, s')) : s' = s := by
  unfold clientTransferAsync at hsubmit
  split_ifs at hsubmit
  · cases hsubmit
    rfl
  · split at hsubmit
    · cases hsubmit
      rfl
    · split_ifs at hsubmit
      cases hsubmit

theorem clientTransferAsync_ok {info : TransferReqInfo}
    (hsubmit : s.clientTransferAsync client userData answer = some (.ok info, s')) :
    info.client = client ∧ (∀ other ∈ s.pending, other.req ≠ info.req) ∧ s' = { s with
        reqMap := insert (client, info.req) s.reqMap
        pending := info :: s.pending
        nextId := s.nextId + 1 } := by
  unfold clientTransferAsync at hsubmit
  split_ifs at hsubmit
  · cases hsubmit
  · split at hsubmit
    · cases hsubmit
    · next req =>
        split_ifs at hsubmit with hused
        cases hsubmit
        refine ⟨rfl, ?_, rfl⟩
        intro other hother hreq
        exact hused (List.any_eq_true.mpr ⟨other, hother, decide_eq_true hreq⟩)

structure Asked (s s' : EngineState) (client req : ℕ) : Prop where
  clients : s'.clients = s.clients
  remoteOf : s'.remoteOf = s.remoteOf
  nextClient : s'.nextClient = s.nextClient
  destroyed : s'.destroyed = s.destroyed
  index : s'.index = s.index
  registered : s'.registered = s.registered
  pending : s'.pending = s.pending ∨
    ∃ info, s.pendingAt client req = some info ∧ s'.pending = s.pending.erase info

theorem asked_of_clientGetTransferStatus {answer : Except Status HixlCompleteStatus}
    {result : Except Status TransferStatus}
    (hask : s.clientGetTransferStatus client req answer = (result, s')) :
    Asked s s' client req := by
  unfold clientGetTransferStatus at hask
  repeat' split at hask
  all_goals cases hask
  all_goals first
    | exact ⟨rfl, rfl, rfl, rfl, rfl, rfl, Or.inl rfl⟩
    | exact ⟨rfl, rfl, rfl, rfl, rfl, rfl, Or.inr ⟨_, by assumption, rfl⟩⟩

end EngineState

/-! ## The steps -/

open EngineCall RequestIndex

inductive EngineStep (input : EngineInput) (s : EngineState) :
    EngineCall → EngineState → EngineCall → Prop where
  | kept {call next : EngineCall} (hcarries : Carries s.remoteOf call next := by exact {})
      (hdropped : ∀ info ∈ call.taken, info ∈ next.taken ∨ info ∈ call.todo := by
        exact fun _ => Or.inl) :
      EngineStep input s call s next
  | opened {remote : String} {client : ℕ} {s' : EngineState}
      (hconnect : s.connect remote input.ok = (some client, s')) :
      EngineStep input s (.connect remote) s' (.returned .success)
  | connected {remote : String} {userData client : ℕ} {s' : EngineState}
      (hconnect : s.connect remote (s.autoConnect && input.ok) = (some client, s')) :
      EngineStep input s (.transferAsync remote userData) s' (.submit client userData)
  | submitted {client userData : ℕ} {info : TransferReqInfo}
      {s' : EngineState}
      (hsubmit : s.clientTransferAsync client userData input.submit = some (.ok info, s')) :
      EngineStep input s (.submit client userData) s' (.register info)
  | refused {client userData : ℕ} {ret : Status} :
      EngineStep input s (.submit client userData) s
        (.autoDisconnect (s.remoteOf client) (.transferred ret none))
  | registered {info : TransferReqInfo} :
      EngineStep input s (.register info) (s.registerTransferReq info)
        (.transferred .success (some info.req))
  | looked {call next : EngineCall} {infos : List TransferReqInfo}
      {index : RequestIndex}
      (hlooked : Looked (s.alive input) s.index infos index)
      (hbefore : call.plain = true := by rfl) (hcall : call.ended = [] := by rfl)
      (hplain : next.plain = true := by rfl) (htame : next.tame = true := by rfl)
      (htodo : next.todo = infos := by rfl) (htaken : next.taken = infos := by rfl)
      (hended : next.ended = [] := by rfl) (haccused : next.accused s.remoteOf = [] := by rfl) :
      EngineStep input s call { s with index } next
  | asked {call next : EngineCall} {info : TransferReqInfo}
      {result : Except Status TransferStatus} {s' : EngineState}
      (hask : s.clientGetTransferStatus info.client info.req input.query = (result, s'))
      (hresult : answerStatus result ≠ .waiting)
      (hplain : next.plain = true) (htame : next.tame = true)
      (htodo : call.todo = info :: next.todo)
      (hbefore : call.taken = info :: next.todo)
      (htaken : next.taken = info :: next.todo)
      (hended : next.ended = (info.id, answerStatus result) :: call.ended)
      (haccused : ∀ remote ∈ next.accused s.remoteOf, remote ∈ call.accused s.remoteOf ∨
          (∃ ret, result = .error ret) ∧ remote = s.remoteOf info.client) :
      EngineStep input s call s' next
  | erased {call next : EngineCall} {info : TransferReqInfo}
      (hinfo : info ∈ call.taken)
      (hend : ∃ status, (info.id, status) ∈ call.ended)
      (hcarries : Carries s.remoteOf call next)
      (hdropped : ∀ other ∈ call.taken, other = info ∨ other ∈ call.todo) :
      EngineStep input s call (s.eraseTransferReq info.req) next
  | gaveUp {call next : EngineCall} {info : TransferReqInfo}
      {left : List TransferReqInfo}
      (htodo : call.todo = info :: left) (hbefore : call.taken = call.todo)
      (hremote : s.remoteOf info.client ∈ call.accused s.remoteOf)
      (hplain : next.plain = true) (htame : next.tame = true)
      (hleft : next.todo.Sublist left) (htaken : next.taken ⊆ left)
      (hended : next.ended.Perm ((info.id, .failed) :: call.ended))
      (haccused : next.accused s.remoteOf ⊆ call.accused s.remoteOf) :
      EngineStep input s call (s.eraseTransferReq info.req) next
  | destroyed {remote : String} {client : ℕ} {rest : EngineCall}
      (hlookup : s.clients.lookup remote = some client) :
      EngineStep input s (.destroyClient remote rest)
        { s with
          clients := s.clients.erase remote
          destroyed := client :: s.destroyed }
        (.destroyIndex client rest)
  | dropped {client : ℕ} {rest : EngineCall} :
      EngineStep input s (.destroyIndex client rest)
        { s with
          index := s.index.eraseReqIndexByClient (s.alive input) client }
        (.destroyFinal client rest)
  | finalized {client : ℕ} {rest next : EngineCall}
      (hcarries : Carries s.remoteOf (.destroyFinal client rest) next)
      (hdropped : ∀ info ∈ rest.taken, info ∈ next.taken) :
      EngineStep input s (.destroyFinal client rest) (s.finalize client) next

namespace EngineStep

variable {input : EngineInput} {s s' : EngineState} {call next : EngineCall} {client req : ℕ}
  {result : Except Status TransferStatus}

theorem eq_of_waiting {answer : Except Status HixlCompleteStatus}
    (hask : s.clientGetTransferStatus client req answer = (result, s'))
    (hwaiting : answerStatus result = .waiting) : result = .ok .waiting ∧ s' = s := by
  unfold EngineState.clientGetTransferStatus at hask
  repeat' split at hask
  all_goals cases hask
  all_goals first
    | exact ⟨rfl, rfl⟩
    | exact absurd hwaiting (by simp [answerStatus])

variable {remote : String} {userData : ℕ}

theorem of_getTransferStatus (hindex : s.index.Consistent)
    (hnext : (EngineCall.getTransferStatus req).next input s = some (s', next)) :
    EngineStep input s (.getTransferStatus req) s' next := by
  have hlooked := getClientByReq_looked hindex (s.alive input) req
  simp only [EngineCall.next, nextQuery] at hnext
  split at hnext
  all_goals
    next hfound =>
      cases hnext
      rw [hfound] at hlooked
      exact looked hlooked

variable {info : TransferReqInfo}

theorem of_query (hnext : (EngineCall.query info).next input s = some (s', next)) :
    EngineStep input s (.query info) s' next := by
  simp only [EngineCall.next, nextQuery, Option.some.injEq, Prod.mk.injEq] at hnext
  obtain ⟨hs, hcall⟩ := hnext
  set answer := s.clientGetTransferStatus info.client info.req input.query
    with hanswer
  have hask : s.clientGetTransferStatus info.client info.req input.query = (answer.1, s') := by
    rw [← hs, ← hanswer]
  by_cases hwaiting : answerStatus answer.1 = .waiting
  · obtain ⟨hresult, rfl⟩ := eq_of_waiting hask hwaiting
    rw [hresult] at hcall
    rw [← hcall]
    exact kept ⟨rfl, rfl, rfl, List.nil_sublist _, List.nil_subset _,
      List.Perm.refl _, List.nil_subset _⟩ fun _ => Or.inr
  · have herase : next = .erase info answer.1 := by
      rw [← hcall, queryAnswer]
      intro hresult
      rw [hresult] at hwaiting
      exact hwaiting rfl
    rw [herase]
    refine asked hask hwaiting rfl ?_ rfl rfl rfl ?_ ?_
    · simp [tame, hwaiting]
    · exact endOf_terminal hwaiting
    · intro remote hremote
      cases hresult : answer.1 with
      | error ret =>
        rw [hresult] at hremote
        exact Or.inr ⟨⟨ret, rfl⟩, List.mem_singleton.mp hremote⟩
      | ok status =>
        rw [hresult] at hremote
        exact absurd hremote (by simp [accused])

theorem of_erase (htame : (EngineCall.erase info result).tame = true)
    (hnext : (EngineCall.erase info result).next input s = some (s', next)) :
    EngineStep input s (.erase info result) s' next := by
  have hresult : answerStatus result ≠ .waiting := of_decide_eq_true htame
  have hend : ∃ status, (info.id, status) ∈ (erase info result).ended := by
    refine ⟨answerStatus result, ?_⟩
    rw [ended, endOf_terminal hresult]
    exact List.mem_singleton.mpr rfl
  have hmem : info ∈ (erase info result).taken := List.mem_singleton.mpr rfl
  cases result with
  | ok status =>
    cases hnext
    exact erased hmem hend { taken := List.nil_subset _, accused := List.nil_subset _ }
      fun _ hother => Or.inl (List.mem_singleton.mp hother)
  | error ret =>
    cases hnext
    exact erased hmem hend { taken := List.nil_subset _ }
      fun _ hother => Or.inl (List.mem_singleton.mp hother)

variable {b : BatchQuery}

theorem of_batchAnswer {left : List TransferReqInfo} (hleft : b.left = info :: left)
    (hask : s.clientGetTransferStatus info.client info.req input.query = (result, s')) :
    EngineStep input s (.batch b) s' (batchAnswer s b info left result) := by
  by_cases hwaiting : answerStatus result = .waiting
  · obtain ⟨rfl, rfl⟩ := eq_of_waiting hask hwaiting
    have htodo : left.Sublist b.left := by
      rw [hleft]
      exact List.sublist_cons_self _ _
    refine kept ?_ fun _ => Or.inr
    rw [batchAnswer]
    split_ifs
    · exact { todo := htodo, taken := htodo.subset }
    · obtain ⟨hplain, htame, hsub, htaken, hended, haccused⟩ :=
        b.push_spec info .waiting left s'.remoteOf
      refine ⟨rfl, hplain, htame, hsub.trans htodo, ?_, ?_, haccused⟩
      · exact fun other hmem => htodo.subset (htaken hmem)
      · rw [hended]
        simp [endOf, ended]
  · cases result with
    | error ret =>
      refine asked hask hwaiting rfl rfl hleft hleft rfl rfl ?_
      intro remote hremote
      simp only [batchAnswer, accused, List.mem_cons] at hremote
      obtain heq | heq | hold := hremote
      · exact Or.inr ⟨⟨ret, rfl⟩, heq⟩
      · exact Or.inr ⟨⟨ret, rfl⟩, heq⟩
      · exact Or.inl hold
    | ok status =>
      cases status with
      | waiting => exact absurd rfl hwaiting
      | completed | timeout | failed =>
        exact asked hask hwaiting rfl rfl hleft hleft rfl rfl fun _ => Or.inl

theorem of_batch (hnext : (EngineCall.batch b).next input s = some (s', next)) :
    EngineStep input s (.batch b) s' next := by
  simp only [EngineCall.next, nextBatch] at hnext
  split at hnext
  · next hleft =>
      cases hnext
      exact kept ⟨rfl, rfl, rfl, List.nil_sublist _, List.nil_subset _,
        List.Perm.refl _, List.nil_subset _⟩ fun _ => Or.inr
  · next info left hleft =>
      split_ifs at hnext with hdisconnected
      · cases hnext
        obtain ⟨hplain, htame, hsub, htaken, hended, haccused⟩ :=
          b.push_spec info .failed left s.remoteOf
        refine gaveUp hleft rfl hdisconnected hplain htame hsub htaken ?_ haccused
        rw [hended, endOf_terminal (by simp)]
        exact List.perm_append_singleton _ _
      · cases hnext
        exact of_batchAnswer hleft rfl

theorem of_batchErase {status : TransferStatus}
    (htame : (EngineCall.batchErase b info status).tame = true)
    (hnext : (EngineCall.batchErase b info status).next input s = some (s', next)) :
    EngineStep input s (.batchErase b info status) s' next := by
  have hstatus : status ≠ .waiting := of_decide_eq_true htame
  cases hnext
  obtain ⟨hplain, hnext, hsub, htaken, hended, haccused⟩ :=
    b.push_spec info status b.left s.remoteOf
  refine erased List.mem_cons_self ?_ ?_ fun _ => List.mem_cons.mp
  · refine ⟨status, ?_⟩
    rw [ended, endOf_terminal hstatus]
    exact List.mem_cons_self
  · refine ⟨rfl, hplain, hnext, hsub, ?_, ?_, haccused⟩
    · exact fun other hmem => List.mem_cons_of_mem _ (htaken hmem)
    · rw [hended]
      exact List.perm_append_comm

variable {rest : EngineCall}

theorem of_destroyClient (htame : (EngineCall.destroyClient remote rest).tame = true)
    (hnext : (EngineCall.destroyClient remote rest).next input s = some (s', next)) :
    EngineStep input s (.destroyClient remote rest) s' next := by
  obtain ⟨hplain, hrest⟩ := Bool.and_eq_true_iff.mp htame
  simp only [EngineCall.next, nextDisconnect] at hnext
  split at hnext
  · cases hnext
    have hcarries : Carries s.remoteOf rest rest.disconnectFailed :=
      Carries.disconnectFailed hplain hrest
    refine kept { hcarries with
      fresh := rfl
      accused := fun remote hmem => List.mem_cons_of_mem _ (hcarries.accused hmem) } ?_
    rw [taken_disconnectFailed]
    exact fun _ => Or.inl
  · next client hlookup =>
      cases hnext
      exact destroyed hlookup

theorem of_destroyFinal (htame : (EngineCall.destroyFinal client rest).tame = true)
    (hnext : (EngineCall.destroyFinal client rest).next input s = some (s', next)) :
    EngineStep input s (.destroyFinal client rest) s' next := by
  obtain ⟨hplain, hrest⟩ := Bool.and_eq_true_iff.mp htame
  cases hnext
  split_ifs
  · have hcarries : Carries s.remoteOf rest rest := Carries.refl hplain hrest
    exact finalized { hcarries with fresh := rfl } fun _ h => h
  · have hcarries : Carries s.remoteOf rest rest.disconnectFailed :=
      Carries.disconnectFailed hplain hrest
    refine finalized { hcarries with fresh := rfl } ?_
    rw [taken_disconnectFailed]
    exact fun _ h => h

theorem of_next (hindex : s.index.Consistent) (htame : call.tame = true)
    (hnext : call.next input s = some (s', next)) : EngineStep input s call s' next := by
  cases call with
  | transferAsync remote userData =>
    simp only [EngineCall.next, nextTransfer] at hnext
    split at hnext
    · next s₁ hconnect =>
        cases hnext
        rw [EngineState.connect_none hconnect]
        exact kept
    · next client s₁ hconnect =>
        cases hnext
        exact connected hconnect
  | submit client userData =>
    simp only [EngineCall.next, nextTransfer] at hnext
    split at hnext
    · cases hnext
    · next ret s₁ hsubmit =>
        cases hnext
        rw [EngineState.clientTransferAsync_error hsubmit]
        exact refused
    · next info s₁ hsubmit =>
        cases hnext
        exact submitted hsubmit
  | register info =>
    cases hnext
    exact registered
  | connect remote =>
    simp only [EngineCall.next, nextTransfer] at hnext
    split_ifs at hnext
    · cases hnext
      exact kept
    · split at hnext
      · next s₁ hconnect =>
          cases hnext
          rw [EngineState.connect_none hconnect]
          exact kept
      · next client s₁ hconnect =>
          cases hnext
          exact opened hconnect
  | transferred | answered | batchAnswered | returned =>
    exact absurd hnext (by simp [EngineCall.next])
  | getTransferStatus req => exact of_getTransferStatus hindex hnext
  | query info => exact of_query hnext
  | erase info result => exact of_erase htame hnext
  | getTransferStatuses maxQueryCount skipWaiting =>
    simp only [EngineCall.next, nextBatch] at hnext
    split_ifs at hnext
    · cases hnext
      exact kept
    · cases hnext
      exact looked (getOrderedReqs_looked hindex (s.alive input))
  | batch b => exact of_batch hnext
  | batchErase b info status => exact of_batchErase htame hnext
  | disconnect remote =>
    cases hnext
    exact kept
  | autoDisconnect remote rest =>
    obtain ⟨hplain, hrest⟩ := Bool.and_eq_true_iff.mp htame
    simp only [EngineCall.next, nextDisconnect] at hnext
    split_ifs at hnext
    · cases hnext
      exact kept { tame := htame }
    · cases hnext
      exact kept
        { plain := hplain, tame := hrest, accused := fun _ h => List.mem_cons_of_mem _ h }
  | destroyClient remote rest => exact of_destroyClient htame hnext
  | destroyIndex client rest =>
    cases hnext
    exact dropped
  | destroyFinal client rest => exact of_destroyFinal htame hnext

theorem keeps (hstep : EngineStep input s call s' next) (htame : call.tame = true)
    (hindex : s.index.Consistent) : s'.index.Consistent ∧ next.tame = true := by
  cases hstep with
  | kept hcarries | finalized hcarries => exact ⟨hindex, hcarries.tame⟩
  | opened hconnect | connected hconnect =>
    obtain ⟨-, rfl⟩ | ⟨-, -, rfl⟩ := EngineState.connect_some hconnect
    all_goals exact ⟨hindex, rfl⟩
  | submitted hsubmit =>
    obtain ⟨-, -, rfl⟩ := EngineState.clientTransferAsync_ok hsubmit
    exact ⟨hindex, rfl⟩
  | refused => exact ⟨hindex, rfl⟩
  | registered => exact ⟨hindex.registerTransferReq _, rfl⟩
  | looked hlooked _ _ _ hnext => exact ⟨hlooked.cleans.consistent hindex, hnext⟩
  | asked hask _ _ hnext =>
    have hasked := EngineState.asked_of_clientGetTransferStatus hask
    exact ⟨hasked.index ▸ hindex, hnext⟩
  | erased _ _ hcarries => exact ⟨hindex.eraseTransferReq _, hcarries.tame⟩
  | gaveUp _ _ _ _ hnext => exact ⟨hindex.eraseTransferReq _, hnext⟩
  | destroyed => exact ⟨hindex, htame⟩
  | dropped => exact ⟨(eraseReqIndexByClient_cleans _ _).consistent hindex, htame⟩

theorem ended (hstep : EngineStep input s call s' next) : call.ended ⊆ next.ended := by
  cases hstep with
  | kept hcarries | erased _ _ hcarries | finalized hcarries => exact hcarries.ended.symm.subset
  | looked _ _ hcall =>
    rw [hcall]
    exact List.nil_subset _
  | asked _ _ _ _ _ _ _ hended =>
    rw [hended]
    exact List.subset_cons_self _ _
  | gaveUp _ _ _ _ _ _ _ hended =>
    exact fun pair hpair => hended.symm.subset (List.mem_cons_of_mem _ hpair)
  | destroyed | dropped => exact fun _ hpair => hpair
  | opened | connected | submitted | refused | registered => exact List.nil_subset _

end EngineStep

structure IndexInvariant (s : Config EngineState EngineCall) : Prop where
  consistent : s.shared.index.Consistent
  tame : ∀ call ∈ s.calls, call.tame = true

variable {call : EngineCall}

theorem EngineCall.tame_of_starts (hstarts : call.starts = true) : call.tame = true := by
  cases call <;> simp_all [starts, tame]

variable {s : Config EngineState EngineCall}

theorem IndexInvariant.step {s' : EngineState} {i : ℕ} {next : EngineCall} {input : EngineInput}
    (hinv : IndexInvariant s) (hi : s.calls[i]? = some call)
    (hnext : call.next input s.shared = some (s', next)) : EngineStep input s.shared call s' next ∧
      IndexInvariant { shared := s', calls := s.calls.set i next } := by
  have htame := hinv.tame call (List.mem_of_getElem? hi)
  have hstep := EngineStep.of_next hinv.consistent htame hnext
  obtain ⟨hconsistent, hnext⟩ := hstep.keeps htame hinv.consistent
  exact ⟨hstep, hconsistent, forall_mem_set_of_forall hnext hinv.tame⟩

theorem IndexInvariant.run {s' : Config EngineState EngineCall}
    {actions : List (Action EngineCall EngineInput)}
    (hreach : engineProgram.run s actions = some s') (hinv : IndexInvariant s) :
    IndexInvariant s' := by
  apply Program.run_invariant IndexInvariant _ _ actions hreach hinv
  · intro s call hstarts hinv
    exact ⟨hinv.consistent, forall_mem_append (tame_of_starts hstarts) hinv.tame⟩
  · intro s i input call next shared hi hnext hinv
    exact (hinv.step hi hnext).2

end Hixl
