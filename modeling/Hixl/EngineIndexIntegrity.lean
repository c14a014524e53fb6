import Hixl.EngineCallSteps

/-!
# The index keeps what is registered

The handle of a request is free as soon as the client has reported its end, and
is erased from the index later.  While a handle that `TransferAsync` has got and
not registered is in no other hands, an erasure meets the registration it was
meant for: a registered request stays in the index until its end is known to
some call or its client is destroyed.
-/

namespace Hixl

open InterleavedCalls EngineCall RequestIndex

def latest (registered : List TransferReqInfo) (req : ℕ) : Option TransferReqInfo :=
  registered.find? fun info => info.req = req

theorem latest_cons (info : TransferReqInfo) (registered : List TransferReqInfo) (req : ℕ) :
    latest (info :: registered) req =
      if info.req = req then some info else latest registered req := by
  rw [latest, List.find?_cons]
  by_cases hsame : info.req = req
  · rw [if_pos hsame, decide_eq_true hsame]
  · rw [if_neg hsame, decide_eq_false hsame]
    rfl

variable {info : TransferReqInfo}

/-- The end of the request is known to a call. -/
def Ended (calls : List EngineCall) (id : ℕ) : Prop :=
  ∃ call ∈ calls, ∃ status, (id, status) ∈ call.ended

def EngineState.Known (s : EngineState) (client : ℕ) : Prop :=
  (∃ remote, s.clients.lookup remote = some client) ∨ client ∈ s.destroyed

def registersApart (a b : EngineCall) : Bool :=
  (a.fresh.toList.all fun info => b.hand.all fun other => other.req ≠ info.req) &&
    b.fresh.toList.all fun info => a.hand.all fun other => other.req ≠ info.req

def registersAlone (s : Config EngineState EngineCall) : Bool :=
  s.calls.Pairwise fun a b => registersApart a b = true

variable {call : EngineCall}

theorem mem_hand_of_fresh (hfresh : call.fresh = some info) : info ∈ call.hand := by
  rw [hand, hfresh]
  exact List.mem_cons_self

theorem mem_hand_of_taken (htaken : info ∈ call.taken) : info ∈ call.hand :=
  List.mem_append_right _ htaken

variable {a b : EngineCall}

theorem registersApart_symm (hapart : registersApart a b = true) : registersApart b a = true := by
  rwa [registersApart, Bool.and_comm]

variable {s : Config EngineState EngineCall} {i : ℕ}

theorem req_ne_of_registersAlone (halone : registersAlone s = true) {j : ℕ} (hne : i ≠ j)
    (hi : s.calls[i]? = some a) (hj : s.calls[j]? = some b) {other : TransferReqInfo}
    (hfresh : a.fresh = some info) (hother : other ∈ b.hand) : other.req ≠ info.req := by
  have hapart : registersApart a b = true :=
    pairwise_at (fun _ _ => registersApart_symm) (of_decide_eq_true halone) hne hi hj
  rw [registersApart, Bool.and_eq_true, hfresh] at hapart
  have hall := List.all_eq_true.mp hapart.1 info (by simp)
  exact of_decide_eq_true (List.all_eq_true.mp hall other hother)

namespace EngineState

variable {input : EngineInput} {s s' : EngineState} {client req : ℕ}

theorem destroyed_of_dead (hknown : s.Known client) (hdead : s.alive input client = false) :
    client ∈ s.destroyed := by
  obtain ⟨remote, hlookup⟩ | hdestroyed := hknown
  · rw [alive, Bool.or_eq_false_iff] at hdead
    have hentry := List.any_eq_false.mp hdead.1 ⟨remote, client⟩
      (HeldResources.mem_entries_iff.mpr hlookup)
    exact absurd (decide_eq_true rfl) hentry
  · exact hdestroyed

theorem pendingAt_spec {info : TransferReqInfo} (hpending : s.pendingAt client req = some info) :
    info ∈ s.pending ∧ info.client = client ∧ info.req = req := by
  have hsame := List.find?_some hpending
  exact ⟨List.mem_of_find?_eq_some hpending, by simpa using hsame⟩

end EngineState

/-! ## The invariant -/

structure EngineCallFits (s : EngineState) (call : EngineCall) : Prop where
  tame : call.tame = true
  client : ∀ client, call.transferClient = some client → s.Known client
  destroying : ∀ client, call.destroying = some client →
    client ∈ s.destroyed
  taken : ∀ info ∈ call.taken, latest s.registered info.req = some info
  fresh : ∀ info, call.fresh = some info →
    (info ∈ s.pending ∨ info.client ∈ s.destroyed) ∧
      ∀ other ∈ s.pending, other.req = info.req → other = info

structure RequestInvariant (s : Config EngineState EngineCall) : Prop where
  consistent : s.shared.index.Consistent
  calls : ∀ call ∈ s.calls, EngineCallFits s.shared call
  known : ∀ info ∈ s.shared.registered,
    s.shared.Known info.client ∧ info.req ≠ 0
  indexed : ∀ info, s.shared.index.owns info →
    latest s.shared.registered info.req = some info
  pending : ∀ info ∈ s.shared.pending, info.req = 0 ∨
    latest s.shared.registered info.req = some info ∨
    ∃ call ∈ s.calls, call.fresh = some info
  nodup : (s.shared.pending.map TransferReqInfo.req).Nodup
  kept : ∀ info ∈ s.shared.registered, Ended s.calls info.id ∨
    info.client ∈ s.shared.destroyed ∨
    info ∈ s.shared.pending ∧ s.shared.index.owns info

theorem EngineCallFits.of_settled {s : EngineState} (htame : call.tame = true)
    (hclient : call.transferClient = none) (hfresh : call.fresh = none)
    (hdestroying : ∀ client, call.destroying = some client → client ∈ s.destroyed)
    (htaken : ∀ info ∈ call.taken, latest s.registered info.req = some info) :
    EngineCallFits s call where
  tame := htame
  client := fun _ hsome => by simp [hclient] at hsome
  destroying := hdestroying
  taken := htaken
  fresh := fun _ hsome => by simp [hfresh] at hsome

theorem EngineCallFits.of_plain {s : EngineState} (hplain : call.plain = true)
    (htame : call.tame = true)
    (htaken : ∀ info ∈ call.taken, latest s.registered info.req = some info) :
    EngineCallFits s call :=
  .of_settled htame (transferClient_of_plain hplain) (fresh_of_plain hplain)
    (fun _ hsome => by simp [destroying_of_plain hplain] at hsome) htaken

variable {calls : List EngineCall} {next : EngineCall}

theorem Ended.step (hi : calls[i]? = some call) (hended : call.ended ⊆ next.ended) {id : ℕ}
    (hknown : Ended calls id) : Ended (calls.set i next) id :=
  exists_mem_set hi (Exists.imp fun _ hstatus => hended hstatus) hknown

namespace RequestInvariant

variable {s : Config EngineState EngineCall} {s' : EngineState} {i : ℕ} {call next : EngineCall}

theorem start (autoConnect : Bool) : RequestInvariant (engineStart autoConnect) where
  consistent := Consistent.empty
  calls := List.forall_mem_nil _
  known := List.forall_mem_nil _
  indexed := fun _ howns => absurd howns (by simp [owns, engineStart])
  pending := List.forall_mem_nil _
  nodup := List.nodup_nil
  kept := List.forall_mem_nil _

theorem startCall (hinv : RequestInvariant s) (hstarts : call.starts = true) :
    RequestInvariant { s with calls := s.calls ++ [call] } := by
  refine { hinv with calls := forall_mem_append ?_ hinv.calls, pending := ?_, kept := ?_ }
  · cases call <;> simp_all [starts]
    case transferAsync | connect =>
      exact ⟨rfl, by simp [transferClient], by simp [EngineCall.destroying],
        by simp [EngineCall.taken], by simp [EngineCall.fresh]⟩
    all_goals
      exact EngineCallFits.of_plain rfl rfl (by simp [EngineCall.taken])
  · intro info hinfo
    exact (hinv.pending info hinfo).imp_right
      (Or.imp_right (Exists.imp fun _ => And.imp_left (List.mem_append_left _)))
  · intro info hinfo
    exact (hinv.kept info hinfo).imp_left
      (Exists.imp fun _ => And.imp_left (List.mem_append_left _))

theorem fitsAt (hinv : RequestInvariant s) {j : ℕ} {other : EngineCall}
    (hj : s.calls[j]? = some other) : EngineCallFits s.shared other :=
  hinv.calls other (List.mem_of_getElem? hj)

variable {calls : List EngineCall} {info : TransferReqInfo}

theorem fresh_set (hi : calls[i]? = some call) (hcall : call.fresh = none)
    (hfresh : ∃ other ∈ calls, other.fresh = some info) :
    ∃ other ∈ calls.set i next, other.fresh = some info := by
  refine exists_mem_set hi (fun hother => ?_) hfresh
  simp [hother] at hcall

/-- What leaves the clients or the index has ended or belongs to a destroyed
client. -/
structure Frame (s : Config EngineState EngineCall) (s' : EngineState) (next : EngineCall) :
    Prop where
  consistent : s'.index.Consistent
  clients : ∀ client, s.shared.Known client → s'.Known client
  destroyed : s.shared.destroyed ⊆ s'.destroyed
  registered : s'.registered = s.shared.registered
  pending : s'.pending.Sublist s.shared.pending
  index : ∀ info, s'.index.owns info → s.shared.index.owns info
  lost : ∀ info ∈ s.shared.pending, info ∈ s'.pending ∨ info.client ∈ s'.destroyed ∨
    (∃ status, (info.id, status) ∈ next.ended) ∧ ∀ other ∈ s.calls, other.fresh ≠ some info
  erased : ∀ info ∈ s.shared.registered, s.shared.index.owns info →
    s'.index.owns info ∨ info.client ∈ s'.destroyed ∨ ∃ status, (info.id, status) ∈ next.ended

theorem frame (hinv : RequestInvariant s) (next : EngineCall) : Frame s s.shared next where
  consistent := hinv.consistent
  clients := fun _ hknown => hknown
  destroyed := fun _ hgone => hgone
  registered := rfl
  pending := List.Sublist.refl _
  index := fun _ howns => howns
  lost := fun _ hmem => Or.inl hmem
  erased := fun _ _ howns => Or.inl howns

section

variable (hinv : RequestInvariant s) (hi : s.calls[i]? = some call)

include hinv hi

theorem stepFrame (hcall : call.fresh = none) (hended : call.ended ⊆ next.ended)
    (hnext : EngineCallFits s' next) (hframe : Frame s s' next) :
    RequestInvariant { shared := s', calls := s.calls.set i next } where
  consistent := hframe.consistent
  calls := by
    apply forall_mem_set hnext
    intro j other hne hj
    have hfits := hinv.fitsAt hj
    refine ⟨hfits.tame, fun client hclient =>
      hframe.clients client (hfits.client client hclient), fun client hclient =>
      hframe.destroyed (hfits.destroying client hclient), ?_, ?_⟩
    · rw [hframe.registered]
      exact hfits.taken
    · intro info hfresh
      obtain ⟨hheld, honly⟩ := hfits.fresh info hfresh
      refine ⟨?_, fun other hother => honly other (hframe.pending.subset hother)⟩
      obtain hmem | hgone := hheld
      · obtain hkept | hgone | ⟨-, hnone⟩ := hframe.lost info hmem
        · exact Or.inl hkept
        · exact Or.inr hgone
        · exact absurd hfresh (hnone other (List.mem_of_getElem? hj))
      · exact Or.inr (hframe.destroyed hgone)
  known := by
    rw [hframe.registered]
    exact fun info hinfo => (hinv.known info hinfo).imp_left (hframe.clients _)
  indexed := by
    rw [hframe.registered]
    exact fun info howns => hinv.indexed info (hframe.index info howns)
  pending := by
    rw [hframe.registered]
    exact fun info hinfo => (hinv.pending info (hframe.pending.subset hinfo)).imp_right
      (Or.imp_right (fresh_set hi hcall))
  nodup := (hframe.pending.map _).nodup hinv.nodup
  kept := by
    rw [hframe.registered]
    intro info hinfo
    have hnew : (∃ status, (info.id, status) ∈ next.ended) → Ended (s.calls.set i next) info.id :=
      fun hstatus => ⟨next, mem_calls_set hi, hstatus⟩
    obtain hdone | hgone | ⟨hmem, howns⟩ := hinv.kept info hinfo
    · exact Or.inl (hdone.step hi hended)
    · exact Or.inr (Or.inl (hframe.destroyed hgone))
    · obtain hstays | hgone | ⟨hstatus, -⟩ := hframe.lost info hmem
      · obtain howns | hgone | hstatus := hframe.erased info hinfo howns
        · exact Or.inr (Or.inr ⟨hstays, howns⟩)
        · exact Or.inr (Or.inl hgone)
        · exact Or.inl (hnew hstatus)
      · exact Or.inr (Or.inl hgone)
      · exact Or.inl (hnew hstatus)

theorem carriesFits (hcarries : Carries s.shared.remoteOf call next)
    (hregistered : s'.registered = s.shared.registered) : EngineCallFits s' next := by
  apply EngineCallFits.of_plain hcarries.plain hcarries.tame
  rw [hregistered]
  exact fun info hinfo => (hinv.fitsAt hi).taken info (hcarries.taken hinfo)

theorem stepKept (hcarries : Carries s.shared.remoteOf call next) :
    RequestInvariant { shared := s.shared, calls := s.calls.set i next } :=
  hinv.stepFrame hi hcarries.fresh hcarries.ended.symm.subset
    (hinv.carriesFits hi hcarries rfl) (hinv.frame next)

end

variable {index : RequestIndex}

theorem stepCleaned (hinv : RequestInvariant s) (hi : s.calls[i]? = some call)
    (hcall : call.fresh = none) (hended : call.ended ⊆ next.ended) {dead : ℕ → Prop}
    (hcleans : Cleans dead s.shared.index index)
    (hdead : ∀ client, s.shared.Known client → dead client → client ∈ s.shared.destroyed)
    (hnext : EngineCallFits { s.shared with index } next) :
    RequestInvariant { shared := { s.shared with index }, calls := s.calls.set i next } := by
  refine hinv.stepFrame hi hcall hended hnext { hinv.frame next with
    consistent := hcleans.consistent hinv.consistent
    index := fun info howns => hcleans.kept _ _ howns
    erased := fun info hinfo howns => ?_ }
  obtain hkept | hdropped := hcleans.dropped _ _ howns
  · exact Or.inl hkept
  · exact Or.inr (Or.inl (hdead _ (hinv.known info hinfo).1 hdropped))

variable {input : EngineInput}

/-- The transfer that a client has under the handle of a request in hand is
the one that was registered. -/
theorem pendingAt_eq (hinv : RequestInvariant s) (halone : registersAlone s = true)
    (hi : s.calls[i]? = some call) {found : TransferReqInfo} (htaken : info ∈ call.taken)
    (hpending : s.shared.pendingAt info.client info.req = some found) :
    found = info ∧ ∀ other ∈ s.calls, other.fresh ≠ some found := by
  obtain ⟨hmem, -, hreq⟩ := EngineState.pendingAt_spec hpending
  have hlatest := (hinv.fitsAt hi).taken info htaken
  have hnone : ∀ other ∈ s.calls, other.fresh ≠ some found := by
    intro other hother hfresh
    obtain ⟨j, hj⟩ := List.mem_iff_getElem?.mp hother
    have hji : j ≠ i := by
      rintro rfl
      cases hi.symm.trans hj
      simp [fresh_of_taken htaken] at hfresh
    exact req_ne_of_registersAlone halone hji hj hi hfresh (mem_hand_of_taken htaken) hreq.symm
  refine ⟨?_, hnone⟩
  obtain hnull | hsame | ⟨other, hother, hfresh⟩ := hinv.pending found hmem
  · exact absurd (hreq ▸ hnull) (hinv.known info (List.mem_of_find?_eq_some hlatest)).2
  · rw [hreq, hlatest, Option.some.injEq] at hsame
    exact hsame.symm
  · exact absurd hfresh (hnone other hother)

section Answered

variable (hinv : RequestInvariant s) (hi : s.calls[i]? = some call) (hinfo : info ∈ call.taken)
  (hplain : next.plain = true) (htame : next.tame = true) (htaken : next.taken ⊆ call.taken)
  (hended : call.ended ⊆ next.ended) (hend : ∃ status, (info.id, status) ∈ next.ended)

include hinv hi hinfo hplain htame htaken hended hend

theorem stepAsked (halone : registersAlone s = true)
    (hasked : EngineState.Asked s.shared s' info.client info.req) :
    RequestInvariant { shared := s', calls := s.calls.set i next } := by
  have hsub : s'.pending.Sublist s.shared.pending := by
    obtain hsame | ⟨found, -, herase⟩ := hasked.pending
    · rw [hsame]
    · rw [herase]
      exact List.erase_sublist
  refine hinv.stepFrame hi (fresh_of_taken hinfo) hended
    (.of_plain hplain htame (hasked.registered ▸ fun other hother =>
      (hinv.fitsAt hi).taken other (htaken hother)))
    ⟨hasked.index ▸ hinv.consistent, ?_, hasked.destroyed ▸ fun _ hgone => hgone,
      hasked.registered, hsub, hasked.index ▸ fun _ howns => howns, ?_,
      hasked.index ▸ fun _ _ howns => Or.inl howns⟩
  · intro client hclient
    rwa [EngineState.Known, hasked.clients, hasked.destroyed]
  · intro other hother
    obtain hsame | ⟨found, hfound, herase⟩ := hasked.pending
    · rw [hsame]
      exact Or.inl hother
    · obtain ⟨rfl, hnone⟩ := hinv.pendingAt_eq halone hi hinfo hfound
      by_cases heq : other = found
      · rw [heq]
        exact Or.inr (Or.inr ⟨hend, hnone⟩)
      · rw [herase]
        exact Or.inl ((List.mem_erase_of_ne heq).mpr hother)

theorem stepErased : RequestInvariant
      { shared := s.shared.eraseTransferReq info.req
        calls := s.calls.set i next } := by
  have hlatest := (hinv.fitsAt hi).taken info hinfo
  refine hinv.stepFrame hi (fresh_of_taken hinfo) hended
    (.of_plain hplain htame fun other hother => (hinv.fitsAt hi).taken other (htaken hother))
    { hinv.frame next with
      consistent := hinv.consistent.eraseTransferReq info.req
      index := ?_
      erased := ?_ }
  · intro other howns
    rw [EngineState.eraseTransferReq, owns, lookup_eraseTransferReq] at howns
    split_ifs at howns
    exact howns
  · intro other hother howns
    by_cases hreq : other.req = info.req
    · have hsame := hinv.indexed other howns
      rw [hreq, hlatest, Option.some.injEq] at hsame
      exact Or.inr (Or.inr (hsame ▸ hend))
    · left
      rwa [EngineState.eraseTransferReq, owns, lookup_eraseTransferReq, if_neg hreq]

end Answered

variable {remote : String} {userData client : ℕ}

theorem stepConnected (hinv : RequestInvariant s) {ok : Bool} (hi : s.calls[i]? = some call)
    (hcall : call.fresh = none) (hended : call.ended = [])
    (hconnect : s.shared.connect remote ok = (some client, s'))
    (hfits : s'.Known client → EngineCallFits s' next) :
    RequestInvariant { shared := s', calls := s.calls.set i next } := by
  have hnothing : call.ended ⊆ next.ended := by
    rw [hended]
    exact List.nil_subset _
  obtain ⟨hlookup, rfl⟩ | ⟨hnone, -, rfl⟩ := EngineState.connect_some hconnect
  · exact hinv.stepFrame hi hcall hnothing (hfits (Or.inl ⟨remote, hlookup⟩)) (hinv.frame _)
  · refine hinv.stepFrame hi hcall hnothing (hfits (Or.inl ⟨remote, AList.lookup_insert _⟩))
      { hinv.frame _ with clients := ?_ }
    rintro other (⟨engine, hlookup⟩ | hgone)
    · exact Or.inl ⟨engine, HeldResources.lookup_insert_of_none hnone hlookup⟩
    · exact Or.inr hgone

variable {ret : Status} {rest : EngineCall}

theorem transferredFits {req : Option ℕ} : EngineCallFits s' (.transferred ret req) :=
  .of_plain rfl rfl (List.forall_mem_nil _)

section

variable (hinv : RequestInvariant s)

include hinv

theorem stepRefused (hi : s.calls[i]? = some (.submit client userData)) : RequestInvariant
      { shared := s.shared
        calls := s.calls.set i (.autoDisconnect (s.shared.remoteOf client)
          (.transferred ret none)) } :=
  hinv.stepFrame hi rfl (List.nil_subset _)
    (.of_plain rfl rfl (List.forall_mem_nil _)) (hinv.frame _)

theorem stepDestroyed (hi : s.calls[i]? = some (.destroyClient remote rest))
    (hlookup : s.shared.clients.lookup remote = some client) : RequestInvariant
      { shared := { s.shared with
          clients := s.shared.clients.erase remote
          destroyed := client :: s.shared.destroyed }
        calls := s.calls.set i (.destroyIndex client rest) } := by
  have hfits := hinv.fitsAt hi
  refine hinv.stepFrame hi rfl (fun _ h => h) (.of_settled hfits.tame rfl rfl ?_ hfits.taken)
    { hinv.frame (.destroyIndex client rest) with
      clients := ?_
      destroyed := List.subset_cons_self _ _
      lost := fun _ hmem => Or.inl hmem
      erased := fun _ _ howns => Or.inl howns }
  · exact fun other hother => List.mem_cons.mpr (Or.inl (Option.some.inj hother).symm)
  · rintro other (⟨engine, hother⟩ | hgone)
    · by_cases hsame : engine = remote
      · rw [hsame, hlookup, Option.some.injEq] at hother
        exact Or.inr (List.mem_cons.mpr (Or.inl hother.symm))
      · exact Or.inl ⟨engine, (AList.lookup_erase_ne hsame).trans hother⟩
    · exact Or.inr (List.mem_cons_of_mem _ hgone)

theorem stepDropped (hi : s.calls[i]? = some (.destroyIndex client rest)) : RequestInvariant
      { shared := { s.shared with
          index := s.shared.index.eraseReqIndexByClient
            (s.shared.alive input) client }
        calls := s.calls.set i (.destroyFinal client rest) } := by
  have hfits := hinv.fitsAt hi
  have hclient := hfits.destroying client rfl
  refine hinv.stepCleaned hi rfl (fun _ hended => hended)
    (eraseReqIndexByClient_cleans (s.shared.alive input) client) ?_
    (.of_settled hfits.tame rfl rfl (fun _ hother => Option.some.inj hother ▸ hclient) hfits.taken)
  rintro other hknown (hdead | rfl)
  · exact EngineState.destroyed_of_dead hknown hdead
  · exact hclient

theorem stepFinalized (hi : s.calls[i]? = some (.destroyFinal client rest))
    (hcarries : Carries s.shared.remoteOf (.destroyFinal client rest) next) :
    RequestInvariant { shared := s.shared.finalize client, calls := s.calls.set i next } := by
  have hclient := (hinv.fitsAt hi).destroying client rfl
  refine hinv.stepFrame hi rfl hcarries.ended.symm.subset
    (hinv.carriesFits hi hcarries rfl) { hinv.frame next with
      pending := List.filter_sublist
      lost := fun info hinfo => ?_ }
  by_cases hsame : info.client = client
  · exact Or.inr (Or.inl (hsame ▸ hclient))
  · exact Or.inl (List.mem_filter.mpr ⟨hinfo, decide_eq_true hsame⟩)

end

/-- A new handle meets no transfer that is pending and is in no other
hands. -/
theorem stepSubmitted (hinv : RequestInvariant s) {answer : Except Status ℕ}
    (hi : s.calls[i]? = some (.submit client userData))
    (hsubmit : s.shared.clientTransferAsync client userData answer = some (.ok info, s'))
    (halone : registersAlone { shared := s', calls := s.calls.set i (.register info) } = true) :
    RequestInvariant { shared := s', calls := s.calls.set i (.register info) } := by
  obtain ⟨rfl, hfree, rfl⟩ := EngineState.clientTransferAsync_ok hsubmit
  have hnew : (s.calls.set i (.register info))[i]? = some (.register info) := by
    rw [List.getElem?_set_self', hi]
    rfl
  refine { hinv with calls := forall_mem_set ?_ ?_, pending := ?_, nodup := ?_, kept := ?_ }
  · refine ⟨rfl, ?_, fun _ hother => absurd hother (by simp [EngineCall.destroying]),
      List.forall_mem_nil _, ?_⟩
    · intro other hother
      cases hother
      exact (hinv.fitsAt hi).client _ rfl
    · intro other hother
      cases hother
      exact ⟨Or.inl List.mem_cons_self, List.forall_mem_cons.mpr
        ⟨fun _ => rfl, fun found hold hreq => absurd hreq (hfree found hold)⟩⟩
  · intro j other hne hj
    have hfits := hinv.fitsAt hj
    refine { hfits with fresh := fun found hfresh => ?_ }
    obtain ⟨hheld, honly⟩ := hfits.fresh found hfresh
    refine ⟨hheld.imp_left (List.mem_cons_of_mem _),
      List.forall_mem_cons.mpr ⟨fun hreq => ?_, honly⟩⟩
    -- the new handle would be in two hands
    have hset : (s.calls.set i (.register info))[j]? = some other := by
      rwa [List.getElem?_set_ne (Ne.symm hne)]
    exact absurd hreq (req_ne_of_registersAlone halone hne hset hnew hfresh (mem_hand_of_fresh rfl))
  · refine List.forall_mem_cons.mpr
      ⟨Or.inr (Or.inr ⟨_, List.mem_of_getElem? hnew, rfl⟩), fun other hold => ?_⟩
    exact (hinv.pending other hold).imp_right (Or.imp_right (fresh_set hi rfl))
  · refine List.nodup_cons.mpr ⟨fun hmem => ?_, hinv.nodup⟩
    obtain ⟨other, hother, hreq⟩ := List.mem_map.mp hmem
    exact hfree other hother hreq
  · intro other hother
    exact (hinv.kept other hother).imp (·.step hi (List.nil_subset _))
      (Or.imp_right (And.imp_left (List.mem_cons_of_mem _)))

theorem fresh_set_of_register (hi : calls[i]? = some (.register info)) {other : TransferReqInfo}
    (hfresh : ∃ third ∈ calls, third.fresh = some other) :
    other = info ∨ ∃ third ∈ calls.set i next, third.fresh = some other := by
  obtain ⟨third, hmem, hthird⟩ := hfresh
  obtain rfl | hset := eq_or_mem_set hi hmem
  · exact Or.inl (Option.some.inj hthird).symm
  · exact Or.inr ⟨third, hset, hthird⟩

theorem stepUnregistered (hinv : RequestInvariant s) (hi : s.calls[i]? = some (.register info))
    (hnull : info.req = 0) : RequestInvariant
      { shared := s.shared
        calls := s.calls.set i (.transferred .success (some info.req)) } := by
  refine { hinv with
    calls := forall_mem_set transferredFits fun _ _ _ hj => hinv.fitsAt hj
    pending := fun other hother => ?_
    kept := fun other hother => (hinv.kept other hother).imp_left (·.step hi (List.nil_subset _)) }
  obtain hzero | hlatest | hfresh := hinv.pending other hother
  · exact Or.inl hzero
  · exact Or.inr (Or.inl hlatest)
  · obtain rfl | hrest := fresh_set_of_register hi hfresh
    · exact Or.inl hnull
    · exact Or.inr (Or.inr hrest)

section

variable (hinv : RequestInvariant s) (halone : registersAlone s = true)

include hinv halone

theorem stepRegistered (hi : s.calls[i]? = some (.register info)) (hreq : info.req ≠ 0) :
    RequestInvariant
      { shared := { s.shared with
          index := s.shared.index.registerTransferReq info
          registered := info :: s.shared.registered }
        calls := s.calls.set i
          (.transferred .success (some info.req)) } := by
  have hfits := hinv.fitsAt hi
  obtain ⟨hheld, honly⟩ := hfits.fresh info rfl
  have hindex := lookup_registerTransferReq (x := s.shared.index) hreq
  refine { hinv with
    consistent := hinv.consistent.registerTransferReq info
    calls := forall_mem_set transferredFits fun j other hne hj => ?_
    known := List.forall_mem_cons.mpr ⟨⟨hfits.client info.client rfl, hreq⟩, hinv.known⟩
    indexed := ?_
    pending := ?_
    kept := ?_ }
  · have hold := hinv.fitsAt hj
    refine { hold with taken := fun third hthird => ?_ }
    have hother := req_ne_of_registersAlone halone (Ne.symm hne) hi hj rfl
      (mem_hand_of_taken hthird)
    rw [latest_cons, if_neg (Ne.symm hother)]
    exact hold.taken third hthird
  · intro other howns
    rw [owns, hindex] at howns
    rw [latest_cons]
    split_ifs at howns with hsame
    · rw [if_pos hsame.symm]
      obtain ⟨hclient, hdata, hid⟩ := ReqOwner.mk.inj (Option.some.inj howns)
      rw [Option.some.injEq, TransferReqInfo.mk.injEq]
      exact ⟨hsame.symm, hclient, hdata, hid⟩
    · rw [if_neg (Ne.symm hsame)]
      exact hinv.indexed other howns
  · intro other hother
    rw [latest_cons]
    by_cases hsame : info.req = other.req
    · rw [if_pos hsame, honly other hother hsame.symm]
      exact Or.inr (Or.inl rfl)
    · rw [if_neg hsame]
      obtain hzero | hlatest | hfresh := hinv.pending other hother
      · exact Or.inl hzero
      · exact Or.inr (Or.inl hlatest)
      · obtain rfl | hrest := fresh_set_of_register hi hfresh
        · exact absurd rfl hsame
        · exact Or.inr (Or.inr hrest)
  · -- the new request is in the index unless its client is destroyed
    have hnew : info.client ∈ s.shared.destroyed ∨ info ∈ s.shared.pending ∧
          (s.shared.index.registerTransferReq info).owns info := by
      refine hheld.symm.imp_right fun hmem => ⟨hmem, ?_⟩
      rw [owns, hindex, if_pos rfl]
    refine List.forall_mem_cons.mpr ⟨Or.inr hnew, fun other hold => ?_⟩
    obtain hdone | hgone | ⟨hmem, howns⟩ := hinv.kept other hold
    · exact Or.inl (hdone.step hi (List.nil_subset _))
    · exact Or.inr (Or.inl hgone)
    · by_cases hsame : other.req = info.req
      · rw [honly other hmem hsame]
        exact Or.inr hnew
      · refine Or.inr (Or.inr ⟨hmem, ?_⟩)
        rwa [owns, hindex, if_neg hsame]

theorem step (hi : s.calls[i]? = some call)
    (hafter : registersAlone { shared := s', calls := s.calls.set i next } = true)
    (hstep : EngineStep input s.shared call s' next) :
    RequestInvariant { shared := s', calls := s.calls.set i next } := by
  cases hstep with
  | kept hcarries => exact hinv.stepKept hi hcarries
  | opened hconnect =>
    exact hinv.stepConnected hi rfl rfl hconnect fun _ => .of_plain rfl rfl (List.forall_mem_nil _)
  | connected hconnect =>
    refine hinv.stepConnected hi rfl rfl hconnect fun hclient =>
      { tame := rfl
        client := fun _ hother => Option.some.inj hother ▸ hclient
        destroying := nofun
        taken := List.forall_mem_nil _
        fresh := nofun }
  | submitted hsubmit => exact hinv.stepSubmitted hi hsubmit hafter
  | refused => exact hinv.stepRefused hi
  | @registered info =>
    by_cases hreq : info.req = 0
    · have hsame : s.shared.registerTransferReq info = s.shared := by
        simp [EngineState.registerTransferReq, RequestIndex.registerTransferReq, hreq]
      rw [hsame]
      exact hinv.stepUnregistered hi hreq
    · have hsame : s.shared.registerTransferReq info = { s.shared with
          index := s.shared.index.registerTransferReq info
          registered := info :: s.shared.registered } := by
        rw [EngineState.registerTransferReq, if_neg hreq]
      rw [hsame]
      exact hinv.stepRegistered halone hi hreq
  | looked hlooked hbefore hcall hplain htame _ htaken =>
    apply hinv.stepCleaned hi (fresh_of_plain hbefore) _ hlooked.cleans
    · exact fun client => EngineState.destroyed_of_dead
    · apply EngineCallFits.of_plain hplain htame
      rw [htaken]
      exact fun info hinfo => hinv.indexed info (hlooked.found info hinfo)
    · rw [hcall]
      exact List.nil_subset _
  | @asked _ _ info _ _ hask hresult hplain htame htodo hbefore htaken
      hended _ =>
      have hinfo : info ∈ call.taken := by
        rw [hbefore]
        exact List.mem_cons_self
      refine hinv.stepAsked hi hinfo hplain htame ?_ ?_ ?_ halone
        (EngineState.asked_of_clientGetTransferStatus hask)
      · rw [htaken, hbefore]
        exact fun _ h => h
      · rw [hended]
        exact List.subset_cons_self _ _
      · rw [hended]
        exact ⟨_, List.mem_cons_self⟩
  | erased hinfo hend hcarries =>
    obtain ⟨status, hstatus⟩ := hend
    exact hinv.stepErased hi hinfo hcarries.plain hcarries.tame
      hcarries.taken hcarries.ended.symm.subset
      ⟨status, hcarries.ended.symm.subset hstatus⟩
  | @gaveUp _ _ info left htodo hbefore hremote hplain htame hleft htaken
      hended _ =>
      have hinfo : info ∈ call.taken := by
        rw [hbefore, htodo]
        exact List.mem_cons_self
      refine hinv.stepErased hi hinfo hplain htame ?_ ?_ ?_
      · rw [hbefore, htodo]
        exact fun other hother => List.mem_cons_of_mem _ (htaken hother)
      · exact fun pair hpair => hended.symm.subset (List.mem_cons_of_mem _ hpair)
      · exact ⟨.failed, hended.symm.subset List.mem_cons_self⟩
  | destroyed hlookup => exact hinv.stepDestroyed hi hlookup
  | dropped => exact hinv.stepDropped hi
  | finalized hcarries => exact hinv.stepFinalized hi hcarries

end

end RequestInvariant

theorem RequestInvariant.run {s' : Config EngineState EngineCall}
    {actions : List (Action EngineCall EngineInput)}
    (hreach : engineProgram.run s actions = some s')
    (halone : engineProgram.throughout registersAlone s actions = true)
    (hinv : RequestInvariant s) : RequestInvariant s' := by
  refine (Program.run_invariant_throughout RequestInvariant registersAlone ?_
    ?_ actions hreach halone hinv).1
  · intro s call hstarts _ hinv
    exact hinv.startCall hstarts
  · intro s i input call next shared hi hnext hok hafter hinv
    apply hinv.step hok hi hafter
    exact EngineStep.of_next hinv.consistent (hinv.fitsAt hi).tame hnext

theorem IndexInvariant.start (autoConnect : Bool) : IndexInvariant (engineStart autoConnect) where
  consistent := Consistent.empty
  tame := List.forall_mem_nil _

end Hixl
