import Hixl.EngineIndexIntegrity

/-!
# Status queries that run at the same time

From a state in which every registered request is pending on the connected
client of its engine, any number of status queries run.  When no request is in
the hands of two of them at once, every request is reported by one call, a
completed one never as failed, and a client is disconnected only after an error
of its own.
-/

namespace Hixl

open InterleavedCalls EngineCall RequestIndex

def EngineCall.startsQuery : EngineCall → Bool
  | .getTransferStatus _ | .getTransferStatuses _ _ => true
  | _ => false

def queryProgram : Program EngineState EngineCall EngineInput where
  starts := EngineCall.startsQuery
  next := fun input s call => call.next input s

def handsDisjoint (a b : EngineCall) : Bool :=
  a.hand.all fun info => b.hand.all fun other => other.req ≠ info.req

/-- No request is in the hands of two calls. -/
def handsApart (s : Config EngineState EngineCall) : Bool :=
  s.calls.Pairwise fun a b => handsDisjoint a b = true

variable {a b : EngineCall}

theorem handsDisjoint_symm (hapart : handsDisjoint a b = true) : handsDisjoint b a = true := by
  unfold handsDisjoint at hapart ⊢
  rw [List.all_eq_true] at hapart ⊢
  intro info hinfo
  rw [List.all_eq_true]
  intro other hother
  have hall := List.all_eq_true.mp (hapart other hother) info hinfo
  exact decide_eq_true (Ne.symm (of_decide_eq_true hall))

variable {info : TransferReqInfo}

theorem not_taken_twice {s : Config EngineState EngineCall} (hapart : handsApart s = true) {i j : ℕ}
    (hne : i ≠ j) (hi : s.calls[i]? = some a) (hj : s.calls[j]? = some b) (ha : info ∈ a.taken) :
    info ∉ b.taken := by
  intro hb
  have hdisjoint : handsDisjoint a b = true :=
    pairwise_at (fun _ _ => handsDisjoint_symm) (of_decide_eq_true hapart) hne hi hj
  have hall := List.all_eq_true.mp hdisjoint info (mem_hand_of_taken ha)
  have hreq := List.all_eq_true.mp hall info (mem_hand_of_taken hb)
  exact of_decide_eq_true hreq rfl

variable {call : EngineCall}

theorem EngineCall.no_transfer_of_plain (hplain : call.plain = true) : call.transferClient = none ∧
      ∀ remote userData, call ≠ .transferAsync remote userData ∧ call ≠ .connect remote := by
  refine ⟨transferClient_of_plain hplain, fun remote userData => ⟨?_, ?_⟩⟩
  · rintro rfl
    exact absurd hplain (by simp [plain])
  · rintro rfl
    exact absurd hplain (by simp [plain])

variable {req : ℕ}

theorem RequestIndex.owns_eraseTransferReq {x : RequestIndex}
    (howns : (x.eraseTransferReq req).owns info) : info.req ≠ req ∧ x.owns info := by
  unfold owns at howns
  rw [lookup_eraseTransferReq] at howns
  split_ifs at howns with hsame
  exact ⟨hsame, howns⟩

structure AnswerTraces (s s' : EngineState) (client req : ℕ)
    (result : Except Status TransferStatus) : Prop where
  reqMap : ∀ entry ∈ s.reqMap, entry ≠ (client, req) → entry ∈ s'.reqMap := by exact fun _ h _ => h
  errors : s'.errors = s.errors ∨ s'.errors = client :: s.errors := by exact Or.inl rfl
  error_cause : ∀ ret, result = .error ret → client ∈ s'.errors ∨
    (client, req) ∉ s.reqMap ∨ s.pendingAt client req = none := by simp
  completed : ∀ id ∈ s'.completed, id ∈ s.completed ∨
    result = .ok .completed ∧ ∃ info, s.pendingAt client req = some info ∧ info.id = id := by
      exact fun _ => Or.inl
  failed : s.failed ⊆ s'.failed := by exact fun _ h => h
  failed_cause : result = .ok .failed →
    ∃ info, s.pendingAt client req = some info ∧ info.id ∈ s'.failed := by simp

variable {s s' : EngineState} {client : ℕ} {result : Except Status TransferStatus}

theorem EngineState.answerTraces {answer : Except Status HixlCompleteStatus}
    (hask : s.clientGetTransferStatus client req answer = (result, s')) :
    AnswerTraces s s' client req result := by
  have hkeep : ∀ entry ∈ s.reqMap, entry ≠ (client, req) → entry ∈ s.reqMap.erase (client, req) :=
    fun entry hmem hne => Finset.mem_erase.mpr ⟨hne, hmem⟩
  unfold clientGetTransferStatus at hask
  split at hask
  · split at hask
    · next hnone =>
        cases hask
        exact { reqMap := hkeep, error_cause := fun _ _ => Or.inr (Or.inr hnone) }
    · next info hpending =>
        split at hask
        all_goals cases hask
        · exact
            { reqMap := hkeep, errors := Or.inr rfl,
              error_cause := fun _ _ => Or.inl List.mem_cons_self }
        · exact {}
        · refine { reqMap := hkeep, completed := fun id hid => ?_ }
          rw [List.mem_cons] at hid
          cases hid with
          | inl heq => exact Or.inr ⟨rfl, info, hpending, heq.symm⟩
          | inr hold => exact Or.inl hold
        · exact {}
        · exact
            { reqMap := hkeep, failed := fun _ => List.mem_cons_of_mem _,
              failed_cause := fun _ => ⟨info, hpending, List.mem_cons_self⟩ }
  · next habsent =>
      cases hask
      exact { error_cause := fun _ _ => Or.inr (Or.inl habsent) }

theorem AnswerTraces.errors_subset (htraces : AnswerTraces s s' client req result) :
    s.errors ⊆ s'.errors := by
  obtain heq | heq := htraces.errors
  · rw [heq]
    exact fun _ h => h
  · rw [heq]
    exact List.subset_cons_self _ _

/-! ## The invariant -/

/-- Every registered request is pending on the connected client of its
engine, and nothing has been logged yet. -/
structure EngineReady (s : EngineState) : Prop where
  consistent : s.index.Consistent
  owned : ∀ info, s.index.owns info → info ∈ s.pending ∧
    (info.client, info.req) ∈ s.reqMap ∧
    s.clients.lookup (s.remoteOf info.client) = some info.client
  reqs : (s.pending.map TransferReqInfo.req).Nodup
  ids : (s.pending.map TransferReqInfo.id).Nodup
  logs : s.destroyed = [] ∧ s.errors = [] ∧ s.completed = []

namespace EngineReady

variable {s : EngineState} {info other : TransferReqInfo}

theorem eq_of_id (hready : EngineReady s) (hinfo : s.index.owns info)
    (hother : s.index.owns other) (hid : info.id = other.id) : info = other :=
  List.inj_on_of_nodup_map hready.ids (hready.owned info hinfo).1 (hready.owned other hother).1 hid

theorem eq_of_req (hready : EngineReady s) (hinfo : s.index.owns info)
    (hother : other ∈ s.pending) (hreq : info.req = other.req) : info = other :=
  List.inj_on_of_nodup_map hready.reqs (hready.owned info hinfo).1 hother hreq

end EngineReady

structure QueryFits (start s : EngineState) (call : EngineCall) : Prop where
  no_transfer : call.transferClient = none ∧
    ∀ remote userData, call ≠ .transferAsync remote userData ∧ call ≠ .connect remote
  destroying : ∀ client, call.destroying = some client →
    client ∈ s.destroyed
  taken : ∀ info ∈ call.taken, start.index.owns info
  ended : ∀ id status, (id, status) ∈ call.ended →
    ∃ info, start.index.owns info ∧ info.id = id
  once : (call.ended.map Prod.fst ++
    call.todo.map TransferReqInfo.id).Nodup
  erased : ∀ info, s.index.owns info → info.id ∈ call.ended.map Prod.fst →
    info ∈ call.taken
  failed : ∀ info, start.index.owns info →
    (info.id, .failed) ∈ call.ended → info.id ∈ s.failed ∨ info.client ∈ s.errors
  accused : ∀ remote ∈ call.accused start.remoteOf,
    ∃ client ∈ s.errors, start.remoteOf client = remote

/-- What one call has ended is neither ended nor in the hands of the other. -/
def EndsApart (a b : EngineCall) : Prop :=
  ∀ id ∈ a.ended.map Prod.fst, id ∉ b.ended.map Prod.fst ∧ id ∉ b.taken.map TransferReqInfo.id

structure QueryInvariant (start : EngineState)
    (s : Config EngineState EngineCall) : Prop where
  index : IndexInvariant s
  remoteOf : s.shared.remoteOf = start.remoteOf
  clients : ∀ remote client, s.shared.clients.lookup remote = some client →
    start.clients.lookup remote = some client
  owned : ∀ info, s.shared.index.owns info → start.index.owns info
  pending : s.shared.pending.Sublist start.pending
  calls : ∀ call ∈ s.calls, QueryFits start s.shared call
  alone : ∀ (i j : ℕ) (a b : EngineCall), i ≠ j → s.calls[i]? = some a →
    s.calls[j]? = some b → EndsApart a b
  settled : ∀ info, start.index.owns info → Ended s.calls info.id ∨
    info.client ∈ s.shared.destroyed ∨
    info ∈ s.shared.pending ∧ (info.client, info.req) ∈ s.shared.reqMap
  completed : ∀ id ∈ s.shared.completed,
    ∃ call ∈ s.calls, (id, .completed) ∈ call.ended
  destroyed : ∀ client ∈ s.shared.destroyed, client ∈ s.shared.errors
  errors : ∀ client ∈ s.shared.errors,
    start.clients.lookup (start.remoteOf client) = some client

structure Later (s s' : EngineState) : Prop where
  owned : ∀ info, s'.index.owns info → s.index.owns info := by exact fun _ h => h
  destroyed : s.destroyed ⊆ s'.destroyed := by exact fun _ h => h
  failed : s.failed ⊆ s'.failed := by exact fun _ h => h
  errors : s.errors ⊆ s'.errors := by exact fun _ h => h

variable {start : EngineState}

namespace QueryFits

variable (hfits : QueryFits start s call)

include hfits

theorem mono (hlater : Later s s') : QueryFits start s' call :=
  { hfits with
    destroying := fun client hclient => hlater.destroyed (hfits.destroying client hclient)
    erased := fun info howns => hfits.erased info (hlater.owned info howns)
    failed := fun info howns hend => (hfits.failed info howns hend).imp
      (fun h => hlater.failed h) (fun h => hlater.errors h)
    accused := fun remote hremote => (hfits.accused remote hremote).imp
      fun _ => And.imp_left fun h => hlater.errors h }

theorem not_todo (hend : info.id ∈ call.ended.map Prod.fst) : info ∉ call.todo :=
  fun htodo => List.disjoint_of_nodup_append hfits.once hend (List.mem_map_of_mem htodo)

omit hfits in
theorem of_plain (hplain : call.plain = true) (taken : ∀ info ∈ call.taken, start.index.owns info)
    (ended : ∀ id status, (id, status) ∈ call.ended → ∃ info, start.index.owns info ∧ info.id = id)
    (once : (call.ended.map Prod.fst ++ call.todo.map TransferReqInfo.id).Nodup)
    (erased : ∀ info, s.index.owns info → info.id ∈ call.ended.map Prod.fst → info ∈ call.taken)
    (failed : ∀ info, start.index.owns info → (info.id, .failed) ∈ call.ended →
      info.id ∈ s.failed ∨ info.client ∈ s.errors)
    (accused : ∀ remote ∈ call.accused start.remoteOf,
      ∃ client ∈ s.errors, start.remoteOf client = remote) : QueryFits start s call where
  no_transfer := no_transfer_of_plain hplain
  destroying := by simp [destroying_of_plain hplain]
  taken := taken
  ended := ended
  once := once
  erased := erased
  failed := failed
  accused := accused

theorem carry {next : EngineCall} (hcarries : Carries start.remoteOf call next)
    (herased : ∀ info, s.index.owns info → info.id ∈ call.ended.map Prod.fst → info ∈ next.taken) :
    QueryFits start s next :=
  of_plain hcarries.plain (fun info hmem => hfits.taken info (hcarries.taken hmem))
    (fun id status hmem => hfits.ended id status (hcarries.ended.subset hmem))
    ((((hcarries.ended.map _).append_right _).nodup_iff).mpr
      (hfits.once.sublist ((hcarries.todo.map _).append_left _)))
    (fun info howns hend => herased info howns ((hcarries.ended.map _).subset hend))
    (fun info howns hend => hfits.failed info howns (hcarries.ended.subset hend))
    fun remote hmem => hfits.accused remote (hcarries.accused hmem)

end QueryFits

theorem EndsApart.mono {a' b' : EngineCall} (hapart : EndsApart a b) (ha : a'.ended ⊆ a.ended)
    (hb : b'.ended ⊆ b.ended) (htaken : b'.taken ⊆ b.taken) : EndsApart a' b' := by
  intro id hid
  obtain ⟨hended, hhand⟩ := hapart id (List.map_subset _ ha hid)
  exact ⟨fun h => hended (List.map_subset _ hb h), fun h => hhand (List.map_subset _ htaken h)⟩

namespace QueryInvariant

variable {start : EngineState} {s : Config EngineState EngineCall}
  {s' : EngineState} {i j : ℕ} {call next other : EngineCall}

theorem fitsAt (hinv : QueryInvariant start s) (hj : s.calls[j]? = some other) :
    QueryFits start s.shared other :=
  hinv.calls other (List.mem_of_getElem? hj)

theorem ofReady (hready : EngineReady start) :
    QueryInvariant start { shared := start, calls := [] } where
  index := ⟨hready.consistent, List.forall_mem_nil _⟩
  remoteOf := rfl
  clients := fun _ _ hlookup => hlookup
  owned := fun _ howns => howns
  pending := List.Sublist.refl _
  calls := by simp
  alone := fun i j a b _ hi => absurd hi (by simp)
  settled := fun info howns =>
    Or.inr (Or.inr ⟨(hready.owned info howns).1, (hready.owned info howns).2.1⟩)
  completed := by simp [hready.logs.2.2]
  destroyed := by simp [hready.logs.1]
  errors := by simp [hready.logs.2.1]

theorem startCall (hinv : QueryInvariant start s) (hstarts : call.startsQuery = true) :
    QueryInvariant start { s with calls := s.calls ++ [call] } := by
  have hquiet : call.tame = true ∧ call.ended = [] ∧ call.taken = [] ∧
      QueryFits start s.shared call := by
    cases call with
    | getTransferStatus _ | getTransferStatuses _ _ =>
      exact ⟨rfl, rfl, rfl, .of_plain rfl (by simp [EngineCall.taken]) (by simp [EngineCall.ended])
        List.nodup_nil (by simp [EngineCall.ended]) (by simp [EngineCall.ended])
        (by simp [EngineCall.accused])⟩
    | _ => exact absurd hstarts (by simp [startsQuery])
  obtain ⟨htame, hended, htaken, hfits⟩ := hquiet
  exact { hinv with
    index := ⟨hinv.index.consistent, forall_mem_append htame hinv.index.tame⟩
    calls := forall_mem_append hfits hinv.calls
    alone := pairs_append hinv.alone fun other _ => by simp [EndsApart, hended, htaken]
    settled := fun info howns => (hinv.settled info howns).imp_left
      (Exists.imp fun _ => And.imp_left (List.mem_append_left _))
    completed := fun id hid => (hinv.completed id hid).imp
      fun _ => And.imp_left (List.mem_append_left _) }

/-- What a step of a call must not do to the others, and what it may add. -/
structure Frame (start : EngineState) (s : Config EngineState EngineCall) (i : ℕ)
    (call : EngineCall) (s' : EngineState) (next : EngineCall) : Prop extends
    Later s.shared s' where
  fits : QueryFits start s' next
  apart : ∀ (j : ℕ) (other : EngineCall), j ≠ i → s.calls[j]? = some other →
    EndsApart next other ∧ EndsApart other next
  ended : call.ended ⊆ next.ended
  remoteOf : s'.remoteOf = s.shared.remoteOf := by rfl
  clients : ∀ remote client, s'.clients.lookup remote = some client →
    s.shared.clients.lookup remote = some client := by exact fun _ _ h => h
  pending : s'.pending.Sublist s.shared.pending := by exact List.Sublist.refl _
  settled : ∀ info, start.index.owns info → info ∈ s.shared.pending →
    (info.client, info.req) ∈ s.shared.reqMap → (∃ status, (info.id, status) ∈ next.ended) ∨
      info.client ∈ s'.destroyed ∨ info ∈ s'.pending ∧ (info.client, info.req) ∈ s'.reqMap := by
    exact fun _ _ hmem hreq => Or.inr (Or.inr ⟨hmem, hreq⟩)
  completed : ∀ id ∈ s'.completed, id ∈ s.shared.completed ∨ (id, .completed) ∈ next.ended := by
    exact fun _ => Or.inl
  blamed : ∀ client ∈ s'.destroyed, client ∈ s.shared.destroyed ∨ client ∈ s'.errors := by
    exact fun _ => Or.inl
  stored : ∀ client ∈ s'.errors, client ∈ s.shared.errors ∨
    start.clients.lookup (start.remoteOf client) = some client := by exact fun _ => Or.inl

variable (hinv : QueryInvariant start s) (hi : s.calls[i]? = some call)

include hinv hi

theorem ofFrame (hindex : IndexInvariant { shared := s', calls := s.calls.set i next })
    (hframe : Frame start s i call s' next) :
    QueryInvariant start { shared := s', calls := s.calls.set i next } where
  index := hindex
  remoteOf := hframe.remoteOf.trans hinv.remoteOf
  clients := fun remote client hlookup =>
    hinv.clients remote client (hframe.clients remote client hlookup)
  owned := fun info howns => hinv.owned info (hframe.owned info howns)
  pending := hframe.pending.trans hinv.pending
  calls := forall_mem_set hframe.fits fun _ _ _ hj => (hinv.fitsAt hj).mono hframe.toLater
  alone := pairs_set hinv.alone hframe.apart
  settled := by
    intro info howns
    obtain hend | hgone | ⟨hmem, hreq⟩ := hinv.settled info howns
    · exact Or.inl (hend.step hi hframe.ended)
    · exact Or.inr (Or.inl (hframe.destroyed hgone))
    · exact (hframe.settled info howns hmem hreq).imp_left fun h => ⟨next, mem_calls_set hi, h⟩
  completed := by
    intro id hid
    obtain hold | hnew := hframe.completed id hid
    · exact exists_mem_set hi (fun hend => hframe.ended hend) (hinv.completed id hold)
    · exact ⟨next, mem_calls_set hi, hnew⟩
  destroyed := fun client hclient => (hframe.blamed client hclient).elim
    (fun h => hframe.errors (hinv.destroyed client h)) id
  errors := fun client hclient => (hframe.stored client hclient).elim (hinv.errors client) id

theorem apartAt (hended : next.ended ⊆ call.ended) (htaken : next.taken ⊆ call.taken)
    (j : ℕ) (other : EngineCall) (hne : j ≠ i) (hj : s.calls[j]? = some other) :
    EndsApart next other ∧ EndsApart other next :=
  ⟨(hinv.alone i j call other (Ne.symm hne) hi hj).mono hended (fun _ h => h) (fun _ h => h),
    (hinv.alone j i other call hne hj hi).mono (fun _ h => h) hended htaken⟩

variable {info : TransferReqInfo}

theorem frameErased (hcarries : Carries s.shared.remoteOf call next)
    (hdropped : ∀ other ∈ call.taken, other = info ∨ other ∈ call.todo) :
    Frame start s i call (s.shared.eraseTransferReq info.req) next := by
  have hfits := hinv.fitsAt hi
  rw [hinv.remoteOf] at hcarries
  have hlater : Later s.shared (s.shared.eraseTransferReq info.req) :=
    { owned := fun _ h => (owns_eraseTransferReq h).2 }
  refine { hlater with
    fits := (hfits.mono hlater).carry hcarries fun other howns hend => ?_
    apart := hinv.apartAt hi hcarries.ended.subset hcarries.taken
    ended := hcarries.ended.symm.subset }
  obtain ⟨hne, howns⟩ := owns_eraseTransferReq howns
  obtain heq | htodo := hdropped other (hfits.erased other howns hend)
  · exact absurd (congrArg TransferReqInfo.req heq) hne
  · exact absurd htodo (hfits.not_todo hend)

omit hi

variable {index : RequestIndex} {client : ℕ} {rest : EngineCall}

theorem frameDropped (hi : s.calls[i]? = some (.destroyIndex client rest)) {dead : ℕ → Prop}
    (hcleans : Cleans dead s.shared.index index) :
    Frame start s i (.destroyIndex client rest) { s.shared with index }
      (.destroyFinal client rest) := by
  have hlater : Later s.shared { s.shared with index } := { owned := fun _ => hcleans.kept _ _ }
  have hfits := (hinv.fitsAt hi).mono hlater
  exact { hlater with
    fits := ⟨⟨rfl, by simp⟩, hfits.destroying, hfits.taken, hfits.ended,
      hfits.once, hfits.erased, hfits.failed, hfits.accused⟩
    apart := hinv.apartAt hi (fun _ h => h) fun _ h => h
    ended := fun _ h => h }

theorem frameDestroyed {remote : String} (hi : s.calls[i]? = some (.destroyClient remote rest))
    (hlookup : s.shared.clients.lookup remote = some client) :
    Frame start s i (.destroyClient remote rest)
      { s.shared with
        clients := s.shared.clients.erase remote
        destroyed := client :: s.shared.destroyed }
      (.destroyIndex client rest) := by
  have hfits := hinv.fitsAt hi
  obtain ⟨blamed, hblamed, hremote⟩ := hfits.accused remote List.mem_cons_self
  have hsame : blamed = client := by
    have hfound := hinv.errors blamed hblamed
    rw [hremote, hinv.clients remote client hlookup] at hfound
    exact (Option.some.inj hfound).symm
  refine {
    destroyed := List.subset_cons_self _ _
    fits := ⟨⟨rfl, by simp⟩, fun _ h => by simp [← Option.some.inj h], hfits.taken, hfits.ended,
      hfits.once, hfits.erased, hfits.failed,
      fun engine hmem => hfits.accused engine (List.mem_cons_of_mem _ hmem)⟩
    apart := hinv.apartAt hi (fun _ h => h) fun _ h => h
    ended := fun _ h => h
    clients := fun engine other hother => ?_
    blamed := List.forall_mem_cons.mpr ⟨Or.inr (hsame ▸ hblamed), fun _ => Or.inl⟩ }
  by_cases hengine : engine = remote
  · rw [hengine, AList.lookup_erase] at hother
    cases hother
  · rwa [AList.lookup_erase_ne hengine] at hother

theorem frameFinalized (hi : s.calls[i]? = some (.destroyFinal client rest))
    (hcarries : Carries s.shared.remoteOf (.destroyFinal client rest) next)
    (hdropped : ∀ info ∈ rest.taken, info ∈ next.taken) :
    Frame start s i (.destroyFinal client rest) (s.shared.finalize client) next := by
  have hfits := hinv.fitsAt hi
  rw [hinv.remoteOf] at hcarries
  have hlater : Later s.shared (s.shared.finalize client) := {}
  refine { hlater with
    fits := (hfits.mono hlater).carry hcarries fun info howns hend =>
      hdropped info (hfits.erased info howns hend)
    apart := hinv.apartAt hi hcarries.ended.subset hcarries.taken
    ended := hcarries.ended.symm.subset
    pending := List.filter_sublist
    settled := fun info _ hmem hreq => Or.inr ?_ }
  by_cases hclient : info.client = client
  · exact Or.inl (hclient ▸ hfits.destroying client rfl)
  · exact Or.inr ⟨List.mem_filter.mpr ⟨hmem, decide_eq_true hclient⟩,
      Finset.mem_filter.mpr ⟨hreq, hclient⟩⟩

variable (hready : EngineReady start)

include hi hready

theorem frameLooked {infos : List TransferReqInfo} {alive : ℕ → Bool} (hapart : handsApart
      { shared := { s.shared with index }
        calls := s.calls.set i next } = true) (hlooked : Looked alive s.shared.index infos index)
    (hcall : call.ended = []) (hplain : next.plain = true) (htodo : next.todo = infos)
    (htaken : next.taken = infos) (hended : next.ended = [])
    (haccused : next.accused s.shared.remoteOf = []) :
    Frame start s i call { s.shared with index } next := by
  have hfound : ∀ info ∈ infos, start.index.owns info :=
    fun info hmem => hinv.owned info (hlooked.found info hmem)
  have hids : (infos.map TransferReqInfo.id).Nodup := by
    have hreqs : (infos.map TransferReqInfo.req).Nodup :=
      hinv.index.consistent.nodup_reqs.sublist hlooked.reqs
    exact List.Nodup.map_on (fun a ha b hb => hready.eq_of_id (hfound a ha) (hfound b hb))
      (List.Nodup.of_map _ hreqs)
  refine {
    owned := fun _ => hlooked.cleans.kept _ _
    fits := .of_plain hplain (htaken ▸ hfound) (by simp [hended]) (by rwa [hended, htodo])
      (by simp [hended]) (by simp [hended]) (by simp [← hinv.remoteOf, haccused])
    apart := fun j other hne hj => ⟨by simp [EndsApart, hended], fun id hid => ?_⟩
    ended := by simp [hcall] }
  refine ⟨by simp [hended], fun hmem => ?_⟩
  -- Whoever has ended a request of the index is about to erase it.
  obtain ⟨info, hinfo, rfl⟩ := List.mem_map.mp hmem
  have hother : info ∈ other.taken :=
    (hinv.fitsAt hj).erased info (hlooked.found info (htaken ▸ hinfo)) hid
  obtain ⟨hlt, -⟩ := List.getElem?_eq_some_iff.mp hi
  refine not_taken_twice hapart (Ne.symm hne) (List.getElem?_set_self hlt) ?_ hinfo hother
  rwa [List.getElem?_set_ne (Ne.symm hne)]

/-! ## Requests are reported -/

section Reported

variable (htodo : info ∈ call.todo) (hbefore : info ∈ call.taken)

include htodo hbefore

omit hready in
theorem not_ended_of_todo (hj : s.calls[j]? = some other) : info.id ∉ other.ended.map Prod.fst := by
  intro hend
  by_cases hji : j = i
  · rw [hji, hi, Option.some.injEq] at hj
    exact (hinv.fitsAt hi).not_todo (hj ▸ hend) htodo
  · exact (hinv.alone j i other call hji hj hi info.id hend).2 (List.mem_map_of_mem hbefore)

theorem reported_apart (hapart : handsApart s = true) {status : TransferStatus}
    (hended : next.ended ⊆ (info.id, status) :: call.ended) (htaken : next.taken ⊆ call.taken)
    (j : ℕ) (other : EngineCall) (hne : j ≠ i) (hj : s.calls[j]? = some other) :
    EndsApart next other ∧ EndsApart other next := by
  have hids : next.ended.map Prod.fst ⊆ info.id :: call.ended.map Prod.fst :=
    List.map_subset _ hended
  have hnone := hinv.not_ended_of_todo hi htodo hbefore hj
  refine ⟨fun id hid => ?_, fun id hid => ?_⟩
  · obtain rfl | hold := List.mem_cons.mp (hids hid)
    · refine ⟨hnone, fun hmem => ?_⟩
      obtain ⟨twin, htwin, hid⟩ := List.mem_map.mp hmem
      have hsame : twin = info := hready.eq_of_id ((hinv.fitsAt hj).taken twin htwin)
        ((hinv.fitsAt hi).taken info hbefore) hid
      exact not_taken_twice hapart (Ne.symm hne) hi hj hbefore (hsame ▸ htwin)
    · exact hinv.alone i j call other (Ne.symm hne) hi hj id hold
  · obtain ⟨hfree, hhand⟩ := hinv.alone j i other call hne hj hi id hid
    refine ⟨fun hmem => ?_, fun hmem => hhand (List.map_subset _ htaken hmem)⟩
    obtain rfl | hold := List.mem_cons.mp (hids hmem)
    · exact hnone hid
    · exact hfree hold

variable {result : Except Status TransferStatus}

omit hready in
theorem error_of_query (htraces : AnswerTraces s.shared s' info.client info.req result)
    {ret : Status} (hresult : result = .error ret) : info.client ∈ s'.errors := by
  obtain hend | hgone | ⟨hmem, hreq⟩ := hinv.settled info ((hinv.fitsAt hi).taken info hbefore)
  · obtain ⟨other, hother, status, hend⟩ := hend
    obtain ⟨j, hj⟩ := List.mem_iff_getElem?.mp hother
    exact absurd (List.mem_map_of_mem hend) (hinv.not_ended_of_todo hi htodo hbefore hj)
  · exact htraces.errors_subset (hinv.destroyed _ hgone)
  · obtain hcause | habsent | hnone := htraces.error_cause ret hresult
    · exact hcause
    · exact absurd hreq habsent
    · exact absurd (decide_eq_true ⟨rfl, rfl⟩) (List.find?_eq_none.mp hnone info hmem)

end Reported

omit hi in
theorem pendingAt_eq {found : TransferReqInfo} (howns : start.index.owns info)
    (hpending : s.shared.pendingAt info.client info.req = some found) : found = info := by
  obtain ⟨hmem, -, hreq⟩ := EngineState.pendingAt_spec hpending
  exact (hready.eq_of_req howns (hinv.pending.subset hmem) hreq.symm).symm

variable {result : Except Status TransferStatus}

theorem askedFits (hasked : EngineState.Asked s.shared s' info.client info.req)
    (htraces : AnswerTraces s.shared s' info.client info.req result) (hplain : next.plain = true)
    (htodo : call.todo = info :: next.todo) (hbefore : call.taken = info :: next.todo)
    (htaken : next.taken = info :: next.todo)
    (hended : next.ended = (info.id, answerStatus result) :: call.ended)
    (haccused : ∀ remote ∈ next.accused s.shared.remoteOf, remote ∈ call.accused s.shared.remoteOf ∨
        (∃ ret, result = .error ret) ∧ remote = s.shared.remoteOf info.client) :
    QueryFits start s' next := by
  have hfits := hinv.fitsAt hi
  have howns := hfits.taken info (hbefore ▸ List.mem_cons_self)
  have hcause : ∀ ret, result = .error ret → info.client ∈ s'.errors := fun _ =>
    hinv.error_of_query hi (htodo ▸ List.mem_cons_self) (hbefore ▸ List.mem_cons_self) htraces
  have hold : QueryFits start s' call := hfits.mono
    ⟨by simp [hasked.index], by simp [hasked.destroyed], htraces.failed, htraces.errors_subset⟩
  refine .of_plain hplain (by rw [htaken, ← hbefore]; exact hfits.taken) ?_ ?_ ?_ ?_ ?_
  · intro id status hmem
    obtain heq | hmem := List.mem_cons.mp (hended ▸ hmem)
    · exact ⟨info, howns, (Prod.mk.inj heq).1.symm⟩
    · exact hfits.ended id status hmem
  · have honce := hfits.once
    rw [htodo, List.map_cons] at honce
    rw [hended, List.map_cons, List.cons_append]
    exact (List.perm_middle.nodup_iff).mp honce
  · intro other hother hend
    rw [hasked.index] at hother
    rw [hended, List.map_cons] at hend
    rw [htaken]
    obtain heq | hend := List.mem_cons.mp hend
    · exact hready.eq_of_id (hinv.owned other hother) howns heq ▸ List.mem_cons_self
    · exact hbefore ▸ hfits.erased other hother hend
  · intro other hother hend
    obtain heq | hend := List.mem_cons.mp (hended ▸ hend)
    · obtain ⟨hid, hstatus⟩ := Prod.mk.inj heq
      rw [hready.eq_of_id hother howns hid]
      cases result with
      | error ret => exact Or.inr (hcause ret rfl)
      | ok status =>
        obtain ⟨found, hfound, hfailed⟩ := htraces.failed_cause (congrArg _ hstatus.symm)
        exact Or.inl (hinv.pendingAt_eq hready howns hfound ▸ hfailed)
    · exact hold.failed other hother hend
  · intro remote hremote
    rw [← hinv.remoteOf] at hremote
    obtain hmem | ⟨⟨ret, hresult⟩, heq⟩ := haccused remote hremote
    · exact hold.accused remote (hinv.remoteOf ▸ hmem)
    · exact ⟨info.client, hcause ret hresult, by rw [heq, hinv.remoteOf]⟩

theorem frameAsked (hapart : handsApart s = true)
    (hasked : EngineState.Asked s.shared s' info.client info.req)
    (htraces : AnswerTraces s.shared s' info.client info.req result) (htodo : info ∈ call.todo)
    (hbefore : info ∈ call.taken) (htaken : next.taken ⊆ call.taken)
    (hended : next.ended = (info.id, answerStatus result) :: call.ended)
    (hnext : QueryFits start s' next) : Frame start s i call s' next := by
  have howns := (hinv.fitsAt hi).taken info hbefore
  have hpendingAt : ∀ found, s.shared.pendingAt info.client info.req = some found → found = info :=
    fun _ => hinv.pendingAt_eq hready howns
  refine {
    owned := by simp [hasked.index]
    destroyed := by simp [hasked.destroyed]
    failed := htraces.failed
    errors := htraces.errors_subset
    fits := hnext
    apart := hinv.reported_apart hi hready htodo hbefore hapart (fun _ h => hended ▸ h) htaken
    ended := hended ▸ List.subset_cons_self _ _
    remoteOf := hasked.remoteOf
    clients := by simp [hasked.clients]
    pending := ?_
    settled := fun other hother hmem hreq => ?_
    completed := fun id hid => ?_
    blamed := fun client hclient => Or.inl (hasked.destroyed ▸ hclient)
    stored := fun client hclient => ?_ }
  · obtain heq | ⟨found, -, heq⟩ := hasked.pending
    · rw [heq]
    · exact heq ▸ List.erase_sublist
  · by_cases hsame : other = info
    · rw [hsame, hended]
      exact Or.inl ⟨_, List.mem_cons_self⟩
    refine Or.inr (Or.inr ⟨?_, htraces.reqMap _ hreq fun heq => hsame
      (hready.eq_of_req hother (hready.owned info howns).1 (Prod.mk.inj heq).2)⟩)
    obtain heq | ⟨found, hfound, heq⟩ := hasked.pending
    · exact heq ▸ hmem
    · rw [heq, hpendingAt found hfound]
      exact (List.mem_erase_of_ne hsame).mpr hmem
  · obtain hold | ⟨hresult, found, hfound, hfoundId⟩ := htraces.completed id hid
    · exact Or.inl hold
    · rw [hended, ← hfoundId, hpendingAt found hfound, hresult]
      exact Or.inr List.mem_cons_self
  · obtain heq | heq := htraces.errors
    · exact Or.inl (heq ▸ hclient)
    · obtain rfl | hold := List.mem_cons.mp (heq ▸ hclient)
      · exact Or.inr (hready.owned info howns).2.2
      · exact Or.inl hold

/-- The loop of a batch query gives up a request of an engine that it takes for
disconnected: the client of that engine has reported an error. -/
theorem gaveUpFits {left : List TransferReqInfo} (htodo : call.todo = info :: left)
    (hbefore : call.taken = call.todo) (hremote : s.shared.remoteOf info.client ∈
      call.accused s.shared.remoteOf) (hplain : next.plain = true) (hleft : next.todo.Sublist left)
    (htaken : next.taken ⊆ left) (hended : next.ended.Perm ((info.id, .failed) :: call.ended))
    (haccused : next.accused s.shared.remoteOf ⊆ call.accused s.shared.remoteOf) :
    QueryFits start (s.shared.eraseTransferReq info.req) next := by
  have hfits := hinv.fitsAt hi
  have hhand : call.taken = info :: left := hbefore.trans htodo
  have howns := hfits.taken info (hhand ▸ List.mem_cons_self)
  have hids : (next.ended.map Prod.fst).Perm (info.id :: call.ended.map Prod.fst) := hended.map _
  rw [hinv.remoteOf] at hremote haccused
  have hblamed : info.client ∈ s.shared.errors := by
    obtain ⟨client, hclient, heq⟩ := hfits.accused _ hremote
    have hfound := hinv.errors client hclient
    rw [heq, (hready.owned info howns).2.2] at hfound
    exact Option.some.inj hfound ▸ hclient
  refine .of_plain hplain
    (fun other hmem => hfits.taken other (hhand ▸ List.mem_cons_of_mem _ (htaken hmem)))
    ?_ ?_ ?_ ?_ fun remote hmem => hfits.accused remote (haccused hmem)
  · intro id status hmem
    obtain heq | hold := List.mem_cons.mp (hended.subset hmem)
    · exact ⟨info, howns, (Prod.mk.inj heq).1.symm⟩
    · exact hfits.ended id status hold
  · have honce := hfits.once
    rw [htodo, List.map_cons, List.perm_middle.nodup_iff, ← List.cons_append] at honce
    exact ((hids.append_right _).nodup_iff).mpr (honce.sublist ((hleft.map _).append_left _))
  · intro other hother hend
    obtain ⟨hne, hother⟩ := owns_eraseTransferReq hother
    obtain heq | hold := List.mem_cons.mp (hids.subset hend)
    · have hsame := hready.eq_of_id (hinv.owned other hother) howns heq
      exact absurd (congrArg TransferReqInfo.req hsame) hne
    · exact absurd (hbefore ▸ hfits.erased other hother hold) (hfits.not_todo hold)
  · intro other hother hend
    obtain heq | hold := List.mem_cons.mp (hended.subset hend)
    · exact Or.inr (hready.eq_of_id hother howns (Prod.mk.inj heq).1 ▸ hblamed)
    · exact hfits.failed other hother hold

/-! ## Runs -/

theorem step {input : EngineInput} (hnext : call.next input s.shared = some (s', next))
    (hbefore : handsApart s = true)
    (hafter : handsApart { shared := s', calls := s.calls.set i next } = true) :
    QueryInvariant start { shared := s', calls := s.calls.set i next } := by
  obtain ⟨hstep, hindex⟩ := hinv.index.step hi hnext
  obtain ⟨hclient, hstart⟩ := (hinv.fitsAt hi).no_transfer
  refine hinv.ofFrame hi hindex ?_
  cases hstep with
  | kept hcarries hdropped =>
    have hfits := hinv.fitsAt hi
    rw [hinv.remoteOf] at hcarries
    refine {
      fits := hfits.carry hcarries fun info howns hend => ?_
      apart := hinv.apartAt hi hcarries.ended.subset hcarries.taken
      ended := hcarries.ended.symm.subset }
    exact (hdropped info (hfits.erased info howns hend)).resolve_right (hfits.not_todo hend)
  | opened => exact absurd rfl (hstart _ 0).2
  | connected => exact absurd rfl (hstart _ _).1
  | submitted | refused | registered => exact absurd hclient (by simp [transferClient])
  | looked hlooked _ hcall hplain _ htodo htaken hended haccused =>
    exact hinv.frameLooked hi hready hafter hlooked hcall hplain htodo htaken hended haccused
  | asked hask _ hplain _ htodo hhand htaken hended haccused =>
    have hasked := EngineState.asked_of_clientGetTransferStatus hask
    have htraces := EngineState.answerTraces hask
    exact hinv.frameAsked hi hready hbefore hasked htraces (htodo ▸ List.mem_cons_self)
      (hhand ▸ List.mem_cons_self) (by rw [htaken, hhand]; exact fun _ h => h) hended
      (hinv.askedFits hi hready hasked htraces hplain htodo hhand htaken hended haccused)
  | erased _ _ hcarries hdropped => exact hinv.frameErased hi hcarries hdropped
  | gaveUp htodo hhand hremote hplain _ hleft htaken hended haccused =>
    have hcall := hhand.trans htodo
    exact {
      owned := fun _ h => (owns_eraseTransferReq h).2
      fits := hinv.gaveUpFits hi hready htodo hhand hremote hplain hleft htaken hended haccused
      apart := hinv.reported_apart hi hready (htodo ▸ List.mem_cons_self)
        (hcall ▸ List.mem_cons_self) hbefore hended.subset
        (hcall ▸ fun _ h => List.mem_cons_of_mem _ (htaken h))
      ended := fun _ hmem => hended.symm.subset (List.mem_cons_of_mem _ hmem) }
  | destroyed hlookup => exact hinv.frameDestroyed hi hlookup
  | dropped => exact hinv.frameDropped hi (eraseReqIndexByClient_cleans _ _)
  | finalized hcarries hdropped => exact hinv.frameFinalized hi hcarries hdropped

omit hinv hi hready

theorem run {s s' : Config EngineState EngineCall} {actions : List (Action EngineCall EngineInput)}
    (hready : EngineReady start) (hreach : queryProgram.run s actions = some s')
    (hapart : queryProgram.throughout handsApart s actions = true)
    (hinv : QueryInvariant start s) : QueryInvariant start s' := by
  refine (Program.run_invariant_throughout (QueryInvariant start) handsApart
    ?_ ?_ actions hreach hapart hinv).1
  · intro s call hstarts _ hinv
    exact hinv.startCall hstarts
  · intro s i input call next shared hi hnext hbefore hafter hinv
    exact hinv.step hi hready hnext hbefore hafter

end QueryInvariant

/-- What the status queries of a run agree on. -/
structure QueriesAgree (start : EngineState)
    (s : Config EngineState EngineCall) : Prop where
  one_report : ∀ (i j : ℕ) (a b : EngineCall) (id : ℕ),
    s.calls[i]? = some a → s.calls[j]? = some b →
      id ∈ a.ended.map Prod.fst → id ∈ b.ended.map Prod.fst → i = j
  completed : ∀ id ∈ s.shared.completed, ∀ call ∈ s.calls,
    (id, .failed) ∉ call.ended
  failed : ∀ info, start.index.owns info → ∀ call ∈ s.calls,
    (info.id, .failed) ∈ call.ended → info.id ∈ s.shared.failed ∨ info.client ∈ s.shared.errors
  disconnected : ∀ client ∈ s.shared.destroyed, client ∈ s.shared.errors

theorem QueryInvariant.agree {s : Config EngineState EngineCall} (hinv : QueryInvariant start s) :
    QueriesAgree start s := by
  have hone : ∀ (i j : ℕ) (a b : EngineCall) (id : ℕ), s.calls[i]? = some a → s.calls[j]? = some b →
        id ∈ a.ended.map Prod.fst → id ∈ b.ended.map Prod.fst → i = j := by
    intro i j a b id hi hj ha hb
    by_contra hne
    exact (hinv.alone i j a b hne hi hj id ha).1 hb
  refine ⟨hone, ?_, ?_, hinv.destroyed⟩
  · intro id hid call hcall hfailed
    obtain ⟨other, hother, hcompleted⟩ := hinv.completed id hid
    obtain ⟨i, hi⟩ := List.mem_iff_getElem?.mp hcall
    obtain ⟨j, hj⟩ := List.mem_iff_getElem?.mp hother
    have hij := hone i j call other id hi hj (List.mem_map_of_mem hfailed)
      (List.mem_map_of_mem hcompleted)
    rw [hij, hj, Option.some.injEq] at hi
    rw [hi] at hcompleted
    have honce := (List.nodup_append.mp (hinv.calls call hcall).once).1
    have hsame := List.inj_on_of_nodup_map honce hcompleted hfailed rfl
    exact absurd (Prod.mk.inj hsame).2 (by simp)
  · exact fun info howns call hcall => (hinv.calls call hcall).failed info howns

/-- Status queries that never have a request in hand at the same time agree:
each request is reported by one call, a completed request is never reported as
failed, and no client is disconnected that has not reported an error. -/
theorem statusQueries_agree (start : EngineState) (hready : EngineReady start)
    (actions : List (Action EngineCall EngineInput)) (s : Config EngineState EngineCall)
    (hreach : queryProgram.run { shared := start, calls := [] } actions = some s)
    (hapart : queryProgram.throughout handsApart { shared := start, calls := [] } actions = true) :
    QueriesAgree start s :=
  ((QueryInvariant.ofReady hready).run hready hreach hapart).agree

def twoPending : EngineState where
  autoConnect := true
  clients := AList.insert "b" 1 (AList.singleton "a" 0)
  remoteOf := fun client => if client = 0 then "a" else "b"
  nextClient := 2
  reqMap := {(0, 1), (1, 2)}
  pending := [⟨2, 1, 0, 1⟩, ⟨1, 0, 0, 0⟩]
  index := (({} : RequestIndex).registerTransferReq
    ⟨1, 0, 0, 0⟩).registerTransferReq ⟨2, 1, 0, 1⟩
  nextId := 2

theorem twoPending_ready : EngineReady twoPending where
  consistent := (Consistent.empty.registerTransferReq _).registerTransferReq _
  owned := by
    rintro ⟨req, client, userData, id⟩ howns
    unfold owns twoPending at howns
    rw [lookup_registerTransferReq (by decide), lookup_registerTransferReq (by decide)] at howns
    split_ifs at howns with hsecond hfirst
    · simp only [Option.some.injEq, ReqOwner.mk.injEq] at howns hsecond
      obtain ⟨rfl, rfl, rfl⟩ := howns
      subst hsecond
      decide
    · simp only [Option.some.injEq, ReqOwner.mk.injEq] at howns hfirst
      obtain ⟨rfl, rfl, rfl⟩ := howns
      subst hfirst
      decide
    · cases howns
  reqs := by decide
  ids := by decide
  logs := ⟨rfl, rfl, rfl⟩

def queriesApartRun : List (Action EngineCall EngineInput) :=
  [.start (.getTransferStatus 1), .start (.getTransferStatuses 8 false),
    .run 0 {}, .run 0 { query := .ok .completed }, .run 0 {}, .run 1 {},
    .run 1 { query := .error .failed }, .run 1 {}, .run 1 {}, .run 1 {}]

theorem statusQueries_agree_apart :
    ∃ s, queryProgram.run { shared := twoPending, calls := [] } queriesApartRun = some s ∧
      s.calls.map EngineCall.ended = [[(0, .completed)], [(1, .failed)]] ∧
      s.shared.destroyed = [1] ∧ s.shared.errors = [1] ∧
      QueriesAgree twoPending s :=
  ⟨_, rfl, rfl, rfl, rfl, statusQueries_agree twoPending twoPending_ready queriesApartRun _ rfl rfl⟩

def queriesMeetRun : List (Action EngineCall EngineInput) :=
  [.start (.getTransferStatus 1), .start (.getTransferStatus 1),
    .run 0 {}, .run 1 {}, .run 0 { query := .ok .completed }, .run 0 {},
    .run 1 { query := .ok .completed }, .run 1 {}, .run 1 {}, .run 1 {}]

/-- The second query finds the transfer gone: it reports the completed request
as failed and disconnects a client that has reported no error. -/
theorem statusQueries_disagree :
    ∃ s, queryProgram.run { shared := twoPending, calls := [] } queriesMeetRun = some s ∧
      s.shared.completed = [0] ∧
      s.calls.map EngineCall.ended = [[(0, .completed)], [(0, .failed)]] ∧
      s.shared.errors = [] ∧ s.shared.destroyed = [0] :=
  ⟨_, rfl, rfl, rfl, rfl, rfl⟩

end Hixl
