import Hixl.AsyncRequestModel

/-!
# The names of asynchronous transfers

A transfer is named by the handle of one of its sub-transfers.  The handle is
released when that sub-transfer has ended, which may be before the transfer
has.  As long as no transfer is submitted in such a state, transfers whose end
has not been reported have different names and entries of their own.
-/

namespace Hixl

open InterleavedCalls NamedRequests

theorem mem_releaseSettled {answer : Except Status HixlCompleteStatus} {handle name : ℕ}
    {live : Finset ℕ} (hmem : name ∈ live) (hne : name ≠ handle) :
    name ∈ releaseSettled answer handle live := by
  unfold releaseSettled
  split
  · exact hmem
  · exact hmem
  · exact Finset.mem_erase.mpr ⟨hne, hmem⟩

/-! ## UbClientHandler -/

def SubReq.pending (sub : SubReq) : Option ℕ :=
  if sub.status = .completed then none else some sub.req

theorem SubsOutcome.keep_eq_scanned {scan : SubsOutcome × Finset ℕ} {sub : SubReq}
    {waiting complete : Bool} {subs : List SubReq} {live : Finset ℕ}
    (hkeep : (scan.1.keep sub waiting, scan.2) = (.scanned complete subs, live)) :
    ∃ complete' rest, scan = (.scanned complete' rest, live) ∧ subs = sub :: rest := by
  obtain ⟨outcome, _⟩ := scan
  cases outcome with
  | stopped ret status => simp [keep] at hkeep
  | scanned complete' rest =>
    cases hkeep
    exact ⟨complete', rest, rfl, rfl⟩

namespace UbClientHandler

variable {h : UbClientHandler} {answers : UbAnswers}

theorem submitTable_pending (table : List (CommType × List TransferOpDesc)) :
    (h.submitTable answers table).1.filterMap SubReq.pending =
      (h.submitTable answers table).1.map SubReq.req := by
  induction table with
  | nil => rfl
  | cons entry rest ih =>
    rw [submitTable]
    cases h.submitDescsForType answers entry.1 with
    | error ret => rfl
    | ok req =>
      rw [List.map_cons, ← ih]
      exact List.filterMap_cons_some rfl

variable {sub : SubReq} {live : Finset ℕ} {name : ℕ}

theorem mem_queryReleases (hmem : name ∈ live) (hne : name ≠ sub.req) :
    name ∈ h.queryReleases answers sub live := by
  unfold queryReleases
  split_ifs
  · exact mem_releaseSettled hmem hne
  · exact hmem

theorem queryReleases_of_waiting (hwaiting : h.checkSubReqStatus answers sub = .ok .waiting) :
    h.queryReleases answers sub live = live := by
  unfold checkSubReqStatus at hwaiting
  unfold queryReleases
  split_ifs at hwaiting ⊢ with htype
  cases hquery : answers.query sub.type sub.req with
  | error ret =>
    rw [hquery] at hwaiting
    exact absurd hwaiting (by simp [Except.map])
  | ok status =>
    rw [hquery] at hwaiting
    cases status with
    | waiting => rfl
    | _ => exact absurd hwaiting (by simp [Except.map, toTransferStatus])

variable {subs : List SubReq}

theorem querySubs_kept (hmem : name ∈ live) (hnot : name ∉ unsettled SubReq.pending subs) :
    name ∈ (h.querySubs answers live subs).2 := by
  induction subs generalizing live with
  | nil => exact hmem
  | cons sub rest ih =>
    have hrest : name ∉ unsettled SubReq.pending rest := by
      intro hmem
      obtain ⟨other, hother, hpending⟩ := mem_unsettled.mp hmem
      exact hnot (mem_unsettled.mpr ⟨other, List.mem_cons_of_mem _ hother, hpending⟩)
    rw [querySubs]
    split_ifs with hcached
    · exact ih hmem hrest
    · have hne : name ≠ sub.req := by
        rintro rfl
        exact hnot (mem_unsettled.mpr ⟨sub, List.mem_cons_self, if_neg hcached⟩)
      have hkept : name ∈ h.queryReleases answers sub live := mem_queryReleases hmem hne
      split
      · exact hkept
      · exact ih hkept hrest
      · exact ih hkept hrest
      · exact hkept

theorem querySubs_settled {live' : Finset ℕ} {subs' : List SubReq} {complete : Bool}
    (hscan : h.querySubs answers live subs = (.scanned complete subs', live')) :
    SettledSubs SubReq.pending SubReq.req live live' subs subs' := by
  induction subs generalizing live subs' complete with
  | nil =>
    obtain ⟨⟨-, rfl⟩, rfl⟩ := hscan
    exact SettledSubs.nil
  | cons sub rest ih =>
    rw [querySubs] at hscan
    split_ifs at hscan with hcached
    · obtain ⟨_, rest', hrest, rfl⟩ := SubsOutcome.keep_eq_scanned hscan
      exact (ih hrest).keep sub
    · dsimp only at hscan
      split at hscan
      · exact absurd (Prod.mk.inj hscan).1 (by simp)
      · next hwaiting =>
          obtain ⟨_, rest', hrest, rfl⟩ := SubsOutcome.keep_eq_scanned hscan
          rw [queryReleases_of_waiting hwaiting] at hrest
          exact (ih hrest).keep sub
      · obtain ⟨_, rest', hrest, rfl⟩ := SubsOutcome.keep_eq_scanned hscan
        refine (ih hrest).cons rfl {sub.req} ?_ ?_
        · simp [unsettled, SubReq.pending, hcached]
        · intro name hmem hnot
          exact mem_queryReleases hmem (fun heq => hnot (Multiset.mem_singleton.mpr heq))
      · exact absurd (Prod.mk.inj hscan).1 (by simp)

end UbClientHandler

def UbOrderly (s : Config UbWorld UbCall) : Prop :=
  Orderly SubReq.pending SubReq.req s.shared.handler.asyncWorkers s.shared.live s.shared.log

/-- Nothing is submitted while a transfer is named by a sub-transfer that has
ended. -/
def ubNamesHeld (s : Config UbWorld UbCall) : Action UbCall UbAnswers → Bool
  | .start _ => true
  | .run i _ =>
    match s.calls[i]? with
    | some (.transferAsync _) => namesHeld SubReq.pending s.shared.handler.asyncWorkers
    | _ => true

variable {w : UbWorld}

theorem transferAsync_orderly {w' : UbWorld} {ops : List TransferOpDesc} {answers : UbAnswers}
    {next : UbCall} (horderly : Orderly SubReq.pending SubReq.req w.handler.asyncWorkers
      w.live w.log) (hnames : namesHeld SubReq.pending w.handler.asyncWorkers = true)
    (hsubmit : w.transferAsync ops answers = some (w', next)) :
    Orderly SubReq.pending SubReq.req w'.handler.asyncWorkers w'.live w'.log := by
  unfold UbWorld.transferAsync at hsubmit
  split at hsubmit
  · cases hsubmit
    exact horderly
  next table htable =>
  split at hsubmit
  · cases hsubmit
    exact horderly
  dsimp only at hsubmit
  have hpending :
      (w.handler.submitTable answers table).1.filterMap SubReq.pending =
        (w.handler.submitTable answers table).1.map SubReq.req :=
    UbClientHandler.submitTable_pending table
  split at hsubmit
  · cases hsubmit
  next live hissue =>
  split at hsubmit
  · cases hsubmit
    exact horderly.lose hissue
  · cases hsubmit
    exact horderly.lose hissue
  next sub rest _ hsubs =>
    cases hsubmit
    rw [← hpending, hsubs] at hissue
    rw [hsubs] at hpending
    apply horderly.submit hnames hissue
    rw [hpending]
    exact List.mem_cons_self

theorem getTransferStatus_orderly (req : ℕ) (answers : UbAnswers)
    (horderly : Orderly SubReq.pending SubReq.req w.handler.asyncWorkers w.live w.log) :
    Orderly SubReq.pending SubReq.req (w.getTransferStatus req answers).1.handler.asyncWorkers
      (w.getTransferStatus req answers).1.live (w.getTransferStatus req answers).1.log := by
  unfold UbWorld.getTransferStatus
  split_ifs
  · exact horderly.missing
  cases hfound : w.handler.asyncWorkers.lookup req with
  | none => exact horderly.missing
  | some subs =>
    have hkept : ∀ name ∈ w.live, name ∉ unsettled SubReq.pending subs →
          name ∈ (w.handler.querySubs answers w.live subs).2 :=
      fun name => UbClientHandler.querySubs_kept
    dsimp only
    split
    · next hquery =>
        rw [hquery] at hkept
        exact horderly.close hfound hkept
    · next hquery =>
        rw [hquery] at hkept
        exact horderly.close hfound hkept
    · next hquery =>
        exact horderly.settle hfound (UbClientHandler.querySubs_settled hquery)

theorem UbOrderly.run {s s' : Config UbWorld UbCall} {actions : List (Action UbCall UbAnswers)}
    (hreach : ubProgram.run s actions = some s')
    (hnames : ubProgram.along ubNamesHeld s actions = true)
    (horderly : UbOrderly s) : UbOrderly s' := by
  apply Program.run_invariant_along UbOrderly ubNamesHeld _ _ actions hreach hnames horderly
  · intro s call _ _ horderly
    exact horderly
  · intro s i answers call next w hcall hnext hok horderly
    cases call with
    | transferAsync ops =>
      simp only [ubNamesHeld, hcall] at hok
      exact transferAsync_orderly horderly hok hnext
    | getTransferStatus req =>
      obtain ⟨rfl, rfl⟩ := Prod.mk.inj (Option.some.inj hnext)
      exact getTransferStatus_orderly req answers horderly
    | submitted | answered => exact absurd hnext (by simp [ubProgram, UbCall.next])

/-! ## MultiChannelDispatcher -/

def WorkerEntry.pending (entry : WorkerEntry) : Option ℕ :=
  if entry.state = .pending then entry.handle else none

namespace MultiChannelDispatcher

variable {d : MultiChannelDispatcher} {answers : WorkerAnswers}

theorem submitWorkers_state (i : ℕ) (parts : List (List HixlOneSideOpDesc)) :
    ∀ entry ∈ (d.submitWorkers answers i parts).1, entry.state = .pending := by
  induction parts generalizing i with
  | nil => simp [submitWorkers]
  | cons part rest ih =>
    rw [submitWorkers]
    split_ifs
    · cases answers.submit i part with
      | error ret => exact ih (i + 1)
      | ok handle => exact List.forall_mem_cons.mpr ⟨rfl, ih (i + 1)⟩
    · simp

theorem submitParts_pending (descs : List TransferOpDesc) :
    (d.submitParts answers descs).1.filterMap WorkerEntry.pending =
      (d.submitParts answers descs).1.filterMap WorkerEntry.handle := by
  have hstate : ∀ entry ∈ (d.submitParts answers descs).1, entry.state = .pending := by
    unfold submitParts
    dsimp only
    split_ifs
    · simp
    · cases answers.submit 0 (descs.map TransferOpDesc.convert) with
      | error ret => simp
      | ok handle => simp
    · exact submitWorkers_state 0 _
  apply List.filterMap_congr
  intro entry hmem
  exact if_pos (hstate entry hmem)

theorem queryWorker_handle (entry : WorkerEntry) :
    (queryWorker answers entry).handle = entry.handle := by
  unfold queryWorker
  split
  · split <;> rfl
  · rfl

/-- A query leaves a worker as it is and releases nothing, or the worker has
ended. -/
theorem queryWorker_cases (entry : WorkerEntry) : (queryWorker answers entry = entry ∧
        ∀ live, workerReleases answers entry live = live) ∨
      (queryWorker answers entry).pending = none := by
  unfold queryWorker workerReleases
  cases hstate : entry.state with
  | pending =>
    cases hquery : answers.query entry.clientIdx entry.handle with
    | error ret => exact Or.inr rfl
    | ok status =>
      cases status with
      | waiting =>
        refine Or.inl ⟨rfl, fun live => ?_⟩
        cases entry.handle with
        | none => rfl
        | some handle => rfl
      | completed | timeout | failed => exact Or.inr rfl
  | completed | failed => exact Or.inl ⟨rfl, fun _ => rfl⟩

theorem mem_workerReleases {entry : WorkerEntry} {live : Finset ℕ} {name : ℕ} (hmem : name ∈ live)
    (hnot : name ∉ unsettled WorkerEntry.pending [entry]) :
    name ∈ workerReleases answers entry live := by
  unfold workerReleases
  split
  · next handle hstate hhandle =>
      apply mem_releaseSettled hmem
      rintro rfl
      apply hnot
      rw [mem_unsettled]
      refine ⟨entry, List.mem_singleton.mpr rfl, ?_⟩
      rw [WorkerEntry.pending, if_pos hstate, hhandle]
  · exact hmem

theorem queryWorkersStatus_settled
    (answers : WorkerAnswers) (live : Finset ℕ) (entries : List WorkerEntry) :
    SettledSubs WorkerEntry.pending WorkerEntry.handle live
      (queryWorkersStatus answers live entries).2 entries
      (queryWorkersStatus answers live entries).1 := by
  induction entries generalizing live with
  | nil => exact SettledSubs.nil
  | cons entry rest ih =>
    rw [queryWorkersStatus]
    have hrest := ih (workerReleases answers entry live)
    obtain ⟨hsame, hlive⟩ | hended := queryWorker_cases entry
    · rw [hlive live] at hrest
      rw [hlive live, hsame]
      exact hrest.keep entry
    · apply hrest.cons (queryWorker_handle entry) (unsettled WorkerEntry.pending [entry])
      · simp [unsettled, hended]
      · exact fun name => mem_workerReleases

end MultiChannelDispatcher

def DispatcherOrderly (s : Config DispatcherWorld DispatcherCall) : Prop :=
  Orderly WorkerEntry.pending WorkerEntry.handle
    s.shared.dispatcher.asyncWorkers s.shared.live s.shared.log

def dispatcherNamesHeld (s : Config DispatcherWorld DispatcherCall) :
    Action DispatcherCall WorkerAnswers → Bool
  | .start _ => true
  | .run i _ =>
    match s.calls[i]? with
    | some (.submit _) => namesHeld WorkerEntry.pending s.shared.dispatcher.asyncWorkers
    | _ => true

theorem submit_orderly {w w' : DispatcherWorld} {descs : List TransferOpDesc}
    {answers : WorkerAnswers} {next : DispatcherCall}
    (horderly : Orderly WorkerEntry.pending WorkerEntry.handle
      w.dispatcher.asyncWorkers w.live w.log)
    (hnames : namesHeld WorkerEntry.pending w.dispatcher.asyncWorkers = true)
    (hsubmit : w.submit descs answers = some (w', next)) :
    Orderly WorkerEntry.pending WorkerEntry.handle w'.dispatcher.asyncWorkers w'.live w'.log := by
  have hpending :
      (w.dispatcher.submitParts answers descs).1.filterMap WorkerEntry.pending =
        (w.dispatcher.submitParts answers descs).1.filterMap
          WorkerEntry.handle :=
    MultiChannelDispatcher.submitParts_pending descs
  unfold DispatcherWorld.submit at hsubmit
  dsimp only at hsubmit
  split at hsubmit
  · cases hsubmit
  next live hissue =>
  split at hsubmit
  · cases hsubmit
    exact horderly.lose hissue
  · unfold DispatcherWorld.recordAsyncWorkers at hsubmit
    split at hsubmit
    · cases hsubmit
      exact horderly.lose hissue
    · next req others hhandles =>
        cases hsubmit
        apply horderly.submit hnames
        · rwa [hpending]
        · rw [hpending, hhandles]
          exact List.mem_cons_self

theorem checkStatus_orderly {w : DispatcherWorld} (req : ℕ) (answers : WorkerAnswers)
    (horderly : Orderly WorkerEntry.pending WorkerEntry.handle
      w.dispatcher.asyncWorkers w.live w.log) : Orderly WorkerEntry.pending WorkerEntry.handle
      (w.checkStatus req answers).1.dispatcher.asyncWorkers (w.checkStatus req answers).1.live
      (w.checkStatus req answers).1.log := by
  unfold DispatcherWorld.checkStatus
  split_ifs
  · exact horderly.missing
  cases hfound : w.dispatcher.asyncWorkers.lookup req with
  | none => exact horderly.missing
  | some entries =>
    have hsettled := MultiChannelDispatcher.queryWorkersStatus_settled
      answers w.live entries
    dsimp only
    split_ifs
    · exact horderly.close hfound fun name => hsettled.kept
    · exact horderly.settle hfound hsettled
    · exact horderly.close hfound fun name => hsettled.kept

theorem DispatcherOrderly.run {s s' : Config DispatcherWorld DispatcherCall}
    {actions : List (Action DispatcherCall WorkerAnswers)}
    (hreach : dispatcherProgram.run s actions = some s')
    (hnames : dispatcherProgram.along dispatcherNamesHeld s actions = true)
    (horderly : DispatcherOrderly s) : DispatcherOrderly s' := by
  apply Program.run_invariant_along DispatcherOrderly dispatcherNamesHeld _ _
    actions hreach hnames horderly
  · intro s call _ _ horderly
    exact horderly
  · intro s i answers call next w hcall hnext hok horderly
    cases call with
    | submit descs =>
      simp only [dispatcherNamesHeld, hcall] at hok
      exact submit_orderly horderly hok hnext
    | checkStatus req =>
      obtain ⟨rfl, rfl⟩ := Prod.mk.inj (Option.some.inj hnext)
      exact checkStatus_orderly req answers horderly
    | submitted | answered => exact absurd hnext (by simp [dispatcherProgram, DispatcherCall.next])

/-- When nothing is submitted while a transfer is named by a sub-transfer that
has ended, transfers that are not reported have different names and entries of
their own, in the handler and in the dispatcher. -/
theorem asyncRequests_apart (handler : UbClientHandler) (ubLive : Finset ℕ)
    (ubActions : List (Action UbCall UbAnswers)) (ub : Config UbWorld UbCall)
    (hub : ubProgram.run (ubStart handler ubLive) ubActions = some ub)
    (hubNames : ubProgram.along ubNamesHeld (ubStart handler ubLive) ubActions = true)
    (dispatcher : MultiChannelDispatcher) (live : Finset ℕ)
    (actions : List (Action DispatcherCall WorkerAnswers))
    (s : Config DispatcherWorld DispatcherCall)
    (hreach : dispatcherProgram.run (dispatcherStart dispatcher live) actions = some s)
    (hnames : dispatcherProgram.along dispatcherNamesHeld
      (dispatcherStart dispatcher live) actions = true) :
    Apart SubReq.req ub.shared.handler.asyncWorkers ub.shared.log ∧
      Apart WorkerEntry.handle s.shared.dispatcher.asyncWorkers s.shared.log := by
  have hubStart : UbOrderly (ubStart handler ubLive) := Orderly.empty ubLive
  have hstart : DispatcherOrderly (dispatcherStart dispatcher live) := Orderly.empty live
  exact ⟨(hubStart.run hub hubNames).apart, (hstart.run hreach hnames).apart⟩

/-- Local memory is device memory up to the address 100. -/
def twoKindsHandler : UbClientHandler where
  localMemType addr _ := some (if addr < 100 then .device else .host)
  remoteMemType _ _ := some .device

def twoWorkers : MultiChannelDispatcher where
  workers := 2
  splitBatchSize := 1

def ubTwoHandles : UbAnswers where
  submit type := .ok (if type = .ubD2D then 1 else 2)

def ubOneEnds (ended : CommType) : UbAnswers where
  query type _ := .ok (if type = ended then .completed else .waiting)

def twoHandles : WorkerAnswers where
  submit worker _ := .ok (some (worker + 1))

def oneEnds (ended : ℕ) : WorkerAnswers where
  query worker _ := .ok (if worker = ended then .completed else .waiting)

/-- A transfer with two sub-transfers, of which the second ends first, and
another transfer with one. -/
def ubCalmRun : List (Action UbCall UbAnswers) :=
  [.start (.transferAsync [⟨0, 0, 1⟩, ⟨100, 0, 1⟩]),
    .run 0 ubTwoHandles, .start (.getTransferStatus 1),
    .run 1 (ubOneEnds .ubH2D),
    .start (.transferAsync [⟨100, 0, 1⟩]), .run 2 { submit := fun _ => .ok 2 }]

def dispatcherCalmRun : List (Action DispatcherCall WorkerAnswers) :=
  [.start (.submit [⟨0, 0, 1⟩, ⟨1, 1, 1⟩]), .run 0 twoHandles, .start (.checkStatus 1),
    .run 1 (oneEnds 1),
    .start (.submit [⟨0, 0, 1⟩]), .run 2 { submit := fun _ _ => .ok (some 2) }]

theorem asyncRequests_apart_calm :
    ∃ ub s, ubProgram.run (ubStart twoKindsHandler ∅) ubCalmRun = some ub ∧
      dispatcherProgram.run (dispatcherStart twoWorkers ∅) dispatcherCalmRun = some s ∧
      ub.shared.log.map Transfer.name = [2, 1] ∧ s.shared.log.map Transfer.name = [2, 1] ∧
      Apart SubReq.req ub.shared.handler.asyncWorkers ub.shared.log ∧
      Apart WorkerEntry.handle s.shared.dispatcher.asyncWorkers s.shared.log :=
  ⟨_, _, rfl, rfl, rfl, rfl, asyncRequests_apart twoKindsHandler ∅ ubCalmRun _ rfl rfl twoWorkers ∅
      dispatcherCalmRun _ rfl rfl⟩

/-- The sub-transfer that names the first transfer ends, and its handle is
given out again. -/
def ubReusedNameRun : List (Action UbCall UbAnswers) :=
  [.start (.transferAsync [⟨0, 0, 1⟩, ⟨100, 0, 1⟩]),
    .run 0 ubTwoHandles, .start (.getTransferStatus 1),
    .run 1 (ubOneEnds .ubD2D),
    .start (.transferAsync [⟨0, 0, 1⟩]), .run 2 { submit := fun _ => .ok 1 }]

def dispatcherReusedNameRun : List (Action DispatcherCall WorkerAnswers) :=
  [.start (.submit [⟨0, 0, 1⟩, ⟨1, 1, 1⟩]), .run 0 twoHandles, .start (.checkStatus 1),
    .run 1 (oneEnds 0),
    .start (.submit [⟨0, 0, 1⟩]), .run 2 { submit := fun _ _ => .ok (some 1) }]

/-- Two transfers that are not reported have the name 1, and the entry of the
first is lost. -/
theorem asyncRequests_reused_name :
    (∃ ub, ubProgram.run (ubStart twoKindsHandler ∅) ubReusedNameRun = some ub ∧
      ub.shared.log = [⟨1, [1], false⟩, ⟨1, [1, 2], false⟩] ∧
      ub.shared.handler.asyncWorkers.lookup 1 = some [⟨.ubD2D, 1, .waiting⟩]) ∧
    ∃ s, dispatcherProgram.run (dispatcherStart twoWorkers ∅) dispatcherReusedNameRun = some s ∧
      s.shared.log = [⟨1, [some 1], false⟩, ⟨1, [some 1, some 2], false⟩] ∧
      s.shared.dispatcher.asyncWorkers.lookup 1 = some [⟨0, some 1, .pending⟩] :=
  ⟨⟨_, rfl, rfl, rfl⟩, ⟨_, rfl, rfl, rfl⟩⟩

end Hixl
