import Hixl.TransferPoolOwners
import Hixl.UbMemEngineContract

/-!
# One engine among the clients of a pool

The operations of an engine are interleaved, call by call, with those of the
other clients of a transfer pool.  As long as the engine is finalized only when
no transfer is unfinished, every acquired slot is given back once and no slot
ever has two owners.  Finalizing an engine with an unfinished transfer gives its
slot back twice.  The engine holds a slot from the submission that acquires it
until it gives it back, also while no transfer is unfinished.
-/

namespace Hixl

open SharedObjectPrograms

inductive SlotEvent where
  | acquired (index : ℕ)
  | gaveBack (index : ℕ)
  deriving DecidableEq, Repr

def replayEvent (held : List ℕ) : SlotEvent → Option (List ℕ)
  | .acquired index => some (index :: held)
  | .gaveBack index =>
    if index ∈ held then some (held.erase index) else none

/-- The slots that were acquired and not given back; no value when a slot was
given back that was not outstanding. -/
def outstanding (log : List SlotEvent) : Option (List ℕ) := log.foldlM replayEvent []

variable {log : List SlotEvent}

theorem outstanding_append {held : List ℕ} (hlog : outstanding log = some held)
    (events : List SlotEvent) : outstanding (log ++ events) = events.foldlM replayEvent held := by
  unfold outstanding at hlog ⊢
  rw [List.foldlM_append, hlog]
  rfl

/-! ## The system -/

/-- The pool, the handles of the other clients and the log of the engine. -/
structure SharedPool where
  pool : TransferPool
  others : List SlotHandle
  log : List SlotEvent

def slotEvents : (request : PoolRequest) → PoolAnswer request → List SlotEvent
  | .acquire, .ok handle => [.acquired handle.slotIndex]
  | .acquire, .error _ => []
  | .ensureUbMemStream _, _ => []
  | .readErrFlag _, _ => []
  | .writeErrFlag _, _ => []
  | .release handle, _ => [.gaveBack handle.slotIndex]
  | .abort handle, _ => [.gaveBack handle.slotIndex]

def SharedPool.serve (answers : RuntimeAnswers) (request : PoolRequest)
    (shared : SharedPool) : PoolAnswer request × SharedPool :=
  let served := shared.pool.serve answers request
  (served.1,
    { shared with
      pool := served.2
      log := shared.log ++ slotEvents request served.1 })

structure EngineSystem where
  shared : SharedPool
  running : EngineProg UbMemEngine
  finalizing : Bool

/-- The caller starts an operation of the engine, the engine makes its next
call to the pool, another client acquires a slot or gives one of its own back,
or the device raises the error flag of a slot. -/
inductive SystemAction where
  | call (op : EngineOp)
  | engineStep (answers : RuntimeAnswers)
  | otherAcquire
  | otherRelease (position launchedTasks : ℕ)
  | otherAbort (position : ℕ) (answers : TransferPool.AbortAnswers)
  | deviceError (index : ℕ)

namespace EngineSystem

/-- Operations are serialized: one that comes while another runs is ignored. -/
def startOp (system : EngineSystem) (op : EngineOp) : EngineSystem :=
  match system.running with
  | .ret engine =>
    { system with
      running := op.program engine
      finalizing := match op with
        | .finalize => true
        | _ => false }
  | .call _ _ => system

def engineStep (system : EngineSystem) (answers : RuntimeAnswers) : EngineSystem :=
  let next := system.running.advance (SharedPool.serve answers) system.shared
  { system with running := next.1, shared := next.2 }

def otherAcquire (shared : SharedPool) : SharedPool :=
  match shared.pool.acquire with
  | (.ok handle, pool) => { shared with pool := pool, others := handle :: shared.others }
  | (.error _, pool) => { shared with pool := pool }

def otherGivesBack (shared : SharedPool) (position : ℕ)
    (giveBack : SlotHandle → TransferPool → TransferPool) : SharedPool :=
  match shared.others[position]? with
  | none => shared
  | some handle =>
    { shared with
      pool := giveBack handle shared.pool
      others := shared.others.eraseIdx position }

def step (system : EngineSystem) : SystemAction → EngineSystem
  | .call op => system.startOp op
  | .engineStep answers => system.engineStep answers
  | .otherAcquire => { system with shared := otherAcquire system.shared }
  | .otherRelease position launchedTasks =>
    let release (handle : SlotHandle) : TransferPool → TransferPool :=
      TransferPool.release { handle with launchedTasks := launchedTasks }
    { system with shared := otherGivesBack system.shared position release }
  | .otherAbort position answers =>
    let abort := TransferPool.abort answers
    { system with shared := otherGivesBack system.shared position abort }
  | .deviceError index =>
    { system with shared :=
      { system.shared with pool := system.shared.pool.setErrFlag index } }

def run (system : EngineSystem) (actions : List SystemAction) : EngineSystem :=
  actions.foldl step system

def start (pool : TransferPool) (engine : UbMemEngine) : EngineSystem where
  shared := ⟨pool, [], []⟩
  running := .ret engine
  finalizing := false

def Drained (system : EngineSystem) : SystemAction → Prop
  | .call .finalize => ∀ engine, system.running = .ret engine →
      engine.pendingHandles = []
  | _ => True

def FinalizesDrained : EngineSystem → List SystemAction → Prop
  | _, [] => True
  | system, action :: rest => system.Drained action ∧ FinalizesDrained (system.step action) rest

end EngineSystem

/-- What is held when acquisitions and returns alternate. -/
def lastHeld (log : List SlotEvent) : List ℕ :=
  match log.getLast? with
  | some (.acquired index) => [index]
  | _ => []

structure SharedOk (size : ℕ) (deviceId : ℤ) (shared : SharedPool)
    (held : List ℕ) : Prop where
  owned : OwnedPool size deviceId shared.pool
    (held ++ shared.others.map SlotHandle.slotIndex)
  others_device : ∀ handle ∈ shared.others, handle.deviceId = deviceId
  replay : outstanding shared.log = some held
  last : held = lastHeld shared.log

variable {size : ℕ} {deviceId : ℤ} {shared : SharedPool} {held : List ℕ} {pool : TransferPool}

theorem SharedOk.quiet (hok : SharedOk size deviceId shared held)
    (hpool : OwnedPool size deviceId pool (held ++ shared.others.map SlotHandle.slotIndex)) :
    SharedOk size deviceId { shared with pool := pool, log := shared.log ++ [] } held := by
  rw [List.append_nil]
  exact { hok with owned := hpool }

variable {index : ℕ}

section

variable (hok : SharedOk size deviceId shared held) (hmem : index ∈ held)

include hok hmem

theorem SharedOk.held_first : OwnedPool size deviceId shared.pool (index ::
      (held.erase index ++ shared.others.map SlotHandle.slotIndex)) :=
  hok.owned.perm ((List.perm_cons_erase hmem).append_right _)

theorem SharedOk.gave_back (hpool : OwnedPool size deviceId pool
      (held.erase index ++ shared.others.map SlotHandle.slotIndex)) :
    SharedOk size deviceId { shared with pool := pool, log := shared.log ++ [.gaveBack index] }
      (held.erase index) := by
  constructor
  · exact hpool
  · exact hok.others_device
  · rw [outstanding_append hok.replay]
    simp [replayEvent, hmem]
  · have hheld := hok.last
    unfold lastHeld at hheld ⊢
    split at hheld <;> rw [hheld] at hmem ⊢
    · simp [List.mem_singleton.mp hmem]
    · cases hmem

end

theorem serve_keeps (size : ℕ) (deviceId : ℤ) (answers : RuntimeAnswers) :
    Keeps (slotContract deviceId) (SharedPool.serve answers) (SharedOk size deviceId) := by
  intro request shared held hok hallowed
  cases request with
  | acquire =>
    rcases hok.owned.acquire with ⟨status, hrefused⟩ | ⟨handle, hacquired, hdevice, howned⟩
    · refine ⟨held, ?_, ?_⟩
      · simp [SharedPool.serve, TransferPool.serve, hrefused, slotContract]
      · simp only [SharedPool.serve, TransferPool.serve, hrefused, slotEvents]
        exact hok.quiet hok.owned
    · refine ⟨handle.slotIndex :: held, ?_, ?_⟩
      · simp [SharedPool.serve, TransferPool.serve, hacquired, slotContract, hdevice]
      · simp only [SharedPool.serve, TransferPool.serve, hacquired, slotEvents]
        constructor
        · exact howned
        · exact hok.others_device
        · rw [outstanding_append hok.replay]
          rfl
        · rw [show held = [] from hallowed]
          simp [lastHeld]
  | ensureUbMemStream handle =>
    rcases shared.pool.ensureUbMemStream_same answers.createStream handle
      with ⟨hhandle, hframe, hflags, -, hledger⟩
    exact ⟨held, ⟨hhandle, rfl⟩,
      hok.quiet (hok.owned.same_ledger hframe (hflags hok.owned.flags) hledger)⟩
  | readErrFlag index => exact ⟨held, rfl, hok.quiet hok.owned⟩
  | writeErrFlag index => exact ⟨held, rfl, hok.quiet (hok.owned.setErrFlag index)⟩
  | release handle =>
    exact ⟨held.erase handle.slotIndex, rfl, hok.gave_back hallowed.2
      ((hok.held_first hallowed.2).release hallowed.1)⟩
  | abort handle =>
    exact ⟨held.erase handle.slotIndex, rfl, hok.gave_back hallowed.2
      ((hok.held_first hallowed.2).abort hallowed.1 answers.abort)⟩

section

variable (hok : SharedOk size deviceId shared held)

include hok

theorem SharedOk.otherAcquire : SharedOk size deviceId (EngineSystem.otherAcquire shared) held := by
  unfold EngineSystem.otherAcquire
  rcases hok.owned.acquire with ⟨status, hrefused⟩ | ⟨handle, hacquired, hdevice, howned⟩
  · rw [hrefused]
    exact hok
  · generalize shared.pool.acquire = served at hacquired howned
    rcases served with ⟨answer, pool⟩
    rcases hacquired with rfl
    constructor
    · exact howned.perm List.perm_middle.symm
    · intro other hmem
      rcases List.mem_cons.mp hmem with heq | hmem
      · rw [heq]
        exact hdevice.1
      · exact hok.others_device other hmem
    · exact hok.replay
    · exact hok.last

theorem SharedOk.otherGivesBack (position : ℕ) {giveBack : SlotHandle → TransferPool → TransferPool}
    (hgive : ∀ handle pool owners, handle.deviceId = deviceId →
      OwnedPool size deviceId pool (handle.slotIndex :: owners) →
        OwnedPool size deviceId (giveBack handle pool) owners) :
    SharedOk size deviceId (EngineSystem.otherGivesBack shared position giveBack) held := by
  unfold EngineSystem.otherGivesBack
  split
  · exact hok
  · rename_i handle hfound
    rcases List.getElem?_eq_some_iff.mp hfound with ⟨hlt, hget⟩
    have hperm : shared.others.Perm (handle :: shared.others.eraseIdx position) := by
      rw [← hget]
      exact (List.getElem_cons_eraseIdx_perm hlt).symm
    have hfirst : (held ++ shared.others.map SlotHandle.slotIndex).Perm
        (handle.slotIndex :: (held ++
          (shared.others.eraseIdx position).map SlotHandle.slotIndex)) :=
      ((hperm.map SlotHandle.slotIndex).append_left held).trans List.perm_middle
    constructor
    · exact hgive handle shared.pool _ (hok.others_device handle (List.mem_of_getElem? hfound))
        (hok.owned.perm hfirst)
    · intro other hmem
      exact hok.others_device other (List.mem_of_mem_eraseIdx hmem)
    · exact hok.replay
    · exact hok.last

end

/-! ## The invariant of a run -/

def OpEnd (deviceId : ℤ) (finalizing : Bool) (engine : UbMemEngine) (held : List ℕ) : Prop :=
  UbMemEngine.AtRest deviceId engine held ∧ (finalizing = true → held = [])

def SystemOk (size : ℕ) (deviceId : ℤ) (system : EngineSystem) : Prop :=
  ∃ held, SharedOk size deviceId system.shared held ∧
    Obeys (slotContract deviceId) (OpEnd deviceId system.finalizing) system.running held

variable {engine : UbMemEngine}

theorem program_obeys (hrest : UbMemEngine.AtRest deviceId engine held) (op : EngineOp)
    (hop : op ≠ .finalize) :
    Obeys (slotContract deviceId) (OpEnd deviceId false) (op.program engine) held := by
  have hend : ∀ engine' held', UbMemEngine.AtRest deviceId engine' held' →
      OpEnd deviceId false engine' held' :=
    fun engine' held' hrest' => ⟨hrest', fun hfalse => absurd hfalse (by simp)⟩
  cases op with
  | submitAsync request answers =>
    exact (UbMemEngine.submitAsync_obeys hrest request answers).map
      fun result held' => hend result.2 held'
  | submitSync request answers sync =>
    exact (UbMemEngine.submitSync_obeys hrest request answers sync).map
      fun result held' => hend result.2 held'
  | checkStatus id answers =>
    exact (UbMemEngine.checkStatus_obeys hrest id answers).map
      fun result held' hend' => hend result.2 held' hend'.1
  | finalize => exact absurd rfl hop

variable {system : EngineSystem}

section

variable (hok : SystemOk size deviceId system)

include hok

theorem SystemOk.startOp (op : EngineOp) (hdrained : system.Drained (.call op)) :
    SystemOk size deviceId (system.startOp op) := by
  rcases hok with ⟨held, hshared, hobeys⟩
  unfold EngineSystem.startOp
  split
  · rename_i engine hrunning
    rw [hrunning] at hobeys
    have hrest : UbMemEngine.AtRest deviceId engine held := hobeys.1
    refine ⟨held, hshared, ?_⟩
    cases op with
    | finalize =>
      apply (UbMemEngine.finalize_obeys hrest (hdrained engine hrunning)).mono
      intro engine' held' hend
      exact ⟨hend.1, fun _ => hend.2⟩
    | submitAsync request answers =>
      exact program_obeys hrest (.submitAsync request answers) (by simp)
    | submitSync request answers sync =>
      exact program_obeys hrest (.submitSync request answers sync) (by simp)
    | checkStatus id answers => exact program_obeys hrest (.checkStatus id answers) (by simp)
  · exact ⟨held, hshared, hobeys⟩

theorem SystemOk.step (action : SystemAction) (hdrained : system.Drained action) :
    SystemOk size deviceId (system.step action) := by
  have hcall := hok.startOp
  rcases hok with ⟨held, hshared, hobeys⟩
  cases action with
  | call op => exact hcall op hdrained
  | engineStep answers =>
    rcases hobeys.advance (serve_keeps size deviceId answers) hshared with
      ⟨held', hobeys', hshared'⟩
    exact ⟨held', hshared', hobeys'⟩
  | otherAcquire => exact ⟨held, hshared.otherAcquire, hobeys⟩
  | otherRelease position launchedTasks =>
    refine ⟨held, hshared.otherGivesBack position ?_, hobeys⟩
    intro handle pool owners hdevice howned
    exact @OwnedPool.release _ _ _ _ { handle with launchedTasks := launchedTasks } howned hdevice
  | otherAbort position answers =>
    refine ⟨held, hshared.otherGivesBack position ?_, hobeys⟩
    intro handle pool owners hdevice howned
    exact howned.abort hdevice answers
  | deviceError index =>
    exact ⟨held, { hshared with owned := hshared.owned.setErrFlag index }, hobeys⟩

theorem SystemOk.run {actions : List SystemAction} (hdrained : system.FinalizesDrained actions) :
    SystemOk size deviceId (system.run actions) := by
  induction actions generalizing system with
  | nil => exact hok
  | cons action rest ih => exact ih (hok.step action hdrained.1) hdrained.2

end

theorem systemOk_start {pool' : TransferPool} {answers : TransferPool.InitAnswers}
    (hnew : pool.inited = false) (hinit : pool.initializePool answers size = (.success, pool'))
    (hinactive : engine.activeSlot = none) (hpending : engine.pendingHandles = []) :
    SystemOk size pool'.deviceId (EngineSystem.start pool' engine) := by
  rcases initializePool_ready hnew hinit with ⟨hinv, hown⟩
  rcases initializePool_eq_success hnew hinit with ⟨-, -, -, -, hflags, -⟩
  refine ⟨[], ?_, ?_⟩
  · constructor
    · exact ⟨hinv.inited, hinv.poolSize, rfl, hflags, [], hinv.balanced, hown⟩
    · intro handle hmem
      exact absurd hmem (by simp [EngineSystem.start])
    · rfl
    · rfl
  · exact ⟨UbMemEngine.AtRest.idle hinactive hpending, fun _ => rfl⟩

/-- No slot was given back that was not outstanding, the outstanding slots and
those of the other clients are different and are the slots in use, and at rest
the engine has only its active slot to give back, and none after it was
finalized. -/
structure SlotsOnce (system : EngineSystem) (held : List ℕ) : Prop where
  replay : outstanding system.shared.log = some held
  one_owner :
    (held ++ system.shared.others.map SlotHandle.slotIndex).Nodup
  inUse_iff : ∀ i,
    i ∈ held ++ system.shared.others.map SlotHandle.slotIndex ↔
      (system.shared.pool.slots i).inUse = true
  at_rest : ∀ engine, system.running = .ret engine →
    held = engine.activeSlots ∧ (system.finalizing = true → held = [])

theorem SystemOk.slotsOnce (hok : SystemOk size deviceId system) :
    ∃ held, SlotsOnce system held := by
  rcases hok with ⟨held, hshared, hobeys⟩
  refine ⟨held, ?_⟩
  constructor
  · exact hshared.replay
  · exact hshared.owned.nodup
  · exact hshared.owned.mem_iff
  · intro engine hrunning
    rw [hrunning] at hobeys
    exact ⟨hobeys.1.held_eq, hobeys.2⟩

/-! ## Finalizing with an unfinished transfer -/

theorem abortPendingLoop_of_aborted {aborted : List ℕ} {slotRef : ℕ}
    {pending : List UbMemCompleteHandle} (hslot : ∀ handle ∈ pending, handle.slot = slotRef)
    (hmem : (engine.slotObjects slotRef).slotIndex ∈ aborted) :
    engine.abortPendingLoop aborted pending = .ret engine := by
  induction pending with
  | nil => rfl
  | cons handle rest ih =>
    have hfirst := hslot handle List.mem_cons_self
    unfold UbMemEngine.abortPendingLoop
    rw [hfirst, if_pos hmem]
    exact ih fun other hother => hslot other (List.mem_cons_of_mem _ hother)

/-- The slot of the unfinished transfers is the active slot, and both parts of
the finalization abort it. -/
theorem finalize_of_pending (hrest : UbMemEngine.AtRest deviceId engine held)
    (hpending : engine.pendingHandles ≠ []) :
    ∃ slot : SlotHandle, held = [slot.slotIndex] ∧ engine.finalize = .call (.abort slot) fun _ =>
        .call (.abort slot) fun _ =>
          .ret { engine with activeSlot := none, pendingHandles := [] } := by
  rcases List.exists_cons_of_ne_nil hpending with ⟨first, rest, hcons⟩
  have hactive := hrest.pending_slot first (by simp [hcons])
  have hslot : ∀ handle ∈ rest, handle.slot = first.slot := by
    intro handle hmem
    have hsame := hrest.pending_slot handle (by simp [hcons, hmem])
    rw [hactive, Option.some.injEq] at hsame
    exact hsame.symm
  refine ⟨engine.slotObjects first.slot, hrest.held_eq_singleton hactive, ?_⟩
  have hloop : engine.abortPendingHandles = .call (.abort (engine.slotObjects first.slot)) fun _ =>
        .ret { engine with pendingHandles := [] } := by
    unfold UbMemEngine.abortPendingHandles
    rw [hcons]
    unfold UbMemEngine.abortPendingLoop
    rw [if_neg (by simp), abortPendingLoop_of_aborted hslot (by simp)]
    rfl
  simp only [UbMemEngine.finalize, hloop, Prog.call_bind, Prog.ret_bind, hactive]
  rfl

theorem gaveBack_twice (hlog : outstanding log = some [index]) :
    outstanding (log ++ [.gaveBack index] ++ [.gaveBack index]) = none := by
  rw [List.append_assoc, outstanding_append hlog]
  simp [replayEvent]

theorem SystemOk.finalize_pending (hok : SystemOk size deviceId system)
    (hrunning : system.running = .ret engine) (hpending : engine.pendingHandles ≠ [])
    (first second : RuntimeAnswers) : outstanding (system.run [.call .finalize, .engineStep first,
      .engineStep second]).shared.log = none := by
  rcases hok with ⟨held, hshared, hobeys⟩
  rw [hrunning] at hobeys
  rcases finalize_of_pending hobeys.1 hpending with ⟨slot, hheld, hfinalize⟩
  have hstarted : system.startOp .finalize = ⟨system.shared, .call (.abort slot) fun _ =>
        .call (.abort slot) fun _ => .ret { engine with activeSlot := none, pendingHandles := [] },
        true⟩ := by
    unfold EngineSystem.startOp
    rw [hrunning]
    dsimp only
    rw [EngineOp.program, hfinalize]
  have hreplay := hshared.replay
  rw [hheld] at hreplay
  change outstanding (((system.startOp .finalize).engineStep
    first).engineStep second).shared.log = none
  rw [hstarted]
  exact gaveBack_twice hreplay

/-- In every run in which the engine is finalized only without unfinished
transfers, every slot is given back once and has one owner.  Where such a run
leaves an unfinished transfer, finalizing gives a slot back twice. -/
theorem engineRun_slotsOnce (pool pool' : TransferPool) (answers : TransferPool.InitAnswers)
    (size : ℕ) (hnew : pool.inited = false)
    (hinit : pool.initializePool answers size = (.success, pool')) (useMemcpyMode : Bool)
    (config : UbMemClientConfig) (sqeFormat : UbMemStarsSqeFormat) (actions : List SystemAction)
    (hdrained : (EngineSystem.start pool'
      (.fresh useMemcpyMode config sqeFormat)).FinalizesDrained actions) :
    (∃ held, SlotsOnce ((EngineSystem.start pool'
        (.fresh useMemcpyMode config sqeFormat)).run actions) held) ∧
      ∀ engine, ((EngineSystem.start pool'
          (.fresh useMemcpyMode config sqeFormat)).run actions).running = .ret engine →
        engine.pendingHandles ≠ [] → ∀ first second, outstanding ((EngineSystem.start pool'
            (.fresh useMemcpyMode config sqeFormat)).run (actions ++
              [.call .finalize, .engineStep first, .engineStep second])).shared.log = none := by
  have hstart := systemOk_start hnew hinit
    (show (UbMemEngine.fresh useMemcpyMode config sqeFormat).activeSlot = none from rfl) rfl
  have hok := hstart.run hdrained
  constructor
  · exact hok.slotsOnce
  · intro engine hrunning hpending first second
    have hlog := hok.finalize_pending hrunning hpending first second
    rwa [EngineSystem.run, List.foldl_append]

/-- A transfer that completes before the engine is finalized, while another
client takes a slot. -/
theorem engineRun_slotsOnce_completed :
    ∃ held, SlotsOnce ((EngineSystem.start (builtPool 2) memcpyEngine).run
        [.call (.submitAsync oneByteRead transferAccepted), .engineStep runtimeReady, .otherAcquire,
          .call (.checkStatus 0 ⟨true, none⟩), .call .finalize,
          .engineStep runtimeReady]) held := by
  have hresult := engineRun_slotsOnce (TransferPool.fresh 0) (builtPool 2)
    poolBuilt 2 rfl rfl true
    ⟨⟨defaultMaxTransferCountPerBatch, by decide⟩, by decide⟩ .starsV1
    [.call (.submitAsync oneByteRead transferAccepted), .engineStep runtimeReady, .otherAcquire,
      .call (.checkStatus 0 ⟨true, none⟩), .call .finalize,
      .engineStep runtimeReady]
    ⟨trivial, trivial, trivial, trivial, by rintro engine ⟨⟩; rfl, trivial,
      trivial⟩
  exact hresult.1

/-- The engine is finalized while its transfer is unfinished.  Another client
takes the slot after the first abort, the second abort takes it away, and a
third client gets the same slot. -/
theorem finalize_gives_two_owners : ((EngineSystem.start (builtPool 1) memcpyEngine).run
        [.call (.submitAsync oneByteRead transferAccepted),
          .engineStep runtimeReady, .call .finalize,
          .engineStep runtimeReady, .otherAcquire, .engineStep runtimeReady,
          .otherAcquire]).shared.others.map SlotHandle.slotIndex = [0, 0] ∧
      ((EngineSystem.start (builtPool 1) memcpyEngine).run
        [.call (.submitAsync oneByteRead transferAccepted),
          .engineStep runtimeReady, .call .finalize,
          .engineStep runtimeReady, .otherAcquire, .engineStep runtimeReady,
          .otherAcquire]).shared.log = [.acquired 0, .gaveBack 0, .gaveBack 0] := by
  constructor <;> rfl

/-! ## The slot of an idle engine -/

section

variable (hok : SystemOk size deviceId system) (hclear : system.shared.pool.FreeFlagsClear)

include hok hclear

end

theorem TransferPool.FreeFlagsClear.acquired {handle : SlotHandle} {pool' : TransferPool}
    (hclear : pool.FreeFlagsClear) (hacquire : pool.acquire = (.ok handle, pool')) :
    pool'.errFlagSet handle.slotIndex = false := by
  unfold TransferPool.acquire at hacquire
  split_ifs at hacquire
  · cases hacquire
  split at hacquire
  · cases hacquire
  · next index rest hfree =>
    cases hacquire
    exact hclear index (hfree ▸ List.mem_cons_self)

end Hixl
