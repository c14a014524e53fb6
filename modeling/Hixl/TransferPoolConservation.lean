import Hixl.SlotLedgers
import Hixl.TransferPoolModel

/-!
# Conservation of transfer slots

The pool is a ledger of its slots.  An acquire takes the first free slot, a
release gives a slot back, and an abort gives it back or retires it when its
re-initialization fails.  Hence free, held and retired slots always add up to
the pool, and as long as every handle is given back at most once, every held
slot belongs to exactly one handle.
-/

namespace Hixl

open SlotLedgers

namespace TransferPool

/-- The pool as a ledger; the retired slots are known from its history. -/
def ledger (pool : TransferPool) (retired : List ℕ) : Ledger ℕ where
  free := pool.freeList
  busy := fun i => (pool.slots i).inUse
  retired := retired

structure SameFrame (pool pool' : TransferPool) : Prop where
  deviceId : pool'.deviceId = pool.deviceId
  inited : pool'.inited = pool.inited
  poolSize : pool'.poolSize = pool.poolSize

theorem updateSlot_inUse (pool : TransferPool) (index : ℕ) (slot : PoolSlot) (i : ℕ) :
    ((pool.updateSlot index slot).slots i).inUse =
      if i = index then slot.inUse else (pool.slots i).inUse := by
  unfold updateSlot
  by_cases heq : i = index
  · rw [if_pos heq, heq]
    simp
  · rw [if_neg heq]
    simp [heq]

/-- A slot has its own error flag or none. -/
def OwnFlags (pool : TransferPool) : Prop := ∀ i, ∀ addr ∈ (pool.slots i).errFlagAddr, addr = i

def FreeFlagsClear (pool : TransferPool) : Prop := ∀ i ∈ pool.freeList, pool.errFlagSet i = false

/-! ## What the calls do to the ledger -/

theorem acquire_cases (pool : TransferPool) : (∃ status, pool.acquire = (.error status, pool)) ∨
      ∃ index rest handle, pool.freeList = index :: rest ∧ pool.acquire.1 = .ok handle ∧
        handle.slotIndex = index ∧ handle.deviceId = pool.deviceId ∧ SameFrame pool pool.acquire.2 ∧
        ∀ retired, pool.acquire.2.ledger retired = (pool.ledger retired).take index rest := by
  unfold acquire
  split_ifs with hinited
  · exact Or.inl ⟨_, rfl⟩
  · rcases hfree : pool.freeList with _ | ⟨index, rest⟩
    · exact Or.inl ⟨_, rfl⟩
    · refine Or.inr ⟨index, rest, _, rfl, rfl, rfl, rfl, ⟨rfl, rfl, rfl⟩, ?_⟩
      intro retired
      apply Ledger.ext
      · rfl
      · funext i
        rw [Ledger.take_busy]
        exact updateSlot_inUse _ _ _ _
      · rfl

structure Accepts (pool : TransferPool) (handle : SlotHandle) : Prop where
  device : handle.deviceId = pool.deviceId
  index_lt : handle.slotIndex < pool.poolSize
  inUse : (pool.slots handle.slotIndex).inUse = true

theorem release_cases (handle : SlotHandle) (pool : TransferPool) :
    (¬Accepts pool handle ∧ pool.release handle = pool) ∨
      (Accepts pool handle ∧ SameFrame pool (pool.release handle) ∧
        ∀ retired, (pool.release handle).ledger retired =
          (pool.ledger retired).giveBack handle.slotIndex) := by
  unfold release
  dsimp only
  split_ifs with hdevice hindex hidle
  · exact Or.inl ⟨fun haccepts => hdevice haccepts.device, rfl⟩
  · exact Or.inl ⟨fun haccepts => absurd haccepts.index_lt (Nat.not_lt.mpr hindex), rfl⟩
  · refine Or.inl ⟨fun haccepts => ?_, rfl⟩
    simp [haccepts.inUse] at hidle
  · refine Or.inr ⟨⟨not_not.mp hdevice, Nat.lt_of_not_le hindex,
      by simpa using hidle⟩, ⟨rfl, rfl, rfl⟩, ?_⟩
    intro retired
    apply Ledger.ext
    · rfl
    · funext i
      rw [Ledger.giveBack_busy]
      exact updateSlot_inUse _ _ _ _
    · rfl

def tornDown (pool : TransferPool) (index : ℕ) : PoolSlot :=
  destroySlotContextForAbort (deleteSlotThreadContextForAbort (abortSlotRuntime (pool.slots index)))

def reinitOk (answers : AbortAnswers) (index : ℕ) (pool : TransferPool) : Bool :=
  (reinitSlotAfterAbort answers pool.errFlags index (pool.tornDown index)).1 = .success

theorem reinitSlotAfterAbort_inUse (answers : AbortAnswers) (errFlags : Option (ℕ → ℕ)) (index : ℕ)
    (slot : PoolSlot) (hfailed : (reinitSlotAfterAbort answers errFlags index slot).1 ≠ .success) :
    (reinitSlotAfterAbort answers errFlags index slot).2.inUse = false := by
  unfold reinitSlotAfterAbort at hfailed ⊢
  split at hfailed
  · split_ifs at hfailed ⊢
    · exact absurd rfl hfailed
    · rfl
  · rfl

theorem returnSlotToFreeList_ledger
    (pool : TransferPool) (index : ℕ) (slot : PoolSlot) (retired : List ℕ) :
    ((pool.updateSlot index slot).returnSlotToFreeList index).ledger
      retired = (pool.ledger retired).giveBack index := by
  apply Ledger.ext
  · rfl
  · funext i
    rw [Ledger.giveBack_busy]
    unfold returnSlotToFreeList ledger
    dsimp only
    rw [updateSlot_inUse]
    split_ifs with heq
    · rfl
    · exact (updateSlot_inUse pool index slot i).trans (if_neg heq)
  · rfl

theorem updateSlot_ledger_retire (pool : TransferPool) (index : ℕ) {slot : PoolSlot}
    (retired : List ℕ) (hidle : slot.inUse = false) :
    (pool.updateSlot index slot).ledger (retired ++ [index]) =
      (pool.ledger retired).retire index := by
  apply Ledger.ext
  · rfl
  · funext i
    rw [Ledger.retire_busy, ← hidle]
    exact updateSlot_inUse pool index slot i
  · rfl

theorem abortSlotByIndex_inUse (answers : AbortAnswers) {index : ℕ} {pool : TransferPool}
    (hindex : index < pool.poolSize) (hinUse : (pool.slots index).inUse = true) :
    SameFrame pool (pool.abortSlotByIndex answers index) ∧
      ∀ retired, (pool.abortSlotByIndex answers index).ledger
        (if pool.reinitOk answers index then retired else retired ++ [index]) =
        if pool.reinitOk answers index then (pool.ledger retired).giveBack index
        else (pool.ledger retired).retire index := by
  have hidle := reinitSlotAfterAbort_inUse answers pool.errFlags index
    (pool.tornDown index)
  unfold abortSlotByIndex reinitOk
  rw [if_neg (Nat.not_le.mpr hindex), hinUse, Bool.not_true, if_neg Bool.false_ne_true]
  dsimp only
  rw [← tornDown]
  generalize reinitSlotAfterAbort answers pool.errFlags index
    (pool.tornDown index) = reinit at hidle ⊢
  rcases reinit with ⟨status, slot⟩
  cases status with
  | success => exact ⟨⟨rfl, rfl, rfl⟩, returnSlotToFreeList_ledger pool
      index slot⟩
  | _ => exact ⟨⟨rfl, rfl, rfl⟩, fun retired =>
    updateSlot_ledger_retire pool index retired (hidle (by simp))⟩

theorem abort_cases (answers : AbortAnswers) (handle : SlotHandle) (pool : TransferPool)
    (hinited : pool.inited = true) : (¬Accepts pool handle ∧ pool.abort answers handle = pool) ∨
      (Accepts pool handle ∧ SameFrame pool (pool.abort answers handle) ∧
        ∀ retired, (pool.abort answers handle).ledger
          (if pool.reinitOk answers handle.slotIndex then retired
            else retired ++ [handle.slotIndex]) =
          if pool.reinitOk answers handle.slotIndex then
            (pool.ledger retired).giveBack handle.slotIndex
          else (pool.ledger retired).retire handle.slotIndex) := by
  unfold abort
  rw [hinited, Bool.not_true, if_neg Bool.false_ne_true]
  by_cases hdevice : handle.deviceId = pool.deviceId
  · by_cases hindex : handle.slotIndex < pool.poolSize
    · have hrange : ¬handle.slotIndex ≥ pool.poolSize := Nat.not_le.mpr hindex
      rw [if_neg (not_not.mpr hdevice), if_neg hrange]
      by_cases hinUse : (pool.slots handle.slotIndex).inUse = true
      · right
        exact ⟨⟨hdevice, hindex, hinUse⟩, abortSlotByIndex_inUse answers hindex hinUse⟩
      · left
        constructor
        · intro haccepts
          exact hinUse haccepts.inUse
        · unfold abortSlotByIndex
          rw [if_neg hrange, if_pos (by simpa using hinUse)]
    · left
      have hrange : handle.slotIndex ≥ pool.poolSize := Nat.le_of_not_lt hindex
      rw [if_neg (not_not.mpr hdevice), if_pos hrange]
      exact ⟨fun haccepts => hindex haccepts.index_lt, rfl⟩
  · left
    rw [if_pos hdevice]
    exact ⟨fun haccepts => hdevice haccepts.device, rfl⟩

end TransferPool

/-- The calls of clients.  A give-back names the handle by the number of the
acquire that returned it. -/
inductive PoolCall where
  | acquire
  | release (serial : ℕ) (handle : SlotHandle)
  | abort (serial : ℕ) (handle : SlotHandle)
      (answers : TransferPool.AbortAnswers)

/-- A pool with the handles that clients hold, each as its number and its slot,
and the slots that were lost to a failed re-initialization. -/
structure PoolHistory where
  pool : TransferPool
  handles : List (ℕ × ℕ)
  nextSerial : ℕ
  retired : List ℕ

namespace PoolHistory

def start (pool : TransferPool) : PoolHistory := ⟨pool, [], 0, []⟩

def call (history : PoolHistory) : PoolCall → PoolHistory
  | .acquire =>
    match history.pool.acquire with
    | (.ok handle, pool) =>
      { history with
        pool := pool
        handles := (history.nextSerial, handle.slotIndex) ::
          history.handles
        nextSerial := history.nextSerial + 1 }
    | (.error _, pool) => { history with pool := pool }
  | .release serial handle =>
    { history with
      pool := history.pool.release handle
      handles := history.handles.erase (serial, handle.slotIndex) }
  | .abort serial handle answers =>
    { history with
      pool := history.pool.abort answers handle
      handles := history.handles.erase (serial, handle.slotIndex)
      retired :=
        if handle.deviceId = history.pool.deviceId ∧ handle.slotIndex < history.pool.poolSize ∧
            (history.pool.slots handle.slotIndex).inUse ∧
            !history.pool.reinitOk answers handle.slotIndex then
          history.retired ++ [handle.slotIndex]
        else history.retired }

def run (history : PoolHistory) (calls : List PoolCall) : PoolHistory := calls.foldl call history

def HandleHeld (history : PoolHistory) : PoolCall → Prop
  | .acquire => True
  | .release serial handle =>
    (serial, handle.slotIndex) ∈ history.handles ∧ handle.deviceId = history.pool.deviceId
  | .abort serial handle _ =>
    (serial, handle.slotIndex) ∈ history.handles ∧ handle.deviceId = history.pool.deviceId

def GivesBackOnce : PoolHistory → List PoolCall → Prop
  | _, [] => True
  | history, next :: rest => history.HandleHeld next ∧ GivesBackOnce (history.call next) rest

/-! ## The invariant of a history -/

def ledger (history : PoolHistory) : Ledger ℕ := history.pool.ledger history.retired

structure Inv (size : ℕ) (history : PoolHistory) : Prop where
  inited : history.pool.inited = true
  poolSize : history.pool.poolSize = size
  balanced : Balanced (List.range size) history.ledger

def HandlesOwn (history : PoolHistory) : Prop := Owned history.ledger (history.handles.map Prod.snd)

variable {history : PoolHistory}

theorem Inv.of_frame {next : PoolHistory} (hinv : history.Inv size)
    (hframe : history.pool.SameFrame next.pool)
    (hbalanced : Balanced (List.range size) next.ledger) : next.Inv size :=
  ⟨hframe.inited.trans hinv.inited, hframe.poolSize.trans hinv.poolSize, hbalanced⟩

theorem call_acquire_refused {status : Status}
    (hacquire : history.pool.acquire = (.error status, history.pool)) :
    history.call .acquire = history := by
  unfold call
  rw [hacquire]

variable {handle : SlotHandle}

theorem call_acquire_taken (hacquire : history.pool.acquire.1 = .ok handle) :
    history.call .acquire =
      { history with
        pool := history.pool.acquire.2
        handles := (history.nextSerial, handle.slotIndex) :: history.handles
        nextSerial := history.nextSerial + 1 } := by
  unfold call
  generalize history.pool.acquire = acquired at hacquire ⊢
  rcases acquired with ⟨_ | _, pool⟩
  · cases hacquire
  · rcases hacquire with ⟨⟩
    rfl

inductive GaveBack (history history' : PoolHistory) (handle : SlotHandle) :
    Prop
  | ignored (hnot : ¬history.pool.Accepts handle)
      (hpool : history'.pool = history.pool)
      (hretired : history'.retired = history.retired)
  | returned (haccepts : history.pool.Accepts handle)
      (hframe : history.pool.SameFrame history'.pool)
      (hledger : history'.ledger = history.ledger.giveBack handle.slotIndex)
  | lost (haccepts : history.pool.Accepts handle)
      (hframe : history.pool.SameFrame history'.pool)
      (hledger : history'.ledger = history.ledger.retire handle.slotIndex)

theorem call_release_cases (history : PoolHistory) (serial : ℕ) (handle : SlotHandle) :
    GaveBack history (history.call (.release serial handle)) handle := by
  rcases TransferPool.release_cases handle history.pool with
    ⟨hnot, hpool⟩ | ⟨haccepts, hframe, hledger⟩
  · exact .ignored hnot hpool rfl
  · exact .returned haccepts hframe (hledger history.retired)

theorem call_abort_cases (hinited : history.pool.inited = true) (serial : ℕ) (handle : SlotHandle)
    (answers : TransferPool.AbortAnswers) :
    GaveBack history (history.call (.abort serial handle answers)) handle := by
  rcases TransferPool.abort_cases answers handle history.pool hinited with
    ⟨hnot, hpool⟩ | ⟨haccepts, hframe, hledger⟩
  · apply GaveBack.ignored hnot hpool
    apply if_neg
    rintro ⟨hdevice, hindex, hinUse, -⟩
    exact hnot ⟨hdevice, hindex, hinUse⟩
  · have hmove := hledger history.retired
    have hdevice := haccepts.device
    have hindex := haccepts.index_lt
    have hinUse := haccepts.inUse
    by_cases hreinit : history.pool.reinitOk answers handle.slotIndex = true
    · apply GaveBack.returned haccepts hframe
      rw [if_pos hreinit, if_pos hreinit] at hmove
      unfold ledger call
      dsimp only
      rwa [if_neg (by simp [hreinit])]
    · apply GaveBack.lost haccepts hframe
      rw [if_neg hreinit, if_neg hreinit] at hmove
      unfold ledger call
      dsimp only
      rwa [if_pos (by simp [hdevice, hindex, hinUse, hreinit])]

variable {size : ℕ} {history' : PoolHistory}

theorem GaveBack.inv (hgave : GaveBack history history' handle) (hinv : history.Inv size) :
    history'.Inv size := by
  cases hgave with
  | ignored hnot hpool hretired =>
    constructor
    · rw [hpool]
      exact hinv.inited
    · rw [hpool]
      exact hinv.poolSize
    · unfold ledger
      rw [hpool, hretired]
      exact hinv.balanced
  | returned haccepts hframe hledger =>
    exact hinv.of_frame hframe (hledger ▸ hinv.balanced.giveBack haccepts.inUse)
  | lost haccepts hframe hledger =>
    exact hinv.of_frame hframe (hledger ▸ hinv.balanced.retire haccepts.inUse)

theorem Inv.call (hinv : history.Inv size) (next : PoolCall) : (history.call next).Inv size := by
  cases next with
  | acquire =>
    rcases history.pool.acquire_cases with ⟨status, hrefused⟩ |
      ⟨index, rest, handle, hfree, hacquire, -, -, hframe, hledger⟩
    · rwa [call_acquire_refused hrefused]
    · rw [call_acquire_taken hacquire]
      apply hinv.of_frame hframe
      unfold ledger
      rw [hledger]
      exact hinv.balanced.take hfree
  | release serial handle => exact (call_release_cases history serial handle).inv hinv
  | abort serial handle answers =>
    exact (call_abort_cases hinv.inited serial handle answers).inv hinv

theorem Inv.run (hinv : history.Inv size) (calls : List PoolCall) :
    (history.run calls).Inv size := by
  induction calls generalizing history with
  | nil => exact hinv
  | cons next rest ih => exact ih (hinv.call next)

theorem GaveBack.handlesOwn {serial : ℕ} (hgave : GaveBack history history' handle)
    (hinv : history.Inv size) (hown : history.HandlesOwn)
    (hheld : (serial, handle.slotIndex) ∈ history.handles)
    (hdevice : handle.deviceId = history.pool.deviceId)
    (hhandles : history'.handles = history.handles.erase (serial, handle.slotIndex)) :
    history'.HandlesOwn := by
  have hinUse : history.ledger.busy handle.slotIndex = true := by
    rw [← hown.busy_iff]
    exact List.mem_map_of_mem hheld
  have hindex : handle.slotIndex < history.pool.poolSize := by
    rw [hinv.poolSize, ← List.mem_range, hinv.balanced.covers]
    exact Or.inr (Or.inl hinUse)
  have haccepts : history.pool.Accepts handle := ⟨hdevice, hindex, hinUse⟩
  have hperm := (List.perm_cons_erase hheld).map Prod.snd
  rw [List.map_cons] at hperm
  have howned := hown.perm hperm
  unfold HandlesOwn
  rw [hhandles]
  cases hgave with
  | ignored hnot => exact absurd haccepts hnot
  | returned _ hframe hledger =>
    have hdropped := howned.drop
      (history.ledger.giveBack_busy handle.slotIndex)
    rwa [List.erase_cons_head, ← hledger] at hdropped
  | lost _ hframe hledger =>
    have hdropped := howned.drop
      (history.ledger.retire_busy handle.slotIndex)
    rwa [List.erase_cons_head, ← hledger] at hdropped

theorem HandlesOwn.call (hown : history.HandlesOwn) (hinv : history.Inv size) {next : PoolCall}
    (hheld : history.HandleHeld next) : (history.call next).HandlesOwn := by
  cases next with
  | acquire =>
    rcases history.pool.acquire_cases with ⟨status, hrefused⟩ |
      ⟨index, rest, handle, hfree, hacquire, hindex, -, hframe, hledger⟩
    · rwa [call_acquire_refused hrefused]
    · have htaken := hown.take hinv.balanced hfree
      rw [call_acquire_taken hacquire]
      unfold HandlesOwn ledger
      rwa [List.map_cons, hindex, hledger]
  | release serial handle =>
    exact (call_release_cases history serial handle).handlesOwn hinv hown hheld.1 hheld.2 rfl
  | abort serial handle answers =>
    exact (call_abort_cases hinv.inited serial handle answers).handlesOwn
      hinv hown hheld.1 hheld.2 rfl

theorem HandlesOwn.run (hown : history.HandlesOwn) (hinv : history.Inv size) {calls : List PoolCall}
    (honce : history.GivesBackOnce calls) : (history.run calls).HandlesOwn := by
  induction calls generalizing history with
  | nil => exact hown
  | cons next rest ih => exact ih (hown.call hinv honce.1) (hinv.call next) honce.2

end PoolHistory

/-! ## The initialized pool -/

theorem andThen_keeps {α : Type} (f : PoolSlot → α) {result : Status × PoolSlot}
    {next : PoolSlot → Status × PoolSlot} (hnext : ∀ slot, f (next slot).2 = f slot) :
    f (andThen result next).2 = f result.2 := by
  rcases result with ⟨status, slot⟩
  cases status with
  | success => exact hnext slot
  | _ => rfl

theorem initOneSlot_spec (answers : SlotAnswers) (errFlags : Option (ℕ → ℕ)) (index : ℕ)
    (slot : PoolSlot) : (initOneSlot answers errFlags index slot).2.inUse = slot.inUse ∧
      ((initOneSlot answers errFlags index slot).2.errFlagAddr = slot.errFlagAddr ∨
        (initOneSlot answers errFlags index slot).2.errFlagAddr = some index) := by
  let f (slot : PoolSlot) := (slot.inUse, slot.errFlagAddr)
  have hmade : f (andThen (andThen (andThen (ensureContext answers { slot with launchedTasks := 0 })
      (ensureDefaultStream answers)) (ensureThread answers))
        (ensureNotify answers)).2 = f slot := by
    rw [andThen_keeps f, andThen_keeps f, andThen_keeps f]
    · unfold ensureContext
      repeat' split
      all_goals rfl
    all_goals intro slot
    · unfold ensureDefaultStream
      repeat' split
      all_goals rfl
    · unfold ensureThread
      repeat' split
      all_goals rfl
    · unfold ensureNotify
      repeat' split
      all_goals rfl
  obtain ⟨hinUse, haddr⟩ := Prod.ext_iff.mp hmade
  unfold initOneSlot assignSlotErrFlag
  generalize andThen (andThen (andThen _ _) _) _ = made at hinUse haddr ⊢
  rcases made with ⟨status, made⟩
  cases status with
  | success =>
    dsimp only [andThen]
    split_ifs
    · exact ⟨hinUse, Or.inr rfl⟩
    · exact ⟨hinUse, Or.inl haddr⟩
  | _ => exact ⟨hinUse, Or.inl haddr⟩

theorem initSlotsLoop_all {answers : ℕ → SlotAnswers} {errFlags : Option (ℕ → ℕ)}
    (P : ℕ → PoolSlot → Prop)
    (hP : ∀ index slot, P index slot → P index (initOneSlot (answers index) errFlags index slot).2)
    (indices : List ℕ) {slots : ℕ → PoolSlot} (hslots : ∀ i, P i (slots i)) (i : ℕ) :
    P i ((TransferPool.initSlotsLoop answers errFlags indices slots).2 i) := by
  induction indices generalizing slots with
  | nil => exact hslots i
  | cons index rest ih =>
    have hslot := hP index _ (hslots index)
    unfold TransferPool.initSlotsLoop
    generalize initOneSlot (answers index) errFlags index (slots index) = built at hslot ⊢
    rcases built with ⟨status, slot⟩
    have hupdated : ∀ j, P j (Function.update slots index slot j) := by
      intro j
      rw [Function.update_apply]
      split_ifs with heq
      · exact heq ▸ hslot
      · exact hslots j
    cases status with
    | success => exact ih hupdated
    | _ => exact hupdated i

variable {pool pool' : TransferPool} {answers : TransferPool.InitAnswers} {size : ℕ}

theorem initializePool_eq_success (hnew : pool.inited = false)
    (hinit : pool.initializePool answers size = (.success, pool')) :
    pool'.inited = true ∧ pool'.poolSize = size ∧ pool'.freeList = List.range size ∧
      (∀ i, (pool'.slots i).inUse = false) ∧ pool'.OwnFlags ∧ ∀ i, pool'.errFlagSet i = false := by
  have hclear : ∀ i, (answers.errFlags.any fun flags => flags i ≠ 0) = false := by
    intro i
    unfold TransferPool.InitAnswers.errFlags
    split_ifs <;> rfl
  let Fresh (index : ℕ) (slot : PoolSlot) :=
    slot.inUse = false ∧ ∀ addr ∈ slot.errFlagAddr, addr = index
  have hslots : ∀ i, Fresh i ((TransferPool.initSlotsLoop answers.slots answers.errFlags
      (List.range size) fun _ => emptySlot).2 i) := by
    refine initSlotsLoop_all Fresh (fun index slot hslot => ?_) _ fun _ => ⟨rfl, nofun⟩
    obtain ⟨hinUse, haddr⟩ := initOneSlot_spec (answers.slots index) answers.errFlags index slot
    refine ⟨hinUse.trans hslot.1, fun addr hmem => ?_⟩
    rcases haddr with haddr | haddr <;> rw [haddr] at hmem
    · exact hslot.2 addr hmem
    · exact (Option.mem_some_iff.mp hmem).symm
  unfold TransferPool.initializePool at hinit
  rw [hnew, if_neg Bool.false_ne_true] at hinit
  dsimp only at hinit
  generalize TransferPool.initSlotsLoop answers.slots answers.errFlags (List.range size)
    (fun _ => emptySlot) = built at hslots hinit
  rcases built with ⟨status, slots⟩
  split_ifs at hinit
  · cases hinit
  · cases hinit
  · cases hinit
  · cases hinit
  · cases status with
    | success =>
      dsimp only at hinit
      split at hinit <;> cases hinit
    | _ => cases hinit
  · cases status with
    | success =>
      dsimp only at hinit
      split at hinit
      · cases hinit
      · rcases hinit with ⟨⟩
        exact ⟨rfl, rfl, rfl, fun i => (hslots i).1, fun i => (hslots i).2, hclear⟩
    | _ => cases hinit

theorem initializePool_ready (hnew : pool.inited = false)
    (hinit : pool.initializePool answers size = (.success, pool')) :
    (PoolHistory.start pool').Inv size ∧ (PoolHistory.start pool').HandlesOwn := by
  rcases initializePool_eq_success hnew hinit with
    ⟨hinited, hsize, hfree, hidle, -⟩
  have hledger : (PoolHistory.start pool').ledger = ⟨List.range size, fun _ => false, []⟩ := by
    apply Ledger.ext
    · exact hfree
    · funext i
      exact hidle i
    · rfl
  constructor
  · constructor
    · exact hinited
    · exact hsize
    · rw [hledger]
      constructor <;> simp [List.nodup_range]
  · unfold PoolHistory.HandlesOwn
    rw [hledger]
    constructor
    · exact List.nodup_nil
    · intro i
      simp [PoolHistory.start]

/-- Free, held and lost slots in one state of a history. -/
structure PoolConserved (size : ℕ) (history : PoolHistory) : Prop where
  free_nodup : history.pool.freeList.Nodup
  free_iff : ∀ i, i < size →
    (i ∈ history.pool.freeList ↔ (history.pool.slots i).inUse = false ∧ i ∉ history.retired)
  in_range : ∀ i, i ∈ history.pool.freeList ∨
    (history.pool.slots i).inUse = true ∨ i ∈ history.retired → i < size
  lost_idle : ∀ i ∈ history.retired, (history.pool.slots i).inUse = false
  count : history.pool.freeList.length +
    ((List.range size).filter fun i => (history.pool.slots i).inUse).length +
      history.retired.length = size

/-- Every slot in use is held by exactly one handle, and no other slot is
held. -/
structure HeldOnce (history : PoolHistory) : Prop where
  nodup : (history.handles.map Prod.snd).Nodup
  inUse_iff : ∀ i, i ∈ history.handles.map Prod.snd ↔
    (history.pool.slots i).inUse = true

theorem PoolHistory.Inv.conserved {history : PoolHistory} (hinv : history.Inv size) :
    PoolConserved size history := by
  have hbalanced := hinv.balanced
  constructor
  · exact hbalanced.free_nodup
  · intro i hi
    constructor
    · intro hfree
      exact ⟨hbalanced.free_idle i hfree, hbalanced.free_not_retired i hfree⟩
    · rintro ⟨hidle, hkept⟩
      rcases (hbalanced.covers i).mp (List.mem_range.mpr hi) with
        hfree | hbusy | hretired
      · exact hfree
      · exact absurd (hidle.symm.trans hbusy) Bool.false_ne_true
      · exact absurd hretired hkept
  · intro i hmem
    exact List.mem_range.mp ((hbalanced.covers i).mpr hmem)
  · exact hbalanced.retired_idle
  · have hcount := hbalanced.count_eq List.nodup_range
    rwa [List.length_range] at hcount

/-- After every call on an initialized pool, free, held and lost slots add up
to the pool; and as long as no handle is given back twice, every slot in use
belongs to one handle. -/
theorem transferPool_conserved (pool pool' : TransferPool) (answers : TransferPool.InitAnswers)
    (size : ℕ) (hnew : pool.inited = false)
    (hinit : pool.initializePool answers size = (.success, pool')) (calls : List PoolCall) :
    PoolConserved size ((PoolHistory.start pool').run calls) ∧
      ((PoolHistory.start pool').GivesBackOnce calls →
        HeldOnce ((PoolHistory.start pool').run calls)) := by
  rcases initializePool_ready hnew hinit with ⟨hinv, hown⟩
  constructor
  · exact (hinv.run calls).conserved
  · intro honce
    have howned := hown.run hinv honce
    exact ⟨howned.nodup, howned.busy_iff⟩

def firstHandle : SlotHandle := TransferPool.fillHandleFromSlot 0 0 emptySlot none

theorem transferPool_conserved_twoSlots :
    (PoolHistory.start (builtPool 2)).GivesBackOnce [.acquire, .acquire, .release 0 firstHandle] ∧
      PoolConserved 2 ((PoolHistory.start (builtPool 2)).run
        [.acquire, .acquire, .release 0 firstHandle]) ∧
      HeldOnce ((PoolHistory.start (builtPool 2)).run
        [.acquire, .acquire, .release 0 firstHandle]) := by
  have honce : (PoolHistory.start (builtPool 2)).GivesBackOnce
      [.acquire, .acquire, .release 0 firstHandle] :=
    ⟨trivial, trivial, ⟨by decide, rfl⟩, trivial⟩
  have hresult := transferPool_conserved (TransferPool.fresh 0) (builtPool 2)
    poolBuilt 2 rfl rfl [.acquire, .acquire, .release 0 firstHandle]
  exact ⟨honce, hresult.1, hresult.2 honce⟩

/-- An abort whose re-initialization cannot create a context leaves the only
slot neither free nor in use. -/
theorem abort_loses_slot : (((TransferPool.fresh 0).initializePool poolBuilt 1).1 = .success) ∧
      (builtPool 1).freeList = [0] ∧
      ((PoolHistory.start (builtPool 1)).run [.acquire, .abort 0 firstHandle
          ⟨{ slotBuilt with createContext := none }, true⟩]).pool.freeList =
        [] ∧
      (((PoolHistory.start (builtPool 1)).run [.acquire, .abort 0 firstHandle
          ⟨{ slotBuilt with createContext := none }, true⟩]).pool.slots 0).inUse = false := by
  decide

end Hixl
