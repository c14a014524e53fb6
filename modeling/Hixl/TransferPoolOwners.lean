import Hixl.TransferPoolConservation

/-!
# Owners of transfer slots

A pool in service whose slots in use have exactly one owner each.  A client
that gives back only slots of its own keeps this, whatever the other clients
do in between.
-/

namespace Hixl

open SlotLedgers

/-- The pool is in service and these are the owners of its slots in use. -/
structure OwnedPool (size : ℕ) (deviceId : ℤ) (pool : TransferPool)
    (owners : List ℕ) : Prop where
  inited : pool.inited = true
  poolSize : pool.poolSize = size
  device : pool.deviceId = deviceId
  flags : pool.OwnFlags
  accounts : ∃ retired, Balanced (List.range size) (pool.ledger retired) ∧
    Owned (pool.ledger retired) owners

/-- A handle on a slot of the device, with the error flag of that slot. -/
def SlotHandle.Of (deviceId : ℤ) (handle : SlotHandle) : Prop :=
  handle.deviceId = deviceId ∧ ∀ addr ∈ handle.errFlagAddr, addr = handle.slotIndex

def SlotHandle.SameSlot (handle handle' : SlotHandle) : Prop :=
  handle'.deviceId = handle.deviceId ∧ handle'.slotIndex = handle.slotIndex ∧
    handle'.errFlagAddr = handle.errFlagAddr

theorem SlotHandle.Of.same {deviceId : ℤ} {handle handle' : SlotHandle}
    (hof : handle.Of deviceId) (hsame : handle.SameSlot handle') : handle'.Of deviceId := by
  refine ⟨hsame.1.trans hof.1, ?_⟩
  rw [hsame.2.1, hsame.2.2]
  exact hof.2

namespace TransferPool

variable {pool : TransferPool}

theorem OwnFlags.updateSlot (hflags : pool.OwnFlags) {index : ℕ} {slot : PoolSlot}
    (hslot : ∀ addr ∈ slot.errFlagAddr, addr = index) : (pool.updateSlot index slot).OwnFlags := by
  intro i addr hmem
  by_cases heq : i = index
  · rw [heq] at hmem ⊢
    exact hslot addr (by simpa [TransferPool.updateSlot] using hmem)
  · exact hflags i addr (by simpa [TransferPool.updateSlot, heq] using hmem)

theorem OwnFlags.acquire (hflags : pool.OwnFlags) : pool.acquire.2.OwnFlags ∧
    ∀ handle, pool.acquire.1 = .ok handle →
      ∀ addr ∈ handle.errFlagAddr, addr = handle.slotIndex := by
  unfold TransferPool.acquire
  split_ifs
  · exact ⟨hflags, nofun⟩
  split
  · exact ⟨hflags, nofun⟩
  · next index rest _ =>
    refine ⟨OwnFlags.updateSlot hflags (hflags index), ?_⟩
    rintro _ ⟨⟩
    exact hflags index

theorem OwnFlags.release (hflags : pool.OwnFlags) (handle : SlotHandle) :
    (pool.release handle).OwnFlags := by
  unfold TransferPool.release
  dsimp only
  split_ifs
  iterate 3 exact hflags
  exact OwnFlags.updateSlot hflags (hflags _)

/-- An abort may make the slot anew, with its own flag. -/
theorem reinitSlotAfterAbort_errFlagAddr (answers : AbortAnswers) (errFlags : Option (ℕ → ℕ))
    (index : ℕ) {slot : PoolSlot} (hslot : ∀ addr ∈ slot.errFlagAddr, addr = index) :
    ∀ addr ∈ (reinitSlotAfterAbort answers errFlags index slot).2.errFlagAddr, addr = index := by
  have hmade : ∀ addr ∈ (initOneSlot answers.slot errFlags index slot).2.errFlagAddr,
      addr = index := by
    rcases (initOneSlot_spec answers.slot errFlags index slot).2 with haddr | haddr <;> rw [haddr]
    · exact hslot
    · exact fun addr hmem => (Option.mem_some_iff.mp hmem).symm
  have hclean : ∀ slot : PoolSlot,
      (cleanupSlotAfterAbortReinitFailure slot).errFlagAddr = slot.errFlagAddr := by
    intro slot
    unfold cleanupSlotAfterAbortReinitFailure destroySlotContextForAbort
    split_ifs <;> rfl
  unfold reinitSlotAfterAbort
  generalize initOneSlot answers.slot errFlags index slot = built at hmade ⊢
  rcases built with ⟨status, built⟩
  cases status with
  | success =>
    dsimp only
    split_ifs
    · exact hmade
    · rwa [hclean]
  | _ => rwa [hclean]

theorem OwnFlags.abort (hflags : pool.OwnFlags) (answers : AbortAnswers) (handle : SlotHandle) :
    (pool.abort answers handle).OwnFlags := by
  have hold : ∀ addr ∈ (destroySlotContextForAbort (deleteSlotThreadContextForAbort
      (abortSlotRuntime (pool.slots handle.slotIndex)))).errFlagAddr, addr = handle.slotIndex := by
    unfold destroySlotContextForAbort
    split_ifs <;> exact hflags _
  have hslot := reinitSlotAfterAbort_errFlagAddr answers pool.errFlags handle.slotIndex hold
  unfold TransferPool.abort abortSlotByIndex
  dsimp only
  split_ifs
  iterate 4 exact hflags
  generalize reinitSlotAfterAbort _ _ _ _ = built at hslot ⊢
  rcases built with ⟨status, slot⟩
  have hupdated := hflags.updateSlot hslot
  cases status with
  | success => exact OwnFlags.updateSlot hupdated (hupdated _)
  | _ => exact hupdated

/-! ## The flags of the free slots -/

theorem errFlagSet_resetSlotErrFlag (pool : TransferPool) (index i : ℕ) :
    (pool.resetSlotErrFlag index).errFlagSet i =
      if i = index then false else pool.errFlagSet i := by
  unfold errFlagSet resetSlotErrFlag
  cases pool.errFlags with
  | none => split_ifs <;> rfl
  | some flags => split_ifs with heq <;> simp [heq]

section

variable (hclear : pool.FreeFlagsClear)

include hclear

theorem FreeFlagsClear.append_reset (index : ℕ) :
    ∀ i ∈ pool.freeList ++ [index], (pool.resetSlotErrFlag index).errFlagSet i = false := by
  intro i hmem
  rw [errFlagSet_resetSlotErrFlag]
  split_ifs with heq
  · rfl
  · exact hclear i (by simpa [heq] using hmem)

theorem FreeFlagsClear.acquire : pool.acquire.2.FreeFlagsClear := by
  unfold TransferPool.acquire
  split_ifs
  · exact hclear
  split
  · exact hclear
  · next index rest hfree => exact fun i hmem => hclear i (hfree ▸ List.mem_cons_of_mem index hmem)

theorem FreeFlagsClear.release (handle : SlotHandle) : (pool.release handle).FreeFlagsClear := by
  unfold TransferPool.release
  dsimp only
  split_ifs
  iterate 3 exact hclear
  exact hclear.append_reset handle.slotIndex

theorem FreeFlagsClear.abort (answers : AbortAnswers) (handle : SlotHandle) :
    (pool.abort answers handle).FreeFlagsClear := by
  unfold TransferPool.abort abortSlotByIndex
  dsimp only
  split_ifs
  iterate 4 exact hclear
  split
  · exact hclear.append_reset handle.slotIndex
  · exact hclear

theorem FreeFlagsClear.setErrFlag {index : ℕ} (hbusy : index ∉ pool.freeList) :
    (pool.setErrFlag index).FreeFlagsClear := by
  intro i hmem
  have hne : i ≠ index := fun heq => hbusy (heq ▸ hmem)
  have hsame := hclear i hmem
  unfold errFlagSet TransferPool.setErrFlag at *
  cases hflags : pool.errFlags with
  | none => rfl
  | some flags => simpa [hflags, hne] using hsame

end

end TransferPool

namespace OwnedPool

variable {size : ℕ} {deviceId : ℤ} {pool : TransferPool} {owners : List ℕ}

theorem perm {owners' : List ℕ} (hpool : OwnedPool size deviceId pool owners)
    (hperm : owners.Perm owners') : OwnedPool size deviceId pool owners' := by
  rcases hpool.accounts with ⟨retired, hbalanced, howned⟩
  exact { hpool with accounts := ⟨retired, hbalanced, howned.perm hperm⟩ }

section

variable (hpool : OwnedPool size deviceId pool owners)

include hpool

theorem nodup : owners.Nodup := by
  rcases hpool.accounts with ⟨_, _, howned⟩
  exact howned.nodup

theorem mem_iff (i : ℕ) : i ∈ owners ↔ (pool.slots i).inUse = true := by
  rcases hpool.accounts with ⟨_, _, howned⟩
  exact howned.busy_iff i

theorem not_free {i : ℕ} (hmem : i ∈ owners) : i ∉ pool.freeList := by
  rcases hpool.accounts with ⟨_, hbalanced, howned⟩
  exact hbalanced.not_free_of_busy ((howned.busy_iff i).mp hmem)

end

variable {pool' : TransferPool}

section

variable (hpool : OwnedPool size deviceId pool owners)

include hpool

theorem of_frame {owners' retired : List ℕ} (hframe : TransferPool.SameFrame pool pool')
    (hflags : pool'.OwnFlags) (hbalanced : Balanced (List.range size) (pool'.ledger retired))
    (howned : Owned (pool'.ledger retired) owners') : OwnedPool size deviceId pool' owners' :=
  ⟨hframe.inited.trans hpool.inited, hframe.poolSize.trans hpool.poolSize,
    hframe.deviceId.trans hpool.device, hflags, retired, hbalanced, howned⟩

theorem same_ledger (hframe : TransferPool.SameFrame pool pool') (hflags : pool'.OwnFlags)
    (hledger : ∀ retired, pool'.ledger retired = pool.ledger retired) :
    OwnedPool size deviceId pool' owners := by
  rcases hpool.accounts with ⟨retired, hbalanced, howned⟩
  rw [← hledger retired] at hbalanced howned
  exact hpool.of_frame hframe hflags hbalanced howned

theorem acquire : (∃ status, pool.acquire = (.error status, pool)) ∨
      ∃ handle, pool.acquire.1 = .ok handle ∧ handle.Of deviceId ∧
        OwnedPool size deviceId pool.acquire.2 (handle.slotIndex :: owners) := by
  rcases hpool.accounts with ⟨retired, hbalanced, howned⟩
  rcases pool.acquire_cases with hrefused |
    ⟨index, rest, handle, hfree, hok, hindex, hdevice, hframe, hledger⟩
  · exact Or.inl hrefused
  · right
    refine ⟨handle, hok, ⟨by rw [hdevice, hpool.device], hpool.flags.acquire.2 handle hok⟩, ?_⟩
    apply hpool.of_frame hframe hpool.flags.acquire.1 (hledger retired ▸ hbalanced.take hfree)
    rw [hledger, hindex]
    exact howned.take hbalanced hfree

end

variable {handle : SlotHandle}

section

variable (hpool : OwnedPool size deviceId pool (handle.slotIndex :: owners))

include hpool

theorem accepts (hdevice : handle.deviceId = deviceId) : pool.Accepts handle := by
  rcases hpool.accounts with ⟨retired, hbalanced, howned⟩
  have hbusy := (howned.busy_iff handle.slotIndex).mp List.mem_cons_self
  have hmem := (hbalanced.covers handle.slotIndex).mpr (Or.inr (Or.inl hbusy))
  constructor
  · rw [hdevice, hpool.device]
  · rw [hpool.poolSize]
    exact List.mem_range.mp hmem
  · exact hbusy

theorem gave_back (hframe : TransferPool.SameFrame pool pool') (hflags : pool'.OwnFlags)
    (hledger : ∀ retired, ∃ retired',
      pool'.ledger retired' = (pool.ledger retired).giveBack handle.slotIndex ∨
        pool'.ledger retired' = (pool.ledger retired).retire handle.slotIndex) :
    OwnedPool size deviceId pool' owners := by
  rcases hpool.accounts with ⟨retired, hbalanced, howned⟩
  have hbusy := (howned.busy_iff handle.slotIndex).mp List.mem_cons_self
  rcases hledger retired with ⟨retired', heq | heq⟩
  · apply hpool.of_frame hframe hflags (heq ▸ hbalanced.giveBack hbusy)
    rw [heq, ← List.erase_cons_head handle.slotIndex owners]
    exact howned.drop (Ledger.giveBack_busy _ _)
  · apply hpool.of_frame hframe hflags (heq ▸ hbalanced.retire hbusy)
    rw [heq, ← List.erase_cons_head handle.slotIndex owners]
    exact howned.drop (Ledger.retire_busy _ _)

theorem release (hdevice : handle.deviceId = deviceId) :
    OwnedPool size deviceId (pool.release handle) owners := by
  rcases pool.release_cases handle with
    ⟨hrefused, _⟩ | ⟨_, hframe, hledger⟩
  · exact absurd (hpool.accepts hdevice) hrefused
  · exact hpool.gave_back hframe (hpool.flags.release handle)
      fun retired => ⟨retired, Or.inl (hledger retired)⟩

theorem abort (hdevice : handle.deviceId = deviceId) (answers : TransferPool.AbortAnswers) :
    OwnedPool size deviceId (pool.abort answers handle) owners := by
  rcases pool.abort_cases answers handle hpool.inited with
    ⟨hrefused, _⟩ | ⟨_, hframe, hledger⟩
  · exact absurd (hpool.accepts hdevice) hrefused
  · apply hpool.gave_back hframe (hpool.flags.abort answers handle)
    intro retired
    have heq := hledger retired
    split_ifs at heq
    · exact ⟨_, Or.inl heq⟩
    · exact ⟨_, Or.inr heq⟩

end

theorem setErrFlag (hpool : OwnedPool size deviceId pool owners) (index : ℕ) :
    OwnedPool size deviceId (pool.setErrFlag index) owners :=
  hpool.same_ledger ⟨rfl, rfl, rfl⟩ hpool.flags fun _ => rfl

end OwnedPool

namespace TransferPool

theorem ensureUbMemStream_same (createStream : Option ℕ) (handle : SlotHandle)
    (pool : TransferPool) :
    handle.SameSlot (pool.ensureUbMemStream createStream handle).1.2 ∧
      SameFrame pool (pool.ensureUbMemStream createStream handle).2 ∧
      (pool.OwnFlags → (pool.ensureUbMemStream createStream handle).2.OwnFlags) ∧
      (pool.FreeFlagsClear → (pool.ensureUbMemStream createStream handle).2.FreeFlagsClear) ∧
      ∀ retired, (pool.ensureUbMemStream createStream handle).2.ledger
        retired = pool.ledger retired := by
  let f (slot : PoolSlot) := (slot.inUse, slot.errFlagAddr)
  have hsame : f (createUbMemStream createStream (pool.slots handle.slotIndex)).2 =
      f (pool.slots handle.slotIndex) := by
    unfold createUbMemStream
    split_ifs
    · rfl
    · rfl
    · cases createStream with
      | none => rfl
      | some stream => rfl
  obtain ⟨hinUse, haddr⟩ := Prod.ext_iff.mp hsame
  unfold ensureUbMemStream
  dsimp only
  split_ifs
  iterate 4 exact ⟨⟨rfl, rfl, rfl⟩, ⟨rfl, rfl, rfl⟩, id, id, fun _ => rfl⟩
  · refine ⟨⟨rfl, rfl, rfl⟩, ⟨rfl, rfl, rfl⟩, fun hflags => hflags.updateSlot ?_, id, ?_⟩
    · rw [show (createUbMemStream _ _).2.errFlagAddr = _ from haddr]
      exact hflags _
    · intro retired
      apply Ledger.ext
      · rfl
      · funext i
        refine (updateSlot_inUse _ _ _ _).trans ?_
        split_ifs with heq
        · exact heq ▸ hinUse
        · rfl
      · rfl
  · exact ⟨⟨rfl, rfl, rfl⟩, ⟨rfl, rfl, rfl⟩, id, id, fun _ => rfl⟩

end TransferPool

end Hixl
