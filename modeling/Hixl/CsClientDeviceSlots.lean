import Hixl.CsClientModel

/-!
# The shared slot of the device path

The slot is held as long as a handle is live.  Work on the slot that nobody has
seen complete belongs to a live handle, unless the slot is marked for an abort
or the client is latched; therefore the last reference releases the slot only
when all work on it is done.  `SlotState` holds at every point inside a call.
-/

namespace Hixl

open LeaseLogs

namespace DeviceClient

structure SlotState (s : DeviceClient) : Prop where
  leases : Leases s.slotLog
    (s.activeSlot.map fun slotRef => (slotRef, s.slotIndexOf slotRef))
  fresh : ∀ {slotRef index}, .acquired slotRef index ∈ s.slotLog →
    slotRef < s.nextRef
  shared : ∀ handle ∈ s.liveHandles, s.activeSlot = some handle.sharedSlot
  ids : (s.liveHandles.map DeviceCompleteHandle.id).Nodup
  ids_lt : ∀ handle ∈ s.liveHandles, handle.id < s.nextHandle
  issued_lt : ∀ {slotRef id}, .issued slotRef id ∈ s.slotLog →
    id < s.nextHandle
  work : ∀ {slotRef id}, s.activeSlot = some slotRef →
    .issued slotRef id ∈ s.slotLog → .observed slotRef id ∈ s.slotLog ∨
      (∃ handle ∈ s.liveHandles, handle.id = id) ∨
      s.abortActiveSlot = true ∨ s.transferFailureLatched = true

/-! ## Giving the slot back -/

def gaveBack (errFlags : ℕ → Bool) (event : Event ℕ) (s : DeviceClient) : DeviceClient :=
  { s with
    errFlags := errFlags
    slotLog := event :: s.slotLog
    abortActiveSlot := false
    activeSlot := none }

variable {s : DeviceClient} {slotRef id : ℕ} {handle : DeviceCompleteHandle}

theorem releaseSharedSlotRef_cases (hactive : s.activeSlot = some slotRef) :
    (s.useCount slotRef ≠ 1 ∧ s.releaseSharedSlotRef slotRef = s) ∨
    (s.useCount slotRef = 1 ∧ ∃ errFlags event,
      s.releaseSharedSlotRef slotRef = s.gaveBack errFlags event ∧
      (event = .aborted slotRef (s.slotIndexOf slotRef) ∨
        event = .released slotRef (s.slotIndexOf slotRef) ∧
        s.transferFailureLatched = false ∧ s.abortActiveSlot = false)) := by
  by_cases hlast : s.useCount slotRef = 1
  · obtain ⟨errFlags, hclear⟩ : ∃ errFlags, s.clearErrFlag slotRef = { s with errFlags := errFlags }
        := by
      unfold clearErrFlag
      split
      · exact ⟨s.errFlags, rfl⟩
      · exact ⟨_, rfl⟩
    refine Or.inr ⟨hlast, errFlags, ?_⟩
    unfold releaseSharedSlotRef
    rw [hclear]
    by_cases hfailed : (s.transferFailureLatched || s.abortActiveSlot) = true
    · refine ⟨.aborted slotRef (s.slotIndexOf slotRef), ?_, Or.inl rfl⟩
      simp [hactive, hlast, hfailed, gaveBack, record, slotIndexOf]
    · refine ⟨.released slotRef (s.slotIndexOf slotRef), ?_, Or.inr ⟨rfl, by simpa using hfailed⟩⟩
      simp [hactive, hlast, hfailed, gaveBack, record, slotIndexOf]
  · exact Or.inl ⟨hlast, by simp [releaseSharedSlotRef, hlast]⟩

theorem releaseSharedSlotRef_handles (slotRef : ℕ) (s : DeviceClient) :
    (s.releaseSharedSlotRef slotRef).liveHandles = s.liveHandles ∧
      (s.releaseSharedSlotRef slotRef).pendingDeviceHandles = s.pendingDeviceHandles ∧
      (s.releaseSharedSlotRef slotRef).syncHandle = s.syncHandle := by
  by_cases hactive : s.activeSlot = some slotRef
  · obtain ⟨_, heq⟩ | ⟨_, errFlags, event, heq, _⟩ := releaseSharedSlotRef_cases hactive
    · simp [heq]
    · simp [heq, gaveBack]
  · simp [releaseSharedSlotRef, hactive]

/-- The handle is gone, and its reference to the slot is not yet dropped. -/
def dropHandle (id : ℕ) (s : DeviceClient) : DeviceClient :=
  { s with
    pendingDeviceHandles := s.pendingDeviceHandles.filter (· ≠ id)
    liveHandles := s.liveHandles.filter fun other => other.id ≠ id }

/-- The work of the transfer is seen complete, or the slot will be aborted. -/
def Accounted (id : ℕ) (s : DeviceClient) : Prop :=
  ∀ slotRef, s.activeSlot = some slotRef → .issued slotRef id ∈ s.slotLog →
    .observed slotRef id ∈ s.slotLog ∨ s.abortActiveSlot = true ∨ s.transferFailureLatched = true

theorem accounted_of_marked (hmarked : s.abortActiveSlot = true) (id : ℕ) : s.Accounted id :=
  fun _ _ _ => Or.inr (Or.inl hmarked)

theorem accounted_of_latched (hlatched : s.transferFailureLatched = true) (id : ℕ) :
    s.Accounted id :=
  fun _ _ _ => Or.inr (Or.inr hlatched)

structure HandleReleased (id : ℕ) (s s' : DeviceClient) : Prop where
  state : s'.SlotState
  live : s'.activeSlot.isSome → s'.liveHandles ≠ []
  handles : s'.liveHandles = s.liveHandles.filter fun other => other.id ≠ id
  pending : s'.pendingDeviceHandles = s.pendingDeviceHandles.filter (· ≠ id)
  sync : s'.syncHandle = s.syncHandle
  mark : s'.activeSlot.isSome → s'.abortActiveSlot = s.abortActiveSlot

namespace SlotState

variable (hstate : s.SlotState)

include hstate

section

variable (hactive : s.activeSlot = some slotRef)

include hactive

theorem leases_held : Leases s.slotLog (some (slotRef, s.slotIndexOf slotRef)) := by
  have hleases := hstate.leases
  rwa [hactive, Option.map_some] at hleases

theorem useCount_eq : s.useCount slotRef = 1 + s.liveHandles.length := by
  have hall : s.liveHandles.countP
      (fun handle => handle.sharedSlot = slotRef) = s.liveHandles.length := by
    apply List.countP_eq_length.mpr
    intro handle hmem
    simpa using (Option.some.inj (hactive.symm.trans (hstate.shared handle hmem))).symm
  simp [useCount, hactive, hall]

theorem gaveBack (hlive : s.liveHandles = []) {event : Event ℕ} (errFlags : ℕ → Bool)
    (hevent : event = .aborted slotRef (s.slotIndexOf slotRef) ∨
      event = .released slotRef (s.slotIndexOf slotRef) ∧
      s.transferFailureLatched = false ∧ s.abortActiveSlot = false) :
    (s.gaveBack errFlags event).SlotState := by
  have hleases := hstate.leases_held hactive
  have hends : (∀ other index, event ≠ .acquired other index) ∧
      ∀ other id, event ≠ .issued other id := by
    obtain rfl | ⟨rfl, _⟩ := hevent <;> simp
  refine { hstate with leases := ?_, fresh := ?_, shared := ?_, issued_lt := ?_, work := ?_ }
  · obtain rfl | ⟨rfl, hlatched, habort⟩ := hevent
    · exact Leases.aborted hleases
    · apply Leases.released hleases
      intro id hissued
      simpa [hlive, habort, hlatched] using hstate.work hactive hissued
  · intro other index hmem
    exact hstate.fresh (List.mem_of_ne_of_mem (hends.1 other index).symm hmem)
  · intro handle hmem
    simp [DeviceClient.gaveBack, hlive] at hmem
  · intro other id hmem
    exact hstate.issued_lt (List.mem_of_ne_of_mem (hends.2 other id).symm hmem)
  · intro other id hnone
    cases hnone

theorem releaseSharedSlotRef : (s.releaseSharedSlotRef slotRef).SlotState ∧
      ((s.releaseSharedSlotRef slotRef).activeSlot.isSome → s.liveHandles ≠ []) := by
  have hcount := hstate.useCount_eq hactive
  obtain ⟨hmore, heq⟩ | ⟨hlast, errFlags, event, heq, hevent⟩ := releaseSharedSlotRef_cases hactive
  · rw [heq]
    exact ⟨hstate, fun _ hlive => hmore (by simpa [hlive] using hcount)⟩
  · rw [heq]
    have hlive : s.liveHandles = [] := List.eq_nil_of_length_eq_zero (by omega)
    exact ⟨hstate.gaveBack hactive hlive errFlags hevent, nofun⟩

end

theorem dropHandle (haccounted : s.Accounted id) : (s.dropHandle id).SlotState := by
  refine { hstate with
    shared := fun handle hmem => hstate.shared handle (List.mem_filter.mp hmem).1
    ids := List.Nodup.sublist (List.Sublist.map _ List.filter_sublist) hstate.ids
    ids_lt := fun handle hmem => hstate.ids_lt handle (List.mem_filter.mp hmem).1
    work := ?_ }
  intro slotRef work hactive hissued
  obtain hobserved | ⟨handle, hmem, hid⟩ | hgiven := hstate.work hactive hissued
  · exact Or.inl hobserved
  · by_cases hwork : work = id
    · subst hwork
      exact (haccounted slotRef hactive hissued).imp_right Or.inr
    · exact Or.inr (Or.inl ⟨handle, List.mem_filter.mpr ⟨hmem, by simpa [hid] using hwork⟩, hid⟩)
  · exact Or.inr (Or.inr hgiven)

section

variable (hlive : ∃ handle ∈ s.liveHandles, handle.id = id)

include hlive

theorem releaseDevCompleteHandle (haccounted : s.Accounted id) :
    HandleReleased id s (s.releaseDevCompleteHandle id) := by
  obtain ⟨slotRef, hactive, heq⟩ : ∃ slotRef, s.activeSlot = some slotRef ∧
      s.releaseDevCompleteHandle id = (s.dropHandle id).releaseSharedSlotRef slotRef := by
    cases hfind : s.liveHandles.find? fun handle => handle.id = id with
    | none =>
      obtain ⟨handle, hmem, hid⟩ := hlive
      simpa [hid] using List.find?_eq_none.mp hfind handle hmem
    | some handle =>
      refine ⟨handle.sharedSlot, hstate.shared handle (List.mem_of_find?_eq_some hfind), ?_⟩
      simp only [DeviceClient.releaseDevCompleteHandle, hfind]
      rfl
  obtain ⟨hhandles, hpending, hsync⟩ := releaseSharedSlotRef_handles slotRef (s.dropHandle id)
  obtain ⟨hreleased, hmore⟩ := (hstate.dropHandle haccounted).releaseSharedSlotRef hactive
  rw [heq]
  refine ⟨hreleased, hhandles ▸ hmore, hhandles, hpending, hsync, fun hsome => ?_⟩
  obtain ⟨_, hkept⟩ | ⟨_, errFlags, event, hgone, _⟩ :=
    releaseSharedSlotRef_cases (s := s.dropHandle id) hactive
  · rw [hkept]
    rfl
  · rw [hgone] at hsome
    cases hsome

end

theorem latch {latch : TransferLatch}
    (hlatch : s.transferFailureLatched = true → latch.transferFailureLatched = true) :
    SlotState { s with toTransferLatch := latch } :=
  { hstate with
    work := fun hactive hissued =>
      (hstate.work hactive hissued).imp_right (Or.imp_right (Or.imp_right hlatch)) }

theorem mark : SlotState { s with abortActiveSlot := true } :=
  { hstate with work := fun _ _ => Or.inr (Or.inr (Or.inl rfl)) }

theorem observe (hactive : s.activeSlot = some slotRef) (id : ℕ) :
    (s.record (.observed slotRef id)).SlotState ∧
      (s.record (.observed slotRef id)).Accounted id := by
  constructor
  · refine { hstate with leases := ?_, fresh := ?_, issued_lt := ?_, work := ?_ }
    · change Leases _ (s.activeSlot.map _)
      rw [hactive]
      exact Leases.observed (hstate.leases_held hactive)
    · intro other index hmem
      exact hstate.fresh (by simpa [record] using hmem)
    · intro other work hmem
      exact hstate.issued_lt (by simpa [record] using hmem)
    · intro other work hheld hissued
      exact (hstate.work hheld (by simpa [record] using hissued)).imp_left (List.mem_cons_of_mem _)
  · intro other hheld _
    obtain rfl := Option.some.inj (hactive.symm.trans hheld)
    exact Or.inl List.mem_cons_self

end SlotState

structure DeviceInvariant (s : DeviceClient) : Prop extends SlotState s where
  live : s.activeSlot.isSome → s.liveHandles ≠ []
  owner : ∀ handle ∈ s.liveHandles, handle.id ∈ s.pendingDeviceHandles ∨
    s.syncHandle.map DeviceCompleteHandle.id = some handle.id
  sync : ∀ handle, s.syncHandle = some handle →
    s.activeSlot = some handle.sharedSlot ∧ ∃ other ∈ s.liveHandles, other.id = handle.id

theorem SlotState.invariant (hstate : s.SlotState)
    (hlive : s.activeSlot.isSome → s.liveHandles ≠ []) (hidle : s.syncHandle = none)
    (howner : ∀ handle ∈ s.liveHandles, handle.id ∈ s.pendingDeviceHandles) :
    s.DeviceInvariant ∧ s.syncHandle = none :=
  ⟨⟨hstate, hlive, fun handle hmem => Or.inl (howner handle hmem), fun handle hsync => by
    rw [hidle] at hsync
    cases hsync⟩, hidle⟩

theorem HandleReleased.invariant {s' : DeviceClient} (hreleased : HandleReleased id s s')
    (hidle : s.syncHandle = none)
    (howner : ∀ handle ∈ s.liveHandles, handle.id ≠ id → handle.id ∈ s.pendingDeviceHandles) :
    s'.DeviceInvariant ∧ s'.syncHandle = none := by
  apply hreleased.state.invariant hreleased.live (hreleased.sync.trans hidle)
  intro handle hmem
  rw [hreleased.handles] at hmem
  obtain ⟨hmem, hid⟩ := List.mem_filter.mp hmem
  rw [hreleased.pending]
  exact List.mem_filter.mpr ⟨howner handle hmem (by simpa using hid), hid⟩

/-! ## Submitting a transfer -/

structure Holding (slotRef : ℕ) (s : DeviceClient) : Prop
    extends SlotState s where
  active : s.activeSlot = some slotRef
  idle : s.syncHandle = none
  owner : ∀ handle ∈ s.liveHandles, handle.id ∈ s.pendingDeviceHandles

structure Submitted (handle : DeviceCompleteHandle) (s : DeviceClient) : Prop
    extends SlotState s where
  active : s.activeSlot = some handle.sharedSlot
  idle : s.syncHandle = none
  mem : handle ∈ s.liveHandles
  owner : ∀ other ∈ s.liveHandles, other.id ≠ handle.id →
    other.id ∈ s.pendingDeviceHandles

theorem Holding.release (hholding : s.Holding slotRef) :
    (s.releaseSharedSlotRef slotRef).DeviceInvariant ∧
      (s.releaseSharedSlotRef slotRef).syncHandle = none := by
  obtain ⟨hhandles, hpending, hsync⟩ := releaseSharedSlotRef_handles slotRef s
  obtain ⟨hstate, hmore⟩ := hholding.toSlotState.releaseSharedSlotRef hholding.active
  apply hstate.invariant
  · rwa [hhandles]
  · exact hsync.trans hholding.idle
  · rw [hhandles, hpending]
    exact hholding.owner

theorem Submitted.release (hsubmitted : s.Submitted handle) (haccounted : s.Accounted handle.id) :
    (s.releaseDevCompleteHandle handle.id).DeviceInvariant ∧
      (s.releaseDevCompleteHandle handle.id).syncHandle = none :=
  (hsubmitted.toSlotState.releaseDevCompleteHandle
    ⟨handle, hsubmitted.mem, rfl⟩ haccounted).invariant hsubmitted.idle hsubmitted.owner

theorem Submitted.abort (hsubmitted : s.Submitted handle) :
    (releaseDevCompleteHandle handle.id { s with abortActiveSlot := true }).DeviceInvariant ∧
    (releaseDevCompleteHandle handle.id { s with abortActiveSlot := true }).syncHandle = none := by
  have hmarked : Submitted handle { s with abortActiveSlot := true } :=
    { hsubmitted with toSlotState := hsubmitted.toSlotState.mark }
  exact hmarked.release (accounted_of_marked rfl handle.id)

section

variable (hinv : s.DeviceInvariant) (hidle : s.syncHandle = none)

include hinv hidle

theorem DeviceInvariant.pending : ∀ handle ∈ s.liveHandles, handle.id ∈ s.pendingDeviceHandles := by
  intro handle hmem
  simpa [hidle] using hinv.owner handle hmem

theorem DeviceInvariant.acquireSharedSlot (answer : Except ℕ SlotHandle) :
    (∃ status, s.acquireSharedSlot answer = (.error status, s)) ∨
      ∃ slotRef s', s.acquireSharedSlot answer = (.ok slotRef, s') ∧ s'.Holding slotRef := by
  unfold DeviceClient.acquireSharedSlot
  cases hactive : s.activeSlot with
  | some slotRef =>
    exact Or.inr ⟨slotRef, s, rfl, hinv.toSlotState, hactive, hidle, hinv.pending hidle⟩
  | none =>
    cases answer with
    | error status => exact Or.inl ⟨status, rfl⟩
    | ok newSlot =>
      refine Or.inr ⟨_, _, rfl, ?_, rfl, hidle, hinv.pending hidle⟩
      have hleases := hinv.leases
      rw [hactive, Option.map_none] at hleases
      have hnew : ∀ index, Event.acquired s.nextRef index ∉ s.slotLog :=
        fun index hmem => absurd (hinv.fresh hmem) (Nat.lt_irrefl _)
      refine { hinv.toSlotState with
        leases := ?_, fresh := ?_, shared := ?_, issued_lt := ?_, work := ?_ }
      · simp only [Option.map_some, slotIndexOf, Function.update_self]
        exact Leases.acquired hleases hnew
      · intro slotRef index hmem
        obtain heq | hmem := List.mem_cons.mp hmem
        · obtain ⟨rfl, _⟩ := Event.acquired.inj heq
          exact Nat.lt_succ_self _
        · exact Nat.lt_succ_of_lt (hinv.fresh hmem)
      · intro handle hmem
        have hshared := hinv.shared handle hmem
        rw [hactive] at hshared
        cases hshared
      · intro slotRef id hmem
        exact hinv.issued_lt (by simpa using hmem)
      · intro slotRef id hheld hissued
        cases hheld
        obtain ⟨index, hold⟩ := hleases.acquired_of_issued (by simpa using hissued)
        exact absurd hold (hnew index)

end

section

variable (hholding : s.Holding slotRef) (hostFlag : Option Bool)

include hholding hostFlag

theorem Holding.newHandle :
    (s.newHandle slotRef hostFlag).Submitted ⟨s.nextHandle, slotRef, hostFlag⟩ := by
  have hstate : (s.newHandle slotRef hostFlag).SlotState :=
    { hholding.toSlotState with
      shared := List.forall_mem_cons.mpr ⟨hholding.active, hholding.shared⟩
      ids := by
        refine List.nodup_cons.mpr ⟨fun hmem => ?_, hholding.ids⟩
        obtain ⟨handle, hmem, hid⟩ := List.mem_map.mp hmem
        exact absurd hid (hholding.ids_lt handle hmem).ne
      ids_lt := List.forall_mem_cons.mpr ⟨Nat.lt_succ_self _, fun handle hmem =>
        Nat.lt_succ_of_lt (hholding.ids_lt handle hmem)⟩
      issued_lt := fun hissued => Nat.lt_succ_of_lt (hholding.issued_lt hissued)
      work := fun hactive hissued => (hholding.work hactive hissued).imp_right
        (Or.imp_left fun ⟨handle, hmem, hid⟩ => ⟨handle, List.mem_cons_of_mem _ hmem, hid⟩) }
  exact ⟨hstate, hholding.active, hholding.idle, List.mem_cons_self, List.forall_mem_cons.mpr
    ⟨fun hid => absurd rfl hid, fun other hmem _ => hholding.owner other hmem⟩⟩

theorem Holding.newHandle_accounted : (s.newHandle slotRef hostFlag).Accounted s.nextHandle :=
  fun _ _ hissued => absurd (hholding.issued_lt hissued) (Nat.lt_irrefl _)

end

theorem slotIndexOf_issueWork (slotRef id tasks other : ℕ) (s : DeviceClient) :
    (s.issueWork slotRef id tasks).slotIndexOf other = s.slotIndexOf other := by
  simp only [slotIndexOf, issueWork, Function.update_apply]
  split_ifs with hother
  · rw [hother]
  · rfl

theorem Submitted.issueWork (hsubmitted : s.Submitted handle) (tasks : ℕ) :
    (s.issueWork handle.sharedSlot handle.id tasks).Submitted handle := by
  have hleases := hsubmitted.leases_held hsubmitted.active
  have hactive : (s.issueWork handle.sharedSlot handle.id tasks).activeSlot =
      some handle.sharedSlot := hsubmitted.active
  refine { hsubmitted with leases := ?_, fresh := ?_, issued_lt := ?_, work := ?_ }
  · rw [hactive, Option.map_some, slotIndexOf_issueWork]
    exact Leases.issued hleases
  · intro slotRef index hmem
    exact hsubmitted.fresh (by simpa [DeviceClient.issueWork] using hmem)
  · intro slotRef id hmem
    obtain heq | hmem := List.mem_cons.mp hmem
    · obtain ⟨_, rfl⟩ := Event.issued.inj heq
      exact hsubmitted.ids_lt handle hsubmitted.mem
    · exact hsubmitted.issued_lt hmem
  · intro slotRef id hheld hissued
    obtain heq | hissued := List.mem_cons.mp hissued
    · obtain ⟨_, rfl⟩ := Event.issued.inj heq
      exact Or.inr (Or.inl ⟨handle, hsubmitted.mem, rfl⟩)
    · exact (hsubmitted.work hheld hissued).imp_left (List.mem_cons_of_mem _)

def SubmitResult (result : Except ℕ DeviceCompleteHandle × DeviceClient) : Prop :=
  (∃ status s', result = (.error status, s') ∧ s'.DeviceInvariant ∧ s'.syncHandle = none) ∨
  ∃ handle s', result = (.ok handle, s') ∧ s'.Submitted handle

theorem Submitted.launchTransfer (hsubmitted : s.Submitted handle)
    (haccounted : s.Accounted handle.id) (listNum : ℕ) (answers : DeviceAnswers) :
    SubmitResult (s.launchTransfer handle listNum answers) := by
  unfold DeviceClient.launchTransfer
  cases answers.allocDescBuf with
  | some error => exact Or.inl ⟨_, _, rfl, hsubmitted.release haccounted⟩
  | none =>
    dsimp only
    have hissued := hsubmitted.issueWork
      (s.launchDeviceChunkedKernels answers.kernels listNum).2
    split_ifs with hstatus
    · exact Or.inl ⟨_, _, rfl, hissued.abort⟩
    · exact Or.inr ⟨_, _, rfl, hissued⟩

theorem Holding.openHandle (hholding : s.Holding slotRef) (isAsync : Bool) (listNum : ℕ)
    (answers : DeviceAnswers) : SubmitResult (s.openHandle isAsync slotRef listNum answers) := by
  unfold DeviceClient.openHandle
  by_cases hnotify : (s.slotObjects slotRef).notify.isNone = true
  · rw [if_pos hnotify]
    exact Or.inl ⟨_, _, rfl, hholding.release⟩
  rw [if_neg hnotify]
  cases if isAsync then answers.allocHostFlag else none with
  | some error => exact Or.inl ⟨_, _, rfl, hholding.release⟩
  | none =>
    by_cases halloc : (!answers.allocHandle) = true
    · simp only [if_pos halloc]
      exact Or.inl ⟨_, _, rfl, hholding.release⟩
    · simp only [if_neg halloc]
      exact (hholding.newHandle _).launchTransfer (hholding.newHandle_accounted _) listNum answers

namespace DeviceInvariant

variable (hinv : s.DeviceInvariant)

include hinv

theorem latchIfNeeded (ret : ℕ) : (s.latchIfNeeded ret).DeviceInvariant :=
  { hinv with
    toSlotState := hinv.toSlotState.latch fun hlatched =>
      TransferLatch.latched_of_latchIfNeeded hlatched ret }

section Idle

variable (hidle : s.syncHandle = none)

include hidle

theorem submitDevice (isAsync : Bool) (request : DeviceRequest) (answers : DeviceAnswers) :
    SubmitResult (s.submitDevice isAsync request answers) := by
  unfold DeviceClient.submitDevice
  split_ifs with hinput
  · exact Or.inl ⟨_, _, rfl, hinv, hidle⟩
  obtain ⟨status, hrefused⟩ | ⟨slotRef, s', hacquired, hholding⟩ :=
    hinv.acquireSharedSlot hidle answers.acquire
  · rw [hrefused]
    exact Or.inl ⟨_, _, rfl, hinv, hidle⟩
  · rw [hacquired]
    exact hholding.openHandle isAsync request.listNum answers

/-! ## The calls -/

section

variable (request : DeviceRequest) (answers : DeviceAnswers)

include request answers

theorem batchTransferAsync : (s.batchTransferAsync request answers).2.DeviceInvariant := by
  unfold DeviceClient.batchTransferAsync batchTransferDeviceAsync
  cases s.refuseTransfer answers with
  | some status => exact hinv
  | none =>
    obtain ⟨status, s', heq, hfailed, _⟩ | ⟨handle, s', heq, hsubmitted⟩ :=
      hinv.submitDevice hidle true request answers
    · rw [heq]
      exact hfailed.latchIfNeeded status
    · rw [heq]
      cases answers.copyFlag with
      | some error => exact hsubmitted.abort.1.latchIfNeeded error.status
      | none =>
        have hstate : SlotState
            { s' with pendingDeviceHandles := handle.id :: s'.pendingDeviceHandles } :=
          { hsubmitted.toSlotState with }
        refine (hstate.invariant (fun _ => List.ne_nil_of_mem hsubmitted.mem)
          hsubmitted.idle fun other hmem => ?_).1
        by_cases hid : other.id = handle.id
        · rw [hid]
          exact List.mem_cons_self
        · exact List.mem_cons_of_mem _ (hsubmitted.owner other hmem hid)

theorem beginTransferSync : (s.beginTransferSync request answers).2.DeviceInvariant := by
  unfold DeviceClient.beginTransferSync
  cases s.refuseTransfer answers with
  | some status => exact hinv
  | none =>
    obtain ⟨status, s', heq, hfailed, _⟩ | ⟨handle, s', heq, hsubmitted⟩ :=
      hinv.submitDevice hidle false request answers
    · rw [heq]
      exact hfailed.latchIfNeeded status
    · rw [heq]
      refine { hsubmitted.toSlotState with
        live := fun _ => List.ne_nil_of_mem hsubmitted.mem, owner := ?_, sync := ?_ }
      · intro other hmem
        by_cases hid : other.id = handle.id
        · rw [hid]
          exact Or.inr rfl
        · exact Or.inl (hsubmitted.owner other hmem hid)
      · intro other hsync
        cases hsync
        exact ⟨hsubmitted.active, handle, hsubmitted.mem, rfl⟩

end

theorem checkStatusDevice (id : ℕ) : (s.checkStatusDevice id).2.DeviceInvariant := by
  have hreleases : ∀ {s' : DeviceClient}, HandleReleased id s s' → s'.DeviceInvariant :=
    fun hreleased => (hreleased.invariant hidle fun other hmem _ => hinv.pending hidle other hmem).1
  unfold DeviceClient.checkStatusDevice
  cases hfind : s.liveHandles.find? fun handle => handle.id = id with
  | none => exact hinv
  | some handle =>
    have hmem := List.mem_of_find?_eq_some hfind
    have hid : handle.id = id := by simpa using List.find?_some hfind
    have hlive : ∃ other ∈ s.liveHandles, other.id = id := ⟨handle, hmem, hid⟩
    dsimp only
    rcases handle.hostFlag with _ | _ | _
    · exact hinv
    · dsimp only
      split_ifs with hlatched herror
      · exact hreleases (hinv.toSlotState.releaseDevCompleteHandle hlive
          (accounted_of_latched hlatched id))
      · have hlatch := TransferLatch.latched_of_latch s.toTransferLatch Status.failed.code
        have hreleased := (hinv.toSlotState.latch fun _ => hlatch).releaseDevCompleteHandle hlive
          (accounted_of_latched hlatch id)
        exact hreleases { hreleased with }
      · exact hinv
    · obtain ⟨hobserved, haccounted⟩ := hinv.toSlotState.observe (hinv.shared handle hmem) id
      exact hreleases { hobserved.releaseDevCompleteHandle hlive haccounted with }

end Idle

theorem endTransferSync (hsync : s.syncHandle = some handle) (synchronize : Option AclError) :
    (s.endTransferSync handle synchronize).2.DeviceInvariant := by
  obtain ⟨hactive, hlive⟩ := hinv.sync handle hsync
  have howner : ∀ other ∈ s.liveHandles, other.id ≠ handle.id →
      other.id ∈ s.pendingDeviceHandles := by
    intro other hmem hid
    have hne : handle.id ≠ other.id := hid.symm
    simpa [hsync, hne] using hinv.owner other hmem
  have hstate : SlotState { s with syncHandle := none } := { hinv.toSlotState with }
  cases synchronize with
  | some error =>
    have hreleased := hstate.mark.releaseDevCompleteHandle hlive
      (accounted_of_marked rfl handle.id)
    exact (hreleased.invariant rfl howner).1.latchIfNeeded error.status
  | none =>
    obtain ⟨hobserved, haccounted⟩ := hstate.observe hactive handle.id
    have hreleased := hobserved.releaseDevCompleteHandle hlive haccounted
    exact (hreleased.invariant rfl howner).1

end DeviceInvariant

theorem releaseDevCompleteHandle_of_not_live (hnot : ¬∃ handle ∈ s.liveHandles, handle.id = id) :
    s.releaseDevCompleteHandle id = s := by
  have hfind : (s.liveHandles.find? fun handle => handle.id = id) = none := by
    apply List.find?_eq_none.mpr
    intro handle hmem hid
    exact hnot ⟨handle, hmem, by simpa using hid⟩
  simp [releaseDevCompleteHandle, hfind]

structure Drained (s : DeviceClient) : Prop extends DeviceInvariant s where
  idle : s.syncHandle = none
  none_live : s.liveHandles = []

theorem abort_loop (ids : List ℕ) (hstate : s.SlotState) (hidle : s.syncHandle = none)
    (hmarked : s.activeSlot.isSome → s.abortActiveSlot = true ∧ s.liveHandles ≠ [])
    (hids : ∀ handle ∈ s.liveHandles, handle.id ∈ ids) :
    (ids.foldl (fun s id => s.releaseDevCompleteHandle id) s).Drained := by
  induction ids generalizing s with
  | nil =>
    have hnone : ∀ handle, handle ∉ s.liveHandles :=
      fun handle hmem => absurd (hids handle hmem) List.not_mem_nil
    exact ⟨(hstate.invariant (fun hactive => (hmarked hactive).2) hidle
      fun handle hmem => absurd hmem (hnone handle)).1, hidle,
      List.eq_nil_iff_forall_not_mem.mpr hnone⟩
  | cons id ids ih =>
    rw [List.foldl_cons]
    by_cases hlive : ∃ handle ∈ s.liveHandles, handle.id = id
    · obtain ⟨handle, hmem, hid⟩ := hlive
      have hactive : s.activeSlot.isSome := by
        rw [hstate.shared handle hmem]
        rfl
      have hreleased := hstate.releaseDevCompleteHandle
        ⟨handle, hmem, hid⟩ (accounted_of_marked (hmarked hactive).1 id)
      apply ih hreleased.state (hreleased.sync.trans hidle)
      · intro hsome
        exact ⟨(hreleased.mark hsome).trans (hmarked hactive).1, hreleased.live hsome⟩
      · intro other hother
        rw [hreleased.handles] at hother
        obtain ⟨hother, hne⟩ := List.mem_filter.mp hother
        exact List.mem_of_ne_of_mem (by simpa using hne) (hids other hother)
    · rw [releaseDevCompleteHandle_of_not_live hlive]
      apply ih hstate hidle hmarked
      intro handle hmem
      exact List.mem_of_ne_of_mem (fun heq => hlive ⟨handle, hmem, heq⟩) (hids handle hmem)

namespace DeviceInvariant

section

variable (hinv : s.DeviceInvariant)

include hinv

theorem abortAllPendingDeviceHandles (hidle : s.syncHandle = none) :
    s.abortAllPendingDeviceHandles.Drained := by
  unfold DeviceClient.abortAllPendingDeviceHandles
  split_ifs with hpending
  · refine ⟨hinv, hidle, List.eq_nil_iff_forall_not_mem.mpr fun handle hmem => ?_⟩
    simpa [hpending] using hinv.pending hidle handle hmem
  · have hstate : SlotState { s with pendingDeviceHandles := [] } := { hinv.toSlotState with }
    exact abort_loop _ hstate.mark hidle (fun hsome => ⟨rfl, hinv.live hsome⟩) (hinv.pending hidle)

theorem destroy (hidle : s.syncHandle = none) : s.destroy.DeviceInvariant := by
  have hdrained := hinv.abortAllPendingDeviceHandles hidle
  have hactive : s.abortAllPendingDeviceHandles.activeSlot = none := by
    by_contra hsome
    exact hdrained.live (Option.isSome_iff_ne_none.mpr hsome) hdrained.none_live
  have hcleanup : s.abortAllPendingDeviceHandles.cleanupActiveSlot =
      { s.abortAllPendingDeviceHandles with abortActiveSlot := false } := by
    simp [cleanupActiveSlot, hactive]
  unfold DeviceClient.destroy
  rw [hcleanup]
  refine { hdrained.toDeviceInvariant with work := fun {slotRef id} hheld => ?_ }
  cases hactive.symm.trans hheld

theorem flagLands (id : ℕ) : (s.flagLands id).DeviceInvariant := by
  have hmem : ∀ handle ∈ (s.flagLands id).liveHandles,
      ∃ other ∈ s.liveHandles, other.id = handle.id ∧ other.sharedSlot = handle.sharedSlot := by
    intro handle hmem
    obtain ⟨other, hother, rfl⟩ := List.mem_map.mp hmem
    refine ⟨other, hother, ?_⟩
    split_ifs <;> exact ⟨rfl, rfl⟩
  have hmap : (s.flagLands id).liveHandles.map DeviceCompleteHandle.id =
      s.liveHandles.map DeviceCompleteHandle.id := by
    simp only [DeviceClient.flagLands, List.map_map]
    apply List.map_congr_left
    intro handle _
    simp only [Function.comp_apply]
    split_ifs <;> rfl
  have hkept : ∀ work, (∃ handle ∈ s.liveHandles, handle.id = work) →
      ∃ handle ∈ (s.flagLands id).liveHandles, handle.id = work := by
    intro work hlive
    have hid : work ∈ s.liveHandles.map DeviceCompleteHandle.id := List.mem_map.mpr hlive
    rw [← hmap] at hid
    exact List.mem_map.mp hid
  refine { hinv with shared := ?_, ids := hmap ▸ hinv.ids, ids_lt := ?_, work := ?_, live := ?_,
                     owner := ?_, sync := ?_ }
  · intro handle h
    obtain ⟨other, hother, _, hslot⟩ := hmem handle h
    exact hslot ▸ hinv.shared other hother
  · intro handle h
    obtain ⟨other, hother, hid, _⟩ := hmem handle h
    exact hid ▸ hinv.ids_lt other hother
  · intro slotRef work hactive hissued
    exact (hinv.work hactive hissued).imp_right (Or.imp_left (hkept work))
  · intro hsome hnil
    exact hinv.live hsome (by simpa [DeviceClient.flagLands] using hnil)
  · intro handle h
    obtain ⟨other, hother, hid, _⟩ := hmem handle h
    exact hid ▸ hinv.owner other hother
  · intro handle hsync
    exact (hinv.sync handle hsync).imp_right (hkept handle.id)

theorem unlessBusy {s' : DeviceClient} (hcall : s.syncHandle = none → s'.DeviceInvariant) :
    (if s.syncHandle.isSome then s else s').DeviceInvariant := by
  split_ifs with hbusy
  · exact hinv
  · exact hcall (by simpa using hbusy)

theorem step (action : DeviceAction) : (s.step action).DeviceInvariant := by
  cases action with
  | flagLands id => exact hinv.flagLands id
  | raiseErrFlag address => exact { hinv with }
  | endTransferSync synchronize =>
    cases hsync : s.syncHandle with
    | none => simpa [DeviceClient.step, hsync] using hinv
    | some handle =>
      simp only [DeviceClient.step, hsync]
      exact hinv.endTransferSync hsync synchronize
  | batchTransferAsync request answers =>
    exact hinv.unlessBusy fun hidle => hinv.batchTransferAsync hidle request answers
  | beginTransferSync request answers =>
    exact hinv.unlessBusy fun hidle => hinv.beginTransferSync hidle request answers
  | checkStatus id => exact hinv.unlessBusy fun hidle => hinv.checkStatusDevice hidle id
  | destroy => exact hinv.unlessBusy hinv.destroy

theorem run (actions : List DeviceAction) : (s.run actions).DeviceInvariant := by
  induction actions generalizing s with
  | nil => exact hinv
  | cons action actions ih => exact ih (hinv.step action)

end

theorem start (configurableTransferSupported : Bool) (config : TransferConfig)
    (slotObjects : ℕ → SlotHandle) :
    (start configurableTransferSupported config slotObjects).DeviceInvariant := by
  have hstate : (DeviceClient.start configurableTransferSupported config slotObjects).SlotState :=
    { leases := Leases.nil
      fresh := fun hmem => absurd hmem List.not_mem_nil
      shared := List.forall_mem_nil _
      ids := List.nodup_nil
      ids_lt := List.forall_mem_nil _
      issued_lt := fun hmem => absurd hmem List.not_mem_nil
      work := fun _ hmem => absurd hmem List.not_mem_nil }
  exact (hstate.invariant nofun rfl
    (List.forall_mem_nil _)).1

end DeviceInvariant

end DeviceClient

/-- The slot is held exactly while it is used; every slot obtained from the
pool is given back once, unless it is still held; a release comes after all
work issued on the slot was seen complete, and no work is issued on a slot
that was given back.  The newest event of the log comes first. -/
structure SharedSlotProtocol (s : DeviceClient) : Prop where
  held : s.activeSlot.isSome ↔ s.liveHandles ≠ [] ∨ s.syncHandle.isSome
  acquired_once : ∀ slotRef, s.slotLog.countP (·.beginsLease slotRef) ≤ 1
  given_back_once : ∀ slotRef, s.slotLog.countP (·.endsLease slotRef) +
    (if s.activeSlot = some slotRef then 1 else 0) = s.slotLog.countP (·.beginsLease slotRef)
  released : ∀ newer older slotRef index,
    s.slotLog = newer ++ .released slotRef index :: older →
    .acquired slotRef index ∈ older ∧
      (∀ id, .issued slotRef id ∈ older → .observed slotRef id ∈ older) ∧
      ∀ id, .issued slotRef id ∉ newer
  aborted : ∀ newer older slotRef index,
    s.slotLog = newer ++ .aborted slotRef index :: older →
    .acquired slotRef index ∈ older ∧ ∀ id, .issued slotRef id ∉ newer

theorem deviceClient_shared_slot_protocol (configurableTransferSupported : Bool)
    (config : TransferConfig) (slotObjects : ℕ → SlotHandle) (actions : List DeviceAction) :
    SharedSlotProtocol ((DeviceClient.start configurableTransferSupported
      config slotObjects).run actions) := by
  have hinv := (DeviceClient.DeviceInvariant.start
    configurableTransferSupported config slotObjects).run actions
  have hleases := hinv.leases
  constructor
  · constructor
    · exact fun hactive => Or.inl (hinv.live hactive)
    · rintro (hlive | hsync)
      · obtain ⟨handle, hmem⟩ := List.exists_mem_of_ne_nil _ hlive
        rw [hinv.shared handle hmem]
        rfl
      · obtain ⟨handle, hhandle⟩ := Option.isSome_iff_exists.mp hsync
        rw [(hinv.sync handle hhandle).1]
        rfl
  · exact hleases.countP_beginsLease_le
  · intro slotRef
    have hcount := hleases.countP_endsLease slotRef
    simpa [Function.comp_def] using hcount
  · intro newer older slotRef index hlog
    rw [hlog] at hleases
    obtain ⟨hacquired, hwork⟩ := hleases.of_released
    exact ⟨hacquired, hwork, hleases.not_issued_after (by simp)⟩
  · intro newer older slotRef index hlog
    rw [hlog] at hleases
    exact ⟨hleases.of_aborted, hleases.not_issued_after (by simp)⟩

end Hixl
