import Hixl.TransferPoolOwners
import Hixl.UbMemEngineModel

/-!
# What the transfer engine may give back

Along every operation the engine holds the slots that it acquired and has not
given back.  Between operations it holds its active slot and nothing else, and
every unfinished transfer shares the active slot.  Submitting and querying obey
the rules that only held slots are given back or marked as failed and that a
slot is acquired only when none is held, and so does finalizing an engine
without unfinished transfers.
-/

namespace Hixl

open SharedObjectPrograms

def slotContract (deviceId : ℤ) : Contract PoolRequest PoolAnswer (List ℕ) where
  allowed request held :=
    match request with
    | .acquire => held = []
    | .writeErrFlag index => index ∈ held
    | .release handle => handle.deviceId = deviceId ∧ handle.slotIndex ∈ held
    | .abort handle => handle.deviceId = deviceId ∧ handle.slotIndex ∈ held
    | _ => True
  effect request held answer held' :=
    match request, answer with
    | .acquire, .error _ => held' = held
    | .acquire, .ok handle => handle.Of deviceId ∧ held' = handle.slotIndex :: held
    | .ensureUbMemStream handle, (_, handle') => handle.SameSlot handle' ∧ held' = held
    | .readErrFlag _, _ => held' = held
    | .writeErrFlag _, _ => held' = held
    | .release handle, _ => held' = held.erase handle.slotIndex
    | .abort handle, _ => held' = held.erase handle.slotIndex

namespace UbMemEngine

def activeSlots (engine : UbMemEngine) : List ℕ :=
  (engine.activeSlot.map fun slotRef => (engine.slotObjects slotRef).slotIndex).toList

structure AtRest (deviceId : ℤ) (engine : UbMemEngine) (held : List ℕ) :
    Prop where
  held_eq : held = engine.activeSlots
  device : ∀ slotRef, engine.activeSlot = some slotRef →
    (engine.slotObjects slotRef).Of deviceId
  pending_slot : ∀ handle ∈ engine.pendingHandles,
    engine.activeSlot = some handle.slot

namespace AtRest

variable {deviceId : ℤ} {engine : UbMemEngine} {held : List ℕ} {slotRef : ℕ}

theorem held_eq_nil (hrest : AtRest deviceId engine held)
    (hinactive : engine.activeSlot = none) : held = [] := by
  rw [hrest.held_eq, activeSlots, hinactive]
  rfl

theorem held_eq_singleton (hrest : AtRest deviceId engine held)
    (hactive : engine.activeSlot = some slotRef) :
    held = [(engine.slotObjects slotRef).slotIndex] := by
  rw [hrest.held_eq, activeSlots, hactive]
  rfl

theorem idle (hinactive : engine.activeSlot = none) (hpending : engine.pendingHandles = []) :
    AtRest deviceId engine [] := by
  constructor
  · rw [activeSlots, hinactive]
    rfl
  · intro slotRef hactive
    simp [hinactive] at hactive
  · intro handle hmem
    simp [hpending] at hmem

section

variable (hrest : AtRest deviceId engine held)

include hrest

theorem updateSlotObject {slot : SlotHandle} (hsame : (engine.slotObjects slotRef).SameSlot slot) :
    AtRest deviceId (engine.updateSlotObject slotRef slot) held := by
  constructor
  · rw [hrest.held_eq, activeSlots, activeSlots]
    congr 2
    funext other
    by_cases heq : other = slotRef
    · rw [heq]
      simp [UbMemEngine.updateSlotObject, hsame.2.1]
    · simp [UbMemEngine.updateSlotObject, heq]
  · intro other hactive
    by_cases heq : other = slotRef
    · rw [heq] at hactive ⊢
      have hold := hrest.device slotRef hactive
      simpa [UbMemEngine.updateSlotObject] using hold.same hsame
    · have hold := hrest.device other hactive
      simpa [UbMemEngine.updateSlotObject, heq] using hold
  · exact hrest.pending_slot

theorem releaseUbMemCompleteHandle (id : ℕ) :
    AtRest deviceId (engine.releaseUbMemCompleteHandle id) held :=
  { hrest with
    pending_slot := fun handle hmem => hrest.pending_slot handle (List.mem_filter.mp hmem).1 }

theorem nextHandle (next : ℕ) : AtRest deviceId { engine with nextHandle := next } held :=
  ⟨hrest.held_eq, hrest.device, hrest.pending_slot⟩

end

end AtRest

/-! ## The slot of an operation -/

variable {deviceId : ℤ} {engine : UbMemEngine} {held : List ℕ}

/-- The program keeps to the contract and leaves the engine at rest. -/
abbrev Rests (deviceId : ℤ) (held : List ℕ) {α : Type} (program : EngineProg (α × UbMemEngine)) :
    Prop :=
  Obeys (slotContract deviceId) (fun result held' => AtRest deviceId result.2 held') program held

theorem slotErrFlagSet_obeys (slot : SlotHandle) :
    Obeys (slotContract deviceId) (fun _ held' => held' = held) (slotErrFlagSet slot) held := by
  unfold slotErrFlagSet
  split
  · rfl
  · exact ⟨trivial, fun _ _ heffect => heffect⟩

def IssueObeys (deviceId : ℤ) (issue : List HixlOneSideOpDesc → UbMemCompleteHandle → UbMemEngine →
      EngineProg (Status × UbMemCompleteHandle × UbMemEngine)) : Prop :=
  ∀ ops handle engine held, AtRest deviceId engine held → engine.activeSlot = some handle.slot →
      Obeys (slotContract deviceId) (fun result held' => AtRest deviceId result.2.2 held' ∧
          result.2.2.activeSlot = some result.2.1.slot)
        (issue ops handle engine) held

theorem issueMemcpy_obeys (answers : TransferAnswers) :
    IssueObeys deviceId (issueMemcpy answers) := by
  intro ops handle engine held hrest hactive
  unfold issueMemcpy
  split_ifs <;> exact ⟨hrest, hactive⟩

section

variable (hrest : AtRest deviceId engine held)

include hrest

theorem acquireUbMemSlot_obeys : Obeys (slotContract deviceId)
      (fun result held' => AtRest deviceId result.2 held' ∧ ∀ slotRef, result.1 = .ok slotRef →
          result.2.activeSlot = some slotRef)
      engine.acquireUbMemSlot held := by
  unfold acquireUbMemSlot
  split
  · rename_i slotRef hactive
    constructor
    · exact hrest
    · rintro other ⟨⟩
      exact hactive
  · rename_i hinactive
    have hnone := hrest.held_eq_nil hinactive
    have hpending : engine.pendingHandles = [] := by
      apply List.eq_nil_iff_forall_not_mem.mpr
      intro handle hmem
      have hactive := hrest.pending_slot handle hmem
      simp [hinactive] at hactive
    constructor
    · exact hnone
    · rintro (status | newSlot) held' heffect
      · rcases heffect with rfl
        exact ⟨hrest, fun _ hok => absurd hok (by simp)⟩
      · rcases heffect with ⟨hdevice, rfl⟩
        constructor
        · constructor
          · rw [hnone]
            simp [activeSlots, UbMemEngine.updateSlotObject]
          · rintro slotRef ⟨⟩
            simpa [UbMemEngine.updateSlotObject] using hdevice
          · intro handle hmem
            exact absurd hmem (by simp [UbMemEngine.updateSlotObject, hpending])
        · rintro slotRef ⟨⟩
          rfl

/-- A failed transfer marks its slot, which the engine holds. -/
theorem setSlotErrFlag_releases {slotRef : ℕ} (hactive : engine.activeSlot = some slotRef)
    {α : Type} (value : α) (id : ℕ) : Rests deviceId held (do
      setSlotErrFlag (engine.slotObjects slotRef)
      return (value, engine.releaseUbMemCompleteHandle id)) := by
  unfold setSlotErrFlag
  split
  · exact hrest.releaseUbMemCompleteHandle id
  · next index haddr =>
    constructor
    · rw [hrest.held_eq_singleton hactive]
      exact List.mem_singleton.mpr ((hrest.device slotRef hactive).2 index haddr)
    · rintro _ _ rfl
      exact hrest.releaseUbMemCompleteHandle id

variable {slotRef : ℕ}

theorem pendingHandles_eq_nil (hactive : engine.activeSlot = some slotRef)
    (hcount : engine.useCount slotRef = 1) : engine.pendingHandles = [] := by
  rw [useCount, if_pos hactive] at hcount
  have hnone : engine.pendingHandles.filter (fun handle => handle.slot = slotRef) = [] :=
    List.length_eq_zero_iff.mp (by omega)
  apply List.eq_nil_iff_forall_not_mem.mpr
  intro handle hmem
  have hsame := hrest.pending_slot handle hmem
  rw [hactive, Option.some.injEq] at hsame
  have hshared := List.filter_eq_nil_iff.mp hnone handle hmem
  exact hshared (by simp [hsame])

theorem releaseUbMemSlot_obeys (slotRef : ℕ) :
    Obeys (slotContract deviceId) (AtRest deviceId) (engine.releaseUbMemSlot slotRef) held := by
  unfold releaseUbMemSlot
  split_ifs with hother hcount
  · exact hrest
  · have hactive : engine.activeSlot = some slotRef := not_not.mp hother
    have hheld := hrest.held_eq_singleton hactive
    have hpending := pendingHandles_eq_nil hrest hactive hcount
    have hallowed : (engine.slotObjects slotRef).deviceId = deviceId ∧
        (engine.slotObjects slotRef).slotIndex ∈ held := by
      rw [hheld]
      exact ⟨(hrest.device slotRef hactive).1, List.mem_singleton_self _⟩
    have hnone : held.erase (engine.slotObjects slotRef).slotIndex = [] := by
      rw [hheld, List.erase_cons_head]
    have hidle : AtRest deviceId { engine with activeSlot := none } [] := AtRest.idle rfl hpending
    apply (slotErrFlagSet_obeys (engine.slotObjects slotRef)).bind
    intro failed held₀ hsame
    rw [hsame]
    have hgiven : ∀ held', held' = held.erase (engine.slotObjects slotRef).slotIndex →
          Obeys (slotContract deviceId) (AtRest deviceId)
            (pure { engine with activeSlot := none }) held' := by
      rintro held' rfl
      rwa [hnone]
    split_ifs
    all_goals exact ⟨hallowed, fun _ held' heffect => hgiven held' heffect⟩
  · exact hrest

theorem submitThrough_obeys {issue : List HixlOneSideOpDesc → UbMemCompleteHandle → UbMemEngine →
      EngineProg (Status × UbMemCompleteHandle × UbMemEngine)} (hissue : IssueObeys deviceId issue)
    (answers : TransferAnswers) (ops : List HixlOneSideOpDesc) :
    Obeys (slotContract deviceId) (fun result held' => AtRest deviceId result.2 held' ∧
        ∀ handle, result.1 = .ok handle → result.2.activeSlot = some handle.slot)
      (submitThrough answers issue ops engine) held := by
  unfold submitThrough
  split
  · rename_i translated _
    apply (acquireUbMemSlot_obeys hrest).bind
    rintro ⟨acquired, engine₁⟩ held₁ ⟨hrest₁, hactive⟩
    cases acquired with
    | error status => exact ⟨hrest₁, nofun⟩
    | ok slotRef =>
      have hactive₁ := hactive slotRef rfl
      generalize (if translated.isEmpty then ops else translated) = opDescs
      split_ifs
      · apply (releaseUbMemSlot_obeys hrest₁ slotRef).bind
        intro engine₂ held₂ hrest₂
        exact ⟨hrest₂, nofun⟩
      · apply (hissue _ _ _ _ (hrest₁.nextHandle _) hactive₁).bind
        rintro ⟨status, handle, engine₂⟩ held₂ ⟨hrest₂, hactive₂⟩
        dsimp only
        split_ifs
        · constructor
          · exact { hrest₂ with
              pending_slot := List.forall_mem_cons.mpr ⟨hactive₂, hrest₂.pending_slot⟩ }
          · rintro _ ⟨⟩
            exact hactive₂
        · exact ⟨hrest₂.releaseUbMemCompleteHandle handle.id, nofun⟩
  · exact ⟨hrest, nofun⟩

section

variable (request : TransferRequest) (answers : TransferAnswers)

include request answers

theorem launchOnSlot_obeys (handle : UbMemCompleteHandle) :
    Obeys (slotContract deviceId) (fun result held' => AtRest deviceId result.2 held' ∧
        result.2.activeSlot = engine.activeSlot)
      (engine.launchOnSlot request answers handle) held := by
  unfold launchOnSlot
  rw [obeys_call]
  constructor
  · exact trivial
  · rintro ⟨status, slot⟩ held' ⟨hsame, rfl⟩
    split
    · rename_i slot' hanswer
      rcases hanswer with ⟨⟩
      exact ⟨hrest.updateSlotObject hsame, rfl⟩
    · rename_i status' slot' _ hanswer
      rcases hanswer with ⟨⟩
      exact ⟨hrest.updateSlotObject hsame, rfl⟩

omit hrest in
theorem issueAicpu_obeys : IssueObeys deviceId (issueAicpu request answers) := by
  intro ops handle engine held hrest hactive
  unfold issueAicpu
  split
  · exact ⟨hrest, hactive⟩
  · dsimp only
    split
    · exact ⟨hrest, hactive⟩
    split
    · exact ⟨hrest, hactive⟩
    · apply (launchOnSlot_obeys hrest request answers _).bind
      rintro ⟨status, engine₁⟩ held₁ ⟨hrest₁, hsame⟩
      have hactive₁ : engine₁.activeSlot = some handle.slot := hsame.trans hactive
      split_ifs <;> exact ⟨hrest₁, hactive₁⟩

theorem submitAsync_obeys : Rests deviceId held (engine.submitAsync request answers) := by
  unfold submitAsync
  split_ifs
  · exact hrest
  · exact (submitThrough_obeys hrest (issueMemcpy_obeys answers) answers _).mono
      fun _ _ => And.left
  · exact (submitThrough_obeys hrest (issueAicpu_obeys _ answers) answers _).mono
      fun _ _ => And.left

end

theorem checkStatus_obeys (id : ℕ) (answers : QueryAnswers) :
    Obeys (slotContract deviceId) (fun result held' => AtRest deviceId result.2 held' ∧
        result.2.activeSlot = engine.activeSlot)
      (engine.checkStatus id answers) held := by
  unfold checkStatus
  split
  · exact ⟨hrest, rfl⟩
  · dsimp only
    split_ifs
    · exact ⟨hrest.releaseUbMemCompleteHandle id, rfl⟩
    · exact ⟨hrest.releaseUbMemCompleteHandle id, rfl⟩
    · apply (slotErrFlagSet_obeys _).bind
      intro failed held₁ hsame
      rw [hsame]
      split_ifs
      · exact ⟨hrest.releaseUbMemCompleteHandle id, rfl⟩
      · exact ⟨hrest, rfl⟩

theorem memcpySyncLoop_obeys (handle : UbMemCompleteHandle) (flagDone : Bool) (polls : List Bool)
    (hactive : engine.activeSlot = some handle.slot) :
    Rests deviceId held (engine.memcpySyncLoop handle flagDone polls) := by
  induction polls generalizing flagDone engine held with
  | nil =>
    apply (checkStatus_obeys hrest handle.id _).bind
    rintro ⟨⟨status, complete⟩, engine₁⟩ held₁ ⟨hrest₁, hsame⟩
    dsimp only
    split_ifs
    · exact hrest₁.releaseUbMemCompleteHandle handle.id
    · exact hrest₁
    · exact hrest₁
    · exact setSlotErrFlag_releases hrest₁ (hsame.trans hactive) _ handle.id
  | cons next rest ih =>
    apply (checkStatus_obeys hrest handle.id _).bind
    rintro ⟨⟨status, complete⟩, engine₁⟩ held₁ ⟨hrest₁, hsame⟩
    dsimp only
    split_ifs
    · exact hrest₁.releaseUbMemCompleteHandle handle.id
    · exact hrest₁
    · exact hrest₁
    · exact ih hrest₁ next (hsame.trans hactive)

theorem submitSync_obeys (request : TransferRequest) (answers : TransferAnswers)
    (sync : SyncAnswers) : Rests deviceId held (engine.submitSync request answers sync) := by
  unfold submitSync
  split_ifs
  · exact hrest
  · unfold submitMemcpySync
    apply (submitThrough_obeys hrest (issueMemcpy_obeys answers) answers _).bind
    rintro ⟨submitted, engine₁⟩ held₁ ⟨hrest₁, hactive⟩
    cases submitted with
    | error status => exact hrest₁
    | ok handle =>
      exact memcpySyncLoop_obeys hrest₁ handle sync.firstPoll sync.polls (hactive handle rfl)
  · apply (submitThrough_obeys hrest (issueAicpu_obeys _ answers) answers _).bind
    rintro ⟨submitted, engine₁⟩ held₁ ⟨hrest₁, hactive⟩
    cases submitted with
    | error status => exact hrest₁
    | ok handle =>
      dsimp only
      split_ifs
      · exact setSlotErrFlag_releases hrest₁ (hactive handle rfl) _ handle.id
      · exact hrest₁.releaseUbMemCompleteHandle handle.id
      · exact hrest₁

end

variable {next : UbMemEngine}

section

variable (habort : engine.abortPendingHandles = .ret next)

include habort

theorem finalize_of_inactive (hactive : next.activeSlot = none) : engine.finalize = .ret next := by
  simp only [finalize, habort, Prog.ret_bind, hactive]
  rfl

theorem finalize_of_active (hactive : next.activeSlot = some slotRef) :
    engine.finalize = .call (.abort (next.slotObjects slotRef)) fun _ =>
      .ret { next with activeSlot := none } := by
  simp only [finalize, habort, Prog.ret_bind, hactive]
  rfl

end

theorem finalize_obeys (hrest : AtRest deviceId engine held)
    (hpending : engine.pendingHandles = []) :
    Obeys (slotContract deviceId) (fun engine' held' => AtRest deviceId engine' held' ∧ held' = [])
      engine.finalize held := by
  have habort : engine.abortPendingHandles = .ret { engine with pendingHandles := [] } := by
    rw [abortPendingHandles, hpending]
    rfl
  cases hactive : engine.activeSlot with
  | none =>
    rw [finalize_of_inactive habort hactive, hrest.held_eq_nil hactive]
    exact ⟨AtRest.idle hactive rfl, rfl⟩
  | some slotRef =>
    have hheld := hrest.held_eq_singleton hactive
    rw [finalize_of_active habort hactive]
    constructor
    · rw [hheld]
      exact ⟨(hrest.device slotRef hactive).1, List.mem_singleton_self _⟩
    · intro _ held' heffect
      have hnone : held' = [] := by
        rw [show held' = held.erase (engine.slotObjects slotRef).slotIndex
          from heffect, hheld, List.erase_cons_head]
      rw [hnone]
      exact ⟨AtRest.idle rfl rfl, rfl⟩

end UbMemEngine

end Hixl
