import Hixl.StarsSdmaModel

/-!
# What a submission emits

A submission changes its state in two ways only: it appends an entry to the
open batch, or it publishes the batch.  The emitted entries, which are the
published ones followed by the open batch, grow by the appended entry and are
not touched by a publish, whatever the environment answers.
-/

namespace Hixl

namespace UbMemRtsqEntry

def isSdma : UbMemRtsqEntry → Bool
  | .sdma _ => true
  | .a5Sdma _ => true
  | .notify _ => false
  | .a5Notify _ => false

end UbMemRtsqEntry

@[simp] theorem buildSdmaEntry_isSdma
    (source destination size taskId : ℕ) (state : UbMemRtsqState) :
    (buildSdmaEntry source destination size taskId state).isSdma = true := by
  unfold buildSdmaEntry
  cases state.format <;> rfl

@[simp] theorem buildNotifyEntry_isSdma (notifyId taskId : ℕ) (state : UbMemRtsqState) :
    (buildNotifyEntry notifyId taskId state).isSdma = false := by
  unfold buildNotifyEntry
  cases state.format <;> rfl

def publishedEntries (records : List PublishRecord) : List UbMemRtsqEntry :=
  records.flatMap fun record => if record.ok then record.batchBefore else []

@[simp] theorem publishedEntries_nil : publishedEntries [] = [] := rfl

@[simp] theorem publishedEntries_append (left right : List PublishRecord) :
    publishedEntries (left ++ right) = publishedEntries left ++ publishedEntries right := by
  simp [publishedEntries]

theorem publishedEntries_singleton (record : PublishRecord) : publishedEntries [record] =
      if record.ok then record.batchBefore else [] := by
  simp [publishedEntries]

/-! ## One publish -/

inductive PublishCase (answers : PublishAnswers) (ring : RtsqRing)
    (state : UbMemRtsqState) (batch : List UbMemRtsqEntry) :
    PublishRecord → Prop
  | empty (hempty : batch = []) :
      PublishCase answers ring state batch ⟨true, ring, ring, ring, state, state, batch, batch, []⟩
  | refused {checked state'} (hcheck : ensureRtsqCapacity answers
        (ring.consume state.depth answers.beforeCheck) state batch.length =
          (false, checked, state')) :
      PublishCase answers ring state batch
        ⟨false, ring, checked, checked, state, state', batch, batch, []⟩
  | copyFailed {checked state' copy} (hcheck : ensureRtsqCapacity answers
        (ring.consume state.depth answers.beforeCheck) state batch.length = (true, checked, state'))
      (hcopy : copySqeBatchToRing answers
        (checked.consume state'.depth answers.beforeCopy) state' batch = copy) :
      PublishCase answers ring state batch
        ⟨false, ring, checked.consume state'.depth answers.beforeCopy,
          copy.ring, state, state', batch, batch, copy.written⟩
  | commitFailed {checked state' copy} (hcheck : ensureRtsqCapacity answers
        (ring.consume state.depth answers.beforeCheck) state batch.length = (true, checked, state'))
      (hcopy : copySqeBatchToRing answers
        (checked.consume state'.depth answers.beforeCopy) state' batch = copy) :
      PublishCase answers ring state batch
        ⟨false, ring, checked.consume state'.depth answers.beforeCopy,
          copy.ring.consume state'.depth answers.beforeCommit,
          state, state', batch, batch, copy.written⟩
  | published {checked state' copy} (hcheck : ensureRtsqCapacity answers
        (ring.consume state.depth answers.beforeCheck) state batch.length = (true, checked, state'))
      (hcopy : copySqeBatchToRing answers
        (checked.consume state'.depth answers.beforeCopy) state' batch = copy)
      (hcopied : copy.ok = true) :
      PublishCase answers ring state batch
        ⟨true, ring, checked.consume state'.depth answers.beforeCopy,
          { copy.ring.consume state'.depth answers.beforeCommit with
            tail := wrapAdd 32 state'.tail batch.length % state'.depth },
          state,
          { state' with
            tail := wrapAdd 32 state'.tail batch.length % state'.depth },
          batch, [], copy.written⟩

section Publish

variable (answers : PublishAnswers) (ring : RtsqRing) (state : UbMemRtsqState)
  (batch : List UbMemRtsqEntry)

theorem publishRtsqBatch_cases :
    PublishCase answers ring state batch (publishRtsqBatch answers ring state batch) := by
  unfold publishRtsqBatch
  by_cases hempty : batch.length = 0
  · rw [if_pos hempty]
    exact .empty (List.length_eq_zero_iff.mp hempty)
  · rw [if_neg hempty]
    dsimp only
    rcases hcheck : ensureRtsqCapacity answers
      (ring.consume state.depth answers.beforeCheck) state batch.length
      with ⟨_ | _, checked, state'⟩
    · exact .refused hcheck
    · dsimp only
      split_ifs with hcopied
      · exact .copyFailed hcheck rfl
      · exact .commitFailed hcheck rfl
      · exact .published hcheck rfl (by simpa using hcopied)

theorem publishRtsqBatch_batch : (publishRtsqBatch answers ring state batch).batchBefore = batch ∧
      (publishRtsqBatch answers ring state batch).batchAfter =
        if (publishRtsqBatch answers ring state batch).ok then [] else batch := by
  have hcases := publishRtsqBatch_cases answers ring state batch
  generalize publishRtsqBatch answers ring state batch = record at hcases ⊢
  cases hcases with
  | empty hempty => simp [hempty]
  | refused | copyFailed | commitFailed | published => simp

theorem publishRtsqBatch_stateBefore :
    (publishRtsqBatch answers ring state batch).stateBefore = state := by
  have hcases := publishRtsqBatch_cases answers ring state batch
  generalize publishRtsqBatch answers ring state batch = record at hcases ⊢
  cases hcases <;> rfl

variable {answers ring state} in
theorem ensureRtsqCapacity_state {checked : RtsqRing} {state' : UbMemRtsqState} {count : ℕ}
    {ok : Bool} (hcheck : ensureRtsqCapacity answers ring state count = (ok, checked, state')) :
    ∃ head, state' = { state with head := head } := by
  unfold ensureRtsqCapacity at hcheck
  split_ifs at hcheck <;> cases hcheck <;> exact ⟨_, rfl⟩

theorem publishRtsqBatch_state :
    ∃ head tail, (publishRtsqBatch answers ring state batch).stateAfter =
      { state with head := head, tail := tail } := by
  have hcases := publishRtsqBatch_cases answers ring state batch
  generalize publishRtsqBatch answers ring state batch = record at hcases ⊢
  cases hcases with
  | empty => exact ⟨state.head, state.tail, rfl⟩
  | refused hcheck | copyFailed hcheck | commitFailed hcheck | published hcheck =>
    obtain ⟨head, rfl⟩ := ensureRtsqCapacity_state hcheck
    exact ⟨head, _, rfl⟩

end Publish

namespace SubmitState

def emitted (s : SubmitState) : List UbMemRtsqEntry := publishedEntries s.records ++ s.batch

structure SameBuild (s s' : SubmitState) : Prop where
  stream : s'.state.streamId = s.state.streamId
  format : s'.state.format = s.state.format
  nextTaskId : s'.state.nextTaskId = s.state.nextTaskId

variable (answers : SubmitAnswers) (s : SubmitState)

theorem publish_emitted : (s.publish answers).2.emitted = s.emitted := by
  obtain ⟨hbefore, hafter⟩ := publishRtsqBatch_batch
    (answers.publish s.records.length) s.ring s.state s.batch
  simp only [publish, emitted, publishedEntries_append, publishedEntries_singleton, hafter, hbefore]
  split_ifs <;> simp

theorem publish_batch : (s.publish answers).2.batch =
      if (s.publish answers).1 then [] else s.batch :=
  (publishRtsqBatch_batch _ s.ring s.state s.batch).2

theorem publish_sameBuild : s.SameBuild (s.publish answers).2 := by
  obtain ⟨head, tail, hstate⟩ := publishRtsqBatch_state
    (answers.publish s.records.length) s.ring s.state s.batch
  constructor <;> simp [publish, hstate]

variable {s}

theorem publish_batch_le {n : ℕ} (hbatch : s.batch.length ≤ n) :
    (s.publish answers).2.batch.length ≤ n := by
  rw [publish_batch]
  split_ifs
  · exact Nat.zero_le n
  · exact hbatch

variable {answers} in
theorem flushIfFull_batch_lt (hbatch : s.batch.length ≤ maxRtsqEntriesPerPublish)
    (hflush : (s.flushIfFull answers).1 = true) :
    (s.flushIfFull answers).2.batch.length < maxRtsqEntriesPerPublish := by
  unfold flushIfFull at hflush ⊢
  split_ifs at hflush ⊢ with hfull
  · rw [publish_batch, if_pos hflush]
    decide
  · exact lt_of_le_of_ne hbatch hfull

theorem append_batch_le (build : ℕ → UbMemRtsqState → UbMemRtsqEntry)
    (hbatch : s.batch.length < maxRtsqEntriesPerPublish) :
    (s.append answers build).2.batch.length ≤ maxRtsqEntriesPerPublish := by
  unfold append
  split_ifs
  · simp only [List.length_append, List.length_singleton]
    omega
  · exact hbatch.le

end SubmitState

/-! ## Induction over a submission -/

section Induction

variable {answers : SubmitAnswers} {P : SubmitState → Prop}

/-- A property of submission states is kept when publishes keep it and
appending a copy entry to a batch with room keeps it. -/
structure KeptBySdma (answers : SubmitAnswers) (P : SubmitState → Prop) :
    Prop where
  publish : ∀ s, P s → s.batch.length ≤ maxRtsqEntriesPerPublish →
    P (s.publish answers).2
  append : ∀ s source destination size, P s →
    s.batch.length < maxRtsqEntriesPerPublish →
      P (s.append answers (buildSdmaEntry source destination size)).2

def Bounded (P : SubmitState → Prop) (s : SubmitState) : Prop :=
  P s ∧ s.batch.length ≤ maxRtsqEntriesPerPublish

namespace KeptBySdma

variable (hkept : KeptBySdma answers P) {s : SubmitState} (hs : Bounded P s)

include hkept hs

theorem bounded_publish : Bounded P (s.publish answers).2 :=
  ⟨hkept.publish s hs.1 hs.2, SubmitState.publish_batch_le answers hs.2⟩

theorem bounded_flush : Bounded P (s.flushIfFull answers).2 := by
  unfold SubmitState.flushIfFull
  split_ifs
  · exact hkept.bounded_publish hs
  · exact hs

theorem appendDescriptorLoop (fuel source destination remaining : ℕ) :
    Bounded P (Hixl.appendDescriptorLoop answers fuel source destination remaining s).2 := by
  induction fuel generalizing source destination remaining s with
  | zero => exact hs
  | succ fuel ih =>
    unfold Hixl.appendDescriptorLoop
    split_ifs with hremaining
    · have hflushed := hkept.bounded_flush hs
      have hroom := @SubmitState.flushIfFull_batch_lt answers s hs.2
      rcases hflush : s.flushIfFull answers with ⟨ok, s₁⟩
      rw [hflush] at hflushed hroom
      cases ok with
      | false => exact hflushed
      | true =>
        dsimp only
        have happended := hkept.append s₁ source destination
          (min remaining maxSdmaTransferBytes) hflushed.1 (hroom rfl)
        have hbatch := SubmitState.append_batch_le answers
          (buildSdmaEntry source destination (min remaining maxSdmaTransferBytes)) (hroom rfl)
        rcases hbuilt : s₁.append answers (buildSdmaEntry source
          destination (min remaining maxSdmaTransferBytes)) with ⟨ok, s₂⟩
        rw [hbuilt] at happended hbatch
        cases ok with
        | false => exact ⟨happended, hbatch⟩
        | true => exact ih ⟨happended, hbatch⟩ _ _ _
    · exact hs

theorem appendAllDescriptors (descs : List UbMemAicpuTransferDesc) :
    Bounded P (Hixl.appendAllDescriptors answers descs s).2 := by
  induction descs generalizing s with
  | nil => exact hs
  | cons desc rest ih =>
    unfold Hixl.appendAllDescriptors
    have hdesc := hkept.appendDescriptorLoop hs desc.length desc.srcAddr
      desc.dstAddr desc.length
    rcases happend : appendDescriptorTasks answers desc s with ⟨ok, s₁⟩
    rw [appendDescriptorTasks] at happend
    rw [happend] at hdesc
    cases ok with
    | false => exact hdesc
    | true => exact ih hdesc

theorem appendAndPublish (descs : List UbMemAicpuTransferDesc) :
    Bounded P (appendAndPublishSdmaTasks answers descs s).2 := by
  unfold appendAndPublishSdmaTasks
  have hall := hkept.appendAllDescriptors hs descs
  rcases happend : Hixl.appendAllDescriptors answers descs s with ⟨ok, s₁⟩
  rw [happend] at hall
  cases ok with
  | false => exact hall
  | true => exact hkept.bounded_publish hall

end KeptBySdma

/-- Around the single append of the notify record, `P` holds before it and `Q`
behind it. -/
theorem emitNotifyRecord_leads {Q : SubmitState → Prop} {notifyId : ℕ}
    (hbefore : ∀ s, P s → P (s.publish answers).2) (hbehind : ∀ s, Q s → Q (s.publish answers).2)
    (hstop : ∀ s, P s → Q s)
    (happend : ∀ s, P s → Q (s.append answers (buildNotifyEntry notifyId)).2) {s : SubmitState}
    (hs : P s) : Q (emitNotifyRecord answers notifyId s).2 := by
  have hflushed : P (s.flushIfFull answers).2 := by
    unfold SubmitState.flushIfFull
    split_ifs
    · exact hbefore s hs
    · exact hs
  unfold emitNotifyRecord appendNotifyTask
  rcases hflush : s.flushIfFull answers with ⟨_ | _, s₁⟩
  · rw [hflush] at hflushed
    exact hstop s₁ hflushed
  · rw [hflush] at hflushed
    have happended := happend s₁ hflushed
    dsimp only
    rcases hbuilt : s₁.append answers (buildNotifyEntry notifyId) with ⟨_ | _, s₂⟩
    · rwa [hbuilt] at happended
    · rw [hbuilt] at happended
      have hpublished := hbehind s₂ happended
      dsimp only
      rcases hpublish : s₂.publish answers with ⟨_ | _, s₃⟩
      all_goals rwa [hpublish] at hpublished

end Induction

/-- The state in which a submission ends once its arguments are accepted. -/
def submitFinal (answers : SubmitAnswers) (param : UbMemAicpuKernelParam)
    (descs : List UbMemAicpuTransferDesc) (s : SubmitState) : SubmitState :=
  if param.emitNotifyRecord ≠ 0 then
    (emitNotifyRecord answers param.notifyId (appendAndPublishSdmaTasks answers descs s).2).2
  else (appendAndPublishSdmaTasks answers descs s).2

theorem submitFinal_keeps {answers : SubmitAnswers} {P : SubmitState → Prop}
    (hpublish : ∀ s, P s → P (s.publish answers).2)
    (happend : ∀ s build, P s → P (s.append answers build).2) (param : UbMemAicpuKernelParam)
    (descs : List UbMemAicpuTransferDesc) {ring : RtsqRing} {state : UbMemRtsqState}
    (hs : P ⟨ring, state, [], []⟩) : P (submitFinal answers param descs ⟨ring, state, [], []⟩) := by
  have hkept : KeptBySdma answers P :=
    ⟨fun s hs _ => hpublish s hs, fun s _ _ _ hs _ => happend s _ hs⟩
  have hsdma := (hkept.appendAndPublish ⟨hs, Nat.zero_le _⟩ descs).1
  unfold submitFinal
  split_ifs
  · exact emitNotifyRecord_leads hpublish hpublish (fun _ hs => hs) (happend · _) hsdma
  · exact hsdma

theorem submit_cases (answers : SubmitAnswers) (param : UbMemAicpuKernelParam)
    (descs : List UbMemAicpuTransferDesc) (restoreOk deadlineOk : Bool)
    (depth : ℕ) (ring : RtsqRing) :
    submit answers param descs restoreOk deadlineOk depth ring = ⟨false, ring, []⟩ ∨ ∃ format state,
        validateSubmitArgs param descs = some format ∧
        initializeRtsq param format restoreOk depth ring = some state ∧
        (submit answers param descs restoreOk deadlineOk depth ring).ring =
          (submitFinal answers param descs ⟨ring, state, [], []⟩).ring ∧
        (submit answers param descs restoreOk deadlineOk depth ring).records =
          (submitFinal answers param descs ⟨ring, state, [], []⟩).records := by
  unfold submit submitFinal
  cases hvalid : validateSubmitArgs param descs with
  | none => exact Or.inl rfl
  | some format =>
    cases hinit : initializeRtsq param format restoreOk depth ring with
    | none =>
      left
      simp only [hinit]
    | some state =>
      cases deadlineOk with
      | false =>
        left
        simp only [hinit]
        rfl
      | true =>
        right
        refine ⟨format, state, rfl, hinit, ?_⟩
        simp only [hinit, Bool.not_true, Bool.false_eq_true, if_false]
        split_ifs <;> exact ⟨rfl, rfl⟩

theorem initializeRtsq_eq_some {param : UbMemAicpuKernelParam} {format : UbMemStarsSqeFormat}
    {restoreOk : Bool} {depth : ℕ} {ring : RtsqRing} {state : UbMemRtsqState}
    (hinit : initializeRtsq param format restoreOk depth ring = some state) :
    maxRtsqEntriesPerPublish < depth ∧ ring.head < depth ∧ ring.tail < depth ∧ state =
        { streamId := param.rtsqStreamId
          nextTaskId := param.rtsqTaskId
          depth := depth
          head := ring.head
          tail := ring.tail
          format := format } := by
  unfold initializeRtsq at hinit
  split_ifs at hinit with hids hrestore hrange hdepth
  refine ⟨by omega, by omega, by omega, ?_⟩
  exact (Option.some.inj hinit).symm

/-! ## The entries of a successful submission -/

def sdmaEntries (state : UbMemRtsqState) : ℕ → List UbMemAicpuTransferDesc → List UbMemRtsqEntry
  | _, [] => []
  | taskId, desc :: rest =>
    buildSdmaEntry desc.srcAddr desc.dstAddr desc.length taskId state ::
      sdmaEntries state (wrapAdd 32 taskId 1) rest

section Congr

variable {state state' : UbMemRtsqState} (hstream : state'.streamId = state.streamId)
  (hformat : state'.format = state.format)

include hstream hformat

theorem buildSdmaEntry_congr (source destination size taskId : ℕ) :
    buildSdmaEntry source destination size taskId state' =
      buildSdmaEntry source destination size taskId state := by
  unfold buildSdmaEntry
  rw [hstream, hformat]

theorem buildNotifyEntry_congr (notifyId taskId : ℕ) : buildNotifyEntry notifyId taskId state' =
      buildNotifyEntry notifyId taskId state := by
  unfold buildNotifyEntry
  rw [hstream, hformat]

theorem sdmaEntries_congr (taskId : ℕ) (descs : List UbMemAicpuTransferDesc) :
    sdmaEntries state' taskId descs = sdmaEntries state taskId descs := by
  induction descs generalizing taskId with
  | nil => rfl
  | cons desc rest ih => rw [sdmaEntries, sdmaEntries, ih, buildSdmaEntry_congr hstream hformat]

end Congr

/-- The state has emitted the given entries since `s` and has moved to the
given task id. -/
structure Emits (s s' : SubmitState) (entries : List UbMemRtsqEntry)
    (nextTaskId : ℕ) : Prop where
  emitted : s'.emitted = s.emitted ++ entries
  stream : s'.state.streamId = s.state.streamId
  format : s'.state.format = s.state.format
  nextTaskId_eq : s'.state.nextTaskId = nextTaskId

theorem Emits.trans {s s₁ s₂ : SubmitState} {entries₁ entries₂ : List UbMemRtsqEntry} {id₁ id₂ : ℕ}
    (hfirst : Emits s s₁ entries₁ id₁) (hsecond : Emits s₁ s₂ entries₂ id₂) :
    Emits s s₂ (entries₁ ++ entries₂) id₂ where
  emitted := by rw [hsecond.emitted, hfirst.emitted, List.append_assoc]
  stream := hsecond.stream.trans hfirst.stream
  format := hsecond.format.trans hfirst.format
  nextTaskId_eq := hsecond.nextTaskId_eq

theorem emits_publish (answers : SubmitAnswers) (s : SubmitState) :
    Emits s (s.publish answers).2 [] s.state.nextTaskId := by
  have hsame := SubmitState.publish_sameBuild answers s
  refine ⟨?_, hsame.stream, hsame.format, hsame.nextTaskId⟩
  rw [SubmitState.publish_emitted, List.append_nil]

theorem emits_flush (answers : SubmitAnswers) (s : SubmitState) :
    Emits s (s.flushIfFull answers).2 [] s.state.nextTaskId := by
  unfold SubmitState.flushIfFull
  split_ifs
  · exact emits_publish answers s
  · exact ⟨by simp, rfl, rfl, rfl⟩

variable {answers : SubmitAnswers} {s : SubmitState} {descs : List UbMemAicpuTransferDesc}

theorem emits_flush_append {build : ℕ → UbMemRtsqState → UbMemRtsqEntry}
    (hcongr : ∀ {state state'}, state'.streamId = state.streamId → state'.format = state.format →
      ∀ taskId, build taskId state' = build taskId state) {s₁ s₂ : SubmitState}
    (hflush : s.flushIfFull answers = (true, s₁)) (hbuilt : s₁.append answers build = (true, s₂)) :
    Emits s s₂ [build s.state.nextTaskId s.state] (wrapAdd 32 s.state.nextTaskId 1) := by
  have hflushed := emits_flush answers s
  rw [hflush] at hflushed
  unfold SubmitState.append at hbuilt
  split_ifs at hbuilt
  · cases hbuilt
    rw [← hflushed.nextTaskId_eq, ← hcongr hflushed.stream hflushed.format]
    refine hflushed.trans ⟨?_, rfl, rfl, rfl⟩
    rw [SubmitState.emitted, SubmitState.emitted, List.append_assoc]
    exact congrArg (fun entry => _ ++ (_ ++ [entry])) (hcongr (by rfl) (by rfl) _)
  · cases hbuilt

theorem appendDescriptorLoop_single {fuel source destination len : ℕ} (hpos : 0 < len)
    (hfits : len ≤ maxSdmaTransferBytes)
    (hok : (appendDescriptorLoop answers (fuel + 1) source destination len s).1 = true) :
    Emits s (appendDescriptorLoop answers (fuel + 1) source destination len s).2
      [buildSdmaEntry source destination len s.state.nextTaskId s.state]
      (wrapAdd 32 s.state.nextTaskId 1) := by
  have hstop : ∀ source' destination' s',
      appendDescriptorLoop answers fuel source' destination' 0 s' = (true, s') := by
    intro source' destination' s'
    cases fuel <;> simp [appendDescriptorLoop]
  unfold appendDescriptorLoop at hok ⊢
  rw [if_pos hpos] at hok ⊢
  rcases hflush : s.flushIfFull answers with ⟨_ | _, s₁⟩
  · rw [hflush] at hok
    cases hok
  · rw [hflush] at hok
    dsimp only at hok ⊢
    rw [min_eq_left hfits] at hok ⊢
    rcases hbuilt : s₁.append answers (buildSdmaEntry source destination len) with ⟨_ | _, s₂⟩
    · rw [hbuilt] at hok
      cases hok
    · dsimp only
      rw [Nat.sub_self, hstop]
      exact emits_flush_append (fun hstream hformat =>
        buildSdmaEntry_congr hstream hformat source destination len) hflush hbuilt

theorem appendDescriptorTasks_emits {desc : UbMemAicpuTransferDesc} (hpos : 0 < desc.length)
    (hfits : desc.length ≤ maxSdmaTransferBytes)
    (hok : (appendDescriptorTasks answers desc s).1 = true) :
    Emits s (appendDescriptorTasks answers desc s).2
      [buildSdmaEntry desc.srcAddr desc.dstAddr desc.length s.state.nextTaskId s.state]
      (wrapAdd 32 s.state.nextTaskId 1) := by
  obtain ⟨source, destination, len⟩ := desc
  cases len with
  | zero => exact absurd hpos (lt_irrefl 0)
  | succ fuel => exact appendDescriptorLoop_single hpos hfits hok

def taskIdAfter : ℕ → ℕ → ℕ
  | taskId, 0 => taskId
  | taskId, count + 1 => taskIdAfter (wrapAdd 32 taskId 1) count

variable (hlens : ∀ desc ∈ descs, 0 < desc.length ∧ desc.length ≤ maxSdmaTransferBytes)

include hlens

theorem appendAllDescriptors_emits (hok : (appendAllDescriptors answers descs s).1 = true) :
    Emits s (appendAllDescriptors answers descs s).2 (sdmaEntries s.state s.state.nextTaskId descs)
      (taskIdAfter s.state.nextTaskId descs.length) := by
  induction descs generalizing s with
  | nil =>
    rw [appendAllDescriptors]
    exact ⟨by simp [sdmaEntries], rfl, rfl, rfl⟩
  | cons desc rest ih =>
    have hdesc := hlens desc List.mem_cons_self
    have hfirst := @appendDescriptorTasks_emits answers s desc hdesc.1 hdesc.2
    unfold appendAllDescriptors at hok ⊢
    rcases happend : appendDescriptorTasks answers desc s with ⟨ok, s₁⟩
    rw [happend] at hok hfirst
    cases ok with
    | false => cases hok
    | true =>
      have hone := hfirst rfl
      have hrest := ih (fun other hother => hlens other (List.mem_cons_of_mem _ hother)) hok
      have hboth := hone.trans hrest
      rwa [hone.nextTaskId_eq, sdmaEntries_congr hone.stream hone.format] at hboth

theorem appendAndPublish_emits (hok : (appendAndPublishSdmaTasks answers descs s).1 = true) :
    Emits s (appendAndPublishSdmaTasks answers descs s).2
        (sdmaEntries s.state s.state.nextTaskId descs)
        (taskIdAfter s.state.nextTaskId descs.length) ∧
      (appendAndPublishSdmaTasks answers descs s).2.batch = [] := by
  have hall := @appendAllDescriptors_emits answers s descs hlens
  unfold appendAndPublishSdmaTasks at hok ⊢
  rcases happend : appendAllDescriptors answers descs s with ⟨ok, s₁⟩
  rw [happend] at hok hall
  cases ok with
  | false => cases hok
  | true =>
    have hentries := hall rfl
    have hpublish := hentries.trans (emits_publish answers s₁)
    rw [List.append_nil, hentries.nextTaskId_eq] at hpublish
    refine ⟨hpublish, ?_⟩
    rw [SubmitState.publish_batch, if_pos hok]

omit hlens in
theorem emitNotifyRecord_emits {notifyId : ℕ}
    (hok : (emitNotifyRecord answers notifyId s).1 = true) :
    Emits s (emitNotifyRecord answers notifyId s).2
        [buildNotifyEntry notifyId s.state.nextTaskId s.state] (wrapAdd 32 s.state.nextTaskId 1) ∧
      (emitNotifyRecord answers notifyId s).2.batch = [] := by
  unfold emitNotifyRecord appendNotifyTask at hok ⊢
  rcases hflush : s.flushIfFull answers with ⟨_ | _, s₁⟩
  · rw [hflush] at hok
    cases hok
  · rw [hflush] at hok
    dsimp only at hok ⊢
    rcases hbuilt : s₁.append answers (buildNotifyEntry notifyId) with ⟨_ | _, s₂⟩
    · rw [hbuilt] at hok
      cases hok
    · have hentry := emits_flush_append (fun hstream hformat =>
        buildNotifyEntry_congr hstream hformat notifyId) hflush hbuilt
      have hpublished := hentry.trans (emits_publish answers s₂)
      have hbatch := SubmitState.publish_batch answers s₂
      rw [hbuilt] at hok
      rcases hpublish : s₂.publish answers with ⟨ok, s₃⟩
      rw [hpublish] at hpublished hbatch
      dsimp only at hok ⊢
      rw [hpublish] at hok ⊢
      cases ok with
      | false => cases hok
      | true =>
        rw [List.append_nil, hentry.nextTaskId_eq] at hpublished
        exact ⟨hpublished, by simpa using hbatch⟩

/-- A successful submission publishes one copy entry for every descriptor, with
consecutive task ids from the one in the kernel parameters, and behind them the
notify record if it was requested. -/
theorem submit_published {param : UbMemAicpuKernelParam} {restoreOk deadlineOk : Bool} {depth : ℕ}
    {ring : RtsqRing} (hok : (submit answers param descs restoreOk deadlineOk depth
      ring).ok = true) :
    ∃ state : UbMemRtsqState, publishedEntries (submit answers param descs restoreOk deadlineOk
          depth ring).records = sdmaEntries state param.rtsqTaskId descs ++
          if param.emitNotifyRecord ≠ 0 then
            [buildNotifyEntry param.notifyId (taskIdAfter param.rtsqTaskId descs.length) state]
          else [] := by
  unfold submit at hok ⊢
  cases hvalid : validateSubmitArgs param descs with
  | none => simp [hvalid] at hok
  | some format =>
    cases hinit : initializeRtsq param format restoreOk depth ring with
    | none => simp [hvalid, hinit] at hok
    | some state =>
      have htask : state.nextTaskId = param.rtsqTaskId := by
        rw [(initializeRtsq_eq_some hinit).2.2.2]
      refine ⟨state, ?_⟩
      simp only [hvalid, hinit] at hok ⊢
      have hsdma := @appendAndPublish_emits answers ⟨ring, state, [], []⟩ descs hlens
      generalize appendAndPublishSdmaTasks answers descs ⟨ring, state, [], []⟩ = sdma at hok hsdma ⊢
      split_ifs at hok ⊢ with hdeadline hnotify
      · rw [Bool.and_eq_true] at hok
        obtain ⟨hentries, -⟩ := hsdma hok.1
        obtain ⟨hrecord, hbatch⟩ := emitNotifyRecord_emits hok.2
        have hemitted := (hentries.trans hrecord).emitted
        rw [SubmitState.emitted, hbatch, List.append_nil, hentries.nextTaskId_eq,
          buildNotifyEntry_congr hentries.stream hentries.format]
          at hemitted
        simpa [SubmitState.emitted, htask] using hemitted
      · obtain ⟨hentries, hbatch⟩ := hsdma hok
        have hemitted := hentries.emitted
        rw [SubmitState.emitted, hbatch, List.append_nil] at hemitted
        simpa [SubmitState.emitted, htask] using hemitted

end Hixl
