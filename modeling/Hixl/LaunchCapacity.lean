import Hixl.ChunkLaunchPlan
import Hixl.RtsqWindow
import Hixl.UbMemDescSplit

/-!
# The queue never runs out of room

A client over the queued copy path launches at most 1920 descriptors before it
waits for a notify record.  When the ring is empty after every wait and has at
least 1922 cells, the entries since the last wait and the notify record fit
into it, so that no publish has to poll for room.
-/

namespace Hixl

open RingWindows ByteTilings

variable (answers : SubmitAnswers)

theorem append_emitted_length (s : SubmitState) (build : ℕ → UbMemRtsqState → UbMemRtsqEntry) :
    s.emitted.length ≤ (s.append answers build).2.emitted.length ∧
      (s.append answers build).2.emitted.length ≤ s.emitted.length + 1 := by
  unfold SubmitState.append SubmitState.emitted
  split_ifs
  · simp only [List.length_append, List.length_singleton]
    omega
  · exact ⟨le_refl _, Nat.le_succ _⟩

theorem appendDescriptorLoop_emitted (fuel source destination : ℕ) {len : ℕ}
    (hfits : len ≤ maxSdmaTransferBytes) (s : SubmitState) :
    (appendDescriptorLoop answers fuel source destination len
      s).2.emitted.length ≤ s.emitted.length + 1 := by
  cases fuel with
  | zero => exact Nat.le_succ _
  | succ fuel =>
    have hflushed : (s.flushIfFull answers).2.emitted = s.emitted := by
      unfold SubmitState.flushIfFull
      split_ifs
      · exact SubmitState.publish_emitted answers s
      · rfl
    unfold appendDescriptorLoop
    split_ifs with hmore
    · generalize s.flushIfFull answers = flushed at hflushed ⊢
      rcases flushed with ⟨_ | _, s₁⟩
      · rw [← hflushed]
        exact Nat.le_succ _
      · dsimp only at hflushed ⊢
        rw [min_eq_left hfits, Nat.sub_self]
        have happended := (append_emitted_length answers s₁
          (buildSdmaEntry source destination len)).2
        rw [hflushed] at happended
        generalize s₁.append answers (buildSdmaEntry source destination len) = built at happended ⊢
        rcases built with ⟨_ | _, s₂⟩
        · exact happended
        · cases fuel with
          | zero => exact happended
          | succ fuel =>
            exact happended
    · exact Nat.le_succ _

variable {descs : List UbMemAicpuTransferDesc}

theorem appendAllDescriptors_emitted (hfits : ∀ desc ∈ descs, desc.length ≤ maxSdmaTransferBytes)
    (s : SubmitState) :
    (appendAllDescriptors answers descs s).2.emitted.length ≤ s.emitted.length + descs.length := by
  induction descs generalizing s with
  | nil => exact le_refl _
  | cons desc rest ih =>
    have hdesc := appendDescriptorLoop_emitted answers desc.length
      desc.srcAddr desc.dstAddr (hfits desc List.mem_cons_self) s
    unfold appendAllDescriptors appendDescriptorTasks
    generalize appendDescriptorLoop answers desc.length desc.srcAddr
      desc.dstAddr desc.length s = built at hdesc ⊢
    rcases built with ⟨_ | _, s₁⟩
    · rw [List.length_cons]
      dsimp only at hdesc ⊢
      omega
    · have hrest := ih (fun other hother => hfits other (List.mem_cons_of_mem _ hother)) s₁
      rw [List.length_cons]
      dsimp only at hdesc ⊢
      omega

theorem submitFinal_emitted (param : UbMemAicpuKernelParam)
    (hfits : ∀ desc ∈ descs, desc.length ≤ maxSdmaTransferBytes) (ring : RtsqRing)
    (state : UbMemRtsqState) :
    (submitFinal answers param descs ⟨ring, state, [], []⟩).emitted.length ≤
      descs.length + if param.emitNotifyRecord ≠ 0 then 1 else 0 := by
  have hall := appendAllDescriptors_emitted answers hfits
    ⟨ring, state, [], []⟩
  have hsdma : (appendAndPublishSdmaTasks answers descs
      ⟨ring, state, [], []⟩).2.emitted.length ≤ descs.length := by
    unfold appendAndPublishSdmaTasks
    generalize appendAllDescriptors answers descs ⟨ring, state, [], []⟩ = built at hall ⊢
    rcases built with ⟨_ | _, s₁⟩
    · simpa [SubmitState.emitted] using hall
    · dsimp only
      rw [SubmitState.publish_emitted]
      simpa [SubmitState.emitted] using hall
  unfold submitFinal
  split_ifs
  · apply @emitNotifyRecord_leads answers (fun s => s.emitted.length ≤ descs.length)
      (fun s => s.emitted.length ≤ descs.length + 1)
    · intro s hs
      rwa [SubmitState.publish_emitted]
    · intro s hs
      rwa [SubmitState.publish_emitted]
    · intro s hs
      exact Nat.le_succ_of_le hs
    · intro s hs
      exact (append_emitted_length answers s _).2.trans (Nat.add_le_add_right hs 1)
    · exact hsdma
  · exact hsdma

/-- Every publish so far found room, and the window that the kernel assumes has
grown by the published entries at most. -/
structure RoomyInv (depth used : ℕ) (s : SubmitState) : Prop where
  window : WindowInv depth s.ring s.state
  span_le : span depth s.state.head s.state.tail ≤
    used + (publishedEntries s.records).length
  capacity : ∀ record ∈ s.records, record.batchBefore ≠ [] →
    hasRtsqCapacity record.stateBefore record.batchBefore.length = true

variable {depth used : ℕ} {s : SubmitState}

theorem RoomyInv.publish (hinv : RoomyInv depth used s) (hdepth : depth < 2 ^ 32)
    (hroom : used + s.emitted.length < depth) : RoomyInv depth used (s.publish answers).2 := by
  have hspan := hinv.span_le
  have hlength : s.emitted.length = (publishedEntries s.records).length + s.batch.length :=
    List.length_append
  have hfree : span depth s.state.head s.state.tail + s.batch.length <
      depth := by omega
  rcases publishRtsqBatch_window hinv.window hdepth hfree
    (answers.publish s.records.length) with ⟨hwindow, hgrown⟩
  rcases publishRtsqBatch_batch (answers.publish s.records.length) s.ring
    s.state s.batch with ⟨hbefore, -⟩
  have hpublished : (publishedEntries (s.publish answers).2.records).length =
      (publishedEntries s.records).length +
        if (publishRtsqBatch (answers.publish s.records.length) s.ring
          s.state s.batch).ok then s.batch.length else 0 := by
    simp only [SubmitState.publish, publishedEntries_append,
      List.length_append, publishedEntries_singleton, hbefore]
    split_ifs <;> rfl
  constructor
  · exact hwindow
  · rw [hpublished]
    exact hgrown.trans (by omega)
  · intro record hrecord hbatch
    rcases List.mem_append.mp hrecord with hold | hnew
    · exact hinv.capacity record hold hbatch
    · rw [List.mem_singleton.mp hnew] at hbatch ⊢
      rw [hbefore] at hbatch ⊢
      rw [publishRtsqBatch_stateBefore]
      rcases hinv.window.depth_eq with rfl
      exact hasRtsqCapacity_of_room hdepth hinv.window.head_lt
        hinv.window.tail_lt (List.length_pos_iff.mpr hbatch) hfree

theorem RoomyInv.append (hinv : RoomyInv depth used s)
    (build : ℕ → UbMemRtsqState → UbMemRtsqEntry) :
    RoomyInv depth used (s.append answers build).2 := by
  unfold SubmitState.append
  split_ifs
  all_goals exact ⟨hinv.window.nextTask _, hinv.span_le, hinv.capacity⟩

/-- As long as few enough entries are emitted, every publish finds room. -/
def RoomySoFar (depth used : ℕ) (s : SubmitState) : Prop :=
  used + s.emitted.length < depth → RoomyInv depth used s

theorem RoomySoFar.publish (hdepth : depth < 2 ^ 32) (hs : RoomySoFar depth used s) :
    RoomySoFar depth used (s.publish answers).2 := by
  intro hroom
  rw [SubmitState.publish_emitted] at hroom
  exact (hs hroom).publish answers hdepth hroom

theorem RoomySoFar.append (build : ℕ → UbMemRtsqState → UbMemRtsqEntry)
    (hs : RoomySoFar depth used s) : RoomySoFar depth used (s.append answers build).2 := by
  intro hroom
  have hlength := (append_emitted_length answers s build).1
  exact (hs (by omega)).append answers build

variable {ring : RtsqRing}

theorem submitFinal_roomy (hdepth : depth < 2 ^ 32) (param : UbMemAicpuKernelParam)
    (descs : List UbMemAicpuTransferDesc) {state : UbMemRtsqState}
    (hinv : WindowInv depth ring state) (hused : span depth state.head state.tail ≤ used) :
    RoomySoFar depth used (submitFinal answers param descs ⟨ring, state, [], []⟩) :=
  submitFinal_keeps (fun _ hs => hs.publish answers hdepth) (fun _ _ hs => hs.append answers _)
    param descs fun _ => ⟨hinv, hused, by simp⟩

/-! ## Capacity along the kernels of a transfer -/

def PublishesFindRoom (result : SubmitResult) : Prop :=
  ∀ record ∈ result.records, record.batchBefore ≠ [] →
    hasRtsqCapacity record.stateBefore record.batchBefore.length = true

theorem executeBatch_cases (env : KernelEnv) (isGet : Bool) (param : UbMemAicpuKernelParam)
    (descs : List UbMemAicpuTransferDesc) (depth : ℕ) (ring : RtsqRing) :
    executeBatch env isGet param descs depth ring = ⟨false, ring, []⟩ ∨ ∃ format state,
        initializeRtsq param format env.restoreOk depth ring = some state ∧
        (executeBatch env isGet param descs depth ring).ring =
          (submitFinal env.answers param descs ⟨ring, state, [], []⟩).ring ∧
        (executeBatch env isGet param descs depth ring).records =
          (submitFinal env.answers param descs ⟨ring, state, [], []⟩).records := by
  unfold executeBatch
  split_ifs
  · exact Or.inl rfl
  · exact Or.inl rfl
  · exact Or.inl rfl
  · rcases submit_cases env.answers param descs env.restoreOk env.deadlineOk
      depth ring with hrejected | ⟨format, state, -, hrest⟩
    · exact Or.inl hrejected
    · exact Or.inr ⟨format, state, hrest⟩

variable {param : UbMemAicpuKernelParam}

theorem executeBatch_roomy (env : KernelEnv) (isGet : Bool) (hdepth : depth < 2 ^ 32)
    (hhead : ring.head < depth) (htail : ring.tail < depth) (hused : ring.used depth ≤ used)
    (hfits : ∀ desc ∈ descs, desc.length ≤ maxSdmaTransferBytes)
    (hroom : used + (descs.length + if param.emitNotifyRecord ≠ 0 then 1 else 0) < depth) :
    let result := executeBatch env isGet param descs depth ring
    PublishesFindRoom result ∧ result.ring.head < depth ∧ result.ring.tail < depth ∧
      result.ring.used depth ≤ used + (descs.length +
        if param.emitNotifyRecord ≠ 0 then 1 else 0) := by
  rcases executeBatch_cases env isGet param descs depth ring with
    hrejected | ⟨format, state, hinit, hring, hrecords⟩
  · rw [hrejected]
    refine ⟨?_, hhead, htail, hused.trans (Nat.le_add_right _ _)⟩
    intro record hrecord
    cases hrecord
  · have hinv := windowInv_of_initializeRtsq hinit
    have hspan : span depth state.head state.tail ≤ used := by
      rcases initializeRtsq_eq_some hinit with ⟨-, -, -, rfl⟩
      exact hused
    have hemitted := submitFinal_emitted env.answers param hfits ring state
    have hroomy := submitFinal_roomy env.answers hdepth param descs hinv
      hspan (by omega)
    have hpublished : (publishedEntries (submitFinal env.answers param descs
        ⟨ring, state, [], []⟩).records).length ≤ (submitFinal env.answers param descs
            ⟨ring, state, [], []⟩).emitted.length := by
      unfold SubmitState.emitted
      rw [List.length_append]
      exact Nat.le_add_right _ _
    have hbound := hroomy.window.used_le.trans hroomy.span_le
    dsimp only
    rw [hring]
    refine ⟨?_, hroomy.window.ringHead_lt, hroomy.window.ringTail_lt, ?_⟩
    · intro record hrecord
      rw [hrecords] at hrecord
      exact hroomy.capacity record hrecord
    · omega

theorem RtsqRing.used_consume_le (hhead : ring.head < depth) (htail : ring.tail < depth) (k : ℕ) :
    (ring.consume depth k).used depth ≤ ring.used depth := by
  have hspan := span_advance hhead htail
    (Nat.min_le_right k (ring.used depth))
  change span depth (slot depth ring.head (min k (ring.used depth)))
    ring.tail ≤ span depth ring.head ring.tail
  rw [hspan]
  exact Nat.sub_le _ _

variable {batchSize descCount : ℕ}

theorem ChunkOk.next_mod {chunk : Chunk} (hchunk : ChunkOk batchSize descCount chunk)
    (hquiet : chunk.needNotifyWait = false) :
    (chunk.offset + chunk.listNum) % batchSize = chunk.offset % batchSize + chunk.listNum := by
  have hwithin := hchunk.within_batch
  have hnotify := hchunk.notify_iff
  rw [hquiet] at hnotify
  have hsum : (chunk.offset + chunk.listNum) % batchSize =
      (chunk.offset % batchSize + chunk.listNum) % batchSize := by
    rw [Nat.mod_add_mod]
  rw [hsum] at hnotify ⊢
  apply Nat.mod_eq_of_lt
  by_contra hfull
  have hend : chunk.offset % batchSize + chunk.listNum = batchSize := by omega
  rw [hend, Nat.mod_self] at hnotify
  exact absurd (hnotify.mpr (Or.inl rfl)) (by simp)

theorem RtsqRing.used_of_empty (depth : ℕ) (hempty : ring.head = ring.tail) :
    ring.used depth = 0 := by
  unfold RtsqRing.used
  rw [hempty, Nat.add_sub_cancel_left, Nat.mod_self]

variable {base : ℕ}

theorem used_after_launch {ring' : RtsqRing}
    (hchunk : ChunkOk batchSize descCount (launchedChunk param))
    (hoffset : (launchedChunk param).offset = base)
    (hwait : param.emitNotifyRecord ≠ 0 → ring'.head = ring'.tail)
    (hused : ring'.used depth ≤ ring.used depth) (hgrown : ring.used depth ≤ base % batchSize +
      ((launchedChunk param).listNum +
        if param.emitNotifyRecord ≠ 0 then 1 else 0)) :
    ring'.used depth ≤ (base + (launchedChunk param).listNum) % batchSize := by
  by_cases hnotify : param.emitNotifyRecord ≠ 0
  · rw [RtsqRing.used_of_empty depth (hwait hnotify)]
    exact Nat.zero_le _
  · have hquiet : (launchedChunk param).needNotifyWait = false := by
      exact decide_eq_false hnotify
    have hmod := hchunk.next_mod hquiet
    rw [hoffset] at hmod
    rw [if_neg hnotify] at hgrown
    omega

theorem runKernels_roomy {isGet : Bool} {launches : List (UbMemAicpuKernelParam × KernelEnv)}
    (hbatch : batchSize ≤ maxFixedQueueTransferCountPerBatch) (hdepth : 1922 ≤ depth)
    (hdepth32 : depth < 2 ^ 32) (hfits : ∀ desc ∈ descs, desc.length ≤ maxSdmaTransferBytes)
    (hchunks : ∀ launch ∈ launches, ChunkOk batchSize descCount (launchedChunk launch.1))
    (hfollows : Follows Chunk.listNum Chunk.offset base
      (launches.map fun launch => launchedChunk launch.1)) (hhead : ring.head < depth)
    (htail : ring.tail < depth) (hused : ring.used depth ≤ base % batchSize)
    (hwaits : WaitsEmpty isGet descs depth ring launches) :
    ∀ result ∈ runKernels isGet descs depth ring launches, PublishesFindRoom result := by
  induction launches generalizing ring base with
  | nil =>
    intro result hresult
    exact absurd hresult (by simp [runKernels])
  | cons launch rest ih =>
    rcases launch with ⟨param, env⟩
    have hchunk := hchunks (param, env) List.mem_cons_self
    rcases hfollows with ⟨hoffset, hlater⟩
    rcases hwaits with ⟨hwait, hwaits⟩
    have hwithin := hchunk.within_batch
    have hlength : (kernelDescs descs param).length ≤ (launchedChunk param).listNum := by
      unfold kernelDescs
      rw [List.length_take]
      exact Nat.min_le_left _ _
    have hfitsChunk : ∀ desc ∈ kernelDescs descs param, desc.length ≤ maxSdmaTransferBytes := by
      intro desc hdesc
      exact hfits desc (List.mem_of_mem_drop (List.mem_of_mem_take hdesc))
    dsimp only at hoffset hlater hchunk hwithin
    rw [hoffset] at hwithin
    unfold maxFixedQueueTransferCountPerBatch at hbatch
    have hroom : base % batchSize + ((kernelDescs descs param).length +
        if param.emitNotifyRecord ≠ 0 then 1 else 0) < depth := by
      split_ifs <;> omega
    rcases executeBatch_roomy env isGet hdepth32 hhead htail hused
      hfitsChunk hroom with ⟨hfound, hhead', htail', hused'⟩
    have hnext := used_after_launch hchunk hoffset hwait
      (RtsqRing.used_consume_le hhead' htail' env.consumedAfter)
      (by omega)
    have hheadNext : (RtsqRing.consume depth env.consumedAfter
        (executeBatch env isGet param (kernelDescs descs param) depth
          ring).ring).head < depth := Nat.mod_lt _ (by omega)
    exact List.forall_mem_cons.mpr ⟨hfound, ih (List.forall_mem_cons.mp hchunks).2 hlater
      hheadNext htail' hnext hwaits⟩

/-! ## Both launch functions -/

/-- The chunks cover the descriptors in order, each of them small enough for a
kernel and inside one batch, and the notify record is requested at the end of
every batch and of the transfer. -/
structure PlanOk (batchSize descCount : ℕ) (chunks : List Chunk) : Prop where
  in_order : Tiles Chunk.listNum Chunk.offset 0 descCount chunks
  size : ∀ chunk ∈ chunks, 1 ≤ chunk.listNum ∧ chunk.listNum ≤ 128
  one_batch : ∀ chunk ∈ chunks,
    (chunk.offset + chunk.listNum - 1) / batchSize = chunk.offset / batchSize
  notify : ∀ chunk ∈ chunks, chunk.needNotifyWait = true ↔
    (chunk.offset + chunk.listNum) % batchSize = 0 ∨ chunk.offset + chunk.listNum = descCount

theorem chunkPlan_ok (hbatch : 1 ≤ batchSize) (descCount : ℕ) :
    PlanOk batchSize descCount (chunkPlan batchSize descCount) := by
  rcases chunkPlan_spec hbatch descCount with ⟨htiles, hchunks⟩
  constructor
  · exact htiles
  · intro chunk hchunk
    exact ⟨(hchunks chunk hchunk).listNum_pos, (hchunks chunk hchunk).listNum_le⟩
  · intro chunk hchunk
    have hpos := (hchunks chunk hchunk).listNum_pos
    have hwithin := (hchunks chunk hchunk).within_batch
    have hdivMod := Nat.div_add_mod chunk.offset batchSize
    apply Nat.div_eq_of_lt_le
    · rw [Nat.mul_comm]
      omega
    · rw [Nat.succ_mul, Nat.mul_comm]
      omega
  · intro chunk hchunk
    exact (hchunks chunk hchunk).notify_iff

/-- The launches of the queued copy path follow the plan, every launch has its
own status word, and no publish of their kernels lacks room when the ring is
empty after every notify wait. -/
structure AicpuLaunchesOk (request : LaunchRequest)
    (config : UbMemClientConfig) (descCount : ℕ)
    (result unchecked : LaunchResult) : Prop where
  plan : PlanOk config.maxTransferCountPerBatch descCount
    (chunkPlan config.maxTransferCountPerBatch descCount)
  launched : result.launches.map launchedChunk <+:
    chunkPlan config.maxTransferCountPerBatch descCount
  complete : result.status = .success →
    result.launches.map launchedChunk = chunkPlan config.maxTransferCountPerBatch descCount
  count : (chunkPlan config.maxTransferCountPerBatch descCount).length =
    calculateAicpuKernelCount descCount config.maxTransferCountPerBatch
  status : ∀ param ∈ result.launches, ∃ index,
    param.statusIndex = some index ∧ index < calculateAicpuKernelCount descCount
        config.maxTransferCountPerBatch
  unchecked : result.status = unchecked.status ∧
    result.launches.map launchedChunk = unchecked.launches.map launchedChunk
  capacity : ∀ (ops : List HixlOneSideOpDesc)
    (descs : List UbMemAicpuTransferDesc) (depth : ℕ) (ring : RtsqRing)
    (envs : List KernelEnv),
    prepareAicpuDescBuf request.isGet ops = .ok descs →
    descs.length = descCount → 1922 ≤ depth → depth < 2 ^ 32 →
    ring.head = ring.tail → ring.tail < depth →
    WaitsEmpty request.isGet descs depth ring (result.launches.zip envs) →
    ∀ kernel ∈ runKernels request.isGet descs depth ring
      (result.launches.zip envs), PublishesFindRoom kernel

theorem zip_chunks_initial (launches : List UbMemAicpuKernelParam) (envs : List KernelEnv) :
    ((launches.zip envs).map fun launch => launchedChunk launch.1) <+:
      launches.map launchedChunk := by
  induction launches generalizing envs with
  | nil => exact List.nil_prefix
  | cons param launches ih =>
    cases envs with
    | nil => exact List.nil_prefix
    | cons env envs =>
      exact (List.prefix_cons_inj _).mpr (ih envs)

theorem launchAicpuChunks_chunks (request : LaunchRequest) (streamOk kernelOk : Bool)
    (answers : ℕ → LaunchAnswers) (config : UbMemClientConfig)
    (statusCount : Option ℕ) (descCount : ℕ) (counters : TaskIdCounters) :
    (launchAicpuChunks request streamOk kernelOk answers config statusCount
        descCount counters).launches.map launchedChunk <+:
      chunkPlan config.maxTransferCountPerBatch descCount ∧
    ((launchAicpuChunks request streamOk kernelOk answers config statusCount
        descCount counters).status = .success →
      (launchAicpuChunks request streamOk kernelOk answers config statusCount
          descCount counters).launches.map launchedChunk =
        chunkPlan config.maxTransferCountPerBatch descCount) := by
  unfold launchAicpuChunks
  split_ifs
  · exact ⟨List.nil_prefix, by simp⟩
  · exact ⟨List.nil_prefix, by simp⟩
  · rcases launchLoop_launched request answers statusCount 0 counters
      (chunkPlan config.maxTransferCountPerBatch descCount) with
      ⟨done, rest, counters', hsplit, hdone, hrest⟩
    rw [hdone.chunks_eq]
    constructor
    · exact ⟨rest, hsplit.symm⟩
    · intro hok
      rw [hrest hok, List.append_nil] at hsplit
      exact hsplit.symm

theorem launchAicpuChunks_ok (request : LaunchRequest) (streamOk kernelOk : Bool)
    (answers : ℕ → LaunchAnswers) (config : UbMemClientConfig) (counters : TaskIdCounters)
    (hpos : 1 ≤ descCount) (hword : descCount < 2 ^ 32) : AicpuLaunchesOk request config descCount
      (launchAicpuChunks request streamOk kernelOk answers config
        (some (calculateAicpuKernelCount descCount
          config.maxTransferCountPerBatch)) descCount counters)
      (launchAicpuChunks request streamOk kernelOk answers config none descCount counters) := by
  have hbatch := config.in_range.1
  have hlimit := config.in_range.2
  unfold maxTransferCountLimit at hlimit
  have hcount := calculateAicpuKernelCount_eq hbatch (by omega) hpos hword
  rcases chunkPlan_spec hbatch descCount with ⟨htiles, hchunks⟩
  have hlaunched := fun statusCount => launchAicpuChunks_chunks request
    streamOk kernelOk answers config statusCount descCount counters
  have hstatus := @launchLoop_status request answers
    (calculateAicpuKernelCount descCount config.maxTransferCountPerBatch) 0
    counters (chunkPlan config.maxTransferCountPerBatch descCount)
    (by omega)
  constructor
  · exact chunkPlan_ok hbatch descCount
  · exact (hlaunched _).1
  · exact (hlaunched _).2
  · exact hcount.symm
  · unfold launchAicpuChunks
    split_ifs
    · simp
    · simp
    · exact hstatus.2.2.2
  · unfold launchAicpuChunks
    split_ifs
    · exact ⟨rfl, rfl⟩
    · exact ⟨rfl, rfl⟩
    · have hmap := congrArg (List.map launchedChunk) hstatus.2.2.1
      rw [List.map_map, List.map_map] at hmap
      exact ⟨hstatus.1, hmap⟩
  · intro ops descs depth ring envs hprepare hlength hdepth hdepth32 hempty htail hwaits
    rcases prepareAicpuDescBuf_eq_ok hprepare with ⟨-, groups, hgroups, rfl⟩
    have hinitial := (zip_chunks_initial (launchAicpuChunks request streamOk
      kernelOk answers config (some (calculateAicpuKernelCount descCount
        config.maxTransferCountPerBatch)) descCount counters).launches
      envs).trans (hlaunched _).1
    apply runKernels_roomy config.fixed_queue hdepth hdepth32
    · intro desc hdesc
      exact (forall₂_splitOf_fits hgroups desc hdesc).2
    · intro launch hlaunch
      exact hchunks _ (hinitial.subset (List.mem_map_of_mem hlaunch))
    · rcases hinitial with ⟨rest, hrest⟩
      exact (follows_append.mp (hrest ▸ htiles.follows)).1
    · rwa [hempty]
    · exact htail
    · rw [RtsqRing.used_of_empty depth hempty]
      exact Nat.zero_le _
    · exact hwaits

/-- The launches of the device path follow the plan of its batch size. -/
structure DeviceLaunchesOk (batchSize listNum : ℕ)
    (result : Status × List Chunk) : Prop where
  plan : PlanOk batchSize listNum (chunkPlan batchSize listNum)
  launched : result.2 <+: chunkPlan batchSize listNum
  complete : result.1 = .success → result.2 = chunkPlan batchSize listNum

/-- Both launch functions cut any number of descriptors along the plan of their
batch size, and launch all of it when every launch is answered well. -/
theorem chunkLaunches_ok (descCount : ℕ) (hpos : 1 ≤ descCount) (hword : descCount < 2 ^ 32) :
    (∀ (request : LaunchRequest) (streamOk kernelOk : Bool)
      (answers : ℕ → LaunchAnswers) (config : UbMemClientConfig) (counters : TaskIdCounters),
      let count := calculateAicpuKernelCount descCount config.maxTransferCountPerBatch
      let result := launchAicpuChunks request streamOk kernelOk answers config (some count)
        descCount counters
      AicpuLaunchesOk request config descCount result
        (launchAicpuChunks request streamOk kernelOk answers config none descCount counters) ∧
      (streamOk = true → kernelOk = true → request.slot.thread ≠ 0 →
        (∀ index < count, (answers index).Good) →
        result.status = .success ∧ result.launches.length = count)) ∧
    ∀ (configurableTransferSupported : Bool) (config : TransferConfig) (launchOk : ℕ → Bool),
      let batchSize := if configurableTransferSupported then config.maxTransferCountPerBatch
        else defaultMaxTransferCountPerBatch
      let result := launchDeviceChunkedKernels configurableTransferSupported config launchOk
        descCount
      DeviceLaunchesOk batchSize descCount result ∧
      ((∀ index < (chunkPlan batchSize descCount).length, launchOk index = true) →
        result.1 = .success) := by
  constructor
  · intro request streamOk kernelOk answers config counters count result
    have hok := launchAicpuChunks_ok request streamOk kernelOk answers config counters hpos hword
    refine ⟨hok, fun hstream hkernel hthread hgood => ?_⟩
    have hsuccess : result.status = .success := by
      subst hstream hkernel
      exact launchLoop_succeeds counters hthread (by rw [hok.count, Nat.zero_add])
        (chunkPlan_spec config.in_range.1 descCount).2 hgood
    refine ⟨hsuccess, ?_⟩
    rw [← List.length_map launchedChunk, hok.complete hsuccess, hok.count]
  · intro configurableTransferSupported config launchOk batchSize result
    have hbatch : 1 ≤ batchSize := by
      unfold batchSize
      split_ifs
      · exact config.in_range.1
      · decide
    have hlaunched := deviceLaunchLoop_launched launchOk 0 (chunkPlan batchSize descCount)
    refine ⟨⟨chunkPlan_ok hbatch descCount, hlaunched.1, hlaunched.2⟩, fun hgood => ?_⟩
    exact deviceLaunchLoop_succeeds (by rwa [Nat.zero_add])

def defaultClientConfig : UbMemClientConfig where
  maxTransferCountPerBatch := defaultMaxTransferCountPerBatch
  in_range := default_in_range
  fixed_queue := default_fixed_queue

theorem readyAnswers_good : readyAnswers.Good where
  stream := ⟨3, rfl, by decide, by decide⟩
  queue := ⟨5, 9, rfl, rfl⟩
  device := ⟨0, rfl, by decide⟩
  launched := rfl

theorem chunkLaunches_ok_2000 :
    let result := launchAicpuChunks readRequest true true (fun _ => readyAnswers)
      defaultClientConfig (some 16) 2000 (fun _ => 0)
    1 ≤ 2000 ∧ 2000 < 2 ^ 32 ∧ AicpuLaunchesOk readRequest defaultClientConfig 2000 result
        (launchAicpuChunks readRequest true true (fun _ => readyAnswers)
          defaultClientConfig none 2000 fun _ => 0) ∧
      (result.status = .success ∧ result.launches.length = 16) ∧
      (launchDeviceChunkedKernels false ⟨defaultMaxTransferCountPerBatch, default_in_range⟩
        (fun _ => true) 2000).1 = .success := by
  have haicpu := (chunkLaunches_ok 2000 (by decide) (by decide)).1 readRequest true true
    (fun _ => readyAnswers) defaultClientConfig fun _ => 0
  have hdevice := (chunkLaunches_ok 2000 (by decide) (by decide)).2 false
    ⟨defaultMaxTransferCountPerBatch, default_in_range⟩ fun _ => true
  exact ⟨by decide, by decide,
    haicpu.1, haicpu.2 rfl rfl (by decide) fun _ _ => readyAnswers_good, hdevice.2 fun _ _ => rfl⟩

end Hixl
