import Hixl.ChunkLaunchPlan
import Hixl.SdmaSubmission
import Hixl.UbMemDescSplit

/-!
# The queued copies of a transfer

The path of a transfer goes from its operations to descriptors, from there to
chunks and launches, and from every launch to queue entries.  Composed, the
copy entries of all launches tile every operation, entry by entry one
descriptor, and the entries of a launch carry the task ids that the host
reserved for it.
-/

namespace Hixl

open ByteTilings

namespace UbMemRtsqEntry

def taskId : UbMemRtsqEntry → ℕ
  | .sdma sqe => sqe.header.taskId
  | .a5Sdma sqe => sqe.header.taskId
  | .notify sqe => sqe.header.taskId
  | .a5Notify sqe => sqe.header.taskId

def source : UbMemRtsqEntry → ℕ
  | .sdma sqe => sqe.srcAddrHigh * 2 ^ 32 + sqe.srcAddrLow
  | .a5Sdma sqe => sqe.srcAddrHigh * 2 ^ 32 + sqe.srcAddrLow
  | _ => 0

def destination : UbMemRtsqEntry → ℕ
  | .sdma sqe => sqe.dstAddrHigh * 2 ^ 32 + sqe.dstAddrLow
  | .a5Sdma sqe => sqe.dstAddrHigh * 2 ^ 32 + sqe.dstAddrLow
  | _ => 0

def copyLength : UbMemRtsqEntry → ℕ
  | .sdma sqe => sqe.length
  | .a5Sdma sqe => sqe.length
  | _ => 0

end UbMemRtsqEntry

structure CarriesDesc (desc : UbMemAicpuTransferDesc)
    (entry : UbMemRtsqEntry) : Prop where
  isSdma : entry.isSdma = true
  source : entry.source = desc.srcAddr
  destination : entry.destination = desc.dstAddr
  length : entry.copyLength = desc.length

structure FitsEntry (desc : UbMemAicpuTransferDesc) : Prop where
  length_pos : 0 < desc.length
  length_le : desc.length ≤ maxSdmaTransferBytes
  source_lt : desc.srcAddr < 2 ^ 64
  destination_lt : desc.dstAddr < 2 ^ 64

variable {desc : UbMemAicpuTransferDesc}

theorem buildSdmaEntry_carries (hfits : FitsEntry desc) (taskId : ℕ) (state : UbMemRtsqState) :
    CarriesDesc desc (buildSdmaEntry desc.srcAddr desc.dstAddr desc.length taskId state) := by
  have hlength := hfits.length_le
  have hsource := hfits.source_lt
  have hdestination := hfits.destination_lt
  unfold maxSdmaTransferBytes at hlength
  unfold buildSdmaEntry
  cases state.format <;>
  · constructor
    · rfl
    · change desc.srcAddr / 2 ^ 32 % 2 ^ 32 * 2 ^ 32 + desc.srcAddr % 2 ^ 32 = desc.srcAddr
      omega
    · change desc.dstAddr / 2 ^ 32 % 2 ^ 32 * 2 ^ 32 + desc.dstAddr % 2 ^ 32 = desc.dstAddr
      omega
    · exact Nat.mod_eq_of_lt (by omega)

variable {descs : List UbMemAicpuTransferDesc}

theorem sdmaEntries_carry (state : UbMemRtsqState) (taskId : ℕ)
    (hfits : ∀ desc ∈ descs, FitsEntry desc) :
    List.Forall₂ CarriesDesc descs (sdmaEntries state taskId descs) := by
  induction descs generalizing taskId with
  | nil => exact .nil
  | cons desc rest ih =>
    apply List.Forall₂.cons
    · exact buildSdmaEntry_carries (hfits desc List.mem_cons_self) taskId state
    · exact ih _ fun other hother => hfits other (List.mem_cons_of_mem _ hother)

variable {taskId count : ℕ}

theorem taskIdAfter_eq (hword : taskId + count < 2 ^ 32) :
    taskIdAfter taskId count = taskId + count := by
  induction count generalizing taskId with
  | zero => rfl
  | succ count ih =>
    have hnext : wrapAdd 32 taskId 1 = taskId + 1 := wrapAdd_eq_add (by omega)
    rw [taskIdAfter, hnext, ih (by omega)]
    omega

theorem sdmaEntries_taskIds (state : UbMemRtsqState) (hword : taskId + descs.length < 2 ^ 32) :
    (sdmaEntries state taskId descs).map UbMemRtsqEntry.taskId =
      (List.range descs.length).map fun k => (taskId + k) % 2 ^ 16 := by
  induction descs generalizing taskId with
  | nil => rfl
  | cons desc rest ih =>
    rw [List.length_cons] at hword ⊢
    have hnext : wrapAdd 32 taskId 1 = taskId + 1 := wrapAdd_eq_add (by omega)
    have hfirst : (buildSdmaEntry desc.srcAddr desc.dstAddr desc.length
        taskId state).taskId = taskId % 2 ^ 16 := by
      unfold buildSdmaEntry
      cases state.format <;> rfl
    rw [sdmaEntries, List.map_cons, hfirst, hnext, ih (by omega),
      List.range_succ_eq_map, List.map_cons, List.map_map]
    congr 1
    apply List.map_congr_left
    intro k _
    change (taskId + 1 + k) % 2 ^ 16 = (taskId + (k + 1)) % 2 ^ 16
    rw [add_assoc, add_comm 1 k]

/-- The entries of a launch carry the ids of a block, in order and each of them
once. -/
structure IdsOfBlock (first count : ℕ) (entries : List UbMemRtsqEntry) :
    Prop where
  consecutive : entries.map UbMemRtsqEntry.taskId =
    (List.range count).map fun k => (first + k) % 2 ^ 16
  distinct : (entries.map UbMemRtsqEntry.taskId).Nodup

variable {first : ℕ} {entries : List UbMemRtsqEntry}

theorem idsOfBlock_of_consecutive (hconsecutive : entries.map UbMemRtsqEntry.taskId =
      (List.range count).map fun k => (first + k) % 2 ^ 16) (hcount : count ≤ 2 ^ 16) :
    IdsOfBlock first count entries := by
  constructor
  · exact hconsecutive
  · rw [hconsecutive]
    apply List.Nodup.map_on
    · intro i hi j hj heq
      rw [List.mem_range] at hi hj
      omega
    · exact List.nodup_range

theorem buildNotifyEntry_taskId (notifyId taskId : ℕ) (state : UbMemRtsqState) :
    (buildNotifyEntry notifyId taskId state).taskId = taskId % 2 ^ 16 := by
  unfold buildNotifyEntry
  cases state.format <;> rfl

variable {env : KernelEnv} {isGet : Bool} {param : UbMemAicpuKernelParam} {depth : ℕ}
  {ring : RtsqRing}

/-- The entries of a successful kernel: its copies, one for every descriptor,
and behind them the notify record, with the ids of its block. -/
theorem executeBatch_published (hfits : ∀ desc ∈ descs, FitsEntry desc)
    (hcount : descs.length ≤ maxKernelBatchSize) (hnotify : param.emitNotifyRecord ≤ 1)
    (hfirst : param.rtsqTaskId = first % 2 ^ 16)
    (hok : (executeBatch env isGet param descs depth ring).ok = true) :
    ∃ copies notifies, publishedEntries (executeBatch env isGet param descs depth ring).records =
        copies ++ notifies ∧ List.Forall₂ CarriesDesc descs copies ∧
      (∀ entry ∈ notifies, entry.isSdma = false) ∧
      IdsOfBlock first (descs.length + param.emitNotifyRecord) (copies ++ notifies) := by
  have hsubmit : executeBatch env isGet param descs depth ring = submit env.answers param descs
      env.restoreOk env.deadlineOk depth ring := by
    unfold executeBatch at hok ⊢
    split_ifs at hok ⊢
    rfl
  rw [hsubmit] at hok ⊢
  have hlens : ∀ desc ∈ descs, 0 < desc.length ∧ desc.length ≤ maxSdmaTransferBytes :=
    fun desc hdesc => ⟨(hfits desc hdesc).length_pos, (hfits desc hdesc).length_le⟩
  rcases submit_published hlens hok with ⟨state, hpublished⟩
  unfold maxKernelBatchSize at hcount
  have hword : param.rtsqTaskId + descs.length < 2 ^ 32 := by omega
  have hids := sdmaEntries_taskIds state hword
  have hblock : ∀ k, (param.rtsqTaskId + k) % 2 ^ 16 = (first + k) % 2 ^ 16 := by
    intro k
    rw [hfirst, Nat.mod_add_mod]
  simp only [hblock] at hids
  refine ⟨_, _, hpublished, sdmaEntries_carry state _ hfits, ?_, ?_⟩
  · intro entry hentry
    split_ifs at hentry with hrecord
    · rw [List.mem_singleton.mp hentry]
      exact buildNotifyEntry_isSdma _ _ _
    · cases hentry
  · apply idsOfBlock_of_consecutive
    · split_ifs with hrecord
      · have hone : param.emitNotifyRecord = 1 := by omega
        rw [hone, List.map_append, hids, List.map_singleton,
          buildNotifyEntry_taskId, taskIdAfter_eq hword, hblock,
          List.range_succ, List.map_append, List.map_singleton]
      · have hzero : param.emitNotifyRecord = 0 := by omega
        rw [hzero, List.append_nil, hids, Nat.add_zero]
    · omega

/-- Launch by launch, the host reserves a block from the counter of the queue,
and the entries of the launch carry its ids. -/
inductive IdsFromBlocks :
    TaskIdCounters → List UbMemAicpuKernelParam → List (List UbMemRtsqEntry) → Prop
  | nil (counters) : IdsFromBlocks counters [] []
  | cons {counters counters' param params entries rest first}
      (hreserved : reserveRtsqTaskIds counters param.rtsqId
        (param.descCount + param.emitNotifyRecord) = (first, counters'))
      (hids : IdsOfBlock first (param.descCount + param.emitNotifyRecord) entries)
      (hrest : IdsFromBlocks counters' params rest) :
      IdsFromBlocks counters (param :: params) (entries :: rest)

/-- The entries that the kernels published, launch by launch. -/
def publishedByLaunch (kernels : List SubmitResult) : List (List UbMemRtsqEntry) :=
  kernels.map fun kernel => publishedEntries kernel.records

def copyEntries (kernels : List SubmitResult) : List UbMemRtsqEntry :=
  (publishedByLaunch kernels).flatten.filter UbMemRtsqEntry.isSdma

theorem filter_copies {copies notifies : List UbMemRtsqEntry}
    (hcopies : List.Forall₂ CarriesDesc descs copies)
    (hnotifies : ∀ entry ∈ notifies, entry.isSdma = false) :
    (copies ++ notifies).filter UbMemRtsqEntry.isSdma = copies := by
  have hkept : copies.filter UbMemRtsqEntry.isSdma = copies := by
    induction hcopies with
    | nil => rfl
    | cons hentry hrest ih => rw [List.filter_cons_of_pos hentry.isSdma, ih]
  have hdropped : notifies.filter UbMemRtsqEntry.isSdma = [] := by
    rw [List.filter_eq_nil_iff]
    intro entry hentry
    rw [hnotifies entry hentry]
    exact Bool.false_ne_true
  rw [List.filter_append, hkept, hdropped, List.append_nil]

theorem runKernels_published {request : LaunchRequest} {counters counters' : TaskIdCounters}
    {chunks : List Chunk} {params : List UbMemAicpuKernelParam} {envs : List KernelEnv}
    (hfits : ∀ desc ∈ descs, FitsEntry desc)
    (hlaunched : LaunchedFrom request counters chunks params counters')
    (hsize : ∀ chunk ∈ chunks, chunk.listNum ≤ maxKernelBatchSize) (hinside : ∀ chunk ∈ chunks,
      chunk.offset + chunk.listNum ≤ descs.length) (henvs : envs.length = params.length)
    (hok : ∀ kernel ∈ runKernels isGet descs depth ring (params.zip envs), kernel.ok = true) :
    List.Forall₂ CarriesDesc (chunks.flatMap fun chunk =>
          (descs.drop chunk.offset).take chunk.listNum)
        (copyEntries (runKernels isGet descs depth ring (params.zip envs))) ∧
      IdsFromBlocks counters params (publishedByLaunch
          (runKernels isGet descs depth ring (params.zip envs))) := by
  induction hlaunched generalizing ring envs with
  | nil counters => exact ⟨.nil, .nil counters⟩
  | @cons counters counters₁ counters' chunk chunks param params hfilled
      hrest ih =>
      rcases envs with _ | ⟨env, envs⟩
      · cases henvs
      · rcases hfilled.chunk_eq with rfl
        rw [List.length_cons, List.length_cons] at henvs
        rw [List.zip_cons_cons] at hok ⊢
        have hsizeChunk := hsize _ List.mem_cons_self
        have hlength : (kernelDescs descs param).length =
            param.descCount := by
          have hbound := hinside _ List.mem_cons_self
          change param.chunkOffset + param.descCount ≤ descs.length at hbound
          unfold kernelDescs
          rw [List.length_take, List.length_drop]
          omega
        have hfitsChunk : ∀ desc ∈ kernelDescs descs param,
            FitsEntry desc := by
          intro desc hdesc
          exact hfits desc (List.mem_of_mem_drop (List.mem_of_mem_take hdesc))
        rcases executeBatch_published hfitsChunk (hlength.trans_le hsizeChunk)
          hfilled.notify_le hfilled.taskId_eq (hok _ List.mem_cons_self)
          with ⟨copies, notifies, hpublished, hcopies, hnotifies, hids⟩
        rcases ih (fun other hother => hsize other (List.mem_cons_of_mem _ hother))
          (fun other hother => hinside other (List.mem_cons_of_mem _ hother))
          (by omega)
          (fun kernel hkernel => hok kernel
            (List.mem_cons_of_mem _ hkernel)) with ⟨hcarried, hblocks⟩
        have hreserved := hfilled.reserved
        have hnotify := hfilled.notify_le
        change param.descCount ≤ 128 at hsizeChunk
        rw [wrapAdd_eq_add (by omega)] at hreserved
        rw [hlength] at hids
        constructor
        · unfold copyEntries publishedByLaunch at hcarried ⊢
          rw [runKernels, List.map_cons, hpublished, List.flatten_cons,
            List.filter_append, filter_copies hcopies hnotifies,
            List.flatMap_cons]
          exact List.rel_append hcopies hcarried
        · unfold publishedByLaunch at hblocks ⊢
          rw [runKernels, List.map_cons, hpublished]
          exact .cons hreserved hids hblocks

/-! ## From operations to entries -/

/-- The entries copy the bytes of the operation, in order and exactly once, in
its direction. -/
structure EntriesTile (isGet : Bool) (op : HixlOneSideOpDesc)
    (entries : List UbMemRtsqEntry) : Prop where
  source : Tiles UbMemRtsqEntry.copyLength UbMemRtsqEntry.source
    (opSource isGet op) op.len entries
  destination : Tiles UbMemRtsqEntry.copyLength UbMemRtsqEntry.destination
    (opDestination isGet op) op.len entries

variable {op : HixlOneSideOpDesc}

theorem SplitOf.entriesTile (hsplit : SplitOf isGet op descs)
    (hcarried : List.Forall₂ CarriesDesc descs entries) : EntriesTile isGet op entries where
  source := hsplit.source.of_forall₂
    (hcarried.imp fun _ _ hentry => ⟨hentry.length, hentry.source⟩)
  destination := hsplit.destination.of_forall₂
    (hcarried.imp fun _ _ hentry => ⟨hentry.length, hentry.destination⟩)

variable {ops : List HixlOneSideOpDesc} {groups : List (List UbMemAicpuTransferDesc)}

theorem fitsEntry_of_splits (hgroups : List.Forall₂ (SplitOf isGet) ops groups) :
    ∀ desc ∈ groups.flatten, FitsEntry desc := by
  induction hgroups with
  | nil => simp
  | cons hgroup hrest ih =>
    refine List.forall_mem_append.mpr ⟨fun desc hdesc => ?_, ih⟩
    have hsource := (hgroup.source.follows.bounds hdesc).2
    have hdestination := (hgroup.destination.follows.bounds hdesc).2
    have hsourceLt := hgroup.source_lt
    have hdestinationLt := hgroup.destination_lt
    rw [hgroup.source.total_eq] at hsource
    rw [hgroup.destination.total_eq] at hdestination
    rcases hgroup.fits desc hdesc with ⟨hpos, hle⟩
    exact ⟨hpos, hle, by omega, by omega⟩

theorem entriesTile_of_splits (hgroups : List.Forall₂ (SplitOf isGet) ops groups)
    (hcarried : List.Forall₂ CarriesDesc groups.flatten entries) :
    ∃ entryGroups, List.Forall₂ (EntriesTile isGet) ops entryGroups ∧
      entries = entryGroups.flatten := by
  induction hgroups generalizing entries with
  | nil =>
    rw [List.flatten_nil, List.forall₂_nil_left_iff] at hcarried
    exact ⟨[], .nil, hcarried⟩
  | @cons op group ops groups hgroup hrest ih =>
    have hfirst := (List.forall₂_take_append _ _ _ hcarried.flip).flip
    have hlater := (List.forall₂_drop_append _ _ _ hcarried.flip).flip
    rcases ih hlater with ⟨entryGroups, htiles, hflat⟩
    refine ⟨entries.take group.length :: entryGroups, .cons (hgroup.entriesTile hfirst) htiles, ?_⟩
    rw [List.flatten_cons, ← hflat, List.take_append_drop]

/-- A transfer whose launches and kernels all succeed queues copies that tile
every operation. -/
theorem queuedCopies_tile (request : LaunchRequest) (streamOk kernelOk : Bool)
    (answers : ℕ → LaunchAnswers) (config : UbMemClientConfig) (statusCount : Option ℕ)
    (counters : TaskIdCounters) (ops : List HixlOneSideOpDesc) (descs : List UbMemAicpuTransferDesc)
    (depth : ℕ) (ring : RtsqRing) (envs : List KernelEnv)
    (hprepare : prepareAicpuDescBuf request.isGet ops = .ok descs)
    (hlaunch : (launchAicpuChunks request streamOk kernelOk answers config
      statusCount descs.length counters).status = .success)
    (henvs : envs.length = (launchAicpuChunks request streamOk kernelOk
      answers config statusCount descs.length counters).launches.length)
    (hkernels : ∀ kernel ∈ runKernels request.isGet descs depth ring
      ((launchAicpuChunks request streamOk kernelOk answers config
        statusCount descs.length counters).launches.zip envs),
      kernel.ok = true) : let launches := (launchAicpuChunks request streamOk kernelOk answers
      config statusCount descs.length counters).launches
    let kernels := runKernels request.isGet descs depth ring
      (launches.zip envs)
    (∃ groups, List.Forall₂ (EntriesTile request.isGet) ops groups ∧
      copyEntries kernels = groups.flatten) ∧
    List.Forall₂ CarriesDesc descs (copyEntries kernels) ∧
    IdsFromBlocks counters launches (publishedByLaunch kernels) := by
  rcases prepareAicpuDescBuf_eq_ok hprepare with ⟨-, groups, hgroups, rfl⟩
  rcases launchAicpuChunks_launched hlaunch with ⟨counters', hlaunched⟩
  rcases chunkPlan_spec config.in_range.1 groups.flatten.length with
    ⟨htiles, hchunks⟩
  have hinside : ∀ chunk ∈ chunkPlan config.maxTransferCountPerBatch groups.flatten.length,
      chunk.offset + chunk.listNum ≤ groups.flatten.length := by
    intro chunk hchunk
    have hbounds := (htiles.follows.bounds hchunk).2
    rwa [htiles.total_eq, Nat.zero_add] at hbounds
  have hslices := htiles.follows.flatMap_slices groups.flatten
  rw [htiles.total_eq, List.drop_zero, List.take_length] at hslices
  rcases runKernels_published (fitsEntry_of_splits hgroups) hlaunched
    (fun chunk hchunk => (hchunks chunk hchunk).listNum_le) hinside henvs
    hkernels with ⟨hcarried, hblocks⟩
  rw [hslices] at hcarried
  exact ⟨entriesTile_of_splits hgroups hcarried, hcarried, hblocks⟩

def singleDescConfig : UbMemClientConfig where
  maxTransferCountPerBatch := 1
  in_range := by decide
  fixed_queue := by decide

def twoReads : List HixlOneSideOpDesc := [⟨4096, 65536, 10⟩, ⟨8192, 131072, 20⟩]

def twoReadDescs : List UbMemAicpuTransferDesc := [⟨4096, 65536, 10⟩, ⟨8192, 131072, 20⟩]

def twoReadLaunches : List UbMemAicpuKernelParam :=
  (launchAicpuChunks readRequest true true (fun _ => readyAnswers)
    singleDescConfig (some 2) 2 fun _ => 65535).launches

/-- Two operations in two launches, with task ids that cross 2^16. -/
theorem queuedCopies_tile_twoReads :
    prepareAicpuDescBuf true twoReads = .ok twoReadDescs ∧ List.Forall₂ CarriesDesc twoReadDescs
        (copyEntries (runKernels true twoReadDescs 256 (notifyRing 250 250)
          (twoReadLaunches.zip [quietEnv, quietEnv]))) ∧
      IdsFromBlocks (fun _ => 65535) twoReadLaunches
        (publishedByLaunch (runKernels true twoReadDescs 256 (notifyRing 250 250)
          (twoReadLaunches.zip [quietEnv, quietEnv]))) :=
  ⟨by rfl, (queuedCopies_tile readRequest true true (fun _ => readyAnswers)
      singleDescConfig (some 2) (fun _ => 65535) twoReads twoReadDescs 256
      (notifyRing 250 250) [quietEnv, quietEnv] (by rfl) (by rfl) (by rfl)
      (by decide)).2⟩

end Hixl
