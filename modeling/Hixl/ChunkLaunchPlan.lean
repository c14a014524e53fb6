import Hixl.ByteTilings
import Hixl.UbMemLaunchModel

/-!
# The chunk plan

The launch loop cuts the descriptors into chunks.  A chunk never crosses the
end of a batch, because the loop tracks how much of the batch is left, and the
number of chunks is the closed formula with which the host sizes its status
buffer: as many launches as every full batch needs, and those of the rest.
-/

namespace Hixl

open ByteTilings

structure ChunkOk (batchSize descCount : ℕ) (chunk : Chunk) : Prop where
  listNum_pos : 1 ≤ chunk.listNum
  listNum_le : chunk.listNum ≤ maxKernelBatchSize
  within_batch : chunk.offset % batchSize + chunk.listNum ≤ batchSize
  notify_iff : chunk.needNotifyWait = true ↔
    (chunk.offset + chunk.listNum) % batchSize = 0 ∨ chunk.offset + chunk.listNum = descCount

theorem mod_add_remaining {batchSize offset remaining n : ℕ}
    (hbatch : offset % batchSize + remaining = batchSize) (hn : n ≤ remaining) :
    (offset + n) % batchSize =
      if remaining - n = 0 then 0 else offset % batchSize + n := by
  have hsum : (offset + n) % batchSize = (offset % batchSize + n) % batchSize := by
    rw [Nat.mod_add_mod]
  rw [hsum]
  split_ifs with hdone
  · have hfull : offset % batchSize + n = batchSize := by omega
    rw [hfull, Nat.mod_self]
  · exact Nat.mod_eq_of_lt (by omega)

theorem chunkLoop_spec {batchSize descCount fuel offset remaining : ℕ} (hremaining : 1 ≤ remaining)
    (hbatch : offset % batchSize + remaining = batchSize)
    (hoffset : offset ≤ descCount) (hfuel : descCount - offset ≤ fuel) :
    Tiles Chunk.listNum Chunk.offset offset (descCount - offset)
        (chunkLoop batchSize descCount fuel offset remaining) ∧
      ∀ chunk ∈ chunkLoop batchSize descCount fuel offset remaining,
        ChunkOk batchSize descCount chunk := by
  induction fuel generalizing offset remaining with
  | zero =>
    have hdone : descCount - offset = 0 := by omega
    rw [hdone]
    exact ⟨⟨trivial, rfl⟩, by simp [chunkLoop]⟩
  | succ fuel ih =>
    unfold chunkLoop
    split_ifs with hmore
    · generalize hn : min (min maxKernelBatchSize remaining) (descCount - offset) = n
      unfold maxKernelBatchSize at hn
      have hmod := mod_add_remaining hbatch (n := n) (by omega)
      have hnext : (offset + n) % batchSize +
          (if remaining - n = 0 then batchSize else remaining - n) =
            batchSize := by
        rw [hmod]
        split_ifs <;> omega
      have hpositive : 1 ≤
          if remaining - n = 0 then batchSize else remaining - n := by
        split_ifs <;> omega
      rcases ih hpositive hnext (by omega) (by omega) with
        ⟨htiles, hchunks⟩
      constructor
      · constructor
        · exact ⟨rfl, htiles.follows⟩
        · rw [total_cons, htiles.total_eq]
          change n + (descCount - (offset + n)) = descCount - offset
          omega
      · intro chunk hchunk
        rcases List.mem_cons.mp hchunk with rfl | hlater
        · constructor
          · change 1 ≤ n
            omega
          · change n ≤ 128
            omega
          · change offset % batchSize + n ≤ batchSize
            omega
          · change decide (remaining - n = 0 ∨ offset + n = descCount) =
              true ↔ (offset + n) % batchSize = 0 ∨ offset + n = descCount
            rw [decide_eq_true_iff, hmod]
            split_ifs <;> omega
        · exact hchunks chunk hlater
    · have hdone : descCount - offset = 0 := by omega
      rw [hdone]
      exact ⟨⟨trivial, rfl⟩, by simp⟩

theorem chunkPlan_spec {batchSize : ℕ} (hbatch : 1 ≤ batchSize) (descCount : ℕ) :
    Tiles Chunk.listNum Chunk.offset 0 descCount (chunkPlan batchSize descCount) ∧
      ∀ chunk ∈ chunkPlan batchSize descCount, ChunkOk batchSize descCount chunk := by
  apply chunkLoop_spec hbatch
  · rw [Nat.zero_mod, Nat.zero_add]
  · exact Nat.zero_le descCount
  · exact le_refl _

/-! ## The number of chunks -/

def ceilChunks (n : ℕ) : ℕ := n / maxKernelBatchSize + if n % maxKernelBatchSize ≠ 0 then 1 else 0

def planLength (batchSize descCount : ℕ) : ℕ :=
  descCount / batchSize * ceilChunks batchSize + ceilChunks (descCount % batchSize)

theorem ceilChunks_zero : ceilChunks 0 = 0 := by decide

theorem ceilChunks_le (n : ℕ) : ceilChunks n ≤ n := by
  unfold ceilChunks maxKernelBatchSize
  split_ifs <;> omega

theorem ceilChunks_of_le {n : ℕ} (hpos : 1 ≤ n) (hle : n ≤ maxKernelBatchSize) :
    ceilChunks n = 1 := by
  unfold ceilChunks
  unfold maxKernelBatchSize at hle ⊢
  split_ifs <;> omega

theorem ceilChunks_sub {n : ℕ} (hlarge : maxKernelBatchSize < n) :
    ceilChunks n = 1 + ceilChunks (n - maxKernelBatchSize) := by
  unfold ceilChunks
  unfold maxKernelBatchSize at hlarge ⊢
  split_ifs <;> omega

theorem planLength_batch {batchSize : ℕ} (hbatch : 1 ≤ batchSize) (n : ℕ) :
    ceilChunks (min n batchSize) + planLength batchSize (n - min n batchSize) =
      planLength batchSize n := by
  by_cases hfull : batchSize ≤ n
  · rw [min_eq_right hfull]
    unfold planLength
    have hdiv : n / batchSize = (n - batchSize) / batchSize + 1 := Nat.div_eq_sub_div hbatch hfull
    have hmod : (n - batchSize) % batchSize = n % batchSize := (Nat.mod_eq_sub_mod hfull).symm
    rw [hdiv, hmod, Nat.succ_mul]
    omega
  · have hlt : n < batchSize := Nat.lt_of_not_le hfull
    rw [min_eq_left hlt.le, Nat.sub_self]
    unfold planLength
    rw [Nat.div_eq_of_lt hlt, Nat.mod_eq_of_lt hlt, Nat.zero_div, Nat.zero_mod, ceilChunks_zero]
    omega

/-- From the middle of a batch, the chunks are those of the rest of the batch
and those of the later batches. -/
theorem chunkLoop_length {batchSize descCount fuel offset remaining : ℕ} (hbatch : 1 ≤ batchSize)
    (hremaining : 1 ≤ remaining) (hfuel : descCount - offset ≤ fuel) :
    (chunkLoop batchSize descCount fuel offset remaining).length =
      ceilChunks (min (descCount - offset) remaining) + planLength batchSize
          (descCount - offset - min (descCount - offset) remaining) := by
  have hnone : ∀ r, ceilChunks (min 0 r) + planLength batchSize (0 - min 0 r) = 0 := by
    intro r
    rw [Nat.zero_min, ceilChunks_zero]
    unfold planLength
    rw [Nat.zero_div, Nat.zero_mod, ceilChunks_zero]
    omega
  induction fuel generalizing offset remaining with
  | zero =>
    have hdone : descCount - offset = 0 := by omega
    rw [hdone, hnone]
    rfl
  | succ fuel ih =>
    unfold chunkLoop
    split_ifs with hmore
    · generalize hn : min (min maxKernelBatchSize remaining) (descCount - offset) = n
      generalize hleft : min (descCount - offset) remaining = left
      have hpositive : 1 ≤
          if remaining - n = 0 then batchSize else remaining - n := by
        split_ifs <;> omega
      have hpos : 1 ≤ n := by
        unfold maxKernelBatchSize at hn
        omega
      rw [List.length_cons, ih hpositive (by omega)]
      by_cases hend : remaining - n = 0
      · rw [if_pos hend, planLength_batch hbatch]
        have hone : ceilChunks left = 1 := ceilChunks_of_le (by omega) (by omega)
        have hrest : descCount - (offset + n) = descCount - offset - left := by omega
        rw [hone, hrest, Nat.add_comm]
      · rw [if_neg hend]
        have hrest : min (descCount - (offset + n)) (remaining - n) =
            left - n := by omega
        have hlater : descCount - (offset + n) - (left - n) = descCount - offset - left := by omega
        rw [hrest, hlater]
        by_cases hlarge : maxKernelBatchSize < left
        · have hfull : n = maxKernelBatchSize := by omega
          rw [ceilChunks_sub hlarge, hfull]
          omega
        · have hone : ceilChunks left = 1 := ceilChunks_of_le (by omega) (by omega)
          have hzero : left - n = 0 := by omega
          rw [hone, hzero, ceilChunks_zero]
          omega
    · have hdone : descCount - offset = 0 := by omega
      rw [hdone, hnone]
      rfl

theorem chunkPlan_length {batchSize : ℕ} (hbatch : 1 ≤ batchSize) (descCount : ℕ) :
    (chunkPlan batchSize descCount).length = planLength batchSize descCount := by
  unfold chunkPlan
  rw [chunkLoop_length hbatch hbatch (Nat.sub_le _ _), Nat.sub_zero]
  exact planLength_batch hbatch descCount

theorem calculateAicpuKernelCount_eq {batchSize descCount : ℕ} (hbatch : 1 ≤ batchSize)
    (hbatch32 : batchSize < 2 ^ 32) (hcount : 1 ≤ descCount) (hcount32 : descCount < 2 ^ 32) :
    calculateAicpuKernelCount descCount batchSize = (chunkPlan batchSize descCount).length := by
  have htotal : planLength batchSize descCount ≤ descCount := by
    have hfull : descCount / batchSize * ceilChunks batchSize ≤ descCount / batchSize * batchSize :=
      Nat.mul_le_mul_left _ (ceilChunks_le batchSize)
    have hrest := ceilChunks_le (descCount % batchSize)
    have hdivMod := Nat.div_add_mod descCount batchSize
    rw [Nat.mul_comm] at hdivMod
    unfold planLength
    omega
  have hbatchLe := ceilChunks_le batchSize
  have htailLe := ceilChunks_le (descCount % batchSize)
  have hmod := Nat.mod_le descCount batchSize
  rw [chunkPlan_length hbatch]
  unfold calculateAicpuKernelCount
  rw [if_neg (by omega)]
  dsimp only
  have hperBatch : wrapAdd 32 (batchSize / maxKernelBatchSize)
      (if batchSize % maxKernelBatchSize ≠ 0 then 1 else 0) =
        ceilChunks batchSize :=
    wrapAdd_eq_add (lt_of_le_of_lt hbatchLe hbatch32)
  have htail : wrapAdd 32 (descCount % batchSize / maxKernelBatchSize)
      (if descCount % batchSize % maxKernelBatchSize ≠ 0 then 1 else 0) =
        ceilChunks (descCount % batchSize) :=
    wrapAdd_eq_add (lt_of_le_of_lt (htailLe.trans hmod) hcount32)
  rw [hperBatch, htail]
  unfold planLength at htotal ⊢
  rw [wrapMul_eq_mul (by omega), wrapAdd_eq_add (by omega)]

/-! ## Launches -/

def launchedChunk (param : UbMemAicpuKernelParam) : Chunk where
  offset := param.chunkOffset
  listNum := param.descCount
  needNotifyWait := param.emitNotifyRecord ≠ 0

/-- The parameters of a launch fit its chunk, and its task ids were reserved
from the counter of its queue. -/
structure FilledFor (request : LaunchRequest) (chunk : Chunk)
    (counters counters' : TaskIdCounters) (param : UbMemAicpuKernelParam) :
    Prop where
  chunk_eq : launchedChunk param = chunk
  notify_le : param.emitNotifyRecord ≤ 1
  isGet_eq : param.isGet = request.isGet
  key_ne : param.transferCtxKey ≠ 0
  version_eq : param.version = kernelParamVersion
  reserved : reserveRtsqTaskIds counters param.rtsqId
    (wrapAdd 32 param.descCount param.emitNotifyRecord) = (counters param.rtsqId, counters')
  taskId_eq : param.rtsqTaskId = counters param.rtsqId % 2 ^ 16

section

variable {answers : RtsqAnswers} {taskCount : ℕ}

theorem fillRtsqMeta_eq_ok {counters counters' : TaskIdCounters}
    {base param : UbMemAicpuKernelParam}
    (hfill : fillRtsqMeta answers taskCount counters base = .ok (param, counters')) :
    ∃ deviceId sqId streamId logicCqId, param =
        { base with
          deviceId := deviceId
          rtsqId := sqId
          rtsqStreamId := streamId
          rtsqLogicCqId := logicCqId
          rtsqTaskId := counters sqId % 2 ^ 16 } ∧
      reserveRtsqTaskIds counters sqId taskCount = (counters sqId, counters') := by
  unfold fillRtsqMeta at hfill
  split_ifs at hfill
  rcases hstream : answers.streamId with _ | streamId
  · simp [hstream] at hfill
  · rw [hstream] at hfill
    dsimp only at hfill
    split_ifs at hfill
    split at hfill
    · split_ifs at hfill
      rcases hfill with ⟨⟩
      exact ⟨_, _, _, _, rfl, rfl⟩
    · cases hfill

theorem fillRtsqMeta_error_ne {counters : TaskIdCounters} {base : UbMemAicpuKernelParam}
    {status : Status} (hfill : fillRtsqMeta answers taskCount counters base = .error status) :
    status ≠ .success := by
  unfold fillRtsqMeta at hfill
  rintro rfl
  repeat' split at hfill
  all_goals cases hfill

end

section

variable {request : LaunchRequest} {answers : RtsqAnswers} {chunk : Chunk}

theorem fillUbMemKernelParam_error_ne {counters : TaskIdCounters} {status : Status}
    (hfill : fillUbMemKernelParam request answers chunk counters = .error status) :
    status ≠ .success := by
  unfold fillUbMemKernelParam at hfill
  split_ifs at hfill
  · cases hfill
    decide
  · cases hfill
    decide
  all_goals exact fillRtsqMeta_error_ne hfill

theorem fillUbMemKernelParam_eq_ok
    {counters counters' : TaskIdCounters} {param : UbMemAicpuKernelParam}
    (hfill : fillUbMemKernelParam request answers chunk counters = .ok (param, counters')) :
    FilledFor request chunk counters counters' param := by
  unfold fillUbMemKernelParam at hfill
  by_cases hempty : chunk.listNum = 0
  · simp [if_pos hempty] at hfill
  rw [if_neg hempty] at hfill
  by_cases hthread : request.slot.thread = 0
  · simp [if_pos hthread] at hfill
  rw [if_neg hthread] at hfill
  rcases fillRtsqMeta_eq_ok hfill with ⟨_, _, _, _, rfl, hreserved⟩
  constructor
  · rcases chunk with ⟨offset, listNum, _ | _⟩ <;> rfl
  · change (if chunk.needNotifyWait then 1 else 0) ≤ 1
    split_ifs <;> omega
  · rfl
  · exact hthread
  · rfl
  · exact hreserved
  · rfl

end

/-- The chunks were launched in order, each with the next block of task ids. -/
inductive LaunchedFrom (request : LaunchRequest) :
    TaskIdCounters → List Chunk → List UbMemAicpuKernelParam → TaskIdCounters → Prop
  | nil (counters) : LaunchedFrom request counters [] [] counters
  | cons {counters counters₁ counters' chunk chunks param params}
      (hfilled : FilledFor request chunk counters counters₁ param)
      (hrest : LaunchedFrom request counters₁ chunks params counters') :
      LaunchedFrom request counters (chunk :: chunks) (param :: params) counters'

theorem launchLoop_launched (request : LaunchRequest) (answers : ℕ → LaunchAnswers)
    (statusCount : Option ℕ) (statusOffset : ℕ) (counters : TaskIdCounters) (chunks : List Chunk) :
    ∃ done rest counters', chunks = done ++ rest ∧ LaunchedFrom request counters done
        (launchLoop request answers statusCount statusOffset counters chunks).launches counters' ∧
      ((launchLoop request answers statusCount statusOffset counters
        chunks).status = .success → rest = []) := by
  induction chunks generalizing statusOffset counters with
  | nil => exact ⟨[], [], counters, rfl, .nil counters, fun _ => rfl⟩
  | cons chunk chunks ih =>
    unfold launchLoop
    rcases hfill : fillUbMemKernelParam request (answers statusOffset).rtsq
      chunk counters with status | ⟨param, counters₁⟩
    · have hne := fillUbMemKernelParam_error_ne hfill
      exact ⟨[], chunk :: chunks, counters, rfl, .nil counters, fun hok => absurd hok hne⟩
    · have hfilled := fillUbMemKernelParam_eq_ok hfill
      split_ifs with hindex hlaunch
      · exact ⟨[], chunk :: chunks, counters, rfl, .nil counters, by simp⟩
      · exact ⟨[], chunk :: chunks, counters, rfl, .nil counters, by simp⟩
      · rcases ih (statusOffset + 1) counters₁ with
          ⟨done, rest, counters', hsplit, hdone, hrest⟩
        refine ⟨chunk :: done, rest, counters', ?_, ?_, hrest⟩
        · rw [hsplit, List.cons_append]
        · exact .cons { hfilled with } hdone

section

variable {request : LaunchRequest}

theorem LaunchedFrom.chunks_eq {counters counters' : TaskIdCounters}
    {chunks : List Chunk} {params : List UbMemAicpuKernelParam}
    (hlaunched : LaunchedFrom request counters chunks params counters') :
    params.map launchedChunk = chunks := by
  induction hlaunched with
  | nil counters => rfl
  | cons hfilled hrest ih => rw [List.map_cons, ih, hfilled.chunk_eq]

theorem launchAicpuChunks_launched {streamOk kernelOk : Bool}
    {answers : ℕ → LaunchAnswers} {config : UbMemClientConfig}
    {statusCount : Option ℕ} {descCount : ℕ} {counters : TaskIdCounters}
    (hlaunch : (launchAicpuChunks request streamOk kernelOk answers config
      statusCount descCount counters).status = .success) :
    ∃ counters', LaunchedFrom request counters (chunkPlan config.maxTransferCountPerBatch descCount)
      (launchAicpuChunks request streamOk kernelOk answers config
        statusCount descCount counters).launches counters' := by
  unfold launchAicpuChunks at hlaunch ⊢
  split_ifs at hlaunch ⊢
  rcases launchLoop_launched request answers statusCount 0 counters
    (chunkPlan config.maxTransferCountPerBatch descCount) with
    ⟨done, rest, counters', hsplit, hdone, hrest⟩
  rw [hrest hlaunch, List.append_nil] at hsplit
  rw [hsplit] at hdone ⊢
  exact ⟨counters', hdone⟩

end

def withoutStatus (param : UbMemAicpuKernelParam) : UbMemAicpuKernelParam :=
  { param with statusIndex := none }

theorem launchLoop_status (request : LaunchRequest) (answers : ℕ → LaunchAnswers)
    {count statusOffset : ℕ} (counters : TaskIdCounters)
    {chunks : List Chunk} (hroom : statusOffset + chunks.length ≤ count) :
    let result := launchLoop request answers (some count) statusOffset
      counters chunks
    let unchecked := launchLoop request answers none statusOffset
      counters chunks
    result.status = unchecked.status ∧ result.counters = unchecked.counters ∧
      result.launches.map withoutStatus = unchecked.launches.map withoutStatus ∧
      ∀ param ∈ result.launches, ∃ index, param.statusIndex = some index ∧ index < count := by
  induction chunks generalizing statusOffset counters with
  | nil => exact ⟨rfl, rfl, rfl, by simp [launchLoop]⟩
  | cons chunk chunks ih =>
    rw [List.length_cons] at hroom
    unfold launchLoop
    rcases hfill : fillUbMemKernelParam request (answers statusOffset).rtsq
      chunk counters with status | ⟨param, counters₁⟩
    · exact ⟨rfl, rfl, rfl, by simp⟩
    · have hindex : (some count).any (· ≤ statusOffset) = false := by
        simp only [Option.any_some, decide_eq_false_iff_not]
        omega
      simp only [hindex, Option.any_none, Bool.false_eq_true, if_false]
      split_ifs with hlaunch
      · exact ⟨rfl, rfl, rfl, by simp⟩
      · rcases @ih (statusOffset + 1) counters₁ (by omega) with
          ⟨hstatus, hcounters, hlaunches, hindices⟩
        refine ⟨hstatus, hcounters, ?_, ?_⟩
        · rw [List.map_cons, List.map_cons, hlaunches]
          rfl
        · exact List.forall_mem_cons.mpr ⟨⟨statusOffset, rfl, by omega⟩, hindices⟩

/-- The answers with which a chunk is launched. -/
structure LaunchAnswers.Good (answers : LaunchAnswers) : Prop where
  stream : ∃ streamId, answers.rtsq.streamId = some streamId ∧
    0 ≤ streamId ∧ streamId ≤ (wordMax 16 : ℤ)
  queue : ∃ sqId logicCqId, answers.rtsq.sqId = some sqId ∧
    answers.rtsq.logicCqId = some logicCqId
  device : ∃ deviceId, answers.rtsq.physicalDeviceId = some deviceId ∧ 0 ≤ deviceId
  launched : answers.launchOk = true

theorem LaunchAnswers.Good.fills {request : LaunchRequest} {answers : LaunchAnswers}
    {batchSize descCount : ℕ} {chunk : Chunk} (hgood : answers.Good)
    (hthread : request.slot.thread ≠ 0) (hchunk : ChunkOk batchSize descCount chunk)
    (counters : TaskIdCounters) : ∃ filled,
      fillUbMemKernelParam request answers.rtsq chunk counters = .ok filled := by
  have hpos := hchunk.listNum_pos
  have hle := hchunk.listNum_le
  have hcount : wrapAdd 32 chunk.listNum (if chunk.needNotifyWait then 1 else 0) ≠ 0 := by
    unfold wrapAdd
    unfold maxKernelBatchSize at hle
    split_ifs <;> omega
  rcases hgood.stream with ⟨streamId, hstream, hrange⟩
  rcases hgood.queue with ⟨sqId, logicCqId, hsq, hcq⟩
  rcases hgood.device with ⟨deviceId, hdevice, hnonneg⟩
  unfold fillUbMemKernelParam
  rw [if_neg (by omega), if_neg hthread]
  dsimp only
  unfold fillRtsqMeta
  rw [if_neg hcount, hstream, hsq, hcq, hdevice]
  dsimp only
  rw [if_neg (not_not.mpr hrange), if_neg (by omega)]
  exact ⟨_, rfl⟩

theorem launchLoop_succeeds {request : LaunchRequest} {answers : ℕ → LaunchAnswers}
    {count statusOffset batchSize descCount : ℕ} (counters : TaskIdCounters) {chunks : List Chunk}
    (hthread : request.slot.thread ≠ 0) (hroom : statusOffset + chunks.length ≤ count)
    (hchunks : ∀ chunk ∈ chunks, ChunkOk batchSize descCount chunk)
    (hgood : ∀ index < count, (answers index).Good) :
    (launchLoop request answers (some count) statusOffset counters chunks).status = .success := by
  induction chunks generalizing statusOffset counters with
  | nil => rfl
  | cons chunk chunks ih =>
    rw [List.length_cons] at hroom
    rw [List.forall_mem_cons] at hchunks
    have hready := hgood statusOffset (by omega)
    rcases hready.fills hthread hchunks.1 counters with ⟨⟨param, counters₁⟩, hfill⟩
    have hindex : (some count).any (· ≤ statusOffset) = false := by
      simp only [Option.any_some, decide_eq_false_iff_not]
      omega
    unfold launchLoop
    simp only [hfill, hindex, hready.launched, Bool.not_true, Bool.false_eq_true, if_false]
    exact ih counters₁ (by omega) hchunks.2

theorem deviceLaunchLoop_succeeds {launchOk : ℕ → Bool} {chunkIdx : ℕ} {chunks : List Chunk}
    (hgood : ∀ index < chunkIdx + chunks.length, launchOk index = true) :
    (deviceLaunchLoop launchOk chunkIdx chunks).1 = .success := by
  induction chunks generalizing chunkIdx with
  | nil => rfl
  | cons chunk chunks ih =>
    rw [List.length_cons] at hgood
    unfold deviceLaunchLoop
    rw [if_pos (hgood chunkIdx (by omega))]
    exact ih fun index hindex => hgood index (by omega)

theorem deviceLaunchLoop_launched (launchOk : ℕ → Bool) (chunkIdx : ℕ) (chunks : List Chunk) :
    (deviceLaunchLoop launchOk chunkIdx chunks).2 <+: chunks ∧
      ((deviceLaunchLoop launchOk chunkIdx chunks).1 = .success →
        (deviceLaunchLoop launchOk chunkIdx chunks).2 = chunks) := by
  induction chunks generalizing chunkIdx with
  | nil => exact ⟨List.prefix_rfl, fun _ => rfl⟩
  | cons chunk chunks ih =>
    unfold deviceLaunchLoop
    split_ifs with hlaunch
    · rcases ih (chunkIdx + 1) with ⟨hdone, hall⟩
      constructor
      · exact (List.prefix_cons_inj chunk).mpr hdone
      · intro hok
        exact congrArg (chunk :: ·) (hall hok)
    · exact ⟨List.nil_prefix, by simp⟩

end Hixl
