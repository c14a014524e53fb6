import Hixl.LayerWisePush

/-!
# Swapping blocks between caches

`SwapBlocks` copies blocks of one registered cache to another.  The indices of
the blocks are checked against the entries, while the block size and the
addresses of the tensors are the caller's.  Blocks that follow each other are
copied in one run, so a call stays inside exactly if each mapped block does.
-/

namespace Hixl.Llm

open LayerWise

structure Cache where
  cacheId : Int64
  perDeviceTensorAddrs : List (List UInt64)

structure BlockCopy where
  src : UInt64
  dst : UInt64
  size : UInt64
  deriving DecidableEq, Repr

namespace SwapImpl

variable (mapping : List (Int64 × Int64)) (blockSize srcNumBlocks dstNumBlocks : UInt64)

/-- The search compares the bits of the signed indices. -/
def orderedBlockMapping : Except GeError (List BlockRun) :=
  findContiguousBlockIndexPair { srcBlocks := mapping.map (·.1.toUInt64)
                                 dstBlocks := mapping.map (·.2.toUInt64) }

def checkBlockIndexInRange (index : Int64) (numBlocks : UInt64) : Bool :=
  numBlocks = 0 || 0 ≤ index && index.toUInt64 < numBlocks

def checkCopyRange (base index : UInt64) (num : ℕ) : Bool :=
  let size := blockSize.toNat * num
  let offset := index.toNat * blockSize.toNat
  0 ≤ index.toInt64 && size ≤ wordMax 64 && offset ≤ wordMax 64 &&
    base.toNat + offset ≤ wordMax 64 && base.toNat + offset + size ≤ wordMax 64

/-- No group of the ordered mapping is empty. -/
def validateBlockMapping (runs : List BlockRun) (srcAddr dstAddr : UInt64) : Bool :=
  0 < blockSize &&
    mapping.all (fun pair => checkBlockIndexInRange pair.1 srcNumBlocks &&
      checkBlockIndexInRange pair.2 dstNumBlocks) &&
    runs.all fun run => checkCopyRange blockSize srcAddr run.front.1 run.size &&
      checkCopyRange blockSize dstAddr run.front.2 run.size

def runOrderedBlockMemcpy (runs : List BlockRun) (srcAddr dstAddr : UInt64) : List BlockCopy :=
  runs.map fun run => ⟨srcAddr + run.front.1 * blockSize, dstAddr + run.front.2 * blockSize,
    blockSize * .ofNat run.size⟩

/-- The copies of an accepted call, those of a task that fails included. -/
def swapBlocks (srcAddrs dstAddrs : List UInt64) : Except GeError (List BlockCopy) :=
  (orderedBlockMapping mapping).bind fun runs =>
    if srcAddrs.length = dstAddrs.length ∧ srcAddrs ≠ [] ∧
        (List.zip srcAddrs dstAddrs).all fun addrs => validateBlockMapping mapping blockSize
          srcNumBlocks dstNumBlocks runs addrs.1 addrs.2 then
      .ok ((List.zip srcAddrs dstAddrs).flatMap fun addrs =>
        runOrderedBlockMemcpy blockSize runs addrs.1 addrs.2)
    else .error .paramInvalid

/-- With `CheckParam`: the tensors of both caches are on one device. -/
def swapBlocksV2 (src dst : Cache) (type : UInt32) : Except GeError (List BlockCopy) :=
  if type = 0 ∨ type = 1 then
    match src.perDeviceTensorAddrs, dst.perDeviceTensorAddrs with
    | [srcAddrs], [dstAddrs] =>
      if srcAddrs.length = dstAddrs.length then
        swapBlocks mapping blockSize srcNumBlocks dstNumBlocks srcAddrs dstAddrs
      else .error .paramInvalid
    | _, _ => .error .paramInvalid
  else .error .paramInvalid

end SwapImpl

def CacheEntry.swapNumBlocks (entry : CacheEntry) : UInt64 :=
  if 0 < entry.numBlocks then entry.numBlocks else entry.batchSize.toUInt64

namespace DataCacheEngine

def resolveSwapNumBlocks (cacheId : Int64) (m : CacheManager) : Except GeError UInt64 :=
  if cacheId < 0 then .ok 0
  else match m.cacheIdToEntry.lookup cacheId with
    | none => .error .kvCacheNotExist
    | some entry =>
      if 0 < entry.swapNumBlocks then .ok entry.swapNumBlocks else .error .paramInvalid

def swapBlocks (m : CacheManager) (src dst : Cache) (blockSize : UInt64) (type : UInt32)
    (mapping : List (Int64 × Int64)) : Except GeError (List BlockCopy) :=
  if src.cacheId < 0 ↔ dst.cacheId < 0 then
    (resolveSwapNumBlocks src.cacheId m).bind fun srcNumBlocks =>
      (resolveSwapNumBlocks dst.cacheId m).bind fun dstNumBlocks =>
        SwapImpl.swapBlocksV2 mapping blockSize srcNumBlocks dstNumBlocks src dst type
  else .error .paramInvalid

end DataCacheEngine

/-! ## Inside the tensors -/

def CacheEntry.InTensor (entry : CacheEntry) (addr size : UInt64) : Prop :=
  Covered entry.cacheAddrs entry.tensorSize.toNat addr.toNat size.toNat

def CopiesInTensors (srcEntry dstEntry : CacheEntry) (copies : List BlockCopy) : Prop :=
  ∀ copy ∈ copies, srcEntry.InTensor copy.src copy.size ∧ dstEntry.InTensor copy.dst copy.size

/-- Each of some blocks lies in the tensors, at every address that the caller
gives. -/
def BlocksCovered (entry : CacheEntry) (addrs : List UInt64) (blockSize : UInt64)
    (indices : List Int64) : Prop :=
  ∀ addr ∈ addrs, ∀ index ∈ indices, Covered entry.cacheAddrs entry.tensorSize.toNat
    (addr.toNat + index.toUInt64.toNat * blockSize.toNat) blockSize.toNat

open SwapImpl

theorem blocksCovered_own {entry : CacheEntry} {blockSize : UInt64} (hne : entry.cacheAddrs ≠ [])
    (hsize : 0 < blockSize) (indices : List Int64) :
    BlocksCovered entry entry.cacheAddrs blockSize indices ↔ ∀ index ∈ indices,
      (index.toUInt64.toNat + 1) * blockSize.toNat ≤ entry.tensorSize.toNat := by
  have hpos : blockSize.toNat ≠ 0 := (UInt64.lt_iff_toNat_lt.mp hsize).ne'
  have hiff : ∀ index : Int64, (∀ addr ∈ entry.cacheAddrs, Covered entry.cacheAddrs
      entry.tensorSize.toNat (addr.toNat + index.toUInt64.toNat * blockSize.toNat)
        blockSize.toNat) ↔
      (index.toUInt64.toNat + 1) * blockSize.toNat ≤ entry.tensorSize.toNat := fun index => by
    rw [forall_covered_iff hne, or_iff_right hpos, Nat.succ_mul]
  exact ⟨fun h index hindex => (hiff index).mp fun addr haddr => h addr haddr index hindex,
    fun h addr haddr index hindex => (hiff index).mpr (h index hindex) addr haddr⟩

theorem inTensor_run_iff {entry : CacheEntry} {base front blockSize : UInt64} {n : ℕ}
    (hrange : checkCopyRange blockSize base front n = true) :
    entry.InTensor (base + front * blockSize) (blockSize * .ofNat n) ↔
      ∀ i < n, Covered entry.cacheAddrs entry.tensorSize.toNat
        (base.toNat + (front.toNat + i) * blockSize.toNat) blockSize.toNat := by
  have hword := wordMax_64
  simp only [checkCopyRange, Bool.and_eq_true, decide_eq_true_eq] at hrange
  refine covered_run fun i hi => ?_
  have hend := Nat.mul_le_mul_right blockSize.toNat (Nat.succ_le_of_lt hi)
  rw [Nat.succ_mul] at hend
  rw [Nat.add_mul]
  rw [Nat.mul_comm _ n] at hrange
  omega

theorem exists_of_bind_ok {α β : Type} {x : Except GeError α} {f : α → Except GeError β} {b : β}
    (hbind : x.bind f = .ok b) : ∃ a, x = .ok a ∧ f a = .ok b := by
  cases x with
  | error status => cases hbind
  | ok a => exact ⟨a, rfl, hbind⟩

theorem resolveSwapNumBlocks_ok {m : CacheManager} {id : Int64} {entry : CacheEntry} {num : UInt64}
    (hid : ¬ id < 0) (hfound : m.cacheIdToEntry.lookup id = some entry)
    (hresolve : DataCacheEngine.resolveSwapNumBlocks id m = .ok num) :
    num = entry.swapNumBlocks ∧ num ≠ 0 := by
  simp only [DataCacheEngine.resolveSwapNumBlocks, if_neg hid, hfound] at hresolve
  split_ifs at hresolve with hpos
  cases hresolve
  exact ⟨rfl, UInt64.pos_iff_ne_zero.mp hpos⟩

theorem copiesInTensors_iff {mapping : List (Int64 × Int64)} {runs : List BlockRun}
    {srcAddrs dstAddrs : List UInt64} {blockSize : UInt64} {srcEntry dstEntry : CacheEntry}
    (hlength : srcAddrs.length = dstAddrs.length) (hruns : orderedBlockMapping mapping = .ok runs)
    (hsrcNum : srcEntry.swapNumBlocks ≠ 0) (hdstNum : dstEntry.swapNumBlocks ≠ 0)
    (hvalid : ∀ addrs ∈ List.zip srcAddrs dstAddrs, validateBlockMapping mapping blockSize
      srcEntry.swapNumBlocks dstEntry.swapNumBlocks runs addrs.1 addrs.2 = true) :
    CopiesInTensors srcEntry dstEntry ((List.zip srcAddrs dstAddrs).flatMap fun addrs =>
        runOrderedBlockMemcpy blockSize runs addrs.1 addrs.2) ↔
      BlocksCovered srcEntry srcAddrs blockSize (mapping.map Prod.fst) ∧
        BlocksCovered dstEntry dstAddrs blockSize (mapping.map Prod.snd) := by
  simp only [validateBlockMapping, checkBlockIndexInRange, hsrcNum, hdstNum, decide_false,
    Bool.false_or, Bool.and_eq_true, List.all_eq_true, decide_eq_true_eq] at hvalid
  have hzip : List.zip (mapping.map (·.1.toUInt64)) (mapping.map (·.2.toUInt64)) =
      mapping.map fun pair => (pair.1.toUInt64, pair.2.toUInt64) := List.zip_map' ..
  have hcopies : ∀ addrs ∈ List.zip srcAddrs dstAddrs,
      CopiesInTensors srcEntry dstEntry (runOrderedBlockMemcpy blockSize runs addrs.1 addrs.2) ↔
        BlocksCovered srcEntry [addrs.1] blockSize (mapping.map Prod.fst) ∧
          BlocksCovered dstEntry [addrs.2] blockSize (mapping.map Prod.snd) := by
    intro addrs haddrs
    obtain ⟨⟨-, hpairs⟩, hranges⟩ := hvalid addrs haddrs
    have hbits : ∀ pair ∈ List.zip (mapping.map (·.1.toUInt64)) (mapping.map (·.2.toUInt64)),
        pair.1 < srcEntry.swapNumBlocks ∧ pair.2 < dstEntry.swapNumBlocks := by
      rw [hzip]
      exact List.forall_mem_map.mpr fun pair hpair =>
        ⟨(hpairs pair hpair).1.2, (hpairs pair hpair).2.2⟩
    have hsrc := findContiguous_covers (fun _ _ h => h.1) (fun pair hpair => (hbits pair hpair).1)
      hruns fun i => Covered srcEntry.cacheAddrs srcEntry.tensorSize.toNat
        (addrs.1.toNat + i * blockSize.toNat) blockSize.toNat
    have hdst := findContiguous_covers (fun _ _ h => h.2) (fun pair hpair => (hbits pair hpair).2)
      hruns fun i => Covered dstEntry.cacheAddrs dstEntry.tensorSize.toNat
        (addrs.2.toNat + i * blockSize.toNat) blockSize.toNat
    dsimp only at hsrc hdst
    rw [hzip, List.forall_mem_map] at hsrc hdst
    simp only [BlocksCovered, List.forall_mem_singleton, List.forall_mem_map]
    rw [← hsrc, ← hdst, ← forall₂_and, CopiesInTensors, runOrderedBlockMemcpy, List.forall_mem_map]
    exact forall₂_congr fun run hrun => and_congr (inTensor_run_iff (hranges run hrun).1)
      (inTensor_run_iff (hranges run hrun).2)
  rw [CopiesInTensors, List.forall_mem_flatMap]
  refine (forall₂_congr hcopies).trans ?_
  rw [forall₂_and, forall_mem_zip_fst hlength fun addr => BlocksCovered srcEntry [addr] blockSize _,
    forall_mem_zip_snd hlength fun addr => BlocksCovered dstEntry [addr] blockSize _]
  simp only [BlocksCovered, List.forall_mem_singleton]

/-- The copies of an accepted call are inside the tensors on both sides exactly
if every mapped block is, at every address that the caller gives.  With the
addresses of the entries the largest index decides. -/
theorem swapBlocks_inTensors (m : CacheManager) (src dst : Cache) (blockSize : UInt64)
    (type : UInt32) (mapping : List (Int64 × Int64)) (srcEntry dstEntry : CacheEntry)
    (hid : 0 ≤ src.cacheId) (hsrc : m.cacheIdToEntry.lookup src.cacheId = some srcEntry)
    (hdst : m.cacheIdToEntry.lookup dst.cacheId = some dstEntry) (copies : List BlockCopy)
    (hswap : DataCacheEngine.swapBlocks m src dst blockSize type mapping = .ok copies) :
    (CopiesInTensors srcEntry dstEntry copies ↔
      BlocksCovered srcEntry src.perDeviceTensorAddrs.flatten blockSize (mapping.map Prod.fst) ∧
      BlocksCovered dstEntry dst.perDeviceTensorAddrs.flatten blockSize (mapping.map Prod.snd)) ∧
    (src.perDeviceTensorAddrs = [srcEntry.cacheAddrs] →
      dst.perDeviceTensorAddrs = [dstEntry.cacheAddrs] →
      (CopiesInTensors srcEntry dstEntry copies ↔ ∀ pair ∈ mapping,
        (pair.1.toUInt64.toNat + 1) * blockSize.toNat ≤ srcEntry.tensorSize.toNat ∧
        (pair.2.toUInt64.toNat + 1) * blockSize.toNat ≤ dstEntry.tensorSize.toNat)) := by
  unfold DataCacheEngine.swapBlocks at hswap
  split_ifs at hswap with hsign
  have hsrcId : ¬ src.cacheId < 0 := Int64.not_lt.mpr hid
  obtain ⟨srcNum, hsrcNum, hswap⟩ := exists_of_bind_ok hswap
  obtain ⟨dstNum, hdstNum, hswap⟩ := exists_of_bind_ok hswap
  obtain ⟨rfl, hsrcPos⟩ := resolveSwapNumBlocks_ok hsrcId hsrc hsrcNum
  obtain ⟨rfl, hdstPos⟩ := resolveSwapNumBlocks_ok (hsign.not.mp hsrcId) hdst hdstNum
  unfold swapBlocksV2 at hswap
  split_ifs at hswap
  split at hswap
  · next srcAddrs dstAddrs hsrcAddrs hdstAddrs =>
    split_ifs at hswap
    obtain ⟨runs, hruns, hswap⟩ := exists_of_bind_ok hswap
    split_ifs at hswap with hvalid
    cases hswap
    obtain ⟨hlength, hne, hvalid⟩ := hvalid
    have hiff : CopiesInTensors srcEntry dstEntry _ ↔ _ :=
      copiesInTensors_iff hlength hruns hsrcPos hdstPos (List.all_eq_true.mp hvalid)
    rw [hsrcAddrs, hdstAddrs, List.flatten_singleton, List.flatten_singleton]
    refine ⟨hiff, fun hsrcOwn hdstOwn => hiff.trans ?_⟩
    obtain rfl := (List.singleton_inj.mp hsrcOwn)
    obtain rfl := (List.singleton_inj.mp hdstOwn)
    have hdstNe : dstEntry.cacheAddrs ≠ [] := fun h => hne (List.length_eq_zero_iff.mp
      (hlength.trans (congrArg List.length h)))
    have hsize : 0 < blockSize := by
      obtain ⟨addrs, haddrs⟩ := List.exists_mem_of_ne_nil _ 
        (mt List.zip_eq_nil_iff.mp (not_or.mpr ⟨hne, hdstNe⟩))
      have hcheck := List.all_eq_true.mp hvalid addrs haddrs
      simp only [validateBlockMapping, Bool.and_eq_true, decide_eq_true_eq] at hcheck
      exact hcheck.1.1
    rw [blocksCovered_own hne hsize, blocksCovered_own hdstNe hsize, List.forall_mem_map,
      List.forall_mem_map, ← forall₂_and]
  · cases hswap

def twoBlocks (addr : UInt64) : CacheEntry :=
  { numBlocks := 2, batchSize := 1, tensorSize := 16, stride := 8, cacheAddrs := [addr] }

def swapManager : CacheManager :=
  { cacheIdToEntry := (AList.singleton 1 (twoBlocks 64)).insert 2 (twoBlocks 4096) }

/-- With a larger block size the first block is still inside. -/
theorem swapBlocks_inTensors_first :
    DataCacheEngine.swapBlocks swapManager ⟨1, [[64]]⟩ ⟨2, [[4096]]⟩ 16 0 [(0, 0)] =
        .ok [⟨64, 4096, 16⟩] ∧
      CopiesInTensors (twoBlocks 64) (twoBlocks 4096) [⟨64, 4096, 16⟩] :=
  ⟨rfl, ((swapBlocks_inTensors swapManager ⟨1, [[64]]⟩ ⟨2, [[4096]]⟩ 16 0 [(0, 0)]
    (twoBlocks 64) (twoBlocks 4096) (by decide) rfl rfl [⟨64, 4096, 16⟩] rfl).2 rfl rfl).mpr
    (List.forall_mem_singleton.mpr (by decide))⟩

/-- The second block is then behind the end of the tensors. -/
theorem swapBlocks_beyond :
    DataCacheEngine.swapBlocks swapManager ⟨1, [[64]]⟩ ⟨2, [[4096]]⟩ 16 0 [(1, 1)] =
        .ok [⟨80, 4112, 16⟩] ∧
      ¬ (twoBlocks 64).InTensor 80 16 ∧ ¬ (twoBlocks 4096).InTensor 4112 16 :=
  ⟨rfl, fun h => absurd (h 80 (by decide) (by decide)) (by decide),
    fun h => absurd (h 4112 (by decide) (by decide)) (by decide)⟩

end Hixl.Llm
