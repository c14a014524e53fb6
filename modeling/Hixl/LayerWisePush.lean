import Hixl.CacheManagerModel

/-!
# Layer-wise push

`LayerWiseTransferJob` writes one layer of a local cache into one layer of a
cache of the peer, whose entry it has from the published table.  The size of a
write is taken from the local cache and its place from the remote one.  The same
is written to every tensor of the layer, so that its last tensor decides whether
a call stays inside.
-/

namespace Hixl.Llm

/-! ## Bytes of tensors -/

/-- Every byte of a range is one of a tensor. -/
def Covered (tensors : List UInt64) (size start len : ℕ) : Prop :=
  ∀ byte, start ≤ byte → byte < start + len →
    ∃ base ∈ tensors, base.toNat ≤ byte ∧ byte < base.toNat + size

section Covered

variable {tensors : List UInt64} {size start : ℕ}

theorem covered_zero : Covered tensors size start 0 :=
  fun _ hle hlt => absurd (hle.trans_lt hlt) (Nat.lt_irrefl _)

theorem covered_add (len more : ℕ) : Covered tensors size start (len + more) ↔
    Covered tensors size start len ∧ Covered tensors size (start + len) more := by
  constructor
  · exact fun h => ⟨fun byte hle hlt => h byte hle (by omega),
      fun byte hle hlt => h byte (by omega) (by omega)⟩
  · rintro ⟨hfirst, hrest⟩ byte hle hlt
    rcases Nat.lt_or_ge byte (start + len) with hbyte | hbyte
    · exact hfirst byte hle hbyte
    · exact hrest byte hbyte (by omega)

theorem covered_mul (n s : ℕ) : Covered tensors size start (n * s) ↔
    ∀ i < n, Covered tensors size (start + i * s) s := by
  induction n with
  | zero => simp [covered_zero]
  | succ n ih => rw [Nat.succ_mul, covered_add, ih, Nat.forall_lt_succ_right]

/-- What is behind the end of the highest tensor is in none. -/
theorem forall_covered_iff (hne : tensors ≠ []) (offset len : ℕ) :
    (∀ base ∈ tensors, Covered tensors size (base.toNat + offset) len) ↔
      len = 0 ∨ offset + len ≤ size := by
  constructor
  · intro h
    obtain ⟨top, htop, hmax⟩ := tensors.toFinset.exists_max_image UInt64.toNat
      (List.toFinset_nonempty_iff tensors |>.mpr hne)
    by_contra hbeyond
    obtain ⟨base, hbase, -, hlt⟩ := h top (List.mem_toFinset.mp htop)
      (top.toNat + offset + (len - 1)) (by omega) (by omega)
    have hle := hmax base (List.mem_toFinset.mpr hbase)
    omega
  · rintro (rfl | hfits) base hbase
    · exact covered_zero
    · exact fun byte hle hlt => ⟨base, hbase, by omega, by omega⟩

theorem toNat_offset {addr k s : UInt64} (hbelow : addr.toNat + k.toNat * s.toNat < 2 ^ 64) :
    (addr + k * s).toNat = addr.toNat + k.toNat * s.toNat := by
  rw [UInt64.toNat_add, UInt64.toNat_mul, Nat.mod_eq_of_lt (by omega : k.toNat * s.toNat < _),
    Nat.mod_eq_of_lt hbelow]

/-- A run of blocks is covered if each of its blocks is. -/
theorem covered_run {addr front s : UInt64} {n : ℕ}
    (hbelow : ∀ i < n, addr.toNat + (front.toNat + i) * s.toNat + s.toNat < 2 ^ 64) :
    Covered tensors size (addr + front * s).toNat (s * .ofNat n).toNat ↔
      ∀ i < n, Covered tensors size (addr.toNat + (front.toNat + i) * s.toNat) s.toNat := by
  cases n with
  | zero => simp [covered_zero]
  | succ n =>
    have hend := hbelow n (Nat.lt_succ_self n)
    have hcount : (s * UInt64.ofNat (n + 1)).toNat = (n + 1) * s.toNat := by
      rw [UInt64.toNat_mul, UInt64.toNat_ofNat', Nat.mul_comm s.toNat]
      rcases Nat.eq_zero_or_pos s.toNat with hzero | hpos
      · simp [hzero]
      · have hle := Nat.le_mul_of_pos_right (n + 1) hpos
        rw [Nat.add_mul] at hend
        rw [Nat.succ_mul] at hle
        rw [Nat.mod_eq_of_lt (by omega : n + 1 < _), Nat.succ_mul, Nat.mod_eq_of_lt (by omega)]
    rw [Nat.add_mul] at hend
    rw [hcount, toNat_offset (by omega), covered_mul]
    exact forall₂_congr fun i _ => by rw [Nat.add_mul, Nat.add_assoc]

theorem forall_mem_zip_snd {α β : Type} {l₁ : List α} {l₂ : List β} (h : l₁.length = l₂.length)
    (p : β → Prop) : (∀ x ∈ List.zip l₁ l₂, p x.2) ↔ ∀ b ∈ l₂, p b :=
  (List.forall_mem_map (f := Prod.snd) (P := p)).symm.trans (by rw [List.map_snd_zip h.ge])

theorem forall_mem_zip_fst {α β : Type} {l₁ : List α} {l₂ : List β} (h : l₁.length = l₂.length)
    (p : α → Prop) : (∀ x ∈ List.zip l₁ l₂, p x.1) ↔ ∀ a ∈ l₁, p a :=
  (List.forall_mem_map (f := Prod.fst) (P := p)).symm.trans (by rw [List.map_fst_zip h.le])

end Covered

structure TransferCacheConfig where
  batchIndex : UInt64 := 0
  layerIndex : UInt64 := 0
  dstAddrs : List UInt64 := []
  dstBatchIndex : UInt64 := 0
  dstLayerIndex : UInt64 := 0
  tensorNumPerLayer : UInt64 := 2

structure TransferBlockConfig where
  blockMemSize : UInt64 := 0
  srcBlocks : List UInt64 := []
  dstBlocks : List UInt64 := []

structure OneSideOpDesc where
  localAddr : UInt64
  remoteAddr : UInt64
  count : UInt64
  deriving DecidableEq, Repr

namespace LayerWise

variable (entry remote : CacheEntry) (config : TransferCacheConfig) (blocks : TransferBlockConfig)

def layer (addrs : List UInt64) (index perLayer : UInt64) : List UInt64 :=
  (addrs.drop (index.toNat * perLayer.toNat)).take perLayer.toNat

def validateRemoteCache : Option GeError :=
  if ¬ remote.remoteAccessible then some .paramInvalid
  else if ¬ config.dstLayerIndex.toNat <
      remote.cacheAddrs.length / config.tensorNumPerLayer.toNat then some .paramInvalid
  else if blocks.dstBlocks = [] then
    if config.dstBatchIndex.toNat < remote.batchSize.toNat then none else some .paramInvalid
  else if blocks.dstBlocks.all (· < remote.numBlocks) ∧
      (blocks.blockMemSize = 0 ∨ blocks.blockMemSize = remote.stride) then none
  else some .paramInvalid

def fillRemoteLayerAddrs : Except GeError TransferCacheConfig :=
  match validateRemoteCache remote config blocks with
  | some status => .error status
  | none => .ok { config with
      dstAddrs := config.dstAddrs ++
        (layer remote.cacheAddrs config.dstLayerIndex config.tensorNumPerLayer).map
          (· + config.dstBatchIndex * remote.stride) }

variable (srcAddrs : List UInt64)

def generateCacheToCacheTask : Except GeError (List OneSideOpDesc) :=
  if config.batchIndex.toNat < entry.batchSize.toNat then
    .ok ((List.zip srcAddrs config.dstAddrs).map fun addrs =>
      ⟨addrs.1 + config.batchIndex * entry.stride, addrs.2, entry.stride⟩)
  else .error .paramInvalid

/-- The size of write `j`: the last one may be short. -/
def blockCount (j : ℕ) : UInt64 :=
  if j + 1 = blocks.dstBlocks.length ∧ 0 < entry.stride % blocks.blockMemSize then
    entry.stride % blocks.blockMemSize
  else blocks.blockMemSize

def blockNum : UInt64 :=
  entry.stride / blocks.blockMemSize + if entry.stride % blocks.blockMemSize = 0 then 0 else 1

def generateCacheToBlocksTask : Except GeError (List OneSideOpDesc) :=
  let size := blocks.blockMemSize
  if ¬ (0 < size ∧ size ≤ entry.stride ∧ size < entry.tensorSize) then .error .paramInvalid
  else if ¬ config.batchIndex.toNat < entry.batchSize.toNat then .error .paramInvalid
  else if (blockNum entry blocks).toNat < blocks.dstBlocks.length then .error .paramInvalid
  else .ok ((List.zip srcAddrs config.dstAddrs).flatMap fun addrs =>
    blocks.dstBlocks.mapIdx fun j block =>
      ⟨addrs.1 + config.batchIndex * entry.stride + .ofNat j * size, addrs.2 + block * size,
        blockCount entry blocks j⟩)

/-- A run of pairs of blocks that are contiguous on both sides. -/
structure BlockRun where
  front : UInt64 × UInt64
  back : UInt64 × UInt64
  size : ℕ

/-- `FindContiguousBlockIndexPair`, with the current run. -/
def contiguousRuns (run : BlockRun) : List (UInt64 × UInt64) → List BlockRun
  | [] => [run]
  | next :: rest =>
    if next.1 = run.back.1 + 1 ∧ next.2 = run.back.2 + 1 then
      contiguousRuns { run with back := next, size := run.size + 1 } rest
    else run :: contiguousRuns ⟨next, next, 1⟩ rest

def checkBlocksContinuous (run : BlockRun) : Prop :=
  run.back.1 - run.front.1 = .ofNat (run.size - 1) ∧
    run.back.2 - run.front.2 = .ofNat (run.size - 1)

instance : DecidablePred checkBlocksContinuous := fun _ => instDecidableAnd

def findContiguousBlockIndexPair : Except GeError (List BlockRun) :=
  if blocks.srcBlocks.length = blocks.dstBlocks.length then
    match List.zip blocks.srcBlocks blocks.dstBlocks with
    | [] => .ok []
    | first :: rest =>
      if ∀ run ∈ contiguousRuns ⟨first, first, 1⟩ rest, checkBlocksContinuous run then
        .ok (contiguousRuns ⟨first, first, 1⟩ rest)
      else .error .failed
  else .error .paramInvalid

def generateBlocksToBlocksTask : Except GeError (List OneSideOpDesc) :=
  if entry.numBlocks = 0 then .error .paramInvalid
  else match findContiguousBlockIndexPair blocks with
    | .error status => .error status
    | .ok runs =>
      if 0 < blocks.blockMemSize ∧ entry.stride ≠ blocks.blockMemSize then .error .paramInvalid
      else if srcAddrs = [] ∨ ∀ run ∈ runs,
          run.front.1 < entry.numBlocks ∧ run.back.1 < entry.numBlocks then
        .ok ((List.zip srcAddrs config.dstAddrs).flatMap fun addrs => runs.map fun run =>
          ⟨addrs.1 + run.front.1 * entry.stride, addrs.2 + run.front.2 * entry.stride,
            entry.stride * .ofNat run.size⟩)
      else .error .paramInvalid

def prepare : Except GeError (List OneSideOpDesc) :=
  let perLayer := config.tensorNumPerLayer
  let srcAddrs := layer entry.cacheAddrs config.layerIndex perLayer
  if ¬ config.layerIndex.toNat < entry.cacheAddrs.length / perLayer.toNat then .error .paramInvalid
  else if entry.cacheAddrs.length % perLayer.toNat ≠ 0 then .error .paramInvalid
  else if srcAddrs.length ≠ config.dstAddrs.length then .error .paramInvalid
  else if blocks.dstBlocks = [] then generateCacheToCacheTask entry config srcAddrs
  else if blocks.srcBlocks = [] then generateCacheToBlocksTask entry config blocks srcAddrs
  else generateBlocksToBlocksTask entry config blocks srcAddrs

/-- The writes of `TransferCache` with access to the remote cache. -/
def transferCache : Except GeError (List OneSideOpDesc) :=
  if entry.remoteAccessible then
    (fillRemoteLayerAddrs remote config blocks).bind fun config => prepare entry config blocks
  else .error .paramInvalid

/-! ## The remote tensors -/

def remoteLayer : List UInt64 :=
  layer remote.cacheAddrs config.dstLayerIndex config.tensorNumPerLayer

/-- The bytes of a write are in the remote tensors of the layer. -/
def InRemoteLayer (op : OneSideOpDesc) : Prop :=
  Covered (remoteLayer remote config) remote.tensorSize.toNat op.remoteAddr.toNat op.count.toNat

/-- What is written to each tensor of the layer: places and sizes. -/
def parts : List (ℕ × ℕ) :=
  let start := config.dstBatchIndex.toNat * remote.stride.toNat
  if blocks.dstBlocks = [] then [(start, entry.stride.toNat)]
  else if blocks.srcBlocks = [] then
    blocks.dstBlocks.mapIdx fun j block =>
      (start + block.toNat * blocks.blockMemSize.toNat, (blockCount entry blocks j).toNat)
  else blocks.dstBlocks.map fun block =>
    (start + block.toNat * entry.stride.toNat, entry.stride.toNat)

def Fits : Prop :=
  ∀ part ∈ parts entry remote config blocks,
    part.2 = 0 ∨ part.1 + part.2 ≤ remote.tensorSize.toNat

instance : Decidable (Fits entry remote config blocks) := List.decidableBAll _ _

def BelowTop : Prop :=
  ∀ addr ∈ remoteLayer remote config, ∀ part ∈ parts entry remote config blocks,
    addr.toNat + part.1 + part.2 < 2 ^ 64

def PartsCovered : Prop :=
  ∀ addr ∈ remoteLayer remote config, ∀ part ∈ parts entry remote config blocks,
    Covered (remoteLayer remote config) remote.tensorSize.toNat (addr.toNat + part.1) part.2

variable {entry remote config blocks} {srcAddrs : List UInt64} {ops : List OneSideOpDesc}

theorem length_layer {addrs : List UInt64} {index perLayer : UInt64}
    (hindex : index.toNat < addrs.length / perLayer.toNat) :
    (layer addrs index perLayer).length = perLayer.toNat := by
  have hend := Nat.mul_le_mul_right perLayer.toNat (Nat.succ_le_of_lt hindex)
  have hsize := Nat.div_mul_le_self addrs.length perLayer.toNat
  rw [Nat.succ_mul] at hend
  rw [layer, List.length_take, List.length_drop]
  omega

section Runs

variable {side : UInt64 × UInt64 → UInt64}
  (hside : ∀ p q : UInt64 × UInt64, q.1 = p.1 + 1 ∧ q.2 = p.2 + 1 → side q = side p + 1)

include hside

/-- The indices of the runs are those of the pairs. -/
theorem contiguousRuns_covers {limit : ℕ} (hlimit : limit < 2 ^ 64) (run : BlockRun)
    (rest : List (UInt64 × UInt64))
    (hrun : (side run.back).toNat + 1 = (side run.front).toNat + run.size) (hsize : 1 ≤ run.size)
    (hback : (side run.back).toNat < limit) (hrest : ∀ pair ∈ rest, (side pair).toNat < limit)
    (p : ℕ → Prop) :
    (∀ found ∈ contiguousRuns run rest, ∀ i < found.size, p ((side found.front).toNat + i)) ↔
      (∀ i < run.size, p ((side run.front).toNat + i)) ∧ ∀ pair ∈ rest, p (side pair).toNat := by
  fun_induction contiguousRuns run rest with
  | case1 run => simp
  | case2 run next rest hnext ih =>
    obtain ⟨hfirst, hrest⟩ := List.forall_mem_cons.mp hrest
    have hstep : (side next).toNat = (side run.front).toNat + run.size := by
      rw [hside _ _ hnext, UInt64.toNat_add, UInt64.toNat_one, Nat.mod_eq_of_lt (by omega)]
      omega
    rw [ih (by dsimp only; omega) (Nat.le_add_left _ _) hfirst hrest, List.forall_mem_cons,
      Nat.forall_lt_succ_right, hstep, and_assoc]
  | case3 run next rest hnext ih =>
    obtain ⟨hfirst, hrest⟩ := List.forall_mem_cons.mp hrest
    rw [List.forall_mem_cons, ih rfl le_rfl hfirst hrest, List.forall_mem_cons]
    simp

theorem findContiguous_covers {num : UInt64} {runs : List BlockRun}
    (hpairs : ∀ pair ∈ List.zip blocks.srcBlocks blocks.dstBlocks, side pair < num)
    (hruns : findContiguousBlockIndexPair blocks = .ok runs) (p : ℕ → Prop) :
    (∀ run ∈ runs, ∀ i < run.size, p ((side run.front).toNat + i)) ↔
      ∀ pair ∈ List.zip blocks.srcBlocks blocks.dstBlocks, p (side pair).toNat := by
  simp only [UInt64.lt_iff_toNat_lt] at hpairs
  unfold findContiguousBlockIndexPair at hruns
  split_ifs at hruns
  split at hruns
  · next hzip =>
    cases hruns
    simp [hzip]
  · next first rest hzip =>
    rw [hzip] at hpairs ⊢
    obtain ⟨hfirst, hrest⟩ := List.forall_mem_cons.mp hpairs
    split_ifs at hruns
    cases hruns
    rw [contiguousRuns_covers hside num.toNat_lt _ rest rfl le_rfl hfirst hrest,
      List.forall_mem_cons]
    simp

end Runs

theorem forall_mem_mapIdx {α β : Type} {f : ℕ → α → β} {l : List α} {p : β → Prop} :
    (∀ x ∈ l.mapIdx f, p x) ↔ ∀ i (hi : i < l.length), p (f i l[i]) := by
  simp only [List.mem_mapIdx, forall_exists_index]
  exact ⟨fun h i hi => h _ i hi rfl, fun h _ i hi heq => heq ▸ h i hi⟩

section Empty

variable {part : ℕ × ℕ} (hpart : part ∈ parts entry remote config blocks) (hzero : part.2 = 0)
  {config' : TransferCacheConfig}

include hpart hzero

theorem cacheToCache_empty (hdst : blocks.dstBlocks = [])
    (hops : generateCacheToCacheTask entry config' srcAddrs = .ok ops) :
    ∀ op ∈ ops, op.count = 0 := by
  rw [parts, if_pos hdst, List.mem_singleton] at hpart
  subst hpart
  unfold generateCacheToCacheTask at hops
  split_ifs at hops
  cases hops
  exact List.forall_mem_map.mpr fun _ _ => UInt64.toNat_inj.mp hzero

theorem cacheToBlocks_empty (hdst : blocks.dstBlocks ≠ []) (hsrc : blocks.srcBlocks = [])
    (hops : generateCacheToBlocksTask entry config' blocks srcAddrs = .ok ops) :
    ∀ op ∈ ops, op.count = 0 := by
  rw [parts, if_neg hdst, if_pos hsrc] at hpart
  obtain ⟨j, hj, rfl⟩ := List.mem_mapIdx.mp hpart
  unfold generateCacheToBlocksTask at hops
  dsimp only at hops
  split_ifs at hops with hvalid
  have hpos := UInt64.lt_iff_toNat_lt.mp hvalid.1
  unfold blockCount at hzero
  split_ifs at hzero with hlast
  · exact absurd hzero (UInt64.lt_iff_toNat_lt.mp hlast.2).ne'
  · exact absurd hzero hpos.ne'

theorem blocksToBlocks_empty (hdst : blocks.dstBlocks ≠ []) (hsrc : blocks.srcBlocks ≠ [])
    (hops : generateBlocksToBlocksTask entry config' blocks srcAddrs = .ok ops) :
    ∀ op ∈ ops, op.count = 0 := by
  rw [parts, if_neg hdst, if_neg hsrc] at hpart
  obtain ⟨block, hblock, rfl⟩ := List.mem_map.mp hpart
  have hstride : entry.stride = 0 := UInt64.toNat_inj.mp hzero
  unfold generateBlocksToBlocksTask at hops
  cases hruns : findContiguousBlockIndexPair blocks with
  | error status =>
    rw [hruns] at hops
    split_ifs at hops
  | ok runs =>
    rw [hruns] at hops
    dsimp only at hops
    split_ifs at hops
    cases hops
    simp only [List.forall_mem_flatMap, List.forall_mem_map, hstride, UInt64.zero_mul, implies_true]

end Empty

section Writes

variable (hlength : srcAddrs.length = (remoteLayer remote config).length)

/-- The addresses that `FillRemoteLayerAddrs` gives. -/
abbrev filled (remote : CacheEntry) (config : TransferCacheConfig) : TransferCacheConfig :=
  { config with
    dstAddrs := (remoteLayer remote config).map (· + config.dstBatchIndex * remote.stride) }

include hlength

theorem forall_mem_zip_filled (p : UInt64 → Prop) :
    (∀ addrs ∈ List.zip srcAddrs (filled remote config).dstAddrs, p addrs.2) ↔
      ∀ addr ∈ remoteLayer remote config, p (addr + config.dstBatchIndex * remote.stride) := by
  rw [forall_mem_zip_snd (by simp [hlength]), List.forall_mem_map]

variable (hbelow : BelowTop entry remote config blocks)

include hbelow

theorem cacheToCache_covered (hdst : blocks.dstBlocks = [])
    (hops : generateCacheToCacheTask entry (filled remote config) srcAddrs = .ok ops) :
    (∀ op ∈ ops, InRemoteLayer remote config op) ↔ PartsCovered entry remote config blocks := by
  unfold generateCacheToCacheTask at hops
  split_ifs at hops
  cases hops
  simp only [List.forall_mem_map, InRemoteLayer]
  refine (forall_mem_zip_filled hlength fun dst => Covered _ _ dst.toNat _).trans
    (forall₂_congr fun addr haddr => ?_)
  have hplace := hbelow addr haddr
  simp only [parts, hdst, if_true, List.forall_mem_singleton] at hplace ⊢
  rw [toNat_offset (by omega)]

theorem cacheToBlocks_covered (hdst : blocks.dstBlocks ≠ []) (hsrc : blocks.srcBlocks = [])
    (hops : generateCacheToBlocksTask entry (filled remote config) blocks srcAddrs = .ok ops) :
    (∀ op ∈ ops, InRemoteLayer remote config op) ↔ PartsCovered entry remote config blocks := by
  unfold generateCacheToBlocksTask at hops
  dsimp only at hops
  split_ifs at hops
  cases hops
  simp only [List.forall_mem_flatMap, forall_mem_mapIdx, InRemoteLayer]
  refine (forall_mem_zip_filled hlength fun dst => ∀ j (hj : j < blocks.dstBlocks.length),
    Covered (remoteLayer remote config) remote.tensorSize.toNat
      (dst + blocks.dstBlocks[j] * blocks.blockMemSize).toNat
      (blockCount entry blocks j).toNat).trans (forall₂_congr fun addr haddr => ?_)
  have hplace := hbelow addr haddr
  simp only [parts, if_neg hdst, if_pos hsrc, forall_mem_mapIdx] at hplace ⊢
  refine forall₂_congr fun j hj => ?_
  have hpart := hplace j hj
  rw [toNat_offset (by rw [toNat_offset (by omega)]; omega),
    toNat_offset (by omega), Nat.add_assoc]

theorem blocksToBlocks_covered (hdst : blocks.dstBlocks ≠ []) (hsrc : blocks.srcBlocks ≠ [])
    (hnum : ∀ block ∈ blocks.dstBlocks, block < remote.numBlocks)
    (hops : generateBlocksToBlocksTask entry (filled remote config) blocks srcAddrs = .ok ops) :
    (∀ op ∈ ops, InRemoteLayer remote config op) ↔ PartsCovered entry remote config blocks := by
  unfold generateBlocksToBlocksTask at hops
  cases hruns : findContiguousBlockIndexPair blocks with
  | error status =>
    rw [hruns] at hops
    split_ifs at hops
  | ok runs =>
    rw [hruns] at hops
    dsimp only at hops
    split_ifs at hops
    cases hops
    have hsame : blocks.srcBlocks.length = blocks.dstBlocks.length := by
      by_contra hne
      rw [findContiguousBlockIndexPair, if_neg hne] at hruns
      cases hruns
    have hall : ∀ p : ℕ → Prop, (∀ run ∈ runs, ∀ i < run.size, p (run.front.2.toNat + i)) ↔
        ∀ block ∈ blocks.dstBlocks, p block.toNat := fun p =>
      (findContiguous_covers (fun _ _ h => h.2)
        (fun pair hpair => hnum _ (List.of_mem_zip hpair).2) hruns p).trans
        (forall_mem_zip_snd hsame fun block => p block.toNat)
    simp only [List.forall_mem_flatMap, List.forall_mem_map, InRemoteLayer]
    refine (forall_mem_zip_filled hlength fun dst => ∀ run ∈ runs,
      Covered (remoteLayer remote config) remote.tensorSize.toNat
        (dst + run.front.2 * entry.stride).toNat
        (entry.stride * UInt64.ofNat run.size).toNat).trans (forall₂_congr fun addr haddr => ?_)
    have hplace := hbelow addr haddr
    simp only [parts, if_neg hdst, if_neg hsrc, List.forall_mem_map, ← Nat.add_assoc] at hplace ⊢
    have hstart : (addr + config.dstBatchIndex * remote.stride).toNat = addr.toNat +
        config.dstBatchIndex.toNat * remote.stride.toNat := by
      obtain ⟨block, hblock⟩ := List.exists_mem_of_ne_nil _ hdst
      exact toNat_offset (by have := hplace block hblock; omega)
    rw [← hstart] at hplace ⊢
    have hends := (hall fun i => _ + i * _ + _ < _).mpr hplace
    exact (forall₂_congr fun run hrun => covered_run (hends run hrun)).trans (hall fun i =>
      Covered _ _ (_ + i * _) _)

end Writes

theorem exact_of_covered (hne : remoteLayer remote config ≠ [])
    (hspace : ∀ addr ∈ remoteLayer remote config, addr.toNat + remote.tensorSize.toNat < 2 ^ 64)
    (hempty : ∀ part ∈ parts entry remote config blocks, part.2 = 0 → ∀ op ∈ ops, op.count = 0)
    (hcovered : BelowTop entry remote config blocks →
      ((∀ op ∈ ops, InRemoteLayer remote config op) ↔ PartsCovered entry remote config blocks)) :
    (Fits entry remote config blocks → ∀ op ∈ ops, InRemoteLayer remote config op) ∧
      (BelowTop entry remote config blocks → (∀ op ∈ ops, InRemoteLayer remote config op) →
        Fits entry remote config blocks) := by
  have hparts : PartsCovered entry remote config blocks ↔ Fits entry remote config blocks := by
    constructor
    · exact fun h part hpart => (forall_covered_iff hne _ _).mp fun addr haddr =>
        h addr haddr part hpart
    · exact fun h addr haddr part hpart =>
        (forall_covered_iff hne _ _).mpr (h part hpart) addr haddr
  refine ⟨fun hfits => ?_, fun hbelow h => hparts.mp ((hcovered hbelow).mp h)⟩
  by_cases hzero : ∃ part ∈ parts entry remote config blocks, part.2 = 0
  · obtain ⟨part, hpart, hzero⟩ := hzero
    intro op hop
    rw [InRemoteLayer, hempty part hpart hzero op hop]
    exact covered_zero
  · refine (hcovered fun addr haddr part hpart => ?_).mpr (hparts.mpr hfits)
    have hfit := (hfits part hpart).resolve_left fun h => hzero ⟨part, hpart, h⟩
    have haddr := hspace addr haddr
    omega

/-- Addresses that the caller gave would make the lengths differ. -/
theorem dstAddrs_nil_of_prepare {dst : List UInt64} (hlayer : config.dstLayerIndex.toNat <
      remote.cacheAddrs.length / config.tensorNumPerLayer.toNat) (hdst : dst.length =
      (layer remote.cacheAddrs config.dstLayerIndex config.tensorNumPerLayer).length)
    (hops : prepare entry { config with dstAddrs := config.dstAddrs ++ dst } blocks = .ok ops) :
    config.dstAddrs = [] := by
  unfold prepare at hops
  dsimp only at hops
  split_ifs at hops with hindex hmultiple hlength
  all_goals
    rw [not_not, length_layer hindex, List.length_append, hdst, length_layer hlayer] at hlength
    exact List.length_eq_zero_iff.mp (by omega)

variable (entry remote config blocks) in
/-- Every byte that a call writes is in the remote tensors of the layer if each
part of what it writes fits into a tensor, and only then, unless an address
wraps around. -/
theorem transferCache_inRemoteLayer (ops : List OneSideOpDesc)
    (hspace : ∀ addr ∈ remoteLayer remote config, addr.toNat + remote.tensorSize.toNat < 2 ^ 64)
    (hops : transferCache entry remote config blocks = .ok ops) :
    (Fits entry remote config blocks → ∀ op ∈ ops, InRemoteLayer remote config op) ∧
      (BelowTop entry remote config blocks → (∀ op ∈ ops, InRemoteLayer remote config op) →
        Fits entry remote config blocks) := by
  unfold transferCache fillRemoteLayerAddrs at hops
  cases hvalidate : validateRemoteCache remote config blocks with
  | some status =>
    rw [hvalidate] at hops
    split_ifs at hops
    cases hops
  | none =>
    obtain ⟨hlayer, hnum⟩ : config.dstLayerIndex.toNat < remote.cacheAddrs.length /
        config.tensorNumPerLayer.toNat ∧ ∀ block ∈ blocks.dstBlocks, block < remote.numBlocks := by
      unfold validateRemoteCache at hvalidate
      split_ifs at hvalidate with _ hlayer hblocks hbatch hall
      · exact ⟨hlayer, by simp [hblocks]⟩
      · exact ⟨hlayer, by simpa using hall.1⟩
    rw [hvalidate] at hops
    split_ifs at hops
    dsimp only [Except.bind] at hops
    have hne : remoteLayer remote config ≠ [] := by
      intro hnil
      have hzero := (length_layer hlayer).symm.trans (congrArg List.length hnil)
      rw [hzero, List.length_nil, Nat.div_zero] at hlayer
      cases hlayer
    have hnil := dstAddrs_nil_of_prepare hlayer (List.length_map _) hops
    rw [hnil, List.nil_append] at hops
    unfold prepare at hops
    dsimp only at hops
    split_ifs at hops with hindex hmultiple hlength hdst hsrc
    all_goals
      rw [not_not, List.length_map] at hlength
    · exact exact_of_covered hne hspace
        (fun _ hpart hzero => cacheToCache_empty hpart hzero hdst hops)
        fun hbelow => cacheToCache_covered hlength hbelow hdst hops
    · exact exact_of_covered hne hspace
        (fun _ hpart hzero => cacheToBlocks_empty hpart hzero hdst hsrc hops)
        fun hbelow => cacheToBlocks_covered hlength hbelow hdst hsrc hops
    · exact exact_of_covered hne hspace
        (fun _ hpart hzero => blocksToBlocks_empty hpart hzero hdst hsrc hops)
        fun hbelow => blocksToBlocks_covered hlength hbelow hdst hsrc hnum hops

def pushSource : CacheEntry :=
  { batchSize := 1, tensorSize := 32, stride := 16, cacheAddrs := [64] }

/-- The remote cache of `numBlocks` blocks of eight bytes, or of one tensor. -/
def pushTarget (numBlocks tensorSize : UInt64) : CacheEntry :=
  { numBlocks, batchSize := 1, tensorSize, stride := 8, cacheAddrs := [4096], placement := 1 }

/-- A local part is written to two blocks of the remote cache. -/
theorem transferCache_inRemoteLayer_blocks :
    transferCache pushSource (pushTarget 2 16) { tensorNumPerLayer := 1 }
        { blockMemSize := 8, dstBlocks := [0, 1] } = .ok [⟨64, 4096, 8⟩, ⟨72, 4104, 8⟩] ∧
      ∀ op ∈ [⟨64, 4096, 8⟩, ⟨72, 4104, 8⟩],
        InRemoteLayer (pushTarget 2 16) { tensorNumPerLayer := 1 } op :=
  ⟨rfl, (transferCache_inRemoteLayer pushSource (pushTarget 2 16) { tensorNumPerLayer := 1 }
    { blockMemSize := 8, dstBlocks := [0, 1] } _
    (show ∀ addr ∈ [4096], _ from List.forall_mem_singleton.mpr (by decide)) rfl).1 (by decide)⟩

/-- A larger local part is written over the end of the remote tensor. -/
theorem transferCache_beyond :
    transferCache pushSource (pushTarget 0 8) { tensorNumPerLayer := 1 } {} =
        .ok [⟨64, 4096, 16⟩] ∧
      ¬ InRemoteLayer (pushTarget 0 8) { tensorNumPerLayer := 1 } ⟨64, 4096, 16⟩ :=
  ⟨rfl, fun h => absurd (h 4104 (by decide) (by decide)) (by decide)⟩

end LayerWise

end Hixl.Llm
