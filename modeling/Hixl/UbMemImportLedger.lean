import Hixl.UbMemImportModel
import Hixl.UbMemRemoteTranslation

/-!
# The ledger of imported memory

In every run of `RemoteMemory` the count of live ranges of a block is the number
of ranges mapped in it, blocks and physical handles are given back exactly once,
a block with its last range, and a failed `Import` leaves nothing behind.

The proofs carry the ranges that the object still owns, which is ahead of the
table while that is cleared, and the slack of a block, by which its count is
ahead of the mapped ranges while it is filled.
-/

namespace Hixl

open RemoteWorld

open HeldResources

namespace VirtualMemoryManager

theorem size_le_blocksNeeded (size : ℕ) : size ≤ blocksNeeded size * kBlockSize := by
  have hdiv := Nat.div_add_mod size kBlockSize
  have hmod := Nat.mod_lt size kBlockSize_pos
  unfold blocksNeeded
  by_cases hrem : size % kBlockSize = 0
  · rw [if_neg (by simpa using hrem), Nat.add_zero, Nat.mul_comm]
    omega
  · rw [if_pos hrem, Nat.add_mul, Nat.one_mul, Nat.mul_comm]
    omega

end VirtualMemoryManager

namespace VmHistory

variable {h : VmHistory} {r : VmReservation}

theorem Consistent.ledger (hcons : h.Consistent) (hr : r ∈ h.live) : VmLedger h.manager h.live := by
  cases hon : h.manager.initialized with
  | true => exact hcons.on hon
  | false =>
    rw [hcons.off hon] at hr
    cases hr

theorem Consistent.releaseMemory_success (hcons : h.Consistent) (hr : r ∈ h.live) :
    (h.manager.releaseMemory r.addr).1 = .success := by
  rw [(hcons.ledger hr).releaseMemory_live hr]

theorem mem_live_releaseMemory {memAddr : ℕ} (hr : r ∈ h.live) (hne : r.addr ≠ memAddr) :
    r ∈ (h.call (.releaseMemory memAddr)).live := by
  simp only [call]
  by_cases hok : (h.manager.releaseMemory memAddr).1 = .success
  · rw [if_pos hok, List.mem_filter]
    exact ⟨hr, by simpa using hne⟩
  · rwa [if_neg hok]

variable {rt : ReserveRuntime} {size addr : ℕ}

theorem live_reserveMemory (hok : (h.manager.reserveMemory rt size).1 = .ok addr) :
    (h.call (.reserveMemory rt size)).live = ⟨addr, size⟩ :: h.live := by
  simp only [call, hok]

theorem mem_live_reserveMemory (hr : r ∈ h.live) (rt : ReserveRuntime) (size : ℕ) :
    r ∈ (h.call (.reserveMemory rt size)).live := by
  cases hok : (h.manager.reserveMemory rt size).1 with
  | ok addr =>
    rw [live_reserveMemory hok]
    exact List.mem_cons_of_mem _ hr
  | error status =>
    simp only [call, hok]
    exact hr

theorem Consistent.reserveMemory_ok (hcons : h.Consistent)
    (hok : (h.manager.reserveMemory rt size).1 = .ok addr) :
    (∀ r ∈ h.live, r.addr ≠ addr) ∧ addr + size ≤ wordMax 64 := by
  have hafter := hcons.reserveMemory rt size
  have hlive := live_reserveMemory hok
  have hnew : ⟨addr, size⟩ ∈ (h.call (.reserveMemory rt size)).live := by
    rw [hlive]
    exact List.mem_cons_self
  have hledger := hafter.ledger hnew
  generalize (h.call (.reserveMemory rt size)).manager = m at hledger
  rw [hlive] at hledger
  have hinside := hledger.ledger.inside _ (VmLedger.mem_run List.mem_cons_self)
  constructor
  · intro r hr haddr
    have hapart := (List.pairwise_cons.mp hledger.ledger.disjoint).1 _
      (List.mem_map_of_mem hr)
    have hother := hledger.ledger.inside _
      (VmLedger.mem_run (List.mem_cons_of_mem _ hr))
    apply hapart ((addr - m.globalVirtualMemoryAddr) / kBlockSize)
    · exact ⟨le_refl _, by simp only [VmReservation.run] at hinside ⊢; omega⟩
    · simp only [VmReservation.run, haddr] at hother
      simp only [BlockBitmaps.InRun, VmReservation.run, haddr]
      omega
  · have haligned := hledger.aligned _ List.mem_cons_self
    have hsize := VirtualMemoryManager.size_le_blocksNeeded size
    have hspace := hledger.in_address_space
    have hsized := hledger.sized
    have hlength := hledger.length
    have hblocks : ((addr - m.globalVirtualMemoryAddr) / kBlockSize +
        VirtualMemoryManager.blocksNeeded size) * kBlockSize ≤ m.numBlocks * kBlockSize := by
      apply Nat.mul_le_mul_right
      simp only [VmReservation.run] at hinside
      omega
    rw [Nat.add_mul] at hblocks
    simp only [VmReservation.Aligned, VmReservation.run] at haligned
    rw [wordMax_64]
    omega

end VmHistory

/-! ## What the object holds -/

/-- A mapping is made only at an address without one, a block is reserved only
once, and it is given back only when no range is mapped in it. -/
def remoteRules : Rules RemoteResource where
  mayOpen
    | .mapping localVa _, held => ∀ base, .mapping localVa base ∉ held
    | .physical _, _ => True
    | .block base, held => .block base ∉ held
  mayClose
    | .block base, held => ∀ localVa, .mapping localVa base ∉ held
    | _, _ => True

def handleResources (paHandle : ℕ) : Multiset RemoteResource :=
  if paHandle ≠ 0 then {.physical paHandle} else 0

def rangeResources : List MappedRange → Multiset RemoteResource
  | [] => 0
  | range :: ranges =>
    .mapping range.localVa range.importBase ::ₘ
      (handleResources range.paHandle + rangeResources ranges)

def blockResources (blocks : AList fun _ : ℕ => ImportedBlock) : Multiset RemoteResource :=
  ↑(blocks.keys.map RemoteResource.block)

def RemoteMemory.importedRanges (m : RemoteMemory) : List MappedRange :=
  m.ranges.filter MappedRange.imported

def RemoteMemory.held (m : RemoteMemory) : Multiset RemoteResource :=
  rangeResources m.importedRanges + blockResources m.importedBlocks

def rangesIn (base : ℕ) (ranges : List MappedRange) : ℕ :=
  ranges.countP fun range => range.importBase = base

theorem rangesIn_cons (base : ℕ) (range : MappedRange) (ranges : List MappedRange) :
    rangesIn base (range :: ranges) =
      rangesIn base ranges + if range.importBase = base then 1 else 0 := by
  simp [rangesIn, List.countP_cons]

variable {base : ℕ} {ranges : List MappedRange}

theorem rangesIn_eq_zero_iff :
    rangesIn base ranges = 0 ↔ ∀ range ∈ ranges, range.importBase ≠ base := by
  simp [rangesIn, List.countP_eq_zero]

theorem mapping_not_mem_handleResources (paHandle localVa base : ℕ) :
    .mapping localVa base ∉ handleResources paHandle := by
  unfold handleResources
  split_ifs <;> simp

theorem block_not_mem_handleResources (paHandle base : ℕ) :
    .block base ∉ handleResources paHandle := by
  unfold handleResources
  split_ifs <;> simp

variable {localVa : ℕ}

theorem mapping_mem_rangeResources :
    .mapping localVa base ∈ rangeResources ranges ↔ ∃ range ∈ ranges,
        range.localVa = localVa ∧ range.importBase = base := by
  induction ranges with
  | nil => simp [rangeResources]
  | cons range ranges ih => simp [rangeResources, mapping_not_mem_handleResources, ih, eq_comm]

theorem block_not_mem_rangeResources (ranges : List MappedRange) (base : ℕ) :
    .block base ∉ rangeResources ranges := by
  induction ranges with
  | nil => simp [rangeResources]
  | cons range ranges ih => simp [rangeResources, block_not_mem_handleResources, ih]

theorem mapping_not_mem_blockResources (blocks : AList fun _ : ℕ => ImportedBlock)
    (localVa base : ℕ) : .mapping localVa base ∉ blockResources blocks := by
  simp [blockResources]

variable {blocks : AList fun _ : ℕ => ImportedBlock}

theorem block_mem_blockResources : .block base ∈ blockResources blocks ↔ base ∈ blocks := by
  simp [blockResources, AList.mem_keys]

theorem rangeResources_perm {ranges' : List MappedRange} (hperm : ranges.Perm ranges') :
    rangeResources ranges = rangeResources ranges' := by
  induction hperm with
  | nil => rfl
  | cons range hperm ih => simp only [rangeResources, ih]
  | swap a b ranges =>
    simp only [rangeResources, ← Multiset.singleton_add]
    abel
  | trans _ _ ih ih' => exact ih.trans ih'

theorem blockResources_insert_fresh (hfresh : blocks.lookup base = none) (block : ImportedBlock) :
    blockResources (blocks.insert base block) = .block base ::ₘ blockResources blocks := by
  have hnot : base ∉ blocks.keys := AList.lookup_eq_none.mp hfresh
  rw [blockResources, AList.keys_insert, List.erase_of_not_mem hnot]
  rfl

theorem blockResources_insert_found (hfound : base ∈ blocks) (block : ImportedBlock) :
    blockResources (blocks.insert base block) = blockResources blocks := by
  have hperm := List.perm_cons_erase (AList.mem_keys.mp hfound)
  rw [blockResources, AList.keys_insert]
  exact Multiset.coe_eq_coe.mpr (hperm.symm.map _)

theorem blockResources_erase (hfound : base ∈ blocks) : blockResources blocks =
      .block base ::ₘ blockResources (blocks.erase base) := by
  have hperm := List.perm_cons_erase (AList.mem_keys.mp hfound)
  rw [blockResources, blockResources, AList.keys_erase]
  exact Multiset.coe_eq_coe.mpr (hperm.map _)

structure InBlock
    (blocks : AList fun _ : ℕ => ImportedBlock) (range : MappedRange) :
    Prop where
  imported : range.imported = true
  block : ∃ block, blocks.lookup range.importBase = some block ∧
    range.importBase ≤ range.localVa ∧
    range.localVa + range.info.len ≤ range.importBase + block.len
  fits : (range.remoteRange?).isSome

structure RemoteCore
    (ranges : List MappedRange) (slack : ℕ → ℕ) (w : RemoteWorld) :
    Prop where
  manager : w.vm.Consistent
  reserved : ∀ base ∈ w.memory.importedBlocks,
    ∃ r ∈ w.vm.live, r.addr = base
  mapped : ∀ range ∈ ranges, range.localVa ∈ w.mapped
  nodup : (ranges.map MappedRange.localVa).Nodup
  inBlock : ∀ range ∈ ranges, InBlock w.memory.importedBlocks range
  live : ∀ base block, w.memory.importedBlocks.lookup base = some block →
    block.liveRanges = rangesIn base ranges + slack base
  occupied : ∀ base ∈ w.memory.importedBlocks,
    0 < rangesIn base ranges + slack base
  log : Holds remoteRules w.log
    (rangeResources ranges + blockResources w.memory.importedBlocks)

/-- One more range of the block at `base` is counted than mapped. -/
def oneMore (base : ℕ) (slack : ℕ → ℕ) : ℕ → ℕ := Function.update slack base (slack base + 1)

theorem oneMore_apply (base : ℕ) (slack : ℕ → ℕ) (other : ℕ) : oneMore base slack other =
      slack other + if base = other then 1 else 0 := by
  by_cases hother : base = other
  · subst hother
    simp [oneMore]
  · simp [oneMore, Function.update_of_ne (Ne.symm hother), hother]

theorem oneMore_of_ne (slack : ℕ → ℕ) {other : ℕ} (hne : other ≠ base) :
    slack other = oneMore base slack other := by
  rw [oneMore_apply, if_neg (Ne.symm hne), Nat.add_zero]

variable {w : RemoteWorld} {slack : ℕ → ℕ} {ranges' : List MappedRange} {range : MappedRange}
  {paHandle : ℕ}

theorem freePhysical_eq (w : RemoteWorld) (paHandle : ℕ) :
    ∃ log, w.freePhysical paHandle = { w with log } ∧
      ∀ held, Holds remoteRules w.log (handleResources paHandle + held) →
        Holds remoteRules log held := by
  unfold freePhysical handleResources
  split_ifs
  · exact ⟨_, rfl, fun _ hlog => hlog.closed trivial⟩
  · exact ⟨_, rfl, fun _ hlog => by rwa [zero_add] at hlog⟩

theorem InBlock.congr {blocks' : AList fun _ : ℕ => ImportedBlock} (hin : InBlock blocks range)
    (hblock : ∀ block, blocks.lookup range.importBase = some block →
      ∃ block', blocks'.lookup range.importBase = some block' ∧ block'.len = block.len) :
    InBlock blocks' range := by
  obtain ⟨block, hfound, hlow, hhigh⟩ := hin.block
  obtain ⟨block', hfound', hlen⟩ := hblock block hfound
  exact ⟨hin.imported, ⟨block', hfound', hlow, hlen ▸ hhigh⟩, hin.fits⟩

namespace RemoteCore

theorem perm (hcore : RemoteCore ranges slack w) (hperm : ranges.Perm ranges') :
    RemoteCore ranges' slack w := by
  have hcount : ∀ base, rangesIn base ranges = rangesIn base ranges' :=
    fun base => hperm.countP_eq _
  exact { hcore with
    mapped := fun range hrange => hcore.mapped range (hperm.mem_iff.mpr hrange)
    nodup := (hperm.map _).nodup_iff.mp hcore.nodup
    inBlock := fun range hrange => hcore.inBlock range (hperm.mem_iff.mpr hrange)
    live := fun base block hblock => hcount base ▸ hcore.live base block hblock
    occupied := fun base hbase => hcount base ▸ hcore.occupied base hbase
    log := rangeResources_perm hperm ▸ hcore.log }

theorem localVa_ne (hcore : RemoteCore ranges slack w) (hfree : localVa ∉ w.mapped) :
    ∀ range ∈ ranges, range.localVa ≠ localVa := by
  intro range hrange heq
  exact hfree (heq ▸ hcore.mapped range hrange)

/-! ## A range goes away -/

/-- After the mapping and the handle of a range are given back, its block
counts one range too many. -/
theorem unmap (hcore : RemoteCore (range :: ranges) slack w) (answers : RemoteAnswers) :
    RemoteCore ranges (oneMore range.importBase slack)
      ((w.unmapMem answers range.localVa range.importBase).freePhysical range.paHandle) := by
  obtain ⟨hfresh, hnodup⟩ := List.nodup_cons.mp hcore.nodup
  have hcount : ∀ base, rangesIn base ranges + oneMore range.importBase slack base =
      rangesIn base (range :: ranges) + slack base := by
    intro base
    rw [rangesIn_cons, oneMore_apply]
    omega
  obtain ⟨log, heq, hlog⟩ := freePhysical_eq
    (w.unmapMem answers range.localVa range.importBase) range.paHandle
  rw [heq]
  refine { hcore with
    mapped := ?_
    nodup := hnodup
    inBlock := ?_
    live := ?_
    occupied := ?_
    log := hlog _ (hcore.log.close_key ?_ trivial) }
  · intro other hother
    have hmapped := hcore.mapped other (List.mem_cons_of_mem _ hother)
    simp only [unmapMem]
    split_ifs
    · exact Finset.mem_erase.mpr ⟨fun heq => hfresh (heq ▸ List.mem_map_of_mem hother), hmapped⟩
    · exact hmapped
  · exact fun other hother => hcore.inBlock other (List.mem_cons_of_mem _ hother)
  · exact fun base block hblock => (hcount base).symm ▸ hcore.live base block hblock
  · exact fun base hbase => (hcount base).symm ▸ hcore.occupied base hbase
  · simp only [rangeResources, Multiset.cons_add, add_assoc, unmapMem]

theorem releaseBlock (hcore : RemoteCore ranges slack w) (hbase : base ∈ w.memory.importedBlocks)
    (hempty : rangesIn base ranges = 0) : RemoteCore ranges slack
      ((w.releaseMemory base).setBlocks (w.memory.importedBlocks.erase base)) := by
  obtain ⟨r, hr, rfl⟩ := hcore.reserved base hbase
  have hok := hcore.manager.releaseMemory_success hr
  have hnone := rangesIn_eq_zero_iff.mp hempty
  have hlog : ((w.releaseMemory r.addr).setBlocks (w.memory.importedBlocks.erase r.addr)).log =
    .closed (.block r.addr) :: w.log := if_pos hok
  refine { hcore with
    manager := hcore.manager.releaseMemory r.addr
    reserved := fun other hother => ?_
    inBlock := fun range hrange => (hcore.inBlock range hrange).congr fun block hblock =>
      ⟨block, (AList.lookup_erase_ne (hnone range hrange)).trans hblock, rfl⟩
    live := forall_lookup_erase hcore.live
    occupied := fun other hother => hcore.occupied other (AList.mem_erase.mp hother).2
    log := hlog ▸ hcore.log.close_key ?_ ?_ }
  · obtain ⟨hne, hold⟩ := AList.mem_erase.mp hother
    obtain ⟨r', hr', haddr'⟩ := hcore.reserved other hold
    exact ⟨r', VmHistory.mem_live_releaseMemory hr' (haddr' ▸ hne), haddr'⟩
  · rw [blockResources_erase hbase, Multiset.add_cons]
    rfl
  · intro localVa hmem
    rcases Multiset.mem_add.mp hmem with hrange | hblock
    · obtain ⟨range, hrange, -, hin⟩ := mapping_mem_rangeResources.mp hrange
      exact hnone range hrange hin
    · exact mapping_not_mem_blockResources _ _ _ hblock

theorem of_slack_eq {slack' : ℕ → ℕ} (hcore : RemoteCore ranges slack w)
    (hslack : ∀ base ∈ w.memory.importedBlocks, slack base = slack' base) :
    RemoteCore ranges slack' w :=
  { hcore with
    live := fun base block hblock =>
      hslack base (mem_of_lookup hblock) ▸ hcore.live base block hblock
    occupied := fun base hbase => hslack base hbase ▸ hcore.occupied base hbase }

theorem countDown {block : ImportedBlock} (hcore : RemoteCore ranges (oneMore base slack) w)
    (hblock : w.memory.importedBlocks.lookup base = some block) (hsome : block.liveRanges - 1 ≠ 0) :
    RemoteCore ranges slack (w.setBlocks (w.memory.importedBlocks.insert base
      { block with liveRanges := block.liveRanges - 1 })) := by
  have hbase := mem_of_lookup hblock
  have hlive := hcore.live base block hblock
  rw [oneMore_apply, if_pos rfl] at hlive
  refine { hcore with
    reserved := fun other hother => ?_
    inBlock := fun range hrange => (hcore.inBlock range hrange).congr fun old hold => ?_
    live := fun other found hfound => ?_
    occupied := fun other hother => ?_
    log := (blockResources_insert_found hbase _).symm ▸ hcore.log }
  · rcases (AList.mem_insert _).mp hother with rfl | hold
    · exact hcore.reserved other hbase
    · exact hcore.reserved other hold
  · by_cases heq : range.importBase = base
    · rw [heq] at hold ⊢
      cases hblock.symm.trans hold
      exact ⟨_, AList.lookup_insert _, rfl⟩
    · exact ⟨old, (AList.lookup_insert_ne heq).trans hold, rfl⟩
  · obtain ⟨rfl, rfl⟩ | ⟨hne, hold⟩ := lookup_insert_cases hfound
    · dsimp only
      omega
    · exact oneMore_of_ne slack hne ▸ hcore.live other found hold
  · by_cases heq : other = base
    · subst heq
      omega
    · exact oneMore_of_ne slack heq ▸
        hcore.occupied other (((AList.mem_insert _).mp hother).resolve_left heq)

theorem dropLiveRange (hcore : RemoteCore ranges (oneMore base slack) w) :
    RemoteCore ranges slack (w.dropLiveRange base) := by
  unfold RemoteWorld.dropLiveRange
  cases hblock : w.memory.importedBlocks.lookup base with
  | none =>
    have hnot := AList.lookup_eq_none.mp hblock
    exact hcore.of_slack_eq fun other hother =>
      (oneMore_of_ne slack (ne_of_mem_of_not_mem hother hnot)).symm
  | some block =>
    have hlive := hcore.live base block hblock
    rw [oneMore_apply, if_pos rfl] at hlive
    dsimp only
    split_ifs with hlast
    · exact (hcore.releaseBlock (mem_of_lookup hblock) (by omega)).of_slack_eq
        fun other hother => (oneMore_of_ne slack (AList.mem_erase.mp hother).1).symm
    · exact hcore.countDown hblock hlast

theorem releaseRange (hcore : RemoteCore (range :: ranges) slack w) (answers : RemoteAnswers) :
    RemoteCore ranges slack (w.releaseRangeLocked answers range) := by
  have himported := (hcore.inBlock range List.mem_cons_self).imported
  rw [releaseRangeLocked, if_pos himported]
  exact (hcore.unmap answers).dropLiveRange

end RemoteCore

/-! ## The invariant of the tables -/

structure RemoteInvariant (slack : ℕ → ℕ) (w : RemoteWorld) : Prop where
  keyed : ∀ key range, w.memory.vaMappings.lookup key = some range →
    range.localVa = key
  core : RemoteCore w.memory.importedRanges slack w

theorem releaseRangeLocked_memory (w : RemoteWorld) (answers : RemoteAnswers)
    (range : MappedRange) : ∃ blocks, (w.releaseRangeLocked answers range).memory =
      { w.memory with importedBlocks := blocks } := by
  unfold releaseRangeLocked
  split_ifs
  · obtain ⟨log, heq, -⟩ := freePhysical_eq
      (w.unmapMem answers range.localVa range.importBase) range.paHandle
    rw [heq, RemoteWorld.dropLiveRange]
    split
    · exact ⟨_, rfl⟩
    · dsimp only
      split_ifs <;> exact ⟨_, rfl⟩
  · exact ⟨_, rfl⟩

theorem releaseRangeLocked_vaMappings (w : RemoteWorld) (answers : RemoteAnswers)
    (range : MappedRange) :
    (w.releaseRangeLocked answers range).memory.vaMappings = w.memory.vaMappings := by
  obtain ⟨blocks, hmemory⟩ := releaseRangeLocked_memory w answers range
  rw [hmemory]

variable {m : RemoteMemory} {key : ℕ}

theorem importedRanges_perm (hfound : m.vaMappings.lookup key = some range) :
    m.importedRanges.Perm ((if range.imported then [range] else []) ++
      { m with vaMappings := m.vaMappings.erase key }.importedRanges) := by
  have hperm := ((entries_perm_of_lookup hfound).map Sigma.snd).filter MappedRange.imported
  rw [List.map_cons, List.filter_cons] at hperm
  apply hperm.trans
  split_ifs <;> rfl

theorem importedRanges_insert (range : MappedRange)
    (hfree : ∀ old, m.vaMappings.lookup key = some old → old.imported = false) :
    ({ m with vaMappings := m.vaMappings.insert key range } : RemoteMemory).importedRanges.Perm
      ((if range.imported then [range] else []) ++ m.importedRanges) := by
  have herase : ({ m with vaMappings := m.vaMappings.erase key } :
      RemoteMemory).importedRanges.Perm m.importedRanges := by
    cases hfound : m.vaMappings.lookup key with
    | none =>
      have hsame : (m.vaMappings.erase key).entries = m.vaMappings.entries :=
        List.kerase_of_notMem_keys (AList.lookup_eq_none.mp hfound)
      simp only [RemoteMemory.importedRanges, RemoteMemory.ranges, hsame]
      exact List.Perm.refl _
    | some old =>
      have hperm := importedRanges_perm hfound
      rw [hfree old hfound] at hperm
      exact hperm.symm
  have hentries : (m.vaMappings.insert key range).entries =
    ⟨key, range⟩ :: (m.vaMappings.erase key).entries := AList.entries_insert
  simp only [RemoteMemory.importedRanges, RemoteMemory.ranges, hentries,
    List.map_cons, List.filter_cons] at herase ⊢
  split_ifs
  · exact herase.cons range
  · exact herase

namespace RemoteInvariant

section

variable (hinv : RemoteInvariant slack w)

include hinv

theorem not_imported (hfree : ∀ range ∈ w.memory.importedRanges, range.localVa ≠ key) :
    ∀ old, w.memory.vaMappings.lookup key = some old → old.imported = false := by
  intro old hold
  by_contra himported
  have hmem : old ∈ w.memory.importedRanges := List.mem_filter.mpr
    ⟨List.mem_map_of_mem (mem_entries_iff.mpr hold), by simpa using himported⟩
  exact hfree old hmem (hinv.keyed key old hold)

theorem rebuild : RemoteInvariant slack w.rebuild :=
  ⟨hinv.keyed, { hinv.core with }⟩

theorem releaseEntry (hfound : w.memory.vaMappings.lookup key = some range)
    (answers : RemoteAnswers) :
    RemoteInvariant slack ((w.releaseRangeLocked answers range).setMappings
      ((w.releaseRangeLocked answers range).memory.vaMappings.erase key)) := by
  rw [releaseRangeLocked_vaMappings]
  refine ⟨forall_lookup_erase hinv.keyed, ?_⟩
  have hcore := hinv.core.perm (importedRanges_perm hfound)
  split_ifs at hcore with himported
  · exact { hcore.releaseRange answers with }
  · rw [releaseRangeLocked, if_neg himported]
    exact { hcore with }

theorem releaseEntries (answers : RemoteAnswers) (handle : ShareHandleInfo)
    (entries : List (Σ _ : ℕ, MappedRange)) (hnodup : entries.NodupKeys)
    (hentries : ∀ entry ∈ entries, w.memory.vaMappings.lookup entry.1 = some entry.2) :
    RemoteInvariant slack (w.releaseEntries answers handle entries).2 := by
  induction entries generalizing w with
  | nil => exact hinv
  | cons entry entries ih =>
    obtain ⟨key, range⟩ := entry
    obtain ⟨hnew, hnodup⟩ := List.nodupKeys_cons.mp hnodup
    obtain ⟨hfound, hrest⟩ := List.forall_mem_cons.mp hentries
    rw [RemoteWorld.releaseEntries]
    split_ifs
    · apply ih (hinv.releaseEntry hfound answers) hnodup
      intro entry hentry
      have hne : entry.1 ≠ key := ne_of_mem_of_not_mem (List.mem_map_of_mem hentry) hnew
      change ((w.releaseRangeLocked answers range).memory.vaMappings.erase key).lookup
        entry.1 = some entry.2
      rw [releaseRangeLocked_vaMappings, AList.lookup_erase_ne hne]
      exact hrest entry hentry
    · exact ih hinv hnodup hrest

theorem unimport (answers : RemoteAnswers) (handles : List ShareHandleInfo) :
    RemoteInvariant slack (w.unimport answers handles).2 := by
  apply rebuild
  induction handles generalizing w with
  | nil => exact hinv
  | cons handle handles ih =>
    apply ih
    exact hinv.releaseEntries answers handle _ w.memory.vaMappings.nodupKeys
      fun entry hentry => mem_entries_iff.mp hentry

end

end RemoteInvariant

theorem RemoteCore.releaseRanges (answers : RemoteAnswers) (ranges : List MappedRange)
    (hcore : RemoteCore (ranges.filter MappedRange.imported) slack w) :
    RemoteCore [] slack (ranges.foldl (fun w range => w.releaseRangeLocked answers range) w) := by
  induction ranges generalizing w with
  | nil => exact hcore
  | cons range ranges ih =>
    rw [List.foldl_cons]
    apply ih
    by_cases himported : range.imported = true
    · rw [List.filter_cons_of_pos himported] at hcore
      exact hcore.releaseRange answers
    · rw [List.filter_cons_of_neg himported] at hcore
      rwa [releaseRangeLocked, if_neg himported]

theorem holds_releaseMemory_foldl (bases : List ℕ) (hnodup : bases.Nodup) (hcons : w.vm.Consistent)
    (hreserved : ∀ base ∈ bases, ∃ r ∈ w.vm.live, r.addr = base)
    (hlog : Holds remoteRules w.log ↑(bases.map RemoteResource.block)) :
    (bases.foldl (fun w base => w.releaseMemory base) w).vm.Consistent ∧
      Holds remoteRules (bases.foldl (fun w base => w.releaseMemory base) w).log 0 := by
  induction bases generalizing w with
  | nil => exact ⟨hcons, hlog⟩
  | cons base bases ih =>
    obtain ⟨⟨r, hr, rfl⟩, hothers⟩ := List.forall_mem_cons.mp hreserved
    obtain ⟨hnew, hnodup⟩ := List.nodup_cons.mp hnodup
    have hevent : (w.releaseMemory r.addr).log = .closed (.block r.addr) :: w.log :=
      if_pos (hcons.releaseMemory_success hr)
    apply ih hnodup (hcons.releaseMemory r.addr)
    · intro other hother
      obtain ⟨r', hr', rfl⟩ := hothers other hother
      have hne : r'.addr ≠ r.addr := fun heq => hnew (heq ▸ hother)
      exact ⟨r', VmHistory.mem_live_releaseMemory hr' hne, rfl⟩
    · rw [hevent]
      exact hlog.close_key rfl fun localVa hmem => by simp at hmem

theorem releaseMemory_foldl_memory (bases : List ℕ) (w : RemoteWorld) :
    (bases.foldl (fun w base => w.releaseMemory base) w).memory = w.memory := by
  induction bases generalizing w with
  | nil => rfl
  | cons base bases ih => exact ih (w.releaseMemory base)

theorem releaseRangeLocked_foldl_index
    (answers : RemoteAnswers) (ranges : List MappedRange) (w : RemoteWorld) :
    (ranges.foldl (fun w range => w.releaseRangeLocked answers range)
      w).memory.translationIndex = w.memory.translationIndex := by
  induction ranges generalizing w with
  | nil => rfl
  | cons range ranges ih =>
    obtain ⟨blocks, hmemory⟩ := releaseRangeLocked_memory w answers range
    rw [List.foldl_cons, ih, hmemory]

theorem clearLocked_memory (answers : RemoteAnswers) (w : RemoteWorld) :
    (w.clearLocked answers).memory = {} := by
  simp only [clearLocked, setBlocks, releaseMemory_foldl_memory,
    setMappings, releaseRangeLocked_foldl_index]

theorem RemoteInvariant.of_empty (hmemory : w.memory = {}) (hcons : w.vm.Consistent)
    (hlog : Holds remoteRules w.log 0) : RemoteInvariant slack w := by
  obtain ⟨memory, vm, mapped, log⟩ := w
  cases hmemory
  constructor
  · intro key range hrange
    simp at hrange
  · exact
      { manager := hcons
        reserved := fun base hbase => by simp at hbase
        mapped := List.forall_mem_nil _
        nodup := List.nodup_nil
        inBlock := List.forall_mem_nil _
        live := fun base block hblock => by simp at hblock
        occupied := fun base hbase => by simp at hbase
        log := hlog }

theorem RemoteInvariant.clear (hinv : RemoteInvariant slack w) (answers : RemoteAnswers) :
    RemoteInvariant (fun _ => 0) (w.clearLocked answers) := by
  have hstart : RemoteCore (w.memory.ranges.filter MappedRange.imported) slack
    { w with memory := { w.memory with translationIndex := none } } := { hinv.core with }
  have hcore := RemoteCore.releaseRanges answers _ hstart
  have hlog := hcore.log
  have hend := holds_releaseMemory_foldl
    (w := (w.memory.ranges.foldl (fun (w : RemoteWorld) range => w.releaseRangeLocked answers range)
      { w with memory := { w.memory with translationIndex := none } }).setMappings ∅)
    _ (AList.keys_nodup _) hcore.manager hcore.reserved hlog
  exact .of_empty (clearLocked_memory answers w) hend.1 hend.2

/-! ## Importing -/

variable {handles : List ShareHandleInfo} {peerBase span : ℕ}

theorem remoteSpanLoop_ok {start stop start' stop' : ℕ}
    (hok : remoteSpanLoop handles start stop = .ok (start', stop')) :
    start' ≤ start ∧ stop ≤ stop' ∧ ∀ handle ∈ handles, start' ≤ handle.vaAddr ∧
      handle.vaAddr + handle.len ≤ stop' ∧ handle.vaAddr + handle.len ≤ wordMax 64 := by
  induction handles generalizing start stop with
  | nil =>
    cases hok
    exact ⟨le_rfl, le_rfl, List.forall_mem_nil _⟩
  | cons handle handles ih =>
    rw [remoteSpanLoop] at hok
    split_ifs at hok with hlen hfits
    obtain ⟨hstart, hstop, hrest⟩ := ih hok
    refine ⟨by omega, by omega, List.forall_mem_cons.mpr ⟨?_, hrest⟩⟩
    exact ⟨by omega, by omega, hfits⟩

def InSpan (peerBase span : ℕ) (handle : ShareHandleInfo) : Prop :=
  peerBase ≤ handle.vaAddr ∧ handle.vaAddr + handle.len ≤ peerBase + span ∧
    handle.vaAddr + handle.len ≤ wordMax 64

theorem computeRemoteSpan_ok (hok : computeRemoteSpan handles = .ok (peerBase, span)) :
    ∀ handle ∈ handles, InSpan peerBase span handle := by
  unfold computeRemoteSpan at hok
  split_ifs at hok
  cases hloop : remoteSpanLoop handles (wordMax 64) 0 with
  | error status => simp [hloop] at hok
  | ok bounds =>
    obtain ⟨start, stop⟩ := bounds
    simp only [hloop] at hok
    split_ifs at hok with hlt
    cases hok
    intro handle hhandle
    obtain ⟨hstart, hstop, hfits⟩ := (remoteSpanLoop_ok hloop).2.2 handle hhandle
    exact ⟨hstart, by omega, hfits⟩

theorem RemoteCore.addBlock (hcore : RemoteCore ranges (fun _ => 0) w) {answers : RemoteAnswers}
    {count : ℕ} (hcount : 0 < count)
    (hok : (w.vm.manager.reserveMemory answers.reserve span).1 = .ok base) :
    RemoteCore ranges (Function.update (fun _ => 0) base count) (addBlock base span count
        { w with vm := w.vm.call (.reserveMemory answers.reserve span) }) := by
  have hfresh : base ∉ w.memory.importedBlocks := by
    intro hmem
    obtain ⟨r, hr, haddr⟩ := hcore.reserved base hmem
    exact (hcore.manager.reserveMemory_ok hok).1 r hr haddr
  have hnone := AList.lookup_eq_none.mpr hfresh
  have hne : ∀ range ∈ ranges, range.importBase ≠ base := by
    intro range hrange heq
    obtain ⟨block, hblock, -⟩ := (hcore.inBlock range hrange).block
    rw [heq, hnone] at hblock
    cases hblock
  refine { hcore with
    manager := hcore.manager.reserveMemory answers.reserve span
    reserved := fun other hother => ?_
    inBlock := fun range hrange => (hcore.inBlock range hrange).congr fun block hblock =>
      ⟨block, (AList.lookup_insert_ne (hne range hrange)).trans hblock, rfl⟩
    live := fun other block hblock => ?_
    occupied := fun other hother => ?_
    log := hcore.log.open_key ?_ ?_ }
  · change ∃ r ∈ (w.vm.call (.reserveMemory answers.reserve span)).live, _
    rcases (AList.mem_insert _).mp hother with rfl | hold
    · rw [VmHistory.live_reserveMemory hok]
      exact ⟨_, List.mem_cons_self, rfl⟩
    · obtain ⟨r, hr, haddr⟩ := hcore.reserved other hold
      exact ⟨r, VmHistory.mem_live_reserveMemory hr _ _, haddr⟩
  · obtain ⟨rfl, rfl⟩ | ⟨hother, hold⟩ := lookup_insert_cases hblock
    · rw [rangesIn_eq_zero_iff.mpr hne, Function.update_self, Nat.zero_add]
    · rw [Function.update_of_ne hother]
      exact hcore.live other block hold
  · by_cases heq : other = base
    · subst heq
      rw [Function.update_self]
      omega
    · rw [Function.update_of_ne heq]
      exact hcore.occupied other (((AList.mem_insert _).mp hother).resolve_left heq)
  · intro hmem
    rcases Multiset.mem_add.mp hmem with hrange | hblock
    · exact block_not_mem_rangeResources _ _ hrange
    · exact hfresh (block_mem_blockResources.mp hblock)
  · change rangeResources ranges + blockResources
      (w.memory.importedBlocks.insert base ⟨span, count⟩) = _
    rw [blockResources_insert_fresh hnone, Multiset.add_cons]

variable {handle : ShareHandleInfo}

section AddRange

variable {log : List (Event RemoteResource)} (hfree : localVa ∉ w.mapped)
  (hin : InBlock w.memory.importedBlocks ⟨handle, localVa, true, paHandle, base⟩)

include hfree hin

theorem RemoteCore.addRange (hcore : RemoteCore ranges (oneMore base slack) w)
    (hlog : Holds remoteRules log (handleResources paHandle +
      (rangeResources ranges + blockResources w.memory.importedBlocks))) :
    RemoteCore (⟨handle, localVa, true, paHandle, base⟩ :: ranges) slack
      (addRange handle localVa paHandle base { w with log }) := by
  have hcount : ∀ other, rangesIn other ranges + oneMore base slack other =
      rangesIn other (⟨handle, localVa, true, paHandle, base⟩ :: ranges) + slack other := by
    intro other
    rw [rangesIn_cons, oneMore_apply]
    dsimp only
    omega
  refine { hcore with
    mapped := List.forall_mem_cons.mpr ⟨Finset.mem_insert_self _ _, fun range hrange =>
      Finset.mem_insert_of_mem (hcore.mapped range hrange)⟩
    nodup := List.nodup_cons.mpr ⟨fun hmem => ?_, hcore.nodup⟩
    inBlock := List.forall_mem_cons.mpr ⟨hin, hcore.inBlock⟩
    live := fun other block hblock => hcount other ▸ hcore.live other block hblock
    occupied := fun other hother => hcount other ▸ hcore.occupied other hother
    log := hlog.open_key (fun other hmem => ?_) ?_ }
  · obtain ⟨range, hrange, heq⟩ := List.mem_map.mp hmem
    exact hcore.localVa_ne hfree range hrange heq
  · simp only [Multiset.mem_add, mapping_not_mem_handleResources, mapping_not_mem_blockResources,
      mapping_mem_rangeResources, false_or, or_false] at hmem
    obtain ⟨range, hrange, heq, -⟩ := hmem
    exact hcore.localVa_ne hfree range hrange heq
  · simp only [rangeResources, Multiset.cons_add, add_assoc]
    rfl

theorem RemoteInvariant.addRange (hinv : RemoteInvariant (oneMore base slack) w)
    (hlog : Holds remoteRules log (handleResources paHandle +
      (rangeResources w.memory.importedRanges + blockResources w.memory.importedBlocks))) :
    RemoteInvariant slack (addRange handle localVa paHandle base { w with log }) := by
  have hperm := importedRanges_insert ⟨handle, localVa, true, paHandle, base⟩
    (hinv.not_imported (hinv.core.localVa_ne hfree))
  exact ⟨forall_lookup_insert hinv.keyed rfl,
    (hinv.core.addRange hfree hin hlog).perm hperm.symm⟩

end AddRange

theorem oneMore_update_zero (base count : ℕ) :
    oneMore base (Function.update (fun _ => 0) base count) =
      Function.update (fun _ => 0) base (count + 1) := by
  rw [oneMore, Function.update_self, Function.update_idem]

variable {block : ImportedBlock}

theorem inBlock_of_span (paHandle : ℕ) (hblock : blocks.lookup base = some block)
    (hspace : base + block.len ≤ wordMax 64) (hhandle : InSpan peerBase block.len handle) :
    InBlock blocks ⟨handle, wrapAdd 64 base (wrapSub 64 handle.vaAddr peerBase), true,
      paHandle, base⟩ := by
  obtain ⟨hlow, hhigh, hfits⟩ := hhandle
  have hmax := wordMax_64
  have hlocal : wrapAdd 64 base (wrapSub 64 handle.vaAddr peerBase) =
      base + (handle.vaAddr - peerBase) := by
    rw [wrapSub_eq_sub (by omega) hlow]
    exact wrapAdd_eq_add (by omega)
  rw [hlocal]
  refine ⟨rfl, ⟨block, hblock, by dsimp only; omega, by dsimp only; omega⟩, ?_⟩
  have hends : handle.vaAddr + handle.len ≤ wordMax 64 ∧
    base + (handle.vaAddr - peerBase) + handle.len ≤ wordMax 64 := ⟨hfits, by omega⟩
  simp [MappedRange.remoteRange?, hends]

/-- The loop of `Import`: when it stops early, the block is still ahead of its
ranges. -/
theorem RemoteInvariant.importLoop (answers : RemoteAnswers)
    (hspace : base + block.len ≤ wordMax 64) (handles : List ShareHandleInfo) (position : ℕ)
    (hhandles : ∀ handle ∈ handles, InSpan peerBase block.len handle)
    (hblock : w.memory.importedBlocks.lookup base = some block)
    (hinv : RemoteInvariant (Function.update (fun _ => 0) base handles.length) w) :
    ∃ slack, RemoteInvariant slack
        (RemoteWorld.importLoop answers peerBase base handles position w).2 ∧
      ((RemoteWorld.importLoop answers peerBase base handles position w).1 = none →
        slack = fun _ => 0) := by
  induction handles generalizing position w with
  | nil => exact ⟨_, hinv, fun _ => Function.update_eq_self base _⟩
  | cons handle handles ih =>
    obtain ⟨hhandle, hhandles⟩ := List.forall_mem_cons.mp hhandles
    rw [RemoteWorld.importLoop]
    cases answers.importHandle position with
    | error error => exact ⟨_, hinv, nofun⟩
    | ok paHandle =>
      obtain ⟨log, heq, hopened⟩ : ∃ log, w.handleImported paHandle = { w with log } ∧ ∀ held, Holds
          remoteRules w.log held → Holds remoteRules log (handleResources paHandle + held) := by
        unfold handleImported handleResources
        split_ifs
        · exact ⟨_, rfl, fun _ hlog => hlog.opened trivial⟩
        · exact ⟨_, rfl, fun _ hlog => by rwa [zero_add]⟩
      have hlog := hopened _ hinv.core.log
      simp only [heq]
      cases hmap : mapMem answers position
          (wrapAdd 64 base (wrapSub 64 handle.vaAddr peerBase)) { w with log } with
      | some error =>
        -- the handle of a failed mapping is freed at once
        obtain ⟨log', heq', hfreed⟩ := freePhysical_eq { w with log } paHandle
        rw [heq']
        exact ⟨_, ⟨hinv.keyed, { hinv.core with log := hfreed _ hlog }⟩,
          nofun⟩
      | none =>
        have hfree : wrapAdd 64 base (wrapSub 64 handle.vaAddr peerBase) ∉ w.mapped := by
          intro hmem
          rw [mapMem, if_pos hmem] at hmap
          cases hmap
        rw [List.length_cons, ← oneMore_update_zero] at hinv
        exact ih (position + 1) hhandles hblock
          (hinv.addRange hfree (inBlock_of_span paHandle hblock hspace hhandle) hlog)

theorem RemoteInvariant.withManager {vm : VmHistory} (hinv : RemoteInvariant slack w)
    (hcons : vm.Consistent)
    (hkeep : ∀ r ∈ w.vm.live, r.addr ∈ w.memory.importedBlocks → r ∈ vm.live) :
    RemoteInvariant slack { w with vm } := by
  refine ⟨hinv.keyed, { hinv.core with manager := hcons, reserved := fun base hbase => ?_ }⟩
  obtain ⟨r, hr, rfl⟩ := hinv.core.reserved base hbase
  exact ⟨r, hkeep r hr hbase, rfl⟩

section

variable (hinv : RemoteInvariant (fun _ => 0) w)

include hinv

theorem RemoteInvariant.importHandles (answers : RemoteAnswers) (handles : List ShareHandleInfo) :
    RemoteInvariant (fun _ => 0) (w.importHandles answers handles).2 ∧
      ((w.importHandles answers handles).1 ≠ 0 →
        (w.importHandles answers handles).2.memory = {}) := by
  unfold RemoteWorld.importHandles
  split_ifs with hempty
  · exact ⟨hinv.rebuild, fun hfail => absurd rfl hfail⟩
  cases hspan : computeRemoteSpan handles with
  | error status => exact ⟨hinv.clear answers, fun _ => clearLocked_memory answers w⟩
  | ok bounds =>
    obtain ⟨peerBase, span⟩ := bounds
    have hreserved : RemoteInvariant (fun _ => 0)
        { w with vm := w.vm.call (.reserveMemory answers.reserve span) } :=
      hinv.withManager (hinv.core.manager.reserveMemory _ _)
        fun _ hr _ => VmHistory.mem_live_reserveMemory hr _ _
    dsimp only
    cases hok : (w.vm.manager.reserveMemory answers.reserve span).1 with
    | error status => exact ⟨hreserved.clear answers, fun _ => clearLocked_memory answers _⟩
    | ok base =>
      have hfilled : RemoteInvariant (Function.update (fun _ => 0) base handles.length)
          (addBlock base span handles.length
            { w with vm := w.vm.call (.reserveMemory answers.reserve span) }) :=
        ⟨hinv.keyed, hinv.core.addBlock (List.length_pos_iff.mpr hempty) hok⟩
      obtain ⟨slack, hafter, hdone⟩ := RemoteInvariant.importLoop answers
        (hinv.core.manager.reserveMemory_ok hok).2 handles 0 (computeRemoteSpan_ok hspan)
        (AList.lookup_insert w.memory.importedBlocks) hfilled
      dsimp only
      generalize RemoteWorld.importLoop answers peerBase base handles 0 _ = result at hafter hdone
      obtain ⟨_ | error, after⟩ := result
      · rw [hdone rfl] at hafter
        exact ⟨hafter.rebuild, fun hfail => absurd rfl hfail⟩
      · exact ⟨hafter.clear answers, fun _ => clearLocked_memory answers after⟩

theorem RemoteInvariant.bindLocalAddrs (handles : List ShareHandleInfo)
    (hown : ∀ info ∈ handles, ∀ range ∈ w.memory.importedRanges, range.localVa ≠ info.vaAddr) :
    RemoteInvariant (fun _ => 0) (w.bindLocalAddrs handles).2 := by
  apply rebuild
  induction handles generalizing w with
  | nil => exact hinv
  | cons info handles ih =>
    obtain ⟨hfirst, hrest⟩ := List.forall_mem_cons.mp hown
    obtain ⟨hbound, hperm⟩ : RemoteInvariant (fun _ => 0) (w.setMappings (w.memory.vaMappings.insert
        info.vaAddr { info, localVa := info.vaAddr, imported := false })) ∧ (w.setMappings
        (w.memory.vaMappings.insert info.vaAddr { info, localVa := info.vaAddr, imported := false
        })).memory.importedRanges.Perm w.memory.importedRanges := by
      have hperm := importedRanges_insert { info, localVa := info.vaAddr, imported := false }
        (hinv.not_imported hfirst)
      have hcore := hinv.core.perm hperm.symm
      exact ⟨⟨forall_lookup_insert hinv.keyed rfl,
        { hcore with }⟩, hperm⟩
    exact ih hbound fun other hother range hrange =>
      hrest other hother range (hperm.mem_iff.mp hrange)

theorem RemoteInvariant.elsewhere {call : VmCall} (hforeign : w.isForeignCall call = true) :
    RemoteInvariant (fun _ => 0) { w with vm := w.vm.call call } := by
  apply hinv.withManager (hinv.core.manager.call call)
  intro r hr hblock
  cases call with
  | finalize => simp [isForeignCall] at hforeign
  | reserveMemory rt size => exact VmHistory.mem_live_reserveMemory hr rt size
  | releaseMemory memAddr =>
    apply VmHistory.mem_live_releaseMemory hr
    rintro rfl
    simp [isForeignCall, hblock] at hforeign
  | _ => exact hr

theorem RemoteInvariant.call {call : RemoteCall} (hpermits : w.Permits call) :
    RemoteInvariant (fun _ => 0) (w.call call) := by
  cases call with
  | importHandles answers handles => exact (hinv.importHandles answers handles).1
  | unimport answers handles => exact hinv.unimport answers handles
  | finalize answers => exact hinv.clear answers
  | bindLocalAddrs handles =>
    apply hinv.bindLocalAddrs
    intro info hinfo range hrange heq
    obtain ⟨hmem, himported⟩ := List.mem_filter.mp hrange
    have hall := List.all_eq_true.mp (List.all_eq_true.mp hpermits info hinfo) range hmem
    simp [himported, heq] at hall
  | elsewhere call => exact hinv.elsewhere hpermits

theorem RemoteInvariant.run {calls : List RemoteCall} (hpermits : w.PermitsAll calls) :
    RemoteInvariant (fun _ => 0) (w.run calls) := by
  induction calls generalizing w with
  | nil => exact hinv
  | cons call calls ih => exact ih (hinv.call hpermits.1) hpermits.2

end

/-! ## The ledger -/

theorem count_physical_rangeResources (ranges : List MappedRange) (hnull : paHandle ≠ 0) :
    (rangeResources ranges).count (.physical paHandle) =
      ranges.countP fun range => range.paHandle = paHandle := by
  induction ranges with
  | nil => rfl
  | cons range ranges ih =>
    have hhandle : (handleResources range.paHandle).count (.physical paHandle) =
          if range.paHandle = paHandle then 1 else 0 := by
      unfold handleResources
      by_cases heq : range.paHandle = paHandle
      · rw [if_pos (heq ▸ hnull), if_pos heq, heq, Multiset.count_singleton_self]
      · rw [if_neg heq, Multiset.count_eq_zero]
        split_ifs <;> simp [Ne.symm heq]
    rw [rangeResources, Multiset.count_cons_of_ne (by simp),
      Multiset.count_add, hhandle, ih, List.countP_cons]
    simp [Nat.add_comm]

theorem count_mapping_rangeResources (ranges : List MappedRange) (localVa base : ℕ) :
    (rangeResources ranges).count (.mapping localVa base) = ranges.countP fun range =>
        range.localVa = localVa ∧ range.importBase = base := by
  induction ranges with
  | nil => rfl
  | cons range ranges ih =>
    rw [rangeResources, Multiset.count_cons, Multiset.count_add,
      Multiset.count_eq_zero.mpr (mapping_not_mem_handleResources _ _ _),
      Nat.zero_add, ih, List.countP_cons]
    congr 1
    by_cases heq : range.localVa = localVa ∧ range.importBase = base
    · simp [heq.1, heq.2]
    · have hne : RemoteResource.mapping localVa base ≠ .mapping range.localVa range.importBase := by
        intro hsame
        have hinj := RemoteResource.mapping.inj hsame
        exact heq ⟨hinj.1.symm, hinj.2.symm⟩
      simp only [hne, heq, decide_false, Bool.false_eq_true, if_false]

theorem count_block_blockResources (blocks : AList fun _ : ℕ => ImportedBlock) (base : ℕ) :
    (blockResources blocks).count (.block base) =
      if base ∈ blocks then 1 else 0 := by
  split_ifs with hbase
  · have hnodup : (blockResources blocks).Nodup := by
      apply blocks.keys_nodup.map
      intro a b hab
      exact RemoteResource.block.inj hab
    exact Multiset.count_eq_one_of_mem hnodup (block_mem_blockResources.mpr hbase)
  · exact Multiset.count_eq_zero.mpr (fun hmem => hbase (block_mem_blockResources.mp hmem))

/-- What holds after every call: the counts of the blocks are right, and every
mapping, handle and block that was taken has been given back exactly once or
is in the tables.  `orderly` adds that a block is given back only when nothing
is mapped in it, and a block in the tables always has a range. -/
structure ImportLedger (w : RemoteWorld) : Prop where
  live_ranges : ∀ base block,
    w.memory.importedBlocks.lookup base = some block →
      block.liveRanges = rangesIn base w.memory.importedRanges ∧ 0 < block.liveRanges
  in_block : ∀ range ∈ w.memory.importedRanges,
    InBlock w.memory.importedBlocks range
  unmapped_once : ∀ localVa base,
    w.log.count (.opened (.mapping localVa base)) = w.log.count (.closed (.mapping localVa base)) +
        w.memory.importedRanges.countP fun range =>
          range.localVa = localVa ∧ range.importBase = base
  freed_once : ∀ paHandle, paHandle ≠ 0 →
    w.log.count (.opened (.physical paHandle)) = w.log.count (.closed (.physical paHandle)) +
        w.memory.importedRanges.countP fun range => range.paHandle = paHandle
  released_once : ∀ base,
    w.log.count (.opened (.block base)) = w.log.count (.closed (.block base)) +
        if base ∈ w.memory.importedBlocks then 1 else 0
  orderly : Holds remoteRules w.log w.memory.held

/-- The object keeps no mapping, no handle and no block. -/
structure RetainsNothing (w : RemoteWorld) : Prop where
  no_mapping : w.memory.vaMappings = ∅
  no_block : w.memory.importedBlocks = ∅
  all_closed : ∀ resource,
    w.log.count (.opened resource) = w.log.count (.closed resource)

theorem RemoteInvariant.importLedger (hinv : RemoteInvariant (fun _ => 0) w) : ImportLedger w where
  live_ranges := by
    intro base block hblock
    have hlive := hinv.core.live base block hblock
    have hbase := mem_of_lookup hblock
    have hpos := hinv.core.occupied base hbase
    exact ⟨hlive, hlive ▸ hpos⟩
  in_block := hinv.core.inBlock
  unmapped_once := by
    intro localVa base
    rw [hinv.core.log.count_opened, Multiset.count_add, count_mapping_rangeResources,
      Multiset.count_eq_zero.mpr (mapping_not_mem_blockResources _ _ _),
      Nat.add_zero]
  freed_once := by
    intro paHandle hnull
    rw [hinv.core.log.count_opened, Multiset.count_add, count_physical_rangeResources _ hnull,
      Multiset.count_eq_zero.mpr (by simp [blockResources]), Nat.add_zero]
  released_once := by
    intro base
    rw [hinv.core.log.count_opened, Multiset.count_add,
      Multiset.count_eq_zero.mpr (block_not_mem_rangeResources _ _),
      Nat.zero_add, count_block_blockResources]
  orderly := hinv.core.log

theorem RemoteInvariant.retainsNothing (hinv : RemoteInvariant slack w) (hempty : w.memory = {}) :
    RetainsNothing w where
  no_mapping := by rw [hempty]
  no_block := by rw [hempty]
  all_closed := by
    intro resource
    have hlog := hinv.core.log
    rw [hempty] at hlog
    have hcount := hlog.count_opened resource
    exact hcount

theorem remoteInvariant_run {before : List VmCall} {calls : List RemoteCall}
    (hpermits : RemoteWorld.PermitsAll { vm := VmHistory.run {} before } calls) :
    RemoteInvariant (fun _ => 0) (RemoteWorld.run { vm := VmHistory.run {} before } calls) :=
  (RemoteInvariant.of_empty rfl (VmHistory.Consistent.start.run before) Holds.nil).run hpermits

/-- In every run of the object, whatever the runtime answers, the ledger holds
after every call, and an `Import` that fails retains nothing.  Nothing is asked
of `Import`, `Unimport` and `Finalize`, only of the calls between them. -/
theorem remoteMemory_import_ledger (before : List VmCall) (calls : List RemoteCall)
    (hpermits : RemoteWorld.PermitsAll { vm := VmHistory.run {} before } calls) :
    ImportLedger (RemoteWorld.run { vm := VmHistory.run {} before } calls) ∧ ∀ answers handles,
        ((RemoteWorld.run { vm := VmHistory.run {} before }
          calls).importHandles answers handles).1 ≠ 0 →
        RetainsNothing ((RemoteWorld.run { vm := VmHistory.run {} before }
          calls).importHandles answers handles).2 := by
  have hinv := remoteInvariant_run hpermits
  constructor
  · exact hinv.importLedger
  · intro answers handles hfail
    have hstep := hinv.importHandles answers handles
    exact hstep.1.retainsNothing (hstep.2 hfail)

/-- Nothing fails, and the imported handles are numbered. -/
def remoteReady : RemoteAnswers where
  reserve := plainRuntime
  importHandle := fun position => .ok (position + 1)
  mapMem := fun _ => none
  alreadyMapped := .streamSyncTimeout
  unmapMem := fun _ => true

/-- Two ranges are imported, own memory is bound, another part of the process
reserves a block, and one range goes. -/
def importedRun : List RemoteCall :=
  [.importHandles remoteReady [⟨4096, 16, 1, false, .device⟩, ⟨4112, 16, 2, false, .device⟩],
    .bindLocalAddrs [⟨64, 16, 3, false, .device⟩], .elsewhere (.reserveMemory plainRuntime 1),
    .unimport remoteReady [⟨4112, 16, 2, false, .device⟩]]

theorem importedRun_permitted : RemoteWorld.PermitsAll
    { vm := VmHistory.run {} [.setVirtualMemoryCapacity 1] } importedRun :=
  ⟨trivial, rfl, rfl, trivial, trivial⟩

theorem remoteMemory_import_ledger_bound :
    ImportLedger (RemoteWorld.run { vm := VmHistory.run {} [.setVirtualMemoryCapacity 1] }
      importedRun) :=
  (remoteMemory_import_ledger [.setVirtualMemoryCapacity 1] importedRun
    importedRun_permitted).1

/-! ## The index -/

/-- Nothing is mapped, or the index is the one of the ranges in the table. -/
def RemoteMemory.Indexed (m : RemoteMemory) : Prop :=
  m = {} ∨ m = m.rebuildTranslationIndexLocked

theorem indexed_call (hindexed : w.memory.Indexed) (call : RemoteCall) :
    (w.call call).memory.Indexed := by
  cases call with
  | importHandles answers handles =>
    -- every way out of `Import` rebuilds the index or clears the tables
    simp only [RemoteWorld.call, RemoteWorld.importHandles]
    repeat' split
    all_goals first
      | exact Or.inr rfl
      | exact Or.inl (clearLocked_memory _ _)
  | unimport => exact Or.inr rfl
  | finalize answers => exact Or.inl (clearLocked_memory answers w)
  | bindLocalAddrs => exact Or.inr rfl
  | elsewhere => exact hindexed

/-- The entry of a range whose ends are addresses. -/
theorem entries_eq {ranges : List MappedRange}
    (hfits : ∀ range ∈ ranges, range.remoteRange?.isSome) : ranges.map MappedRange.entry =
      (ranges.filterMap MappedRange.remoteRange?).map RemoteRange.entry := by
  induction ranges with
  | nil => rfl
  | cons range ranges ih =>
    obtain ⟨hfirst, hrest⟩ := List.forall_mem_cons.mp hfits
    obtain ⟨remote, hremote⟩ := Option.isSome_iff_exists.mp hfirst
    rw [List.map_cons, ih hrest, List.filterMap_cons_some hremote, List.map_cons]
    unfold MappedRange.remoteRange? at hremote
    split_ifs at hremote
    cases hremote
    rfl

/-- After every call, operations are translated through the ranges in the table
now and through no others, if the ends of those bound to own memory are
addresses; an imported range is mapped in a block that the manager has
reserved. -/
theorem remoteMemory_translates_live (before : List VmCall) (calls : List RemoteCall)
    (hpermits : RemoteWorld.PermitsAll { vm := VmHistory.run {} before } calls) :
    let w := RemoteWorld.run { vm := VmHistory.run {} before } calls
    (w.memory = {} ∨ ∃ index, w.memory.translationIndex = some index ∧
        ((∀ range ∈ w.memory.ranges, range.imported = false → range.remoteRange?.isSome) →
          TranslatesExactly (w.memory.ranges.filterMap MappedRange.remoteRange?) index)) ∧
      ∀ range ∈ w.memory.importedRanges, range.remoteRange?.isSome ∧ range.localVa ∈ w.mapped ∧
        ∃ r ∈ w.vm.live, r.addr = range.importBase := by
  intro w
  have hinv := remoteInvariant_run hpermits
  have hindexed : w.memory.Indexed :=
    List.foldlRecOn calls call (motive := fun w => w.memory.Indexed) (Or.inl rfl)
      fun _ h c _ => indexed_call h c
  constructor
  · refine hindexed.imp_right fun heq => ⟨_, congrArg RemoteMemory.translationIndex heq, ?_⟩
    intro hbound
    rw [entries_eq fun range hrange => ?_]
    · exact translatesExactly_rebuild _
    · cases himported : range.imported with
      | false => exact hbound range hrange himported
      | true => exact (hinv.core.inBlock range (List.mem_filter.mpr ⟨hrange, himported⟩)).fits
  · intro range hrange
    obtain ⟨-, ⟨block, hblock, -⟩, hfits⟩ := hinv.core.inBlock range hrange
    exact ⟨hfits, hinv.core.mapped range hrange, hinv.core.reserved _ (mem_of_lookup hblock)⟩

theorem remoteMemory_translates_live_bound :
    let w := RemoteWorld.run { vm := VmHistory.run {} [.setVirtualMemoryCapacity 1] } importedRun
    ∃ index, w.memory.translationIndex = some index ∧
      TranslatesExactly (w.memory.ranges.filterMap MappedRange.remoteRange?) index := by
  obtain ⟨hindex, -⟩ := remoteMemory_translates_live [.setVirtualMemoryCapacity 1] importedRun
    importedRun_permitted
  rcases hindex with hempty | ⟨index, hindex, hexact⟩
  · exact absurd (congrArg (fun m => m.ranges.length) hempty) (by decide)
  · exact ⟨index, hindex, hexact (by decide)⟩

end Hixl
