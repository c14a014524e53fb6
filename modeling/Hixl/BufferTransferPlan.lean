import Hixl.BufferTransferModel

/-!
# Every byte of a buffered transfer moves once

The calls of `DoTransferTask` cut the operations into pieces that fit a buffer.
The slices of a request lie one after the other in the buffers of both sides, so
the three copies of a request carry its slices whole.  This needs a buffer of at
most half of the address space: two small sizes are added without wrapping.
-/

namespace Hixl.Adxl

open SendCall

open StagedCopies ByteTilings

/-! ## The plan -/

def transferMoves (type : TransferType) (localAddr remoteAddr len : ℕ) : List (ℕ × ℕ) :=
  if isReadTransferType type then
    Slice.moves addressSpace ⟨remoteAddr, localAddr, len⟩
  else Slice.moves addressSpace ⟨localAddr, remoteAddr, len⟩

def TransferOpDesc.moves (type : TransferType) (op : TransferOpDesc) : List (ℕ × ℕ) :=
  transferMoves type op.localAddr op.remoteAddr op.len

namespace SendCall

def moves (type : TransferType) : SendCall → List (ℕ × ℕ)
  | .flushBatch ops => ops.flatMap (TransferOpDesc.moves type)
  | .largeData addr remoteAddr count => transferMoves type addr remoteAddr count

def Fits (bufferSize : ℕ) : SendCall → Prop
  | .flushBatch ops => (ops.map TransferOpDesc.len).sum ≤ bufferSize
  | .largeData _ _ count => count ≤ bufferSize

end SendCall

theorem transferMoves_cut (type : TransferType) (addr remoteAddr cut rest : ℕ) :
    transferMoves type addr remoteAddr (cut + rest) = transferMoves type addr remoteAddr cut ++
        transferMoves type (wrapAdd 64 addr cut) (wrapAdd 64 remoteAddr cut) rest := by
  unfold transferMoves
  split_ifs
  · exact moves_cut addressSpace remoteAddr addr cut rest
  · exact moves_cut addressSpace addr remoteAddr cut rest

section Plan

variable {bufferSize : ℕ}

theorem transferLargeData_moves (hpos : 0 < bufferSize) (type : TransferType)
    (fuel leftSize addr remoteAddr : ℕ) (hfuel : leftSize ≤ fuel) :
    (transferLargeData bufferSize fuel leftSize addr remoteAddr).flatMap (SendCall.moves type) =
      transferMoves type addr remoteAddr leftSize := by
  induction fuel generalizing leftSize addr remoteAddr with
  | zero =>
    have hzero : leftSize = 0 := by omega
    rw [hzero]
    simp [transferLargeData, transferMoves, Slice.moves]
  | succ fuel ih =>
    rw [transferLargeData]
    split_ifs with hzero
    · rw [hzero]
      simp [transferMoves, Slice.moves]
    · set count := min bufferSize leftSize with hcount
      have hcut : leftSize = count + (leftSize - count) := by omega
      rw [List.flatMap_cons, ih _ _ _ (by omega)]
      conv_rhs => rw [hcut]
      rw [transferMoves_cut]
      rfl

theorem transferLargeData_fits (fuel leftSize addr remoteAddr : ℕ) :
    ∀ call ∈ transferLargeData bufferSize fuel leftSize addr remoteAddr, call.Fits bufferSize := by
  induction fuel generalizing leftSize addr remoteAddr with
  | zero => exact List.forall_mem_nil _
  | succ fuel ih =>
    rw [transferLargeData]
    split_ifs with hzero
    · exact by simp
    · exact List.forall_mem_cons.mpr ⟨min_le_left _ _, ih _ _ _⟩

/-- What `DoTransferTask` keeps of its batch: the counter is the size of the
batch, which fits into a buffer. -/
structure BatchFits (bufferSize : ℕ) (batch : List TransferOpDesc)
    (batchSize : ℕ) : Prop where
  size : batchSize = (batch.map TransferOpDesc.len).sum
  fits : batchSize ≤ bufferSize

variable {op : TransferOpDesc}

theorem BatchFits.singleton (hbound : bufferSize ≤ 2 ^ 63) (hsmall : op.len < bufferSize) :
    BatchFits bufferSize [op] (wrapAdd 64 0 op.len) := by
  have hsum : wrapAdd 64 0 op.len = 0 + op.len := wrapAdd_eq_add (by omega)
  exact ⟨by simp [hsum], by omega⟩

variable {batch : List TransferOpDesc} {batchSize : ℕ}

theorem BatchFits.push (hbound : bufferSize ≤ 2 ^ 63)
    (hbatch : BatchFits bufferSize batch batchSize) (hsmall : op.len < bufferSize)
    (hroom : wrapAdd 64 batchSize op.len ≤ bufferSize) :
    BatchFits bufferSize (batch ++ [op]) (wrapAdd 64 batchSize op.len) := by
  have hfits := hbatch.fits
  have hsum : wrapAdd 64 batchSize op.len = batchSize + op.len := wrapAdd_eq_add (by omega)
  refine ⟨?_, hroom⟩
  rw [hsum, hbatch.size]
  simp

theorem BatchFits.flush (hbatch : BatchFits bufferSize batch batchSize) :
    SendCall.Fits bufferSize (.flushBatch batch) :=
  hbatch.size.symm.trans_le hbatch.fits

theorem doTransferTask_fits (hbound : bufferSize ≤ 2 ^ 63) (ops : List TransferOpDesc)
    (hbatch : BatchFits bufferSize batch batchSize) :
    ∀ call ∈ doTransferTask bufferSize batch batchSize ops, call.Fits bufferSize := by
  induction ops generalizing batch batchSize with
  | nil =>
    rw [doTransferTask]
    split_ifs
    · exact by simp
    · exact List.forall_mem_singleton.mpr hbatch.flush
  | cons op rest ih =>
    rw [doTransferTask]
    split_ifs with hlarge hfull
    · exact List.forall_mem_append.mpr ⟨transferLargeData_fits _ _ _ _, ih hbatch⟩
    · exact List.forall_mem_cons.mpr
        ⟨hbatch.flush, ih (BatchFits.singleton hbound (Nat.lt_of_not_le hlarge))⟩
    · exact ih (hbatch.push hbound (Nat.lt_of_not_le hlarge) (Nat.le_of_not_lt hfull))

theorem doTransferTask_moves (hpos : 0 < bufferSize) (type : TransferType)
    (ops : List TransferOpDesc) (batch : List TransferOpDesc) (batchSize : ℕ) :
    ((doTransferTask bufferSize batch batchSize ops).flatMap (SendCall.moves type)).Perm
      ((batch ++ ops).flatMap (TransferOpDesc.moves type)) := by
  induction ops generalizing batch batchSize with
  | nil =>
    rw [doTransferTask, List.append_nil]
    split_ifs with hempty
    · rw [List.isEmpty_iff.mp hempty]
      exact List.Perm.refl _
    · simp [SendCall.moves]
  | cons op rest ih =>
    rw [doTransferTask]
    split_ifs with hlarge hfull
    · rw [List.flatMap_append, transferLargeData_moves hpos type _ _ _ _ le_rfl,
        List.flatMap_append, List.flatMap_cons]
      refine ((ih batch batchSize).append_left _).trans ?_
      rw [List.flatMap_append, ← List.append_assoc, ← List.append_assoc]
      exact List.perm_append_comm.append_right _
    · rw [List.flatMap_cons, List.flatMap_append]
      exact (ih [op] _).append_left _
    · have happend : (batch ++ [op]) ++ rest = batch ++ op :: rest := by simp
      rw [← happend]
      exact ih (batch ++ [op]) _

end Plan

/-! ## The slices of a request -/

def Block.moves (type : TransferType) (b : Block) : List (ℕ × ℕ) :=
  transferMoves type b.src b.dst b.len

theorem batchBlocks_moves (type : TransferType) (ops : List TransferOpDesc) (base : ℕ) :
    (batchBlocks base ops).flatMap (Block.moves type) =
      ops.flatMap (TransferOpDesc.moves type) := by
  induction ops generalizing base with
  | nil => rfl
  | cons op rest ih =>
    rw [batchBlocks, List.flatMap_cons, List.flatMap_cons, ih]
    rfl

theorem batchBlocks_tiles (ops : List TransferOpDesc) (base : ℕ)
    (hfits : base + (ops.map TransferOpDesc.len).sum < addressSpace) :
    Tiles Block.len Block.buffer base (ops.map TransferOpDesc.len).sum (batchBlocks base ops) := by
  induction ops generalizing base with
  | nil => exact ⟨trivial, rfl⟩
  | cons op rest ih =>
    rw [List.map_cons, List.sum_cons] at hfits ⊢
    have hnext : wrapAdd 64 base op.len = base + op.len :=
      wrapAdd_eq_add (by unfold addressSpace at hfits; omega)
    have htiles := ih (base + op.len) (by omega)
    rw [batchBlocks, hnext]
    refine ⟨⟨rfl, htiles.follows⟩, ?_⟩
    rw [total_cons, htiles.total_eq]

theorem generateBlocks_moves (type : TransferType) (fuel addr remoteAddr base count : ℕ)
    (hfuel : count ≤ fuel) :
    (generateBlocks fuel addr remoteAddr base count).flatMap (Block.moves type) =
      transferMoves type addr remoteAddr count := by
  induction fuel generalizing addr remoteAddr base count with
  | zero =>
    have hzero : count = 0 := by omega
    rw [hzero]
    simp [generateBlocks, transferMoves, Slice.moves]
  | succ fuel ih =>
    rw [generateBlocks]
    split_ifs with hzero
    · rw [hzero]
      simp [transferMoves, Slice.moves]
    · set block := min kBlockSize count with hblock
      have hlimit : 0 < kBlockSize := by decide
      have hcut : count = block + (count - block) := by omega
      rw [List.flatMap_cons, ih _ _ _ _ (by omega)]
      conv_rhs => rw [hcut, transferMoves_cut]
      rfl

theorem generateBlocks_tiles (fuel addr remoteAddr base count : ℕ) (hfuel : count ≤ fuel)
    (hfits : base + count < addressSpace) :
    Tiles Block.len Block.buffer base count (generateBlocks fuel addr remoteAddr base count) := by
  induction fuel generalizing addr remoteAddr base count with
  | zero =>
    have hzero : count = 0 := by omega
    rw [hzero]
    exact ⟨trivial, rfl⟩
  | succ fuel ih =>
    rw [generateBlocks]
    split_ifs with hzero
    · rw [hzero]
      exact ⟨trivial, rfl⟩
    · set block := min kBlockSize count with hblock
      have hlimit : 0 < kBlockSize := by decide
      have hnext : wrapAdd 64 base block = base + block :=
        wrapAdd_eq_add (by unfold addressSpace at hfits; omega)
      have htiles := ih (wrapAdd 64 addr block)
        (wrapAdd 64 remoteAddr block) (base + block) (count - block)
        (by omega) (by omega)
      simp only [hnext]
      refine ⟨⟨rfl, htiles.follows⟩, ?_⟩
      have hcut : block + (count - block) = count := by omega
      rwa [total_cons, htiles.total_eq]

theorem SendCall.blocks_moves (type : TransferType) (call : SendCall) (base : ℕ) :
    (call.blocks base).flatMap (Block.moves type) = call.moves type := by
  cases call with
  | flushBatch ops => exact batchBlocks_moves type ops base
  | largeData addr remoteAddr count =>
    exact generateBlocks_moves type count addr remoteAddr base count le_rfl

theorem foldl_len (ops : List TransferOpDesc) (start : ℕ)
    (hfits : start + (ops.map TransferOpDesc.len).sum < addressSpace) :
    ops.foldl (fun total op => wrapAdd 64 total op.len) start =
      start + (ops.map TransferOpDesc.len).sum := by
  induction ops generalizing start with
  | nil => rfl
  | cons op rest ih =>
    rw [List.map_cons, List.sum_cons] at hfits ⊢
    have hnext : wrapAdd 64 start op.len = start + op.len :=
      wrapAdd_eq_add (by unfold addressSpace at hfits; omega)
    rw [List.foldl_cons, hnext, ih _ (by omega), Nat.add_assoc]

variable {bufferSize : ℕ}

theorem SendCall.blocks_tiles (call : SendCall) (hcall : call.Fits bufferSize)
    (buffer : StagingBuffer bufferSize) :
    Tiles Block.len Block.buffer buffer.addr call.totalBufferLen (call.blocks buffer.addr) ∧
      call.totalBufferLen ≤ bufferSize := by
  have hbuffer := buffer.fits
  cases call with
  | flushBatch ops =>
    have hsum : (ops.map TransferOpDesc.len).sum ≤ bufferSize := hcall
    have htotal : totalBufferLen (.flushBatch ops) = (ops.map TransferOpDesc.len).sum := by
      rw [totalBufferLen, foldl_len ops 0 (by omega), Nat.zero_add]
    rw [htotal]
    exact ⟨batchBlocks_tiles ops buffer.addr (by omega), hsum⟩
  | largeData addr remoteAddr count =>
    have hcount : count ≤ bufferSize := hcall
    exact ⟨generateBlocks_tiles count addr remoteAddr buffer.addr count le_rfl (by omega), hcount⟩

theorem foldlM_checkedAdd (lens : List ℕ) (start : ℕ) (hfits : start + lens.sum ≤ wordMax 64) :
    lens.foldlM (checkedAdd 64) start = some (start + lens.sum) := by
  induction lens generalizing start with
  | nil => rfl
  | cons len rest ih =>
    rw [List.sum_cons] at hfits ⊢
    have hnext : checkedAdd 64 start len = some (start + len) :=
      if_pos (by omega)
    rw [List.foldlM_cons, hnext, ← Nat.add_assoc]
    exact ih (start + len) (by omega)

theorem sumBufferLens_eq {lens : List ℕ} (hfits : lens.sum ≤ wordMax 64) :
    sumBufferLens lens = some lens.sum := by
  rw [sumBufferLens, foldlM_checkedAdd lens 0 (by omega), Nat.zero_add]

/-- The request of a call with the buffer that the server has taken for it. -/
abbrev SendCall.servedReq (type : TransferType) (reqId timeout : ℕ) (call : SendCall)
    (bufferAddr localBufferAddr : ℕ) : BufferReq :=
  { call.bufferReq type reqId timeout bufferAddr with localBufferAddr }

theorem SendCall.totalBufferLen_le (call : SendCall) (hcall : call.Fits bufferSize)
    (buffer : StagingBuffer bufferSize) : buffer.addr + call.totalBufferLen ≤ wordMax 64 := by
  have hbuffer := buffer.fits
  have hsize := (call.blocks_tiles hcall buffer).2
  rw [wordMax_64]
  unfold addressSpace at hbuffer
  omega

theorem SendCall.sum_blocks (call : SendCall) (hcall : call.Fits bufferSize)
    (buffer : StagingBuffer bufferSize) :
    ((call.blocks buffer.addr).map Block.len).sum = call.totalBufferLen ∧
      sumBufferLens ((call.blocks buffer.addr).map Block.len) = some call.totalBufferLen := by
  have hsum : ((call.blocks buffer.addr).map Block.len).sum = call.totalBufferLen :=
    (call.blocks_tiles hcall buffer).1.total_eq
  have hword := call.totalBufferLen_le hcall buffer
  exact ⟨hsum, hsum ▸ sumBufferLens_eq (by omega)⟩

theorem SendCall.servedReq_valid (type : TransferType) (reqId timeout : ℕ) (call : SendCall)
    (hcall : call.Fits bufferSize) (buffer : StagingBuffer bufferSize) (localBufferAddr : ℕ) :
    validatePeerBufferReq bufferSize
      (call.servedReq type reqId timeout buffer.addr localBufferAddr) = .success := by
  have hsize := (call.blocks_tiles hcall buffer).2
  simp only [validatePeerBufferReq, bufferReq, List.length_map,
    (call.sum_blocks hcall buffer).2]
  simp [hsize]

theorem sliceAddrs_eq {base serverBase maxTotalLen : ℕ} {blocks : List Block} (size : ℕ)
    (hsize : serverBase + size ≤ wordMax 64) (accumulated : ℕ)
    (hfollows : Follows Block.len Block.buffer (base + accumulated) blocks)
    (htotal : accumulated + total Block.len blocks = size) (hmax : size ≤ maxTotalLen) :
    sliceAddrs serverBase maxTotalLen accumulated (blocks.map Block.len) =
      some (blocks.map fun b => serverBase + (b.buffer - base)) := by
  induction blocks generalizing accumulated with
  | nil => rfl
  | cons b rest ih =>
    rw [total_cons] at htotal
    have hbuffer : b.buffer - base = accumulated := by
      rw [hfollows.1]
      omega
    have hslice : checkedAdd 64 serverBase accumulated =
        some (serverBase + accumulated) := if_pos (by omega)
    have hnext : checkedAdd 64 accumulated b.len =
        some (accumulated + b.len) := if_pos (by omega)
    have hrest := ih (accumulated + b.len)
      (by rw [← Nat.add_assoc]; exact hfollows.2) (by omega)
    have hroom : accumulated + b.len ≤ maxTotalLen := by omega
    rw [List.map_cons, List.map_cons, sliceAddrs, hslice, hbuffer]
    simp [hnext, hroom, hrest]

theorem SendCall.buildBufferSliceAddrs_eq (call : SendCall) (hcall : call.Fits bufferSize)
    (buffer server : StagingBuffer bufferSize) (addr : Block → ℕ) {maxTotalLen : ℕ}
    (hmax : call.totalBufferLen ≤ maxTotalLen) :
    buildBufferSliceAddrs server.addr ((call.blocks buffer.addr).map Block.len)
      ((call.blocks buffer.addr).map addr).length maxTotalLen =
        some ((call.blocks buffer.addr).map fun b => server.addr + (b.buffer - buffer.addr)) := by
  have htiles := (call.blocks_tiles hcall buffer).1
  rw [buildBufferSliceAddrs, List.length_map, List.length_map,
    if_neg (lt_irrefl _), List.take_of_length_le (by simp)]
  refine sliceAddrs_eq call.totalBufferLen (call.totalBufferLen_le hcall server) 0
    htiles.follows ?_ hmax
  rw [Nat.zero_add]
  exact htiles.total_eq

/-! ## The copies -/

theorem processCopyLoop_spec (env : CopyEnv) (slices : List Slice) (fuel index : ℕ)
    (left : List Slice) (hfuel : left.length ≤ fuel) (hleft : left ⊆ slices) :
    (processCopyLoop env slices fuel index left).2 ⊆ slices ∧
      ((processCopyLoop env slices fuel index left).1 = .success →
        left ⊆ (processCopyLoop env slices fuel index left).2) := by
  induction fuel generalizing index left with
  | zero =>
    rw [List.length_eq_zero_iff.mp (Nat.le_zero.mp hfuel)]
    exact ⟨List.nil_subset _, fun _ => List.nil_subset _⟩
  | succ fuel ih =>
    rw [processCopyLoop]
    split_ifs with hempty
    · rw [List.isEmpty_iff.mp hempty]
      exact ⟨List.nil_subset _, fun _ => List.nil_subset _⟩
    · cases env.batch index with
      | timeout => exact ⟨List.nil_subset _, fun h => absurd h (by simp)⟩
      | failed =>
        refine ⟨?_, fun h => absurd h (by simp)⟩
        exact fun _ h => hleft (List.take_subset _ _ h)
      | unsupported => exact ⟨fun _ h => h, fun _ => hleft⟩
      | done =>
        have hlength : (left.drop kMemcpyBatchLimit).length ≤ fuel := by
          have hlimit : 0 < kMemcpyBatchLimit := by decide
          rw [List.length_drop]
          omega
        obtain ⟨hsub, hall⟩ := ih (index + 1) (left.drop kMemcpyBatchLimit)
          hlength (fun _ h => hleft (List.drop_subset _ _ h))
        constructor
        · exact List.append_subset.mpr ⟨fun _ h => hleft (List.take_subset _ _ h), hsub⟩
        · intro hstatus s hs
          rw [← List.take_append_drop kMemcpyBatchLimit left] at hs
          cases List.mem_append.mp hs with
          | inl hthis => exact List.mem_append_left _ hthis
          | inr hlater => exact List.mem_append_right _ (hall hstatus hlater)

theorem processCopy_spec (env : CopyEnv) (kind : MemcpyKind) (srcAddrs dstAddrs sizes : List ℕ) :
    (processCopy env kind srcAddrs dstAddrs sizes).2 ⊆ makeSlices srcAddrs dstAddrs sizes ∧
      ((processCopy env kind srcAddrs dstAddrs sizes).1 = .success →
        makeSlices srcAddrs dstAddrs sizes ⊆ (processCopy env kind srcAddrs dstAddrs sizes).2) := by
  unfold processCopy
  split_ifs
  · exact ⟨List.nil_subset _, fun h => absurd h (by simp)⟩
  · exact ⟨List.nil_subset _, fun h => absurd h (by simp)⟩
  · exact ⟨fun _ h => h, fun _ _ h => h⟩
  · exact processCopyLoop_spec env _ _ _ _ le_rfl (fun _ h => h)

theorem processBufferReadCopyResp_cases (bufferSize : ℕ) (env : CopyEnv) (resp : BufferResp) :
    (processBufferReadCopyResp bufferSize env resp).1 ≠ .success ∧
        (processBufferReadCopyResp bufferSize env resp).2 = [] ∨
      ∃ bufferAddrs maxTotalLen, resp.srcAddrs.length = resp.bufferLens.length ∧
        buildBufferSliceAddrs resp.bufferAddr resp.bufferLens
          resp.srcAddrs.length maxTotalLen = some bufferAddrs ∧
        processBufferReadCopyResp bufferSize env resp =
          processCopy env (clientReadKind resp.transferType) bufferAddrs
            resp.srcAddrs resp.bufferLens := by
  unfold processBufferReadCopyResp
  split_ifs with hlengths
  · exact Or.inl ⟨by simp, rfl⟩
  · cases resolveReadCopyTotalLen resp with
    | none => exact Or.inl ⟨by simp, rfl⟩
    | some maxTotalLen =>
      dsimp only
      split_ifs
      · exact Or.inl ⟨by simp, rfl⟩
      · cases haddrs : buildBufferSliceAddrs resp.bufferAddr
            resp.bufferLens resp.srcAddrs.length maxTotalLen with
        | none => exact Or.inl ⟨by simp, rfl⟩
        | some bufferAddrs =>
          exact Or.inr ⟨bufferAddrs, maxTotalLen, not_not.mp hlengths, haddrs, rfl⟩

variable {α : Type*}

theorem makeSlices_map (src dst size : α → ℕ) (pieces : List α) :
    makeSlices (pieces.map src) (pieces.map dst) (pieces.map size) =
      pieces.map fun p => ⟨src p, dst p, size p⟩ := by
  induction pieces with
  | nil => rfl
  | cons p rest ih =>
    simp only [List.map_cons]
    rw [← ih]
    rfl

variable {env : CopyEnv}

theorem stage_processCopy {kind : MemcpyKind} {src dst size : α → ℕ} {pieces : List α}
    (hstatus : (processCopy env kind (pieces.map src) (pieces.map dst)
      (pieces.map size)).1 = .success) : stage addressSpace (processCopy env kind (pieces.map src)
        (pieces.map dst) (pieces.map size)).2 =
      stage addressSpace (pieces.map fun p => ⟨src p, dst p, size p⟩) := by
  obtain ⟨hsub, hall⟩ := processCopy_spec env kind (pieces.map src)
    (pieces.map dst) (pieces.map size)
  rw [makeSlices_map] at hsub hall
  exact stage_congr fun s => ⟨fun h => hsub h, fun h => hall hstatus h⟩

def CopyEnv.Calm (env : CopyEnv) : Prop :=
  env.async = .success ∧ ∀ index, env.batch index = .done ∨ env.batch index = .unsupported

theorem processCopyLoop_calm (hcalm : env.Calm) (slices : List Slice) (fuel index : ℕ)
    (left : List Slice) : (processCopyLoop env slices fuel index left).1 = .success := by
  induction fuel generalizing index left with
  | zero => rfl
  | succ fuel ih =>
    rw [processCopyLoop]
    split_ifs
    · rfl
    · obtain hdone | hunsupported := hcalm.2 index
      · rw [hdone]
        exact ih _ _
      · rw [hunsupported]
        exact hcalm.1

theorem processCopy_calm (hcalm : env.Calm) (kind : MemcpyKind) (src dst size : α → ℕ)
    (pieces : List α) :
    (processCopy env kind (pieces.map src) (pieces.map dst) (pieces.map size)).1 = .success := by
  simp only [processCopy, List.length_map, ne_eq, not_true_eq_false, if_false]
  split_ifs
  · exact hcalm.1
  · exact processCopyLoop_calm hcalm _ _ _ _

/-! ## From one end to the other -/

structure DeliveryEnv (bufferSize : ℕ) where
  serverBuffer : StagingBuffer bufferSize
  d2d : Status
  copy : CopyEnv
  respCopy : CopyEnv

/-- The bytes that the copies of a request carry from one end to the other,
when all of them succeed. -/
def deliver {bufferSize : ℕ} (env : DeliveryEnv bufferSize)
    (sent : SentReq) : Option (Multiset (ℕ × ℕ)) :=
  let req := { sent.req with localBufferAddr := env.serverBuffer.addr }
  let d2d := serverD2D bufferSize env.d2d req
  let copied := serverCopy bufferSize env.copy req
  let back := handleBufferRespCopy bufferSize env.respCopy (handleCtrlMsg req)
  if d2d.1 = .success ∧ copied.1 = .success ∧ back.1 = .success then
    some (if req.transferType.any isReadTransferType then
      moved (stage addressSpace copied.2) (stage addressSpace d2d.2) (stage addressSpace back.2)
    else
      moved (stage addressSpace sent.copied) (stage addressSpace d2d.2)
        (stage addressSpace copied.2))
  else none

/-- The request of a call in some buffer; for a write its slices are in the
buffer. -/
def SentReq.Carries (bufferSize : ℕ) (type : TransferType)
    (call : SendCall) (sent : SentReq) : Prop :=
  ∃ (buffer : StagingBuffer bufferSize) (reqId timeout : ℕ),
    sent.req = call.bufferReq type reqId timeout buffer.addr ∧ (isReadTransferType type = false →
        stage addressSpace sent.copied = stage addressSpace ((call.blocks buffer.addr).map fun b =>
            ⟨b.src, b.buffer, b.len⟩))

theorem SendCall.run_sent {type : TransferType} {reqId : ℕ} {env : SendEnv bufferSize}
    {call : SendCall} {sent : SentReq} (hsent : (call.run type reqId env).2 = some sent) :
    sent.Carries bufferSize type call := by
  unfold run at hsent
  split at hsent
  · cases hsent
  · next buffer _ =>
      dsimp only at hsent
      split_ifs at hsent with htime hcopied hsend
      cases hsent
      refine ⟨buffer, reqId, env.timeout, rfl, fun hwrite => ?_⟩
      have hcopy : clientCopy type env.copy (call.blocks buffer.addr) =
          processCopy env.copy (clientWriteKind type) _ _ _ :=
        if_neg (by simp [hwrite])
      rw [hcopy] at hcopied
      rw [hcopy]
      exact stage_processCopy (not_not.mp hcopied)

section Delivery

variable {bufferSize : ℕ} (type : TransferType) {call : SendCall}

section

variable (hcall : call.Fits bufferSize) (buffer : StagingBuffer bufferSize)

include hcall buffer

theorem serverCopy_eq (server : StagingBuffer bufferSize) (env : CopyEnv) (reqId timeout : ℕ) :
    ∃ kind, serverCopy bufferSize env (call.servedReq type reqId timeout buffer.addr server.addr) =
      if isReadTransferType type then processCopy env kind ((call.blocks buffer.addr).map Block.dst)
          ((call.blocks buffer.addr).map fun b => server.addr + (b.buffer - buffer.addr))
          ((call.blocks buffer.addr).map Block.len) else
        processCopy env kind ((call.blocks buffer.addr).map fun b =>
            server.addr + (b.buffer - buffer.addr)) ((call.blocks buffer.addr).map Block.dst)
          ((call.blocks buffer.addr).map Block.len) := by
  have hvalid := call.servedReq_valid type reqId timeout hcall buffer server.addr
  have haddrs := call.buildBufferSliceAddrs_eq hcall buffer server Block.dst
    (call.blocks_tiles hcall buffer).2
  rw [serverCopy, if_neg (not_not.mpr hvalid)]
  simp only [bufferReq, haddrs]
  cases type with
  | writeH2RH | writeD2RH => exact ⟨.deviceToHost, rfl⟩
  | readRH2H | readRH2D => exact ⟨.hostToDevice, rfl⟩
  | writeH2RD | readRD2H | writeD2RD | readRD2D => exact ⟨.deviceToDevice, rfl⟩

theorem respCopy_eq (env : CopyEnv) (reqId timeout localBufferAddr : ℕ)
    (hread : isReadTransferType type = true) :
    call.blocks buffer.addr = [] ∧ handleBufferRespCopy bufferSize env (handleCtrlMsg
          (call.servedReq type reqId timeout buffer.addr localBufferAddr)) = (.success, []) ∨
      ∃ kind, handleBufferRespCopy bufferSize env (handleCtrlMsg
          (call.servedReq type reqId timeout buffer.addr localBufferAddr)) =
        processCopy env kind ((call.blocks buffer.addr).map fun b =>
            buffer.addr + (b.buffer - buffer.addr)) ((call.blocks buffer.addr).map Block.src)
          ((call.blocks buffer.addr).map Block.len) := by
  obtain ⟨htiles, hsize⟩ := call.blocks_tiles hcall buffer
  have haddrs := call.buildBufferSliceAddrs_eq hcall buffer buffer Block.src le_rfl
  have htotal : resolveReadCopyTotalLen (handleCtrlMsg
      (call.servedReq type reqId timeout buffer.addr localBufferAddr)) =
        some call.totalBufferLen := by
    simp only [resolveReadCopyTotalLen, handleCtrlMsg, bufferReq,
      (call.sum_blocks hcall buffer).2]
    by_cases hzero : call.totalBufferLen = 0
    all_goals simp [hzero]
  by_cases hempty : call.blocks buffer.addr = []
  · refine Or.inl ⟨hempty, ?_⟩
    simp [handleBufferRespCopy, handleCtrlMsg, bufferReq, hempty, hread]
  · refine Or.inr ⟨clientReadKind (some type), ?_⟩
    have hcopies : handleBufferRespCopy bufferSize env (handleCtrlMsg
        (call.servedReq type reqId timeout buffer.addr localBufferAddr)) =
        processBufferReadCopyResp bufferSize env (handleCtrlMsg
          (call.servedReq type reqId timeout buffer.addr localBufferAddr)) := by
      apply if_pos
      simp [handleCtrlMsg, bufferReq, hread, hempty]
    rw [hcopies, processBufferReadCopyResp, if_neg, htotal]
    · simp only [if_neg (Nat.not_lt.mpr hsize)]
      simp only [handleCtrlMsg, bufferReq, hread, if_true, haddrs]
    · simp [handleCtrlMsg, bufferReq, hread]

theorem serverD2D_eq (d2d : Status) (reqId timeout localBufferAddr : ℕ) : serverD2D bufferSize d2d
        (call.servedReq type reqId timeout buffer.addr localBufferAddr) =
      (d2d, [if isReadTransferType type then ⟨localBufferAddr, buffer.addr, call.totalBufferLen⟩
      else ⟨buffer.addr, localBufferAddr, call.totalBufferLen⟩]) :=
  if_neg (not_not.mpr (call.servedReq_valid type reqId timeout hcall buffer localBufferAddr))

end

variable {sent : SentReq} {env : DeliveryEnv bufferSize}

theorem deliver_moves (hcall : call.Fits bufferSize) (hsent : sent.Carries bufferSize type call)
    {moves : Multiset (ℕ × ℕ)} (hdeliver : deliver env sent = some moves) :
    moves = (call.moves type : List (ℕ × ℕ)) := by
  obtain ⟨buffer, reqId, timeout, hreq, hcopied⟩ := hsent
  obtain ⟨htiles, hsize⟩ := call.blocks_tiles hcall buffer
  obtain ⟨kind, hcopy⟩ := serverCopy_eq type hcall buffer env.serverBuffer env.copy reqId timeout
  have hd2d := serverD2D_eq type hcall buffer env.d2d reqId timeout
    env.serverBuffer.addr
  have hany : (call.bufferReq type reqId timeout buffer.addr).transferType.any
      isReadTransferType = isReadTransferType type := rfl
  have hserver := htiles.follows.shift env.serverBuffer.addr
  have hfits : buffer.addr + total Block.len (call.blocks buffer.addr) ≤
      addressSpace := by
    have hbuffer := buffer.fits
    have htotal := htiles.total_eq
    omega
  have hfits' : env.serverBuffer.addr +
      total Block.len (call.blocks buffer.addr) ≤ addressSpace := by
    have hbuffer := env.serverBuffer.fits
    have htotal := htiles.total_eq
    omega
  rw [← call.blocks_moves type buffer.addr]
  simp only [deliver, hreq, hd2d, hcopy, hany] at hdeliver
  cases hread : isReadTransferType type with
  | true =>
    split_ifs at hdeliver with hsuccess
    obtain ⟨-, hcopyStatus, hbackStatus⟩ := hsuccess
    have hback : stage addressSpace (handleBufferRespCopy bufferSize env.respCopy (handleCtrlMsg
        (call.servedReq type reqId timeout buffer.addr env.serverBuffer.addr))).2 = stage
        addressSpace ((call.blocks buffer.addr).map fun b => ⟨buffer.addr + (b.buffer -
        buffer.addr), b.src, b.len⟩) := by
      obtain ⟨hempty, heq⟩ | ⟨kind, heq⟩ := respCopy_eq type hcall buffer env.respCopy
        reqId timeout env.serverBuffer.addr hread
      · rw [heq, hempty]
        rfl
      · rw [heq] at hbackStatus ⊢
        exact stage_processCopy hbackStatus
    have hblock : Block.moves type = fun b => Slice.moves addressSpace ⟨b.dst, b.src, b.len⟩ := by
      funext b
      exact if_pos hread
    rw [← Option.some.inj hdeliver, stage_processCopy hcopyStatus, hback,
      ← htiles.total_eq, moved_of_follows hserver
        (htiles.follows.shift buffer.addr) hfits' hfits, hblock]
  | false =>
    simp only [hread, Bool.false_eq_true, if_false] at hdeliver
    split_ifs at hdeliver with hsuccess
    obtain ⟨-, hcopyStatus, -⟩ := hsuccess
    have hblock : Block.moves type = fun b => Slice.moves addressSpace ⟨b.src, b.dst, b.len⟩ := by
      funext b
      exact if_neg (by simp [hread])
    rw [← Option.some.inj hdeliver, stage_processCopy hcopyStatus, hcopied hread, ← htiles.total_eq,
      moved_of_follows htiles.follows hserver hfits hfits', hblock]

def DeliveryEnv.Calm (env : DeliveryEnv bufferSize) : Prop :=
  env.d2d = .success ∧ env.copy.Calm ∧ env.respCopy.Calm

variable {type}

theorem deliver_calm (hcall : call.Fits bufferSize) (hsent : sent.Carries bufferSize type call)
    (hcalm : env.Calm) : (deliver env sent).isSome = true := by
  obtain ⟨buffer, reqId, timeout, hreq, -⟩ := hsent
  obtain ⟨hd2dStatus, hcopyCalm, hbackCalm⟩ := hcalm
  obtain ⟨kind, hcopy⟩ := serverCopy_eq type hcall buffer env.serverBuffer env.copy reqId timeout
  have hd2d := serverD2D_eq type hcall buffer env.d2d reqId timeout
    env.serverBuffer.addr
  have hcopyStatus : (serverCopy bufferSize env.copy
      (call.servedReq type reqId timeout buffer.addr env.serverBuffer.addr)).1 = .success := by
    rw [hcopy]
    split_ifs
    all_goals exact processCopy_calm hcopyCalm _ _ _ _ _
  have hbackStatus : (handleBufferRespCopy bufferSize env.respCopy
      (handleCtrlMsg (call.servedReq type reqId timeout buffer.addr
        env.serverBuffer.addr))).1 = .success := by
    cases hread : isReadTransferType type with
    | true =>
      obtain ⟨-, heq⟩ | ⟨kind', heq⟩ := respCopy_eq type hcall buffer
        env.respCopy reqId timeout env.serverBuffer.addr hread
      · rw [heq]
      · rw [heq]
        exact processCopy_calm hbackCalm _ _ _ _ _
    | false =>
      rw [handleBufferRespCopy, if_neg]
      simp [handleCtrlMsg, bufferReq, hread]
  rw [hd2dStatus] at hd2d
  simp only [deliver, hreq, hd2dStatus, hd2d, hcopyStatus, hbackStatus,
    and_self, if_true, Option.isSome_some]

end Delivery

/-! ## The whole transfer -/

def runTask {bufferSize : ℕ} (type : TransferType) (reqId : ℕ)
    (env : ℕ → SendEnv bufferSize) (ops : List TransferOpDesc) : Status × List SentReq :=
  runCalls type reqId env 0 (doTransferTask bufferSize [] 0 ops)

section Run

variable {bufferSize : ℕ} {type : TransferType} {reqId : ℕ}

def SendEnv.Calm (env : SendEnv bufferSize) : Prop :=
  env.buffer.isSome = true ∧ env.inTime = true ∧ env.inTimeAfter = true ∧
    env.copy.Calm ∧ env.send = .success

variable {env : SendEnv bufferSize} {call : SendCall}

theorem SendCall.run_success (hstatus : (call.run type reqId env).1 = .success) :
    ∃ sent, (call.run type reqId env).2 = some sent := by
  unfold run at hstatus ⊢
  split
  · next hnone =>
      simp [hnone] at hstatus
  · next buffer hsome =>
      rw [hsome] at hstatus
      dsimp only at hstatus ⊢
      split_ifs at hstatus ⊢ with htime hcopied hsend
      · exact absurd hstatus hcopied
      · exact absurd hstatus hsend
      · exact ⟨_, rfl⟩

theorem SendCall.run_calm (hcalm : env.Calm) (call : SendCall) :
    (call.run type reqId env).1 = .success := by
  obtain ⟨hbuffer, htime, hafter, hcopy, hsend⟩ := hcalm
  obtain ⟨buffer, hsome⟩ := Option.isSome_iff_exists.mp hbuffer
  have hcopied : (clientCopy type env.copy (call.blocks buffer.addr)).1 = .success := by
    unfold clientCopy
    split_ifs
    · rfl
    · exact processCopy_calm hcopy _ _ _ _ _
  have hlast : call.statusAfter env.inTimeAfter = .success := by
    rw [hafter]
    cases call <;> rfl
  simp only [run, hsome, htime, hcopied, hsend, hlast, ne_eq,
    not_true_eq_false, if_false, Bool.not_true, Bool.false_eq_true]

theorem runCalls_spec (env : ℕ → SendEnv bufferSize) (index : ℕ) (calls : List SendCall) :
    ∃ done, done <+: calls ∧
      List.Forall₂ (fun call sent => SentReq.Carries bufferSize type call sent)
        done (runCalls type reqId env index calls).2 ∧
      ((runCalls type reqId env index calls).1 = .success → done = calls) := by
  induction calls generalizing index with
  | nil => exact ⟨[], List.prefix_rfl, List.Forall₂.nil, fun _ => rfl⟩
  | cons call rest ih =>
    rw [runCalls]
    split_ifs with hfailed
    · cases hsent : (call.run type reqId (env index)).2 with
      | none => exact ⟨[], List.nil_prefix, List.Forall₂.nil, fun hstatus => absurd hstatus hfailed⟩
      | some sent =>
        refine ⟨[call], ?_, ?_, fun hstatus => absurd hstatus hfailed⟩
        · exact List.prefix_append [call] rest
        · exact List.Forall₂.cons (run_sent hsent) List.Forall₂.nil
    · obtain ⟨sent, hsent⟩ := run_success (not_not.mp hfailed)
      obtain ⟨done, hinit, hcarried, hall⟩ := ih (index + 1)
      refine ⟨call :: done, ?_, ?_, fun hstatus => by rw [hall hstatus]⟩
      · exact (List.prefix_cons_inj call).mpr hinit
      · rw [hsent]
        exact List.Forall₂.cons (run_sent hsent) hcarried

theorem runCalls_calm {env : ℕ → SendEnv bufferSize} (hcalm : ∀ i, (env i).Calm) (index : ℕ)
    (calls : List SendCall) : (runCalls type reqId env index calls).1 = .success := by
  induction calls generalizing index with
  | nil => rfl
  | cons call rest ih =>
    rw [runCalls]
    rw [if_neg (not_not.mpr (call.run_calm (hcalm index)))]
    exact ih (index + 1)

def delivered (peer : ℕ → DeliveryEnv bufferSize) : ℕ → List SentReq → Multiset (ℕ × ℕ)
  | _, [] => 0
  | index, sent :: rest => (deliver (peer index) sent).getD 0 + delivered peer (index + 1) rest

def allDelivered (peer : ℕ → DeliveryEnv bufferSize) : ℕ → List SentReq → Bool
  | _, [] => true
  | index, sent :: rest => (deliver (peer index) sent).isSome && allDelivered peer (index + 1) rest

variable {calls : List SendCall} {sents : List SentReq}

theorem delivered_spec (peer : ℕ → DeliveryEnv bufferSize) (index : ℕ) (hcarried : List.Forall₂
      (fun call sent => SentReq.Carries bufferSize type call sent) calls sents)
    (hfits : ∀ call ∈ calls, call.Fits bufferSize) :
    delivered peer index sents ≤ (calls.flatMap (SendCall.moves type) : List (ℕ × ℕ)) ∧
      (allDelivered peer index sents = true → delivered peer index sents =
        (calls.flatMap (SendCall.moves type) : List (ℕ × ℕ))) ∧
      ((∀ i, (peer i).Calm) → allDelivered peer index sents = true) := by
  induction hcarried generalizing index with
  | nil => exact ⟨le_rfl, fun _ => rfl, fun _ => rfl⟩
  | @cons call sent calls sents hsent _ ih =>
    have hcall := hfits call List.mem_cons_self
    obtain ⟨hle, heq, hcalm⟩ := ih (index + 1)
      fun other hmem => hfits other (List.mem_cons_of_mem _ hmem)
    rw [delivered, allDelivered, List.flatMap_cons, ← Multiset.coe_add]
    have hthis : (deliver (peer index) sent).getD 0 ≤ (call.moves type : List (ℕ × ℕ)) := by
      cases hdeliver : deliver (peer index) sent with
      | none => exact Multiset.zero_le _
      | some moves => exact (deliver_moves type hcall hsent hdeliver).le
    refine ⟨add_le_add hthis hle, ?_, ?_⟩
    · intro hall
      obtain ⟨hsome, hrest⟩ := Bool.and_eq_true_iff.mp hall
      obtain ⟨moves, hdeliver⟩ := Option.isSome_iff_exists.mp hsome
      rw [heq hrest, hdeliver, Option.getD_some, deliver_moves type hcall hsent hdeliver]
    · intro hpeer
      rw [deliver_calm hcall hsent (hpeer index), hcalm hpeer]
      rfl

theorem SentReq.Carries.valid {sent : SentReq} (hsent : sent.Carries bufferSize type call)
    (hcall : call.Fits bufferSize) : validatePeerBufferReq bufferSize sent.req = .success ∧
      sent.req.bufferLens.sum ≤ bufferSize := by
  obtain ⟨buffer, reqId, timeout, hreq, -⟩ := hsent
  obtain ⟨htiles, hsize⟩ := call.blocks_tiles hcall buffer
  rw [hreq]
  refine ⟨call.servedReq_valid type reqId timeout hcall buffer 0, ?_⟩
  exact htiles.total_eq.trans_le hsize

theorem valid_of_carried (hcarried : List.Forall₂
      (fun call sent => SentReq.Carries bufferSize type call sent) calls sents)
    (hfits : ∀ call ∈ calls, call.Fits bufferSize) :
    ∀ sent ∈ sents, validatePeerBufferReq bufferSize sent.req = .success ∧
      sent.req.bufferLens.sum ≤ bufferSize := by
  induction hcarried with
  | nil => exact by simp
  | @cons call first calls sents hsent _ ih =>
    obtain ⟨hcall, hlater⟩ := List.forall_mem_cons.mp hfits
    exact List.forall_mem_cons.mpr ⟨hsent.valid hcall, ih hlater⟩

end Run

/-- Buffers of at most half of the address space: whatever the runtime, the
network and the peer answer, the peer accepts every request that is sent, its
slices fit a buffer, and no byte is carried twice or to a wrong place.  When
all requests have been sent and handled, every byte of every operation has been
carried once, in the direction of the operation; without errors this is
what happens. -/
theorem bufferedTransfer_moves_once (bufferSize : ℕ) (hpos : 0 < bufferSize)
    (hbound : bufferSize ≤ 2 ^ 63) (type : TransferType) (ops : List TransferOpDesc) (reqId : ℕ)
    (env : ℕ → SendEnv bufferSize) (peer : ℕ → DeliveryEnv bufferSize) :
    (∀ sent ∈ (runTask type reqId env ops).2, validatePeerBufferReq bufferSize sent.req = .success ∧
          sent.req.bufferLens.sum ≤ bufferSize) ∧ delivered peer 0 (runTask type reqId env ops).2 ≤
        (ops.flatMap (TransferOpDesc.moves type) : List (ℕ × ℕ)) ∧
      ((runTask type reqId env ops).1 = .success →
        allDelivered peer 0 (runTask type reqId env ops).2 = true →
          delivered peer 0 (runTask type reqId env ops).2 =
            (ops.flatMap (TransferOpDesc.moves type) : List (ℕ × ℕ))) ∧
      ((∀ i, (env i).Calm) → (∀ i, (peer i).Calm) → (runTask type reqId env ops).1 = .success ∧
          allDelivered peer 0 (runTask type reqId env ops).2 = true) := by
  have hplan : ∀ call ∈ doTransferTask bufferSize [] 0 ops,
      call.Fits bufferSize :=
    doTransferTask_fits hbound ops ⟨rfl, Nat.zero_le _⟩
  have hmoves := doTransferTask_moves hpos type ops [] 0
  rw [List.nil_append] at hmoves
  obtain ⟨done, hinit, hcarried, hall⟩ := runCalls_spec env 0 (doTransferTask bufferSize [] 0 ops)
  have hfits : ∀ call ∈ done, call.Fits bufferSize :=
    fun call hmem => hplan call (hinit.subset hmem)
  obtain ⟨hle, heq, hcalm⟩ := delivered_spec peer 0 hcarried hfits
  refine ⟨?_, ?_, ?_, ?_⟩
  · exact valid_of_carried hcarried hfits
  · refine hle.trans ?_
    rw [← Multiset.coe_eq_coe.mpr hmoves, Multiset.coe_le]
    exact (hinit.sublist.flatMap _).subperm
  · intro hstatus hdelivered
    rw [← Multiset.coe_eq_coe.mpr hmoves, ← hall hstatus]
    exact heq hdelivered
  · exact fun henv hpeer => ⟨runCalls_calm henv 0 _, hcalm hpeer⟩

def calmCopy : CopyEnv where
  supportBatchCopyBatch := false
  batch := fun _ => .done
  async := .success

theorem calmCopy_calm : calmCopy.Calm := ⟨rfl, fun _ => Or.inl rfl⟩

def smallEnv : SendEnv 8 where
  buffer := some ⟨4096, by decide⟩
  inTime := true
  inTimeAfter := true
  copy := calmCopy
  timeout := 1000
  send := .success

def smallPeer : DeliveryEnv 8 where
  serverBuffer := ⟨8192, by decide⟩
  d2d := .success
  copy := calmCopy
  respCopy := calmCopy

def mixedOps : List TransferOpDesc := [⟨100, 500, 3⟩, ⟨200, 600, 11⟩, ⟨300, 700, 4⟩, ⟨400, 800, 2⟩]

theorem bufferedTransfer_moves_once_mixed :
    ((runTask .writeH2RD 7 (fun _ => smallEnv) mixedOps).2.map fun sent =>
        sent.req.bufferLens) = [[8], [3], [3, 4], [2]] ∧
      delivered (fun _ => smallPeer) 0 (runTask .writeH2RD 7 (fun _ => smallEnv) mixedOps).2 =
        (mixedOps.flatMap (TransferOpDesc.moves .writeH2RD) : List (ℕ × ℕ)) := by
  obtain ⟨-, -, hmoved, hcalm⟩ := bufferedTransfer_moves_once 8 (by decide)
    (by decide) .writeH2RD mixedOps 7 (fun _ => smallEnv) (fun _ => smallPeer)
  obtain ⟨hstatus, hall⟩ := hcalm (fun _ => ⟨rfl, rfl, rfl, calmCopy_calm, rfl⟩)
    (fun _ => ⟨rfl, calmCopy_calm, calmCopy_calm⟩)
  exact ⟨by decide, hmoved hstatus hall⟩

def hugeEnv : SendEnv (2 ^ 63 + 1) where
  buffer := some ⟨4096, by decide⟩
  inTime := true
  inTimeAfter := true
  copy := calmCopy
  timeout := 1000
  send := .success

/-- The sizes of two operations wrap around: both go into one request, which
the peer does not accept. -/
theorem bufferedTransfer_wraps :
    ((runTask .readRH2H 7 (fun _ => hugeEnv) [⟨0, 0, 2 ^ 63⟩, ⟨0, 0, 2 ^ 63⟩]).2.map fun sent =>
        (sent.req.bufferLens, sent.req.totalBufferLen,
          validatePeerBufferReq (2 ^ 63 + 1) sent.req)) =
      [([2 ^ 63, 2 ^ 63], 0, .paramInvalid)] := by
  decide

end Hixl.Adxl
