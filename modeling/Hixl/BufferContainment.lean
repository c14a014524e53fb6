import Hixl.BufferTransferPlan

/-!
# What a message of the peer makes the service touch

The server takes the remote ends of the slices from the `BufferReq`, the client
the local ends from the `BufferResp`.  The lengths are checked, so the staging
buffers are never left.  The addresses are not: beside its buffer the server
touches what the request names, registered or not, and the client stays in the
ranges of its request exactly when the response names nothing else.
-/

namespace Hixl.Adxl

open StagedCopies

def rangeBytes (addr size : ℕ) : List ℕ := (List.range size).map fun k => (addr + k) % addressSpace

variable {addr size byte : ℕ}

theorem mem_rangeBytes :
    byte ∈ rangeBytes addr size ↔ ∃ k < size, (addr + k) % addressSpace = byte := by
  simp [rangeBytes]

variable {s : Slice}

theorem mem_makeSlices {srcAddrs dstAddrs sizes : List ℕ}
    (hs : s ∈ makeSlices srcAddrs dstAddrs sizes) :
    (s.src, s.size) ∈ srcAddrs.zip sizes ∧ (s.dst, s.size) ∈ dstAddrs.zip sizes := by
  induction srcAddrs generalizing dstAddrs sizes with
  | nil => cases hs
  | cons src srcAddrs ih =>
    cases dstAddrs with
    | nil => cases hs
    | cons dst dstAddrs =>
      cases sizes with
      | nil => cases hs
      | cons size sizes =>
        cases List.mem_cons.mp hs with
        | inl heq =>
          rw [heq]
          exact ⟨List.mem_cons_self, List.mem_cons_self⟩
        | inr hrest =>
          obtain ⟨hsrc, hdst⟩ := ih hrest
          exact ⟨List.mem_cons_of_mem _ hsrc, List.mem_cons_of_mem _ hdst⟩

theorem exists_mem_makeSlices {srcAddrs dstAddrs sizes : List ℕ} {dst size : ℕ}
    (hlength : srcAddrs.length = sizes.length) (hrange : (dst, size) ∈ dstAddrs.zip sizes) :
    ∃ s ∈ makeSlices srcAddrs dstAddrs sizes, s.dst = dst ∧ s.size = size := by
  induction srcAddrs generalizing dstAddrs sizes with
  | nil =>
    rw [List.length_eq_zero_iff.mp hlength.symm, List.zip_nil_right] at hrange
    cases hrange
  | cons src srcAddrs ih =>
    cases dstAddrs with
    | nil => cases hrange
    | cons first dstAddrs =>
      cases sizes with
      | nil => cases hrange
      | cons len sizes =>
        cases List.mem_cons.mp hrange with
        | inl heq =>
          cases heq
          exact ⟨_, List.mem_cons_self, rfl, rfl⟩
        | inr hrest =>
          obtain ⟨s, hs, heq⟩ := ih (Nat.succ.inj hlength) hrest
          exact ⟨s, List.mem_cons_of_mem _ hs, heq⟩

variable {baseAddr maxTotalLen : ℕ} {lens addrs : List ℕ}

theorem sliceAddrs_bounds {accumulated : ℕ}
    (haddrs : sliceAddrs baseAddr maxTotalLen accumulated lens = some addrs) :
    addrs.length = lens.length ∧ ∀ slice ∈ addrs.zip lens,
      baseAddr ≤ slice.1 ∧ slice.1 + slice.2 ≤ baseAddr + maxTotalLen := by
  induction lens generalizing accumulated addrs with
  | nil =>
    cases haddrs
    exact ⟨rfl, List.forall_mem_nil _⟩
  | cons len rest ih =>
    simp only [sliceAddrs, Option.bind_eq_bind, Option.bind_eq_some_iff] at haddrs
    obtain ⟨sliceAddr, hslice, next, hnext, hrest⟩ := haddrs
    split_ifs at hrest with hroom
    obtain ⟨later, hlater, heq⟩ := Option.bind_eq_some_iff.mp hrest
    cases heq
    have hslice := (checkedAdd_eq_some_iff.mp hslice).1
    have hnext := (checkedAdd_eq_some_iff.mp hnext).1
    obtain ⟨hlength, hbounds⟩ := ih hlater
    refine ⟨congrArg (· + 1) hlength, List.forall_mem_cons.mpr ⟨?_, hbounds⟩⟩
    change baseAddr ≤ sliceAddr ∧ sliceAddr + len ≤ baseAddr + maxTotalLen
    omega

theorem buildBufferSliceAddrs_bounds {count : ℕ} (hcount : count = lens.length)
    (haddrs : buildBufferSliceAddrs baseAddr lens count maxTotalLen = some addrs) :
    addrs.length = lens.length ∧ ∀ slice ∈ addrs.zip lens,
      baseAddr ≤ slice.1 ∧ slice.1 + slice.2 ≤ baseAddr + maxTotalLen := by
  unfold buildBufferSliceAddrs at haddrs
  split_ifs at haddrs
  rw [hcount, List.take_length] at haddrs
  exact sliceAddrs_bounds haddrs

variable {bufferSize : ℕ}

theorem StagingBuffer.mem_of_bounds (buffer : StagingBuffer bufferSize) (hlow : buffer.addr ≤ addr)
    (hhigh : addr + size ≤ buffer.addr + bufferSize) (hbyte : byte ∈ rangeBytes addr size) :
    buffer.addr ≤ byte ∧ byte < buffer.addr + bufferSize := by
  obtain ⟨k, hk, rfl⟩ := mem_rangeBytes.mp hbyte
  have hfits := buffer.fits
  rw [Nat.mod_eq_of_lt (by omega)]
  omega

/-! ## The server -/

structure ServerEnv (bufferSize : ℕ) where
  buffer : Option (StagingBuffer bufferSize)
  inTime : Bool
  d2d : Status
  copy : CopyEnv

def sliceBytes (slices : List Slice) : List ℕ :=
  slices.flatMap fun s => rangeBytes s.src s.size ++ rangeBytes s.dst s.size

def serverBytes {bufferSize : ℕ} (env : ServerEnv bufferSize) (req : BufferReq) : List ℕ :=
  match env.buffer with
  | none => []
  | some buffer =>
    let req := { req with localBufferAddr := buffer.addr }
    let copied := serverCopy bufferSize env.copy req
    let d2d := serverD2D bufferSize env.d2d req
    let d2dBytes := d2d.2.flatMap fun s => rangeBytes buffer.addr s.size
    if req.transferType.any isReadTransferType then
      sliceBytes copied.2 ++
        if copied.1 = .success && env.inTime then d2dBytes else []
    else
      d2dBytes ++
        if d2d.1 = .success && env.inTime then sliceBytes copied.2 else []

variable {req : BufferReq}

theorem valid_spec (hvalid : validatePeerBufferReq bufferSize req = .success) :
    req.dstAddrs.length = req.bufferLens.length ∧ req.totalBufferLen ≤ bufferSize := by
  unfold validatePeerBufferReq at hvalid
  split_ifs at hvalid with htype hlength htotal
  exact ⟨not_not.mp hlength, Nat.le_of_not_lt htotal⟩

variable {env : CopyEnv}

section Server

variable {bufferSize : ℕ} {req : BufferReq}

def BufferReq.dstBytes (req : BufferReq) : List ℕ :=
  (req.dstAddrs.zip req.bufferLens).flatMap fun range => rangeBytes range.1 range.2

variable {byte : ℕ}

theorem serverCopy_bytes (buffer : StagingBuffer bufferSize) (env : CopyEnv)
    (hbyte : byte ∈ sliceBytes (serverCopy bufferSize env
      { req with localBufferAddr := buffer.addr }).2) :
    buffer.addr ≤ byte ∧ byte < buffer.addr + bufferSize ∨ byte ∈ req.dstBytes := by
  unfold serverCopy at hbyte
  split_ifs at hbyte with hvalid
  · cases hbyte
  · obtain ⟨hlength, -⟩ := valid_spec (not_not.mp hvalid)
    split at hbyte
    · cases hbyte
    · next addrs haddrs =>
        have hbounds := (buildBufferSliceAddrs_bounds hlength haddrs).2
        have hstaging : ∀ {addr size : ℕ}, (addr, size) ∈ addrs.zip req.bufferLens →
              byte ∈ rangeBytes addr size →
                buffer.addr ≤ byte ∧ byte < buffer.addr + bufferSize := by
          intro addr size hmem hin
          obtain ⟨hlow, hhigh⟩ := hbounds (addr, size) hmem
          exact buffer.mem_of_bounds hlow hhigh hin
        have hremote : ∀ {addr size : ℕ}, (addr, size) ∈ req.dstAddrs.zip req.bufferLens →
              byte ∈ rangeBytes addr size → byte ∈ req.dstBytes :=
          fun hmem hin => List.mem_flatMap.mpr ⟨_, hmem, hin⟩
        obtain ⟨s, hs, hin⟩ := List.mem_flatMap.mp hbyte
        obtain hread | hwrite : s ∈ makeSlices req.dstAddrs addrs req.bufferLens ∨ s ∈ makeSlices
            addrs req.dstAddrs req.bufferLens := by
          unfold processBufferCopyByType at hs
          split at hs
          · exact Or.inl ((processCopy_spec _ _ _ _ _).1 hs)
          · exact Or.inl ((processCopy_spec _ _ _ _ _).1 hs)
          · exact Or.inl ((processCopy_spec _ _ _ _ _).1 hs)
          · exact Or.inl ((processCopy_spec _ _ _ _ _).1 hs)
          all_goals exact Or.inr ((processCopy_spec _ _ _ _ _).1 hs)
        · obtain ⟨hsrc, hdst⟩ := mem_makeSlices hread
          cases List.mem_append.mp hin with
          | inl hin => exact Or.inr (hremote hsrc hin)
          | inr hin => exact Or.inl (hstaging hdst hin)
        · obtain ⟨hsrc, hdst⟩ := mem_makeSlices hwrite
          cases List.mem_append.mp hin with
          | inl hin => exact Or.inl (hstaging hsrc hin)
          | inr hin => exact Or.inr (hremote hdst hin)

theorem serverD2D_bytes (buffer : StagingBuffer bufferSize) (d2d : Status)
    (hbyte : byte ∈ (serverD2D bufferSize d2d
      { req with localBufferAddr := buffer.addr }).2.flatMap fun s =>
        rangeBytes buffer.addr s.size) : buffer.addr ≤ byte ∧ byte < buffer.addr + bufferSize := by
  unfold serverD2D at hbyte
  split_ifs at hbyte with hvalid
  · cases hbyte
  · have htotal : req.totalBufferLen ≤ bufferSize := (valid_spec (not_not.mp hvalid)).2
    obtain ⟨s, hs, hin⟩ := List.mem_flatMap.mp hbyte
    have hsize : s.size = req.totalBufferLen := by
      rw [List.mem_singleton.mp hs, d2dSlice]
      split_ifs
      all_goals rfl
    exact buffer.mem_of_bounds le_rfl (by omega) hin

theorem serverBytes_cases {env : ServerEnv bufferSize} (hbyte : byte ∈ serverBytes env req) :
    ∃ buffer, env.buffer = some buffer ∧ (buffer.addr ≤ byte ∧ byte < buffer.addr + bufferSize ∨
        byte ∈ req.dstBytes) := by
  unfold serverBytes at hbyte
  split at hbyte
  · cases hbyte
  · next buffer hbuffer =>
      refine ⟨buffer, hbuffer, ?_⟩
      dsimp only at hbyte
      split_ifs at hbyte
      · cases List.mem_append.mp hbyte with
        | inl hcopy => exact serverCopy_bytes buffer env.copy hcopy
        | inr hd2d => exact Or.inl (serverD2D_bytes buffer env.d2d hd2d)
      · rw [List.append_nil] at hbyte
        exact serverCopy_bytes buffer env.copy hbyte
      · cases List.mem_append.mp hbyte with
        | inl hd2d => exact Or.inl (serverD2D_bytes buffer env.d2d hd2d)
        | inr hcopy => exact serverCopy_bytes buffer env.copy hcopy
      · rw [List.append_nil] at hbyte
        exact Or.inl (serverD2D_bytes buffer env.d2d hbyte)

end Server

structure MemRange where
  addr : ℕ
  len : ℕ
  deriving DecidableEq, Repr

def Registered (ranges : List MemRange) (byte : ℕ) : Prop :=
  ∃ range ∈ ranges, range.addr ≤ byte ∧ byte < range.addr + range.len

instance (ranges : List MemRange) (byte : ℕ) : Decidable (Registered ranges byte) :=
  inferInstanceAs (Decidable (∃ range ∈ ranges, _))

theorem serverBytes_refused {env : ServerEnv bufferSize}
    (hrefused : validatePeerBufferReq bufferSize req ≠ .success) : serverBytes env req = [] := by
  have hrefused : ∀ addr, validatePeerBufferReq bufferSize
      { req with localBufferAddr := addr } ≠ .success := fun _ => hrefused
  unfold serverBytes
  split
  · rfl
  · simp [serverCopy, serverD2D, hrefused, sliceBytes]

/-- A request makes the server touch its staging buffer and the ranges that the
request names, whatever else it says, and nothing at all when it is refused.  If
the named ranges are registered, only the buffer and registered memory are
touched. -/
theorem server_contained (bufferSize : ℕ) (env : ServerEnv bufferSize) (req : BufferReq) :
    (∀ byte ∈ serverBytes env req, byte ∈ req.dstBytes ∨
      ∃ buffer, env.buffer = some buffer ∧ buffer.addr ≤ byte ∧
        byte < buffer.addr + bufferSize) ∧
    (validatePeerBufferReq bufferSize req ≠ .success → serverBytes env req = []) ∧
    ∀ ranges, (∀ byte ∈ req.dstBytes, Registered ranges byte) →
      ∀ byte ∈ serverBytes env req, Registered ranges byte ∨
        ∃ buffer, env.buffer = some buffer ∧ buffer.addr ≤ byte ∧
          byte < buffer.addr + bufferSize := by
  have hcases : ∀ byte ∈ serverBytes env req, byte ∈ req.dstBytes ∨
      ∃ buffer, env.buffer = some buffer ∧ buffer.addr ≤ byte ∧
        byte < buffer.addr + bufferSize := by
    intro byte hbyte
    obtain ⟨buffer, hbuffer, hstaging | hremote⟩ := serverBytes_cases hbyte
    · exact Or.inr ⟨buffer, hbuffer, hstaging⟩
    · exact Or.inl hremote
  refine ⟨hcases, serverBytes_refused, fun ranges hregistered byte hbyte => ?_⟩
  exact (hcases byte hbyte).imp_left (hregistered byte)

def smallServer : ServerEnv 8 where
  buffer := some smallPeer.serverBuffer
  inTime := true
  d2d := .success
  copy := calmCopy

def writeReq (dstAddr : ℕ) : BufferReq where
  transferType := some .writeH2RH
  bufferAddr := 4096
  dstAddrs := [dstAddr]
  bufferLens := [4]
  totalBufferLen := 4

theorem server_contained_registered : serverBytes smallServer (writeReq 502) =
        [8192, 8193, 8194, 8195, 8192, 8193, 8194, 8195, 502, 503, 504, 505] ∧
      ∀ byte ∈ serverBytes smallServer (writeReq 502), Registered [⟨500, 10⟩] byte ∨
          ∃ buffer, smallServer.buffer = some buffer ∧ buffer.addr ≤ byte ∧
            byte < buffer.addr + 8 :=
  ⟨by decide, (server_contained 8 smallServer (writeReq 502)).2.2 [⟨500, 10⟩] (by decide)⟩

/-- The server writes where the peer says, outside of the registered memory and
of its buffer. -/
theorem server_not_contained : validatePeerBufferReq 8 (writeReq 666) = .success ∧
      666 ∈ serverBytes smallServer (writeReq 666) ∧ ¬ Registered [⟨500, 10⟩] 666 ∧
      ∀ buffer, smallServer.buffer = some buffer →
        ¬ (buffer.addr ≤ 666 ∧ 666 < buffer.addr + 8) := by
  refine ⟨by decide, by decide, by decide, ?_⟩
  intro buffer hbuffer
  rw [← Option.some.inj hbuffer]
  decide

/-! ## The client -/

/-- A request of `Transfer` that waits for its responses: the buffers of its
entry in `req_id_buffers_`, each with the message that goes with it. -/
structure Outstanding (bufferSize : ℕ) where
  reqId : ℕ
  type : TransferType
  ops : List TransferOpDesc
  sent : List BufferReq
  planned : ∀ req ∈ sent, ∃ call ∈ doTransferTask bufferSize [] 0 ops,
    ∃ timeout, req = call.bufferReq type reqId timeout req.bufferAddr

def Outstanding.localBytes {bufferSize : ℕ} (entry : Outstanding bufferSize) : List ℕ :=
  entry.ops.flatMap fun op => rangeBytes op.localAddr op.len

def BufferResp.srcBytes (resp : BufferResp) : List ℕ :=
  (resp.srcAddrs.zip resp.bufferLens).flatMap fun range => rangeBytes range.1 range.2

/-- The checks of a response that makes the client copy. -/
structure BufferResp.Accepted (bufferSize : ℕ) (resp : BufferResp) : Prop where
  read : resp.transferType.any isReadTransferType = true
  lengths : resp.srcAddrs.length = resp.bufferLens.length
  total : ∃ total ≤ bufferSize, resolveReadCopyTotalLen resp = some total ∧
    (buildBufferSliceAddrs resp.bufferAddr resp.bufferLens resp.srcAddrs.length total).isSome

/-- The response has the local addresses and lengths of the message that was
sent for its buffer. -/
def Outstanding.Echoed {bufferSize : ℕ} (entry : Outstanding bufferSize)
    (resp : BufferResp) : Prop :=
  ∀ req ∈ entry.sent, req.bufferAddr = resp.bufferAddr →
    resp.srcAddrs = req.srcAddrs ∧ resp.bufferLens = req.bufferLens

section Response

variable {resp : BufferResp}

/-- Without failures an accepted response is copied to all that it names. -/
theorem BufferResp.Accepted.copies (haccepted : resp.Accepted bufferSize) {dst size : ℕ}
    (hrange : (dst, size) ∈ resp.srcAddrs.zip resp.bufferLens) :
    ∃ s ∈ (handleBufferRespCopy bufferSize calmCopy resp).2, s.dst = dst ∧ s.size = size := by
  obtain ⟨hread, hlengths, total, hroom, htotal, haddrs⟩ := haccepted
  obtain ⟨addrs, haddrs⟩ := Option.isSome_iff_exists.mp haddrs
  have hlength := (buildBufferSliceAddrs_bounds hlengths haddrs).1
  rw [hlengths] at haddrs
  have hsome : resp.srcAddrs.isEmpty = false := by
    rw [List.isEmpty_eq_false_iff]
    rintro hnil
    simp [hnil] at hrange
  have hslices : (handleBufferRespCopy bufferSize calmCopy resp).2 =
      makeSlices addrs resp.srcAddrs resp.bufferLens := by
    simp [handleBufferRespCopy, processBufferReadCopyResp, processCopy, processCopyWithAsync,
      calmCopy, hread, hsome, hlengths, htotal, Nat.not_lt_of_le hroom, haddrs, hlength]
  rw [hslices]
  exact exists_mem_makeSlices hlength hrange

end Response

theorem mem_localBytes_of_block (hpos : 0 < bufferSize) {type : TransferType}
    (hread : isReadTransferType type = true) {ops : List TransferOpDesc} {call : SendCall}
    (hcall : call ∈ doTransferTask bufferSize [] 0 ops) {devBuffer : ℕ} {b : Block}
    (hblock : b ∈ call.blocks devBuffer) (hbyte : byte ∈ rangeBytes b.src b.len) :
    byte ∈ ops.flatMap fun op => rangeBytes op.localAddr op.len := by
  obtain ⟨k, hk, rfl⟩ := mem_rangeBytes.mp hbyte
  have hmove : ((b.dst + k) % addressSpace, (b.src + k) % addressSpace) ∈
      b.moves type := by
    rw [Block.moves, transferMoves, if_pos hread]
    exact List.mem_map.mpr ⟨k, List.mem_range.mpr hk, rfl⟩
  have hplanned : ((b.dst + k) % addressSpace, (b.src + k) % addressSpace) ∈
      (doTransferTask bufferSize [] 0 ops).flatMap (SendCall.moves type) := by
    refine List.mem_flatMap.mpr ⟨call, hcall, ?_⟩
    rw [← call.blocks_moves type devBuffer]
    exact List.mem_flatMap.mpr ⟨b, hblock, hmove⟩
  have hmoves := doTransferTask_moves hpos type ops [] 0
  obtain ⟨op, hop, hmem⟩ := List.mem_flatMap.mp (hmoves.subset hplanned)
  refine List.mem_flatMap.mpr ⟨op, hop, mem_rangeBytes.mpr ?_⟩
  rw [TransferOpDesc.moves, transferMoves, if_pos hread] at hmem
  obtain ⟨j, hj, heq⟩ := List.mem_map.mp hmem
  exact ⟨j, List.mem_range.mp hj, (Prod.mk.inj heq).2⟩

theorem Outstanding.Echoed.inside (hpos : 0 < bufferSize) {entry : Outstanding bufferSize}
    {resp : BufferResp} (hnamed : resp.bufferAddr ∈ entry.sent.map BufferReq.bufferAddr)
    (hechoed : entry.Echoed resp) : ∀ byte ∈ resp.srcBytes, byte ∈ entry.localBytes := by
  intro byte hbyte
  obtain ⟨⟨dst, size⟩, hslice, hbyte⟩ := List.mem_flatMap.mp hbyte
  obtain ⟨req, hreq, haddr⟩ := List.mem_map.mp hnamed
  obtain ⟨hsrc, hlens⟩ := hechoed req hreq haddr
  obtain ⟨call, hcall, timeout, hplanned⟩ := entry.planned req hreq
  rw [hsrc, hlens, hplanned] at hslice
  simp only [SendCall.bufferReq] at hslice
  split_ifs at hslice with hread
  · rw [List.zip_map'] at hslice
    obtain ⟨b, hblock, heq⟩ := List.mem_map.mp hslice
    obtain ⟨rfl, rfl⟩ := Prod.mk.inj heq
    exact mem_localBytes_of_block hpos hread hcall hblock hbyte
  · cases hslice

end Hixl.Adxl
