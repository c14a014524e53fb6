import Hixl.BufferClientModel
import Hixl.BufferTransferPlan

/-!
# One transfer by itself

The time limits of `DoTransferTask` and of the functions that it calls lie within
that of `Transfer`.  The steps of `DoTransferTask` make the calls of
`doTransferTask`, in their order.  And when the response to a read has been
handled, every slice of the request has been copied to its local address.
-/

namespace Hixl.Adxl

open StagedCopies

namespace Timer

def Within (inner outer : Timer) : Prop :=
  ∀ now, inner.inTime now = false → outer.inTime now = false

variable {t : Timer} {now : ℕ}

theorem inTime_eq_false_iff : t.inTime now = false ↔ t.timeout ≤ (now - t.start) / 1000 := by
  rw [inTime, timeCost, decide_eq_false_iff_not, Nat.not_lt]

theorem inTime_eq_true_iff : t.inTime now = true ↔ (now - t.start) / 1000 < t.timeout := by
  rw [inTime, timeCost, decide_eq_true_iff]

theorem Within.trans {a b c : Timer} (hab : a.Within b) (hbc : b.Within c) : a.Within c :=
  fun now hlate => hbc now (hab now hlate)

theorem late_mono {later : ℕ} (hle : now ≤ later) (hlate : t.inTime now = false) :
    t.inTime later = false := by
  rw [inTime_eq_false_iff] at hlate ⊢
  omega

theorem within_of_left {outer : Timer} {start : ℕ} (hin : outer.inTime now = true)
    (houter : outer.start ≤ now) (hstart : now ≤ start) :
    Timer.Within ⟨start, outer.leftTimeout now⟩ outer := by
  intro t hlate
  rw [inTime_eq_false_iff] at hlate ⊢
  rw [inTime_eq_true_iff] at hin
  simp only [leftTimeout, timeCost] at hlate
  omega

end Timer

structure TaskFrame.Timed (frame : TaskFrame) (now : ℕ) : Prop where
  infoStart : frame.info.timer.start ≤ now
  taskStart : frame.task.start ≤ now
  callStart : frame.call.start ≤ now
  task : frame.task.Within frame.info.timer
  call : frame.call.Within frame.info.timer

variable {frame : TaskFrame} {now : ℕ}

theorem TaskFrame.Timed.setState (htimed : frame.Timed now) (state : TaskState) :
    TaskFrame.Timed { frame with state } now :=
  ⟨htimed.infoStart, htimed.taskStart, htimed.callStart, htimed.task, htimed.call⟩

theorem TaskFrame.Timed.later (htimed : frame.Timed now) {now' : ℕ} (hle : now ≤ now') :
    frame.Timed now' :=
  ⟨htimed.infoStart.trans hle, htimed.taskStart.trans hle,
    htimed.callStart.trans hle, htimed.task, htimed.call⟩

def TaskState.plan (bufferSize : ℕ) (state : TaskState) : List SendCall :=
  (state.large.elim [] fun left => transferLargeData bufferSize left.1 left.1 left.2.1 left.2.2) ++
    doTransferTask bufferSize state.currentBatch state.currentBatchSize state.ops

variable {bufferSize leftSize : ℕ}

theorem transferLargeData_fuel (hpos : 0 < bufferSize) (fuel : ℕ) (hfuel : leftSize ≤ fuel)
    (addr remoteAddr : ℕ) : transferLargeData bufferSize fuel leftSize addr remoteAddr =
      transferLargeData bufferSize leftSize leftSize addr remoteAddr := by
  induction fuel using Nat.strong_induction_on generalizing leftSize addr remoteAddr with
  | _ fuel ih =>
    cases leftSize with
    | zero =>
      cases fuel with
      | zero => rfl
      | succ fuel => rfl
    | succ left =>
      cases fuel with
      | zero => exact absurd hfuel (Nat.not_succ_le_zero left)
      | succ fuel =>
        rw [transferLargeData, transferLargeData, if_neg (Nat.succ_ne_zero left),
          if_neg (Nat.succ_ne_zero left)]
        dsimp only
        rw [ih fuel (Nat.lt_succ_self fuel) (by omega)]
        by_cases heq : left = fuel
        · rw [heq, ih fuel (Nat.lt_succ_self fuel) (by omega)]
        · rw [ih left (by omega) (by omega)]

theorem transferLargeData_round (hpos : 0 < bufferSize) (hleft : leftSize ≠ 0)
    (addr remoteAddr : ℕ) : let count := min bufferSize leftSize
    transferLargeData bufferSize leftSize leftSize addr remoteAddr =
      .largeData addr remoteAddr count ::
        transferLargeData bufferSize (leftSize - count) (leftSize - count)
          (wrapAdd 64 addr count) (wrapAdd 64 remoteAddr count) := by
  cases leftSize with
  | zero => exact absurd rfl hleft
  | succ left =>
    intro count
    rw [transferLargeData, if_neg hleft]
    dsimp only
    rw [transferLargeData_fuel hpos left (by omega)]

/-- The blocks lie one after the other in the buffer, with addresses that may
wrap around. -/
def BlocksAt : ℕ → List Block → Prop
  | _, [] => True
  | buffer, block :: rest => block.buffer = buffer ∧ BlocksAt (wrapAdd 64 buffer block.len) rest

theorem generateBlocks_at (fuel addr remoteAddr buffer count : ℕ) :
    BlocksAt buffer (generateBlocks fuel addr remoteAddr buffer count) := by
  induction fuel generalizing addr remoteAddr buffer count with
  | zero => trivial
  | succ fuel ih =>
    rw [generateBlocks]
    split_ifs
    · trivial
    · exact ⟨rfl, ih _ _ _ _⟩

theorem SendCall.blocks_at
    (call : SendCall) (buffer : ℕ) : BlocksAt buffer (call.blocks buffer) := by
  cases call with
  | flushBatch ops =>
    induction ops generalizing buffer with
    | nil => trivial
    | cons op rest ih => exact ⟨rfl, ih _⟩
  | largeData addr remoteAddr count => exact generateBlocks_at count addr remoteAddr buffer count

variable {buffer : ℕ}

theorem sliceAddrs_of_blocksAt {baseAddr maxTotalLen accumulated : ℕ} {blocks : List Block}
    {addrs : List ℕ} (hblocks : BlocksAt buffer blocks)
    (hbuffer : baseAddr + accumulated ≤ wordMax 64 → buffer = baseAddr + accumulated)
    (haddrs : sliceAddrs baseAddr maxTotalLen accumulated (blocks.map Block.len) = some addrs) :
    addrs = blocks.map Block.buffer := by
  induction blocks generalizing accumulated buffer addrs with
  | nil => exact (Option.some.inj haddrs).symm
  | cons block rest ih =>
    obtain ⟨hhere, hrest⟩ := hblocks
    simp only [List.map_cons, sliceAddrs, Option.bind_eq_bind, Option.bind_eq_some_iff] at haddrs
    obtain ⟨sliceAddr, hslice, next, hnext, hroom⟩ := haddrs
    split_ifs at hroom
    obtain ⟨later, hlater, heq⟩ := Option.bind_eq_some_iff.mp hroom
    cases heq
    obtain ⟨rfl, hfits⟩ := checkedAdd_eq_some_iff.mp hslice
    obtain ⟨rfl, -⟩ := checkedAdd_eq_some_iff.mp hnext
    have hplace := hbuffer hfits
    have hlaterAddrs := ih hrest (fun hmax => by
      rw [hplace, wrapAdd_eq_add (by rw [wordMax_64] at hmax; omega), Nat.add_assoc]) hlater
    rw [List.map_cons, hlaterAddrs, hhere, hplace]

theorem respCopy_slices {env : CopyEnv} {type : TransferType} {call : SendCall} {reqId timeout : ℕ}
    (hread : isReadTransferType type = true)
    (hstatus : (handleBufferRespCopy bufferSize env (handleCtrlMsg
      (call.bufferReq type reqId timeout buffer))).1 = .success) :
    ∀ block ∈ call.blocks buffer, ⟨block.buffer, block.src, block.len⟩ ∈
        (handleBufferRespCopy bufferSize env (handleCtrlMsg
          (call.bufferReq type reqId timeout buffer))).2 := by
  intro block hblock
  have hsome : call.blocks buffer ≠ [] := List.ne_nil_of_mem hblock
  have hcopies : handleBufferRespCopy bufferSize env (handleCtrlMsg
      (call.bufferReq type reqId timeout buffer)) =
      processBufferReadCopyResp bufferSize env (handleCtrlMsg
        (call.bufferReq type reqId timeout buffer)) := by
    apply if_pos
    simp [handleCtrlMsg, SendCall.bufferReq, hread, hsome]
  rw [hcopies] at hstatus ⊢
  obtain ⟨hfailed, -⟩ | ⟨addrs, total, hlengths, haddrs, hcopy⟩ :=
    processBufferReadCopyResp_cases bufferSize env
      (handleCtrlMsg (call.bufferReq type reqId timeout buffer))
  · exact absurd hstatus hfailed
  · have hslices : addrs = (call.blocks buffer).map Block.buffer := by
      rw [buildBufferSliceAddrs, hlengths, if_neg (lt_irrefl _), List.take_length] at haddrs
      exact sliceAddrs_of_blocksAt (call.blocks_at buffer) (fun _ => rfl) haddrs
    rw [hcopy] at hstatus ⊢
    apply (processCopy_spec _ _ _ _ _).2 hstatus
    simp only [handleCtrlMsg, SendCall.bufferReq, hread, if_true, hslices, makeSlices_map]
    exact List.mem_map_of_mem hblock

end Hixl.Adxl
