import Hixl.RingWindows
import Hixl.SdmaSubmission

/-!
# The window of the hardware queue

The kernel knows the tail of its queue exactly and the head as it was when it
was last read.  The hardware may have advanced since then, so the window that
the kernel assumes contains the real one.  This holds through every step of a
publish, whatever the hardware consumes in between.
-/

namespace Hixl

open RingWindows

/-- The local copy of the queue state agrees with the ring up to the entries
that the hardware has taken since the head was last read. -/
structure WindowInv (depth : ℕ) (ring : RtsqRing) (state : UbMemRtsqState) :
    Prop where
  depth_eq : state.depth = depth
  head_lt : state.head < depth
  tail_lt : state.tail < depth
  tail_eq : ring.tail = state.tail
  lag : ∃ k, k ≤ span depth state.head state.tail ∧
    ring.head = slot depth state.head k

namespace WindowInv

variable {depth : ℕ} {ring : RtsqRing} {state : UbMemRtsqState}

theorem nextTask (hinv : WindowInv depth ring state) (taskId : ℕ) :
    WindowInv depth ring { state with nextTaskId := taskId } :=
  { hinv with }

section

variable (hinv : WindowInv depth ring state)

include hinv

theorem depth_pos : 0 < depth := lt_of_le_of_lt (Nat.zero_le _) hinv.head_lt

theorem ringHead_lt : ring.head < depth := by
  obtain ⟨k, -, hhead⟩ := hinv.lag
  rw [hhead]
  exact slot_lt hinv.depth_pos k

theorem ringTail_lt : ring.tail < depth := by
  rw [hinv.tail_eq]
  exact hinv.tail_lt

theorem used_le : ring.used depth ≤ span depth state.head state.tail := by
  obtain ⟨k, hk, hhead⟩ := hinv.lag
  change span depth ring.head ring.tail ≤ _
  rw [hhead, hinv.tail_eq, span_advance hinv.head_lt hinv.tail_lt hk]
  exact Nat.sub_le _ _

theorem consume (k : ℕ) : WindowInv depth (ring.consume depth k) state := by
  obtain ⟨lag, hlag, hhead⟩ := hinv.lag
  have hused : ring.used depth = span depth state.head state.tail - lag := by
    change span depth ring.head ring.tail = _
    rw [hhead, hinv.tail_eq, span_advance hinv.head_lt hinv.tail_lt hlag]
  refine ⟨hinv.depth_eq, hinv.head_lt, hinv.tail_lt, hinv.tail_eq,
    lag + min k (ring.used depth), ?_, ?_⟩
  · rw [hused]
    omega
  · change slot depth ring.head (min k (ring.used depth)) = _
    rw [hhead, slot_slot]

theorem write (start : ℕ) (entries : List UbMemRtsqEntry) :
    WindowInv depth (ring.write start entries) state :=
  ⟨hinv.depth_eq, hinv.head_lt, hinv.tail_lt, hinv.tail_eq, hinv.lag⟩

theorem refreshHead : WindowInv depth ring { state with head := ring.head } :=
  ⟨hinv.depth_eq, hinv.ringHead_lt, hinv.tail_lt, hinv.tail_eq,
    0, Nat.zero_le _, (Nat.mod_eq_of_lt hinv.ringHead_lt).symm⟩

theorem span_refreshHead_le : span depth ring.head state.tail ≤
      span depth state.head state.tail := by
  rw [← hinv.tail_eq]
  conv_rhs => rw [hinv.tail_eq]
  exact hinv.used_le

theorem ensureRtsqCapacity {answers : PublishAnswers}
    {count : ℕ} {ok : Bool} {checked : RtsqRing} {state' : UbMemRtsqState}
    (hcheck : Hixl.ensureRtsqCapacity answers ring state count = (ok, checked, state')) :
    WindowInv depth checked state' ∧ span depth state'.head state'.tail ≤
        span depth state.head state.tail := by
  obtain rfl := hinv.depth_eq
  unfold Hixl.ensureRtsqCapacity at hcheck
  have hconsumed := hinv.consume answers.beforeQuery
  split_ifs at hcheck <;> cases hcheck
  · exact ⟨hinv, le_refl _⟩
  · exact ⟨hinv, le_refl _⟩
  · exact ⟨hinv, le_refl _⟩
  · exact ⟨hconsumed, le_refl _⟩
  · exact ⟨hconsumed.refreshHead, hconsumed.span_refreshHead_le⟩

theorem copySqeBatchToRing (answers : PublishAnswers) (entries : List UbMemRtsqEntry) :
    WindowInv depth (Hixl.copySqeBatchToRing answers ring state entries).ring state := by
  obtain rfl := hinv.depth_eq
  unfold Hixl.copySqeBatchToRing
  dsimp only
  split_ifs
  · exact hinv
  · exact (hinv.write _ _).consume _
  · exact ((hinv.write _ _).consume _).write _ _
  · exact hinv.write _ _

end

end WindowInv

variable {depth : ℕ} {ring : RtsqRing} {state : UbMemRtsqState}

theorem windowInv_of_initializeRtsq {param : UbMemAicpuKernelParam} {format : UbMemStarsSqeFormat}
    {restoreOk : Bool} (hinit : initializeRtsq param format restoreOk depth ring = some state) :
    WindowInv depth ring state := by
  rcases initializeRtsq_eq_some hinit with ⟨-, hhead, htail, rfl⟩
  exact ⟨rfl, hhead, htail, rfl, 0, Nat.zero_le _, (Nat.mod_eq_of_lt hhead).symm⟩

/-! ## Moving the tail -/

variable {n : ℕ}

/-- The tail moves by at most the number of entries.  It moves by less only
when the 32-bit sum wraps, which needs a ring of almost 2^32 entries. -/
theorem span_newTail {head tail : ℕ} (hdepth : depth < 2 ^ 32) (hhead : head < depth)
    (htail : tail < depth) (hroom : span depth head tail + n < depth) :
    wrapAdd 32 tail n % depth < depth ∧ span depth head tail ≤
        span depth head (wrapAdd 32 tail n % depth) ∧
      span depth head (wrapAdd 32 tail n % depth) ≤ span depth head tail + n := by
  have hpos : 0 < depth := by omega
  refine ⟨Nat.mod_lt _ hpos, ?_⟩
  by_cases hwrap : tail + n < 2 ^ 32
  · have hslot : wrapAdd 32 tail n % depth = slot depth tail n := by
      rw [wrapAdd_eq_add hwrap]
      rfl
    rw [hslot, span_extend hhead htail hroom]
    exact ⟨Nat.le_add_right _ _, le_refl _⟩
  · have hsum : wrapAdd 32 tail n = tail + n - 2 ^ 32 := by
      unfold wrapAdd
      omega
    have hmod : (tail + n - 2 ^ 32) % depth = tail + n - 2 ^ 32 := Nat.mod_eq_of_lt (by omega)
    rw [hsum, hmod]
    rw [span_eq_ite hhead htail] at hroom ⊢
    rw [span_eq_ite hhead (by omega)]
    split_ifs at hroom ⊢ <;> omega

theorem WindowInv.commit (hinv : WindowInv depth ring state) (hdepth : depth < 2 ^ 32)
    (hroom : span depth state.head state.tail + n < depth) :
    WindowInv depth { ring with tail := wrapAdd 32 state.tail n % state.depth }
        { state with tail := wrapAdd 32 state.tail n % state.depth } ∧
      span depth state.head (wrapAdd 32 state.tail n % state.depth) ≤
        span depth state.head state.tail + n := by
  rw [hinv.depth_eq]
  obtain ⟨hlt, hlow, hhigh⟩ := span_newTail hdepth hinv.head_lt hinv.tail_lt hroom
  obtain ⟨k, hk, hhead⟩ := hinv.lag
  exact ⟨⟨rfl, hinv.head_lt, hlt, rfl, k, hk.trans hlow, hhead⟩, hhigh⟩

variable {count : ℕ}

theorem hasRtsqCapacity_of_room (hdepth : state.depth < 2 ^ 32) (hhead : state.head < state.depth)
    (htail : state.tail < state.depth) (hcount : 0 < count)
    (hroom : span state.depth state.head state.tail + count < state.depth) :
    hasRtsqCapacity state count = true := by
  have hused : wrapSub 32 (wrapAdd 32 state.tail state.depth) state.head %
      state.depth ≤ span state.depth state.head state.tail := by
    have hsub : wrapSub 32 (wrapAdd 32 state.tail state.depth) state.head =
        (state.tail + state.depth - state.head) % 2 ^ 32 := by
      unfold wrapSub wrapAdd
      omega
    rw [hsub, span_eq_ite hhead htail]
    by_cases hwrap : state.tail + state.depth - state.head < 2 ^ 32
    · rw [Nat.mod_eq_of_lt hwrap]
      have hspan := span_eq_ite hhead htail
      unfold span at hspan
      rw [hspan]
    · have hmod : (state.tail + state.depth - state.head) % 2 ^ 32 =
          state.tail + state.depth - state.head - 2 ^ 32 := by omega
      rw [hmod, Nat.mod_eq_of_lt (by omega)]
      split_ifs <;> omega
  unfold hasRtsqCapacity
  have hguard : ¬(count = 0 ∨ count ≥ state.depth) := by omega
  rw [if_neg hguard]
  dsimp only
  rw [wrapAdd_eq_add (by omega)]
  simp only [decide_eq_true_eq]
  omega

theorem room_of_hasRtsqCapacity (hdepth : 2 * state.depth ≤ 2 ^ 32)
    (hhead : state.head < state.depth) (htail : state.tail < state.depth)
    (hcapacity : hasRtsqCapacity state count = true) :
    0 < count ∧ span state.depth state.head state.tail + count < state.depth := by
  unfold hasRtsqCapacity at hcapacity
  split_ifs at hcapacity with hguard
  have hsub : wrapSub 32 (wrapAdd 32 state.tail state.depth) state.head =
      state.tail + state.depth - state.head := by
    unfold wrapSub wrapAdd
    omega
  have hspan : (state.tail + state.depth - state.head) % state.depth =
      span state.depth state.head state.tail := rfl
  dsimp only at hcapacity
  have hlt : span state.depth state.head state.tail < state.depth := span_lt (by omega)
  rw [hsub, hspan, wrapAdd_eq_add (by omega)] at hcapacity
  simp only [decide_eq_true_eq] at hcapacity
  omega

/-- A publish for which there is room keeps the window, and the window that
the kernel assumes grows by the published entries at most. -/
theorem publishRtsqBatch_window {batch : List UbMemRtsqEntry} (hinv : WindowInv depth ring state)
    (hdepth : depth < 2 ^ 32) (hroom : span depth state.head state.tail + batch.length < depth)
    (answers : PublishAnswers) : let record := publishRtsqBatch answers ring state batch
    WindowInv depth record.after record.stateAfter ∧
      span depth record.stateAfter.head record.stateAfter.tail ≤ span depth state.head state.tail +
          if record.ok then batch.length else 0 := by
  have hcases := publishRtsqBatch_cases answers ring state batch
  generalize publishRtsqBatch answers ring state batch = record at hcases ⊢
  rcases hinv.depth_eq with rfl
  have hstart := hinv.consume answers.beforeCheck
  cases hcases with
  | empty hempty => exact ⟨hinv, Nat.le_add_right _ _⟩
  | refused hcheck => exact hstart.ensureRtsqCapacity hcheck
  | copyFailed hcheck hcopy =>
    rcases hstart.ensureRtsqCapacity hcheck with ⟨hchecked, hspan⟩
    rw [← hcopy, hchecked.depth_eq]
    exact ⟨(hchecked.consume _).copySqeBatchToRing answers batch, hspan⟩
  | commitFailed hcheck hcopy =>
    rcases hstart.ensureRtsqCapacity hcheck with ⟨hchecked, hspan⟩
    rw [← hcopy, hchecked.depth_eq]
    exact ⟨((hchecked.consume _).copySqeBatchToRing answers batch).consume _, hspan⟩
  | published hcheck hcopy =>
    rcases hstart.ensureRtsqCapacity hcheck with ⟨hchecked, hspan⟩
    rw [hchecked.depth_eq] at hcopy
    have hready := ((hchecked.consume answers.beforeCopy).copySqeBatchToRing
      answers batch).consume answers.beforeCommit
    rw [hcopy] at hready
    have hroom' := lt_of_le_of_lt
      (Nat.add_le_add_right hspan batch.length) hroom
    rcases hready.commit hdepth hroom' with ⟨hcommitted, hgrown⟩
    constructor
    · rw [hchecked.depth_eq] at hcommitted ⊢
      exact hcommitted
    · exact hgrown.trans (Nat.add_le_add_right hspan _)

end Hixl
