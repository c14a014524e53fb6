import Hixl.RtsqWindow
import Mathlib.Data.List.GetD

/-!
# Safety of a publish

A publish copies a batch of entries behind the tail of the queue and then moves
the tail.  While it copies, the hardware goes on consuming.  The cells that are
written lie outside the queue, so the queue that the hardware reads only loses
entries at its front until the new tail is committed, and then it gains exactly
the batch.
-/

namespace Hixl

open RingWindows

/-! ## Writing cells -/

namespace RtsqRing

section

variable (ring : RtsqRing) (start : ℕ) (entries : List UbMemRtsqEntry)

include ring start entries

theorem write_cells_inside {j : ℕ} (hj : j < entries.length) :
    (ring.write start entries).cells (start + j) = entries[j] := by
  have hle : start ≤ start + j := Nat.le_add_right start j
  simp only [write, if_pos hle, Nat.add_sub_cancel_left]
  exact List.getD_eq_getElem _ _ hj

theorem write_cells_outside {cell : ℕ} (hcell : ∀ j, j < entries.length → cell ≠ start + j) :
    (ring.write start entries).cells cell = ring.cells cell := by
  simp only [write]
  split_ifs with hle
  · apply List.getD_eq_default
    by_contra hlt
    apply hcell (cell - start) (by omega)
    omega
  · rfl

end

/-- The queue of `ring'` is the queue of `ring` after the hardware has taken
some entries from its front. -/
structure Drained (depth : ℕ) (ring ring' : RtsqRing) : Prop where
  tail_eq : ring'.tail = ring.tail
  taken : ∃ k, k ≤ span depth ring.head ring.tail ∧
    ring'.head = slot depth ring.head k ∧
    ring'.consumed = ring.consumed + k
  kept : ∀ cell, InWindow depth ring'.head ring'.tail cell →
    ring'.cells cell = ring.cells cell

namespace Drained

variable {depth : ℕ} {ring ring₁ ring₂ : RtsqRing} (hhead : ring.head < depth)
  (htail : ring.tail < depth)

include hhead

theorem refl : Drained depth ring ring where
  tail_eq := rfl
  taken := ⟨0, Nat.zero_le _, (Nat.mod_eq_of_lt hhead).symm, rfl⟩
  kept := fun _ _ => rfl

theorem head_lt (hdrained : Drained depth ring ring₁) : ring₁.head < depth := by
  obtain ⟨k, -, hhead₁, -⟩ := hdrained.taken
  rw [hhead₁]
  exact slot_lt (by omega) k

include htail

theorem inWindow (hdrained : Drained depth ring ring₁) {cell : ℕ}
    (hcell : InWindow depth ring₁.head ring₁.tail cell) :
    InWindow depth ring.head ring.tail cell := by
  obtain ⟨k, hk, hhead₁, -⟩ := hdrained.taken
  rw [hhead₁, hdrained.tail_eq] at hcell
  obtain ⟨i, hi, rfl⟩ := hcell
  rw [span_advance hhead htail hk] at hi
  exact ⟨k + i, by omega, slot_slot k i⟩

theorem span_le (hdrained : Drained depth ring ring₁) :
    span depth ring₁.head ring₁.tail ≤ span depth ring.head ring.tail := by
  obtain ⟨k, hk, hhead₁, -⟩ := hdrained.taken
  rw [hhead₁, hdrained.tail_eq, span_advance hhead htail hk]
  exact Nat.sub_le _ _

theorem trans (hfirst : Drained depth ring ring₁) (hsecond : Drained depth ring₁ ring₂) :
    Drained depth ring ring₂ := by
  obtain ⟨k, hk, hhead₁, hconsumed₁⟩ := hfirst.taken
  obtain ⟨k', hk', hhead₂, hconsumed₂⟩ := hsecond.taken
  rw [hhead₁, hfirst.tail_eq, span_advance hhead htail hk] at hk'
  refine ⟨hsecond.tail_eq.trans hfirst.tail_eq, ⟨k + k', ?_, ?_, ?_⟩, ?_⟩
  · omega
  · rw [hhead₂, hhead₁, slot_slot]
  · rw [hconsumed₂, hconsumed₁, add_assoc]
  · intro cell hcell
    have hcell₁ := hsecond.inWindow (hfirst.head_lt hhead)
      (hfirst.tail_eq ▸ htail) hcell
    rw [hsecond.kept cell hcell, hfirst.kept cell hcell₁]

section

variable (hdrained : Drained depth ring ring₁)

include hdrained

theorem consume (k : ℕ) : Drained depth ring (ring₁.consume depth k) := by
  apply hdrained.trans hhead htail
  exact ⟨rfl, ⟨min k (ring₁.used depth), Nat.min_le_right _ _, rfl, rfl⟩, fun _ _ => rfl⟩

theorem write {start : ℕ} {entries : List UbMemRtsqEntry}
    (houtside : ∀ j, j < entries.length → ¬InWindow depth ring.head ring.tail (start + j)) :
    Drained depth ring (ring₁.write start entries) := by
  refine ⟨hdrained.tail_eq, hdrained.taken, ?_⟩
  intro cell hcell
  have hkept := hdrained.kept cell hcell
  have hold := hdrained.inWindow hhead htail hcell
  rw [← hkept]
  apply write_cells_outside
  rintro j hj rfl
  exact houtside j hj hold

theorem contents_eq : contents ring₁.cells depth ring₁.head ring₁.tail =
      (contents ring.cells depth ring.head ring.tail).drop (ring₁.consumed - ring.consumed) := by
  obtain ⟨k, hk, hhead₁, hconsumed⟩ := hdrained.taken
  have hcount : ring₁.consumed - ring.consumed = k := by omega
  rw [hcount, ← contents_advance hhead htail ring.cells hk, ← hhead₁, ← hdrained.tail_eq]
  apply List.map_congr_left
  intro i hi
  exact hdrained.kept _ ⟨i, List.mem_range.mp hi, rfl⟩

end

end Drained

end RtsqRing

/-! ## Copying a batch -/

/-- The byte offset of the tail is computed in 32 bits, and is right on rings
of at most 2^26 entries. -/
theorem firstCell_eq {depth tail : ℕ} (hsmall : depth ≤ 2 ^ 26) (htail : tail < depth) :
    wrapMul 32 tail rtsqEntryBytes / rtsqEntryBytes = tail := by
  have hprod : tail * rtsqEntryBytes < 2 ^ 32 := by
    unfold rtsqEntryBytes
    omega
  rw [wrapMul_eq_mul hprod]
  exact Nat.mul_div_cancel tail (by decide)

/-- What a copy leaves behind: a drained queue, cells written only behind the
tail, and after a complete copy the batch behind the tail. -/
structure CopySpec (depth : ℕ) (ring : RtsqRing)
    (entries : List UbMemRtsqEntry) (copy : CopyResult) : Prop where
  drained : ring.Drained depth copy.ring
  written : ∀ cell ∈ copy.written,
    ∃ j, j < entries.length ∧ cell = slot depth ring.tail j
  copied : copy.ok = true → ∀ j (hj : j < entries.length),
    copy.ring.cells (slot depth ring.tail j) = entries[j]

section

variable {depth tail n j : ℕ} (htail : tail < depth)

include htail

theorem slot_of_lt_first (hj : j < min n (depth - tail)) : slot depth tail j = tail + j := by
  rw [slot_eq_ite htail (by omega), if_pos (by omega)]

theorem slot_of_first_le (hn : n < depth) (hj : min n (depth - tail) + j < n) :
    slot depth tail (min n (depth - tail) + j) = 0 + j := by
  rw [slot_eq_ite htail (by omega), if_neg (by omega)]
  omega

end

section TwoBlocks

variable {depth : ℕ} {ring ring₁ : RtsqRing} {entries : List UbMemRtsqEntry}
  (hhead : ring.head < depth) (htail : ring.tail < depth)
  (hroom : span depth ring.head ring.tail + entries.length < depth)

include htail

section Drained

include hhead hroom

theorem writeFirst_drained : ring.Drained depth (ring.write ring.tail
      (entries.take (min entries.length (depth - ring.tail)))) := by
  apply (RtsqRing.Drained.refl hhead).write hhead htail
  intro j hj
  rw [List.length_take] at hj
  rw [← @slot_of_lt_first depth ring.tail entries.length j htail (by omega)]
  exact not_inWindow_behind_tail hhead htail (by omega)

theorem writeWrap_drained (hdrained : ring.Drained depth ring₁) :
    ring.Drained depth (ring₁.write 0 (entries.drop (min entries.length (depth - ring.tail)))) := by
  apply hdrained.write hhead htail
  intro j hj
  rw [List.length_drop] at hj
  rw [← @slot_of_first_le depth ring.tail entries.length j htail (by omega) (by omega)]
  exact not_inWindow_behind_tail hhead htail (by omega)

end Drained

theorem writeFirst_cells {j : ℕ} (hj : j < entries.length)
    (hfirst : j < min entries.length (depth - ring.tail)) :
    (ring.write ring.tail (entries.take (min entries.length (depth - ring.tail)))).cells
        (slot depth ring.tail j) = entries[j] := by
  rw [slot_of_lt_first htail hfirst, RtsqRing.write_cells_inside]
  · exact List.getElem_take
  · rw [List.length_take]
    omega

theorem writeWrap_cells (hn : entries.length < depth)
    (hfirst : ∀ j (hj : j < entries.length), j < min entries.length (depth - ring.tail) →
        ring₁.cells (slot depth ring.tail j) = entries[j]) {j : ℕ} (hj : j < entries.length) :
    (ring₁.write 0 (entries.drop (min entries.length (depth - ring.tail)))).cells
        (slot depth ring.tail j) = entries[j] := by
  by_cases hlow : j < min entries.length (depth - ring.tail)
  · rw [← hfirst j hj hlow]
    apply RtsqRing.write_cells_outside
    intro i hi heq
    rw [List.length_drop] at hi
    rw [slot_of_lt_first htail hlow] at heq
    omega
  · obtain ⟨i, rfl⟩ := Nat.exists_eq_add_of_le (Nat.le_of_not_lt hlow)
    rw [slot_of_first_le htail hn hj, RtsqRing.write_cells_inside]
    · exact List.getElem_drop
    · rw [List.length_drop]
      omega

end TwoBlocks

theorem copySqeBatchToRing_spec {depth : ℕ} {ring : RtsqRing} {state : UbMemRtsqState}
    {entries : List UbMemRtsqEntry} (hinv : WindowInv depth ring state) (hsmall : depth ≤ 2 ^ 26)
    (hroom : span depth ring.head ring.tail + entries.length < depth) (answers : PublishAnswers) :
    CopySpec depth ring entries (copySqeBatchToRing answers ring state entries) := by
  have hhead := hinv.ringHead_lt
  have htail := hinv.ringTail_lt
  have hcell : wrapMul 32 ring.tail rtsqEntryBytes / rtsqEntryBytes =
      ring.tail := firstCell_eq hsmall htail
  have hfirst := writeFirst_drained hhead htail hroom
  have hbetween := hfirst.consume hhead htail answers.betweenCopies
  have hlow : ∀ cell ∈ (List.range (min entries.length (depth - ring.tail))).map (ring.tail + ·),
      ∃ j, j < entries.length ∧ cell = slot depth ring.tail j := by
    refine List.forall_mem_map.mpr fun j hj => ?_
    rw [List.mem_range] at hj
    exact ⟨j, by omega, (slot_of_lt_first htail hj).symm⟩
  have hhigh : ∀ cell ∈ List.range (entries.length - min entries.length (depth - ring.tail)),
      ∃ j, j < entries.length ∧ cell = slot depth ring.tail j := by
    intro cell hmem
    rw [List.mem_range] at hmem
    refine ⟨min entries.length (depth - ring.tail) + cell, by omega, ?_⟩
    rw [slot_of_first_le htail (by omega) (by omega), Nat.zero_add]
  unfold copySqeBatchToRing
  rw [hinv.depth_eq, ← hinv.tail_eq, hcell]
  dsimp only
  split_ifs with hfailed hwrap hwrapFailed
  · exact ⟨RtsqRing.Drained.refl hhead, by simp, by simp⟩
  · exact ⟨hbetween, hlow, by simp⟩
  · refine ⟨writeWrap_drained hhead htail hroom hbetween,
      List.forall_mem_append.mpr ⟨hlow, hhigh⟩, ?_⟩
    · intro _ j hj
      exact writeWrap_cells htail (by omega) (fun i hi hlt => writeFirst_cells htail hi hlt) hj
  · refine ⟨hfirst, hlow, ?_⟩
    intro _ j hj
    exact writeFirst_cells htail hj (by omega)

/-! ## One publish -/

theorem ensureRtsqCapacity_drained {depth : ℕ} {ring checked : RtsqRing}
    {state state' : UbMemRtsqState} {answers : PublishAnswers} {count : ℕ} {ok : Bool}
    (hinv : WindowInv depth ring state) (hcheck : ensureRtsqCapacity answers
      (ring.consume state.depth answers.beforeCheck) state count = (ok, checked, state')) :
    ring.Drained depth checked := by
  have hhead := hinv.ringHead_lt
  have htail := hinv.ringTail_lt
  obtain rfl := hinv.depth_eq
  have hdrained := (RtsqRing.Drained.refl hhead).consume hhead htail answers.beforeCheck
  unfold ensureRtsqCapacity at hcheck
  split_ifs at hcheck <;> cases hcheck
  · exact hdrained
  · exact hdrained
  · exact hdrained
  all_goals exact hdrained.consume hhead htail _

/-- The safety of one publish.  The queue is compared across the publish up to
the entries that the hardware took meanwhile. -/
structure RecordSafe (depth : ℕ) (record : PublishRecord) : Prop where
  written_outside : ∀ cell ∈ record.written, cell < depth ∧
    ¬InWindow depth record.atCopy.head record.atCopy.tail cell
  taken : record.before.consumed ≤ record.after.consumed ∧
    record.after.consumed - record.before.consumed ≤
      (contents record.before.cells depth record.before.head record.before.tail).length
  published : record.ok = true →
    contents record.after.cells depth record.after.head record.after.tail =
        (contents record.before.cells depth record.before.head record.before.tail).drop
            (record.after.consumed - record.before.consumed) ++
          record.batchBefore ∧
      record.after.tail = (record.before.tail + record.batchBefore.length) % depth ∧
      record.stateAfter.tail = record.after.tail ∧
      record.batchAfter = []
  failed : record.ok = false →
    contents record.after.cells depth record.after.head record.after.tail =
        (contents record.before.cells depth record.before.head record.before.tail).drop
            (record.after.consumed - record.before.consumed) ∧
      record.after.tail = record.before.tail ∧
      record.stateAfter.tail = record.stateBefore.tail ∧
      record.batchAfter = record.batchBefore

theorem RtsqRing.Drained.taken_le {depth : ℕ} {ring ring₁ : RtsqRing}
    (hdrained : ring.Drained depth ring₁) : ring.consumed ≤ ring₁.consumed ∧
      ring₁.consumed - ring.consumed ≤ (contents ring.cells depth ring.head ring.tail).length := by
  obtain ⟨k, hk, -, hconsumed⟩ := hdrained.taken
  rw [contents_length]
  omega

/-- A publish that fails after draining the queue, with cells written only
behind the tail, is safe. -/
theorem recordSafe_of_drained {depth : ℕ} {ring atCopy after : RtsqRing}
    {state state' : UbMemRtsqState} {batch : List UbMemRtsqEntry} {written : List ℕ}
    (hhead : ring.head < depth) (htail : ring.tail < depth) (hdrained : ring.Drained depth after)
    (htails : state'.tail = state.tail)
    (hwritten : ∀ cell ∈ written, cell < depth ∧ ¬InWindow depth atCopy.head atCopy.tail cell) :
    RecordSafe depth ⟨false, ring, atCopy, after, state, state', batch, batch, written⟩ where
  written_outside := hwritten
  taken := hdrained.taken_le
  published := fun hok => absurd hok (by simp)
  failed := fun _ => ⟨hdrained.contents_eq hhead htail, hdrained.tail_eq, htails, rfl⟩

structure CopyStart (depth : ℕ) (ring : RtsqRing) (state : UbMemRtsqState)
    (count : ℕ) (atCopy : RtsqRing) (state' : UbMemRtsqState) : Prop where
  window : WindowInv depth atCopy state'
  drained : ring.Drained depth atCopy
  room : span depth state'.head state'.tail + count < depth
  tail_eq : state'.tail = state.tail

theorem copyStart_of_capacity {depth : ℕ} {ring checked : RtsqRing} {state state' : UbMemRtsqState}
    {answers : PublishAnswers} {count : ℕ} (hinv : WindowInv depth ring state)
    (hsmall : depth ≤ 2 ^ 26) (hcheck : ensureRtsqCapacity answers
      (ring.consume state.depth answers.beforeCheck) state count = (true, checked, state')) :
    CopyStart depth ring state count (checked.consume state'.depth answers.beforeCopy) state' := by
  have hhead := hinv.ringHead_lt
  have htail := hinv.ringTail_lt
  have hcapacity : hasRtsqCapacity state' count = true := by
    unfold ensureRtsqCapacity at hcheck
    split_ifs at hcheck with hcount hcapacity <;>
      simp only [Prod.mk.injEq, Bool.false_eq_true, false_and] at hcheck
    · rwa [← hcheck.2.2]
    · rw [← hcheck.2.2]
      exact hcheck.1
  obtain ⟨head, hstate⟩ := ensureRtsqCapacity_state hcheck
  have hdrained := ensureRtsqCapacity_drained hinv hcheck
  rw [hinv.depth_eq] at hcheck
  have hchecked := ((hinv.consume _).ensureRtsqCapacity hcheck).1
  obtain rfl := hchecked.depth_eq
  have hroom := room_of_hasRtsqCapacity (by omega) hchecked.head_lt
    hchecked.tail_lt hcapacity
  refine ⟨hchecked.consume _, hdrained.consume hhead htail _, hroom.2, ?_⟩
  rw [hstate]

namespace CopyStart

variable {depth : ℕ} {ring atCopy : RtsqRing} {state state' : UbMemRtsqState}
  {batch : List UbMemRtsqEntry}

section

variable (hstart : CopyStart depth ring state batch.length atCopy state')

include hstart

theorem used_lt : span depth atCopy.head atCopy.tail + batch.length < depth :=
  (Nat.add_le_add_right hstart.window.used_le _).trans_lt hstart.room

theorem copySpec (hsmall : depth ≤ 2 ^ 26) (answers : PublishAnswers) :
    CopySpec depth atCopy batch (copySqeBatchToRing answers atCopy state' batch) :=
  copySqeBatchToRing_spec hstart.window hsmall hstart.used_lt answers

theorem written_outside {copy : CopyResult} (hspec : CopySpec depth atCopy batch copy) :
    ∀ cell ∈ copy.written, cell < depth ∧ ¬InWindow depth atCopy.head atCopy.tail cell := by
  intro cell hcell
  obtain ⟨j, hj, rfl⟩ := hspec.written cell hcell
  have hroom := hstart.used_lt
  constructor
  · exact slot_lt hstart.window.depth_pos j
  · exact not_inWindow_behind_tail hstart.window.ringHead_lt hstart.window.ringTail_lt (by omega)

end

end CopyStart

section

variable {depth : ℕ}

theorem commit_contents {atCopy ready : RtsqRing} {batch : List UbMemRtsqEntry}
    (hhead : atCopy.head < depth) (htail : atCopy.tail < depth)
    (hroom : span depth atCopy.head atCopy.tail + batch.length < depth)
    (hdrained : atCopy.Drained depth ready)
    (hcopied : ∀ j (hj : j < batch.length), ready.cells (slot depth atCopy.tail j) = batch[j]) :
    contents ready.cells depth ready.head (slot depth ready.tail batch.length) =
      contents ready.cells depth ready.head ready.tail ++ batch := by
  have hspan := hdrained.span_le hhead htail
  rw [hdrained.tail_eq] at hspan ⊢
  apply contents_extend (hdrained.head_lt hhead) htail
  · omega
  · intro cell _
    rfl
  · exact hcopied

theorem recordSafe_of_commit {ring atCopy ready : RtsqRing} {state state' : UbMemRtsqState}
    {batch : List UbMemRtsqEntry} {written : List ℕ} (hhead : ring.head < depth)
    (htail : ring.tail < depth) (hsmall : depth ≤ 2 ^ 26)
    (hstart : CopyStart depth ring state batch.length atCopy state')
    (hwritten : ∀ cell ∈ written, cell < depth ∧ ¬InWindow depth atCopy.head atCopy.tail cell)
    (hdrained : atCopy.Drained depth ready)
    (hcopied : ∀ j (hj : j < batch.length), ready.cells (slot depth atCopy.tail j) = batch[j]) :
    RecordSafe depth ⟨true, ring, atCopy,
        { ready with
          tail := wrapAdd 32 state'.tail batch.length % state'.depth },
        state,
        { state' with
          tail := wrapAdd 32 state'.tail batch.length % state'.depth },
        batch, [], written⟩ := by
  have hall := hstart.drained.trans hhead htail hdrained
  have hroom := hstart.room
  have hready : ready.tail = state'.tail := hdrained.tail_eq.trans hstart.window.tail_eq
  have hlt := hstart.window.tail_lt
  have hnewTail : wrapAdd 32 state'.tail batch.length % state'.depth =
      slot depth ready.tail batch.length := by
    rw [wrapAdd_eq_add (by omega), hstart.window.depth_eq, hready]
    rfl
  have hcontents := commit_contents hstart.window.ringHead_lt
    hstart.window.ringTail_lt hstart.used_lt hdrained hcopied
  rw [hnewTail]
  constructor
  · exact hwritten
  · exact hall.taken_le
  · intro _
    constructor
    · change contents ready.cells depth ready.head (slot depth ready.tail batch.length) = _
      rw [hcontents, hall.contents_eq hhead htail]
    · refine ⟨?_, rfl, rfl⟩
      rw [hall.tail_eq]
      rfl
  · intro hok
    cases hok

theorem publishRtsqBatch_safe {ring : RtsqRing} {state : UbMemRtsqState}
    (hinv : WindowInv depth ring state) (hsmall : depth ≤ 2 ^ 26)
    (answers : PublishAnswers) (batch : List UbMemRtsqEntry) :
    RecordSafe depth (publishRtsqBatch answers ring state batch) ∧
      WindowInv depth (publishRtsqBatch answers ring state batch).after
        (publishRtsqBatch answers ring state batch).stateAfter := by
  have hhead := hinv.ringHead_lt
  have htail := hinv.ringTail_lt
  have hcases := publishRtsqBatch_cases answers ring state batch
  generalize publishRtsqBatch answers ring state batch = record at hcases ⊢
  cases hcases with
  | empty hempty =>
    subst hempty
    have hrefl := RtsqRing.Drained.refl hhead
    refine ⟨⟨by simp, hrefl.taken_le, ?_, by simp⟩, hinv⟩
    intro _
    refine ⟨by simp, ?_, hinv.tail_eq.symm, rfl⟩
    exact (Nat.mod_eq_of_lt htail).symm
  | refused hcheck =>
    obtain ⟨head, hstate⟩ := ensureRtsqCapacity_state hcheck
    have hdrained := ensureRtsqCapacity_drained hinv hcheck
    rw [hinv.depth_eq] at hcheck
    constructor
    · apply recordSafe_of_drained hhead htail hdrained
      · rw [hstate]
      · simp
    · exact ((hinv.consume _).ensureRtsqCapacity hcheck).1
  | copyFailed hcheck hcopy =>
    have hstart := copyStart_of_capacity hinv hsmall hcheck
    have hspec := hstart.copySpec hsmall answers
    have hwindow := hstart.window.copySqeBatchToRing answers batch
    rw [hcopy] at hspec hwindow
    constructor
    · exact recordSafe_of_drained hhead htail
        (hstart.drained.trans hhead htail hspec.drained) hstart.tail_eq
        (hstart.written_outside hspec)
    · exact hwindow
  | commitFailed hcheck hcopy =>
    have hstart := copyStart_of_capacity hinv hsmall hcheck
    have hspec := hstart.copySpec hsmall answers
    have hwindow := hstart.window.copySqeBatchToRing answers batch
    rw [hcopy] at hspec hwindow
    rw [hwindow.depth_eq] at hspec hstart ⊢
    have hdrained := hstart.drained.trans hhead htail hspec.drained
    constructor
    · exact recordSafe_of_drained hhead htail (hdrained.consume hhead htail _) hstart.tail_eq
        (hstart.written_outside hspec)
    · exact hwindow.consume _
  | published hcheck hcopy hcopied =>
    have hstart := copyStart_of_capacity hinv hsmall hcheck
    have hspec := hstart.copySpec hsmall answers
    have hwindow := hstart.window.copySqeBatchToRing answers batch
    rw [hcopy] at hspec hwindow
    constructor
    · apply recordSafe_of_commit hhead htail hsmall hstart
      · exact hstart.written_outside hspec
      · rw [hwindow.depth_eq] at hspec hstart ⊢
        exact hspec.drained.consume hstart.window.ringHead_lt hstart.window.ringTail_lt _
      · exact hspec.copied hcopied
    · rcases hwindow.depth_eq with rfl
      exact ((hwindow.consume _).commit (by omega) hstart.room).1

end

def SubmitSafeSoFar (depth : ℕ) (s : SubmitState) : Prop :=
  WindowInv depth s.ring s.state ∧ ∀ record ∈ s.records, RecordSafe depth record

theorem submitSafeSoFar_publish {depth : ℕ} (hsmall : depth ≤ 2 ^ 26) (answers : SubmitAnswers)
    {s : SubmitState} (hs : SubmitSafeSoFar depth s) :
    SubmitSafeSoFar depth (s.publish answers).2 := by
  have hpublish := publishRtsqBatch_safe hs.1 hsmall
    (answers.publish s.records.length) s.batch
  constructor
  · exact hpublish.2
  · exact List.forall_mem_append.mpr ⟨hs.2, List.forall_mem_singleton.mpr hpublish.1⟩

theorem submitSafeSoFar_append {depth : ℕ} (answers : SubmitAnswers) {s : SubmitState}
    (build : ℕ → UbMemRtsqState → UbMemRtsqEntry) (hs : SubmitSafeSoFar depth s) :
    SubmitSafeSoFar depth (s.append answers build).2 := by
  unfold SubmitState.append
  split_ifs
  all_goals exact ⟨hs.1.nextTask _, hs.2⟩

theorem submitFinal_safe {depth : ℕ} (hsmall : depth ≤ 2 ^ 26) (answers : SubmitAnswers)
    (param : UbMemAicpuKernelParam) (descs : List UbMemAicpuTransferDesc) {ring : RtsqRing}
    {state : UbMemRtsqState} (hinv : WindowInv depth ring state) :
    SubmitSafeSoFar depth (submitFinal answers param descs ⟨ring, state, [], []⟩) :=
  submitFinal_keeps (fun _ hs => submitSafeSoFar_publish hsmall answers hs)
    (fun _ _ hs => submitSafeSoFar_append answers _ hs) param descs ⟨hinv, by simp⟩

/-- Copy entries come first, and at most one notify record behind them. -/
def NotifyLast (entries : List UbMemRtsqEntry) : Prop :=
  ∃ sdmas notifies, entries = sdmas ++ notifies ∧ (∀ entry ∈ sdmas, entry.isSdma = true) ∧
    (∀ entry ∈ notifies, entry.isSdma = false) ∧
    notifies.length ≤ 1

theorem NotifyLast.of_append {entries rest : List UbMemRtsqEntry}
    (hlast : NotifyLast (entries ++ rest)) : NotifyLast entries := by
  rcases hlast with ⟨sdmas, notifies, heq, hsdmas, hnotifies, hone⟩
  have htake : entries = (sdmas ++ notifies).take entries.length := by rw [← heq, List.take_left]
  rw [List.take_append] at htake
  refine ⟨_, _, htake, ?_, ?_, ?_⟩
  · intro entry hentry
    exact hsdmas entry (List.mem_of_mem_take hentry)
  · intro entry hentry
    exact hnotifies entry (List.mem_of_mem_take hentry)
  · rw [List.length_take]
    omega

def OnlySdma (s : SubmitState) : Prop := ∀ entry ∈ s.emitted, entry.isSdma = true

theorem append_emitted (answers : SubmitAnswers) (s : SubmitState)
    (build : ℕ → UbMemRtsqState → UbMemRtsqEntry) : (s.append answers build).2.emitted = s.emitted ∨
      ∃ taskId state, (s.append answers build).2.emitted = s.emitted ++ [build taskId state] := by
  unfold SubmitState.append SubmitState.emitted
  split_ifs
  · right
    exact ⟨_, _, (List.append_assoc _ _ _).symm⟩
  · exact Or.inl rfl

theorem OnlySdma.publish (answers : SubmitAnswers) {s : SubmitState} (hs : OnlySdma s) :
    OnlySdma (s.publish answers).2 := by
  rwa [OnlySdma, SubmitState.publish_emitted]

theorem onlySdma_kept (answers : SubmitAnswers) : KeptBySdma answers OnlySdma where
  publish := fun _ hs _ => hs.publish answers
  append := by
    intro s source destination size hs _
    rcases append_emitted answers s (buildSdmaEntry source destination size)
      with hsame | ⟨taskId, state, hnew⟩
    · rwa [OnlySdma, hsame]
    · rw [OnlySdma, hnew]
      exact List.forall_mem_append.mpr
        ⟨hs, List.forall_mem_singleton.mpr (buildSdmaEntry_isSdma _ _ _ _ _)⟩

theorem OnlySdma.notifyLast {s : SubmitState} (hs : OnlySdma s) : NotifyLast s.emitted :=
  ⟨s.emitted, [], (List.append_nil _).symm, hs, by simp, by simp⟩

theorem submitFinal_notifyLast (answers : SubmitAnswers) (param : UbMemAicpuKernelParam)
    (descs : List UbMemAicpuTransferDesc) (ring : RtsqRing) (state : UbMemRtsqState) :
    NotifyLast (publishedEntries
      (submitFinal answers param descs ⟨ring, state, [], []⟩).records) := by
  have hstart : Bounded OnlySdma ⟨ring, state, [], []⟩ := by
    constructor
    · intro entry hentry
      exact absurd hentry (by simp [SubmitState.emitted])
    · simp
  have hsdma := ((onlySdma_kept answers).appendAndPublish hstart descs).1
  have hemitted : NotifyLast (submitFinal answers param descs ⟨ring, state, [], []⟩).emitted := by
    unfold submitFinal
    split_ifs
    · apply @emitNotifyRecord_leads answers OnlySdma fun s => NotifyLast s.emitted
      · exact fun s hs => hs.publish answers
      · intro s hs
        rwa [SubmitState.publish_emitted]
      · exact fun s hs => hs.notifyLast
      · intro s hs
        rcases append_emitted answers s (buildNotifyEntry param.notifyId)
          with hsame | ⟨taskId, state, hnew⟩
        · rw [hsame]
          exact hs.notifyLast
        · rw [hnew]
          exact ⟨_, _, rfl, hs, by simp, by simp⟩
      · exact hsdma
    · exact hsdma.notifyLast
  exact hemitted.of_append

/-- Every submission on a ring of the given depth publishes safely, whatever
the hardware consumes and whichever calls fail, and its notify record comes
last. -/
def SubmitSafe (depth : ℕ) : Prop :=
  ∀ (answers : SubmitAnswers) (param : UbMemAicpuKernelParam)
    (descs : List UbMemAicpuTransferDesc) (restoreOk deadlineOk : Bool)
    (ring : RtsqRing),
    (∀ record ∈ (submit answers param descs restoreOk deadlineOk depth
      ring).records, RecordSafe depth record) ∧
    NotifyLast (publishedEntries (submit answers param descs restoreOk
      deadlineOk depth ring).records)

/-! ## Large rings -/

def byteCopyParam : UbMemAicpuKernelParam where
  chunkOffset := 0
  descCount := 1
  isGet := true
  deviceId := 0
  rtsqId := 0
  rtsqStreamId := 0
  rtsqLogicCqId := 0
  rtsqTaskId := 0
  timeoutMs := 1000
  notifyId := 0
  emitNotifyRecord := 0
  transferCtxKey := 1
  version := kernelParamVersion
  sqeFormat := 0
  statusIndex := none

def byteCopyDesc : UbMemAicpuTransferDesc := ⟨1, 1, 1⟩

section

variable {depth : ℕ} {ring : RtsqRing}

theorem RtsqRing.consume_zero (hhead : ring.head < depth) : ring.consume depth 0 = ring := by
  simp [consume, Nat.mod_eq_of_lt hhead]

theorem publishRtsqBatch_quiet {state : UbMemRtsqState} (hinv : WindowInv depth ring state)
    (hdepth : depth < 2 ^ 32) (hroom : span depth state.head state.tail + 1 < depth)
    (entry : UbMemRtsqEntry) : publishRtsqBatch quietPublish ring state [entry] = ⟨true, ring, ring,
        { ring.write (wrapMul 32 state.tail rtsqEntryBytes / rtsqEntryBytes)
            [entry] with
          tail := wrapAdd 32 state.tail 1 % depth },
        state, { state with tail := wrapAdd 32 state.tail 1 % depth },
        [entry], [],
        [wrapMul 32 state.tail rtsqEntryBytes / rtsqEntryBytes]⟩ := by
  have hhead := hinv.ringHead_lt
  have htail := hinv.tail_lt
  rcases hinv.depth_eq with rfl
  have hcapacity : hasRtsqCapacity state 1 = true :=
    hasRtsqCapacity_of_room hdepth hinv.head_lt hinv.tail_lt Nat.one_pos hroom
  have hensure : ensureRtsqCapacity quietPublish ring state 1 = (true, ring, state) := by
    unfold ensureRtsqCapacity
    rw [if_neg (by omega), if_pos hcapacity]
  have hfirst : min 1 (state.depth - state.tail) = 1 := by omega
  have hcopy : copySqeBatchToRing quietPublish ring state [entry] = ⟨true, ring.write
        (wrapMul 32 state.tail rtsqEntryBytes / rtsqEntryBytes) [entry],
        [wrapMul 32 state.tail rtsqEntryBytes / rtsqEntryBytes]⟩ := by
    simp [copySqeBatchToRing, quietPublish, hfirst]
  have hzero : quietPublish.beforeCheck = 0 ∧
      quietPublish.beforeCopy = 0 ∧ quietPublish.beforeCommit = 0 ∧
      quietPublish.configOk = true := by decide
  unfold publishRtsqBatch
  simp only [List.length_singleton, hzero, RtsqRing.consume_zero hhead, hensure, hcopy]
  have hready : RtsqRing.consume state.depth 0
      (ring.write (wrapMul 32 state.tail rtsqEntryBytes / rtsqEntryBytes) [entry]) =
      ring.write (wrapMul 32 state.tail rtsqEntryBytes / rtsqEntryBytes)
        [entry] := RtsqRing.consume_zero hhead
  rw [hready]
  rfl

end

theorem byteCopy_record {depth head tail : ℕ} (hdepth : 128 < depth) (hdepth32 : depth < 2 ^ 32)
    (hhead : head < depth) (htail : tail < depth) (hroom : span depth head tail + 1 < depth) :
    ∃ record ∈ (submit quietAnswers byteCopyParam [byteCopyDesc] true true
        depth (notifyRing head tail)).records, record.ok = true ∧
      record.before = notifyRing head tail ∧ record.atCopy = notifyRing head tail ∧
      record.written = [wrapMul 32 tail rtsqEntryBytes / rtsqEntryBytes] ∧
      record.batchBefore.length = 1 ∧ (∀ entry ∈ record.batchBefore, entry.isSdma = true) ∧
      record.after = { (notifyRing head tail).write
            (wrapMul 32 tail rtsqEntryBytes / rtsqEntryBytes)
            record.batchBefore with
          tail := wrapAdd 32 tail 1 % depth } := by
  have hinit : initializeRtsq byteCopyParam .starsV1 true depth (notifyRing head tail) =
        some ⟨0, 0, depth, head, tail, .starsV1⟩ := by
    unfold initializeRtsq
    have hids : ¬(byteCopyParam.rtsqId > wordMax 16 ∨
        byteCopyParam.rtsqStreamId > wordMax 16) := by decide
    have hrange : ¬(depth ≤ 1 ∨ (notifyRing head tail).head ≥ depth ∨
        (notifyRing head tail).tail ≥ depth) := by
      simp only [notifyRing]
      omega
    have hbatch : ¬depth ≤ maxRtsqEntriesPerPublish := by
      unfold maxRtsqEntriesPerPublish
      omega
    rw [if_neg hids, if_neg (by decide), if_neg hrange, if_neg hbatch]
    rfl
  have hinv : WindowInv depth (notifyRing head tail) ⟨0, 1, depth, head, tail, .starsV1⟩ :=
    ⟨rfl, hhead, htail, rfl, 0, Nat.zero_le _, (Nat.mod_eq_of_lt hhead).symm⟩
  have hrecord := publishRtsqBatch_quiet hinv hdepth32 hroom
    (buildSdmaEntry 1 1 1 0 ⟨0, 1, depth, head, tail, .starsV1⟩)
  have hrun : (submit quietAnswers byteCopyParam [byteCopyDesc] true true
      depth (notifyRing head tail)).records = [publishRtsqBatch quietPublish (notifyRing head tail)
          ⟨0, 1, depth, head, tail, .starsV1⟩
          [buildSdmaEntry 1 1 1 0 ⟨0, 1, depth, head, tail, .starsV1⟩]] := by
    have hvalid : validateSubmitArgs byteCopyParam [byteCopyDesc] = some .starsV1 := by decide
    unfold submit
    rw [hvalid]
    dsimp only
    rw [hinit]
    rfl
  rw [hrun, hrecord]
  exact ⟨_, List.mem_singleton_self _, rfl, rfl, rfl, rfl, rfl, by simp, rfl⟩

theorem firstCell_lt (tail : ℕ) : wrapMul 32 tail rtsqEntryBytes / rtsqEntryBytes < 2 ^ 26 := by
  have hmod : wrapMul 32 tail rtsqEntryBytes < 2 ^ 32 := Nat.mod_lt _ (by decide)
  unfold rtsqEntryBytes at hmod ⊢
  omega

/-- On a large ring whose tail is its last cell, the entry goes to another
cell, and the committed queue shows the old content of the last cell. -/
theorem not_submitSafe_of_large {depth : ℕ} (hlarge : 2 ^ 26 < depth) (hdepth32 : depth < 2 ^ 32) :
    ¬SubmitSafe depth := by
  intro hsafe
  have htail : depth - 1 < depth := by omega
  have hspan : span depth (depth - 1) (depth - 1) = 0 := by
    rw [span_eq_ite htail htail, if_pos le_rfl, Nat.sub_self]
  rcases byteCopy_record (by omega) hdepth32 htail htail (by omega) with
    ⟨record, hmem, hok, hbefore, -, -, hlen, hsdma, hafter⟩
  have hqueue := (((hsafe quietAnswers byteCopyParam [byteCopyDesc] true true
    (notifyRing (depth - 1) (depth - 1))).1 record hmem).published hok).1
  have hnew : wrapAdd 32 (depth - 1) 1 % depth = 0 := by
    rw [wrapAdd_eq_add (by omega), Nat.sub_add_cancel (by omega)]
    exact Nat.mod_self depth
  have hcell : record.after.cells (depth - 1) = .notify (notifySqe 254 0 0 0) := by
    rw [hafter]
    apply RtsqRing.write_cells_outside
    intro j hj
    have hlow := firstCell_lt (depth - 1)
    omega
  have hone : span depth (depth - 1) 0 = 1 := by
    rw [span_eq_ite htail (by omega), if_neg (by omega)]
    omega
  have hcontents : contents record.after.cells depth record.after.head
      record.after.tail = [.notify (notifySqe 254 0 0 0)] := by
    have hhead : record.after.head = depth - 1 := by
      rw [hafter]
      rfl
    have htailAfter : record.after.tail = 0 := by rwa [hafter]
    have hslot : slot depth (depth - 1) 0 = depth - 1 := Nat.mod_eq_of_lt htail
    rw [hhead, htailAfter, contents, hone]
    simp only [List.range_one, List.map_cons, List.map_nil, hslot, hcell]
  have hempty : contents record.before.cells depth record.before.head record.before.tail = [] := by
    rwa [hbefore, ← List.length_eq_zero_iff, contents_length]
  rw [hcontents, hempty, List.drop_nil, List.nil_append] at hqueue
  have hbad := hsdma (.notify (notifySqe 254 0 0 0))
    (by rw [← hqueue]; exact List.mem_singleton_self _)
  exact absurd hbad (by decide)

/-- The publish is safe exactly on the rings whose byte size fits into the
32-bit offset. -/
theorem submitSafe_iff (depth : ℕ) (hdepth : 128 < depth) (hword : depth < 2 ^ 32) :
    SubmitSafe depth ↔ depth ≤ 2 ^ 26 := by
  constructor
  · intro hsafe
    by_contra hlarge
    exact not_submitSafe_of_large (by omega) hword hsafe
  · intro hsmall answers param descs restoreOk deadlineOk ring
    rcases submit_cases answers param descs restoreOk deadlineOk depth ring
      with hrejected | ⟨format, state, -, hinit, -, hrecords⟩
    · rw [hrejected]
      exact ⟨by simp, [], [], rfl, by simp, by simp, by simp⟩
    · rw [hrecords]
      constructor
      · exact (submitFinal_safe hsmall answers param descs (windowInv_of_initializeRtsq hinit)).2
      · exact submitFinal_notifyLast answers param descs ring state

theorem submitSafe_2048 : 128 < 2048 ∧ SubmitSafe 2048 :=
  ⟨by decide, (submitSafe_iff 2048 (by decide) (by decide)).mpr (by decide)⟩

/-- On a ring of 2^26 + 200 entries with the head at 0 and the tail at 2^26,
the entry is written over the entry at the head. -/
theorem not_submitSafe_overwritten_head : ¬SubmitSafe (2 ^ 26 + 200) := by
  intro hsafe
  rcases @byteCopy_record (2 ^ 26 + 200) 0 (2 ^ 26) (by decide) (by decide)
    (by decide) (by decide) (by decide) with
    ⟨record, hmem, -, -, hatCopy, hwritten, -⟩
  have houtside := ((hsafe quietAnswers byteCopyParam [byteCopyDesc] true
    true (notifyRing 0 (2 ^ 26))).1 record hmem).written_outside 0
    (by rw [hwritten]; decide)
  apply houtside.2
  rw [hatCopy]
  exact ⟨0, by decide, by decide⟩

end Hixl
