import Hixl.VirtualMemoryModel
import Mathlib.Algebra.Order.Floor.Div

/-!
# The virtual memory manager is an exact first-fit allocator

A history runs the manager together with the list of live reservations.  In
every history the bitmap is the ledger of the live reservations, and therefore a
request is served exactly when a long enough run of free blocks exists, at the
lowest such run.
-/

namespace Hixl

open VirtualMemoryManager

open BlockBitmaps

theorem kBlockSize_pos : 0 < kBlockSize := by decide

theorem blocksNeeded_pos {size : ℕ} (hsize : 0 < size) : 0 < blocksNeeded size := by
  unfold blocksNeeded
  by_cases hrem : size % kBlockSize = 0
  · have hdvd : kBlockSize ∣ size := Nat.dvd_of_mod_eq_zero hrem
    have hdiv := Nat.div_pos (Nat.le_of_dvd hsize hdvd) kBlockSize_pos
    omega
  · simp [hrem]

theorem blocksNeeded_eq_ceilDiv (size : ℕ) : blocksNeeded size = size ⌈/⌉ kBlockSize := by
  rw [Nat.ceilDiv_eq_add_pred_div]
  simp only [blocksNeeded, kBlockSize]
  by_cases hrem : size % (1024 * 1024 * 1024) = 0
  · simp only [hrem, ne_eq, not_true_eq_false, if_false]
    omega
  · simp only [hrem, ne_eq, not_false_eq_true, if_true]
    omega

/-- A reservation as its owner sees it: the address returned, and the size
that was asked for. -/
structure VmReservation where
  addr : ℕ
  size : ℕ
  deriving DecidableEq, Repr

namespace VmReservation

/-- Block `i` of the range that starts at `base` lies in the reservation. -/
def Covers (base : ℕ) (r : VmReservation) (i : ℕ) : Prop :=
  r.addr ≤ base + i * kBlockSize ∧ base + i * kBlockSize <
      r.addr + VirtualMemoryManager.blocksNeeded r.size * kBlockSize

instance (base : ℕ) (r : VmReservation) (i : ℕ) : Decidable (r.Covers base i) :=
  instDecidableAnd

def run (base : ℕ) (r : VmReservation) : ℕ × ℕ :=
  ((r.addr - base) / kBlockSize, VirtualMemoryManager.blocksNeeded r.size)

def Aligned (base : ℕ) (r : VmReservation) : Prop := r.addr = base + (r.run base).1 * kBlockSize

theorem covers_iff_inRun {base : ℕ} {r : VmReservation} (haligned : r.Aligned base) (i : ℕ) :
    r.Covers base i ↔ InRun (r.run base) i := by
  have hpos := kBlockSize_pos
  simp only [Covers, InRun]
  rw [haligned]
  have hcount : (r.run base).2 = blocksNeeded r.size := rfl
  rw [← hcount, add_assoc, ← Nat.add_mul, Nat.add_le_add_iff_left,
    Nat.add_lt_add_iff_left, Nat.mul_le_mul_right_iff hpos,
    Nat.mul_lt_mul_right hpos]

theorem aligned_of_start (base start size : ℕ) :
    Aligned base ⟨base + start * kBlockSize, size⟩ := by
  simp [Aligned, run, Nat.mul_div_cancel _ kBlockSize_pos]

theorem run_of_start (base start size : ℕ) : run base ⟨base + start * kBlockSize, size⟩ =
      (start, blocksNeeded size) := by
  simp [run, Nat.mul_div_cancel _ kBlockSize_pos]

end VmReservation

inductive VmCall where
  | setVirtualMemoryCapacity (capacityInTb : ℕ)
  | setGlobalStartAddress (startAddrInTb : ℕ)
  | initializeManager (rt : ReserveRuntime)
  | finalize
  | reserveMemory (rt : ReserveRuntime) (size : ℕ)
  | releaseMemory (memAddr : ℕ)

structure VmHistory where
  manager : VirtualMemoryManager := {}
  live : List VmReservation := []

namespace VmHistory

def call (h : VmHistory) : VmCall → VmHistory
  | .setVirtualMemoryCapacity tb => { h with manager := (h.manager.setVirtualMemoryCapacity tb).2 }
  | .setGlobalStartAddress tb => { h with manager := (h.manager.setGlobalStartAddress tb).2 }
  | .initializeManager rt => { h with manager := (h.manager.initializeManager rt).2 }
  | .finalize => { manager := h.manager.finalize, live := [] }
  | .reserveMemory rt size =>
    { manager := (h.manager.reserveMemory rt size).2
      live :=
        match (h.manager.reserveMemory rt size).1 with
        | .ok addr => ⟨addr, size⟩ :: h.live
        | .error _ => h.live }
  | .releaseMemory memAddr =>
    { manager := (h.manager.releaseMemory memAddr).2
      live :=
        if (h.manager.releaseMemory memAddr).1 = .success then
          h.live.filter fun r => r.addr ≠ memAddr
        else h.live }

def run (h : VmHistory) (calls : List VmCall) : VmHistory := calls.foldl call h

end VmHistory

namespace VirtualMemoryManager

theorem reserve_cases (rt : ReserveRuntime) (size : ℕ) :
    (∃ base, base + size < 2 ^ 64 ∧ rt.reserve size = .ok base) ∨
      ∃ status, status ≠ .success ∧ rt.reserve size = .error status := by
  cases hreserve : rt.reserve size with
  | ok base => exact .inl ⟨base, rt.reserve_in_address_space size base hreserve, rfl⟩
  | error status => exact .inr ⟨status, rt.reserve_error size status hreserve, rfl⟩

theorem reserveMemAddress_cases (rt : ReserveRuntime) (size : ℕ) (m : VirtualMemoryManager) :
    (∃ base, base + size < 2 ^ 64 ∧ m.reserveMemAddress rt size = .ok base) ∨
      ∃ status, status ≠ .success ∧ m.reserveMemAddress rt size = .error status := by
  unfold reserveMemAddress
  cases hsoc : rt.socType with
  | error status => exact .inr ⟨status, rt.socType_error status hsoc, rfl⟩
  | ok soc =>
    cases soc with
    | gen1 | default => exact reserve_cases rt size
    | gen2 =>
      cases hnoUc : rt.reserveNoUc with
      | none => exact reserve_cases rt size
      | some reserveNoUc =>
        cases hanswer : reserveNoUc size (m.globalStartVa.getD kGlobalVirtualMemoryStartAddr) with
        | granted base =>
          left
          exact ⟨base, rt.noUc_in_address_space _ hnoUc _ _ _ hanswer, by simp only [hanswer]⟩
        | featureNotSupported => simpa only [hanswer] using reserve_cases rt size
        | error => exact .inr ⟨.failed, by decide, by simp only [hanswer]⟩

/-- Either the runtime grants a range inside the address space, and every
block of it is free, or only the size has been filled in. -/
theorem initProcess_cases (rt : ReserveRuntime) (m : VirtualMemoryManager) :
    (∃ base, base + m.withDefaultSize.vmSize < 2 ^ 64 ∧
        m.initProcess rt = (.success, m.withDefaultSize.withRange base)) ∨
      ∃ status, status ≠ .success ∧ m.initProcess rt = (status, m.withDefaultSize) := by
  rcases reserveMemAddress_cases rt m.withDefaultSize.vmSize m.withDefaultSize with
    ⟨base, hspace, hreserve⟩ | ⟨status, hstatus, hreserve⟩
  · exact .inl ⟨base, hspace, by simp only [initProcess, hreserve]⟩
  · exact .inr ⟨status, hstatus, by simp only [initProcess, hreserve]⟩

end VirtualMemoryManager

structure VmLedger
    (m : VirtualMemoryManager) (live : List VmReservation) : Prop where
  initialized : m.initialized = true
  sized : m.vmSize = m.numBlocks * kBlockSize
  in_address_space : m.globalVirtualMemoryAddr + m.vmSize < 2 ^ 64
  length : m.bitmap.length = m.numBlocks
  aligned : ∀ r ∈ live, r.Aligned m.globalVirtualMemoryAddr
  ledger :
    Ledger m.bitmap (live.map (VmReservation.run m.globalVirtualMemoryAddr))
  lookup_iff : ∀ addr count,
    m.allocations.lookup addr = some count ↔ ∃ r ∈ live, r.addr = addr ∧
        VirtualMemoryManager.blocksNeeded r.size = count

namespace VmLedger

variable {m : VirtualMemoryManager} {live : List VmReservation}

theorem withRange {base : ℕ} (hsized : m.vmSize = m.numBlocks * kBlockSize)
    (hspace : base + m.vmSize < 2 ^ 64) : VmLedger (m.withRange base) [] where
  initialized := rfl
  sized := hsized
  in_address_space := hspace
  length := List.length_replicate
  aligned := List.forall_mem_nil _
  ledger := Ledger.replicate m.numBlocks
  lookup_iff := by
    intro addr count
    simp [VirtualMemoryManager.withRange]

variable {r : VmReservation}

theorem mem_run (hr : r ∈ live) : r.run m.globalVirtualMemoryAddr ∈
      live.map (VmReservation.run m.globalVirtualMemoryAddr) :=
  List.mem_map_of_mem hr

/-- The state after `needed` blocks from `start` on have been handed out. -/
def reserved (m : VirtualMemoryManager) (start needed : ℕ) : VirtualMemoryManager :=
  { m with
    bitmap := fill true start needed m.bitmap
    allocations := m.allocations.insert (m.globalVirtualMemoryAddr + start * kBlockSize) needed }

variable {start : ℕ}

theorem block_in_address_space (hledger : VmLedger m live) (hstart : start < m.numBlocks) :
    m.globalVirtualMemoryAddr + start * kBlockSize < m.globalVirtualMemoryAddr + m.vmSize := by
  have hmul := Nat.mul_lt_mul_of_pos_right hstart kBlockSize_pos
  have hsized := hledger.sized
  omega

variable {size : ℕ}

theorem reserveBlocks_cases (hledger : VmLedger m live) (hsize : 0 < size) : (∃ start,
        FreeRun m.bitmap start (blocksNeeded size) ∧
        (∀ s, FreeRun m.bitmap s (blocksNeeded size) → start ≤ s) ∧
        m.reserveBlocks size = (.ok (m.globalVirtualMemoryAddr + start * kBlockSize),
            reserved m start (blocksNeeded size))) ∨
      (∀ s, ¬ FreeRun m.bitmap s (blocksNeeded size)) ∧
        m.reserveBlocks size = (.error .resourceExhausted, m) := by
  have hneed := blocksNeeded_pos hsize
  have hlength := hledger.length
  unfold reserveBlocks
  generalize blocksNeeded size = needed at hneed ⊢
  by_cases hfits : needed ≤ m.numBlocks
  · simp only [hfits, if_true]
    by_cases hfound :
        needed ≤ (scan m.bitmap needed m.numBlocks 0 0 0).2
    · left
      have hspec := (scan_spec (by omega) (.initial m.bitmap hneed)).1 hfound
      have hend := hspec.1.le_length hneed
      have hblock := hledger.block_in_address_space
        (show (scan m.bitmap needed m.numBlocks 0 0 0).1 < m.numBlocks by
          omega)
      have hspace := hledger.in_address_space
      apply Exists.intro (scan m.bitmap needed m.numBlocks 0 0 0).1
      constructor
      · exact hspec.1
      constructor
      · exact hspec.2
      · rw [if_pos hfound, wrapMul_eq_mul (by omega), wrapAdd_eq_add (by omega)]
        rfl
    · right
      constructor
      · exact (scan_spec (by omega) (.initial m.bitmap hneed)).2 (Nat.lt_of_not_le hfound)
      · rw [if_neg hfound]
  · right
    constructor
    · intro s hs
      have hend := hs.le_length hneed
      omega
    · rw [if_neg hfits]

theorem reserve (hledger : VmLedger m live) (hsize : 0 < size)
    (hfree : FreeRun m.bitmap start (blocksNeeded size)) :
    VmLedger (reserved m start (blocksNeeded size))
      (⟨m.globalVirtualMemoryAddr + start * kBlockSize, size⟩ :: live) := by
  have hneed := blocksNeeded_pos hsize
  have htake := hledger.ledger.take hneed hfree
  rw [← VmReservation.run_of_start m.globalVirtualMemoryAddr start size, ← List.map_cons] at htake
  refine { hledger with
    length := (length_fill _ _ _ _).trans hledger.length
    aligned := fun r hr => ?_
    ledger := htake
    lookup_iff := fun addr count => ?_ }
  · cases List.mem_cons.mp hr with
    | inl hnew =>
      rw [hnew]
      exact VmReservation.aligned_of_start _ start size
    | inr hold => exact hledger.aligned r hold
  · by_cases haddr : addr = m.globalVirtualMemoryAddr + start * kBlockSize
    · rw [haddr]
      simp only [reserved, AList.lookup_insert, Option.some.injEq]
      constructor
      · intro hcount
        exact ⟨_, List.mem_cons_self, rfl, hcount⟩
      · intro hlive
        obtain ⟨r, hr, hraddr, hcount⟩ := hlive
        have hsame := htake.eq_of_start_eq (List.mem_map_of_mem hr)
          (List.mem_map_of_mem List.mem_cons_self)
          (by simp only [VmReservation.run, hraddr])
        have hsnd := congrArg Prod.snd hsame
        simp only [VmReservation.run] at hsnd
        rw [← hsnd, hcount]
    · simp only [reserved, AList.lookup_insert_ne haddr]
      rw [hledger.lookup_iff]
      constructor
      · intro hlive
        obtain ⟨r, hr, hrest⟩ := hlive
        exact ⟨r, List.mem_cons_of_mem _ hr, hrest⟩
      · intro hlive
        obtain ⟨r, hr, hraddr, hcount⟩ := hlive
        cases List.mem_cons.mp hr with
        | inl hnew =>
          rw [hnew] at hraddr
          exact absurd hraddr.symm haddr
        | inr hold => exact ⟨r, hold, hraddr, hcount⟩

def released (m : VirtualMemoryManager) (r : VmReservation) : VirtualMemoryManager :=
  { m with
    bitmap := fill false (r.run m.globalVirtualMemoryAddr).1
      (r.run m.globalVirtualMemoryAddr).2 m.bitmap
    allocations := m.allocations.erase r.addr }

section

variable (hledger : VmLedger m live)

include hledger

theorem addr_in_range (hr : r ∈ live) :
    m.globalVirtualMemoryAddr ≤ r.addr ∧ r.addr < m.globalVirtualMemoryAddr + m.vmSize ∧
      (r.addr - m.globalVirtualMemoryAddr) % kBlockSize = 0 := by
  have haligned := hledger.aligned r hr
  have hinside := hledger.ledger.inside _ (mem_run hr)
  have hlength := hledger.length
  have hblock := hledger.block_in_address_space
    (show (r.run m.globalVirtualMemoryAddr).1 < m.numBlocks by omega)
  unfold VmReservation.Aligned at haligned
  constructor
  · omega
  constructor
  · omega
  · rw [haligned, Nat.add_sub_cancel_left, Nat.mul_mod_left]

theorem releaseMemory_live (hr : r ∈ live) : m.releaseMemory r.addr = (.success, released m r) := by
  have hrange := hledger.addr_in_range hr
  have hspace := hledger.in_address_space
  have hlookup := (hledger.lookup_iff r.addr _).mpr ⟨r, hr, rfl, rfl⟩
  simp only [releaseMemory, hledger.initialized,
    if_true, wrapAdd_eq_add hspace, hrange.1, hrange.2.1, hrange.2.2,
    and_self, hlookup, released, VmReservation.run]

theorem releaseMemory_cases (memAddr : ℕ) :
    (∃ r ∈ live, r.addr = memAddr ∧ m.releaseMemory memAddr = (.success, released m r)) ∨
      m.releaseMemory memAddr = (.paramInvalid, m) := by
  cases hfound : m.allocations.lookup memAddr with
  | none =>
    right
    simp only [releaseMemory, hfound, ite_self]
  | some count =>
    left
    obtain ⟨r, hr, rfl, -⟩ := (hledger.lookup_iff _ _).mp hfound
    exact ⟨r, hr, rfl, hledger.releaseMemory_live hr⟩

theorem release (hr : r ∈ live) :
    VmLedger (released m r) (live.filter fun a => a.addr ≠ r.addr) := by
  have haligned := hledger.aligned r hr
  have hgive :
      Ledger (fill false (r.run m.globalVirtualMemoryAddr).1
          (r.run m.globalVirtualMemoryAddr).2 m.bitmap)
        ((live.map (VmReservation.run m.globalVirtualMemoryAddr)).filter
          fun run => run.1 ≠ (r.run m.globalVirtualMemoryAddr).1) :=
    hledger.ledger.give (mem_run hr)
  have hruns :
      (live.map (VmReservation.run m.globalVirtualMemoryAddr)).filter
          (fun run => run.1 ≠ (r.run m.globalVirtualMemoryAddr).1) =
        (live.filter fun a => a.addr ≠ r.addr).map
          (VmReservation.run m.globalVirtualMemoryAddr) := by
    rw [List.filter_map]
    congr 1
    apply List.filter_congr
    intro a ha
    have haa := hledger.aligned a ha
    have hiff : (a.run m.globalVirtualMemoryAddr).1 ≠
        (r.run m.globalVirtualMemoryAddr).1 ↔ a.addr ≠ r.addr := by
      constructor
      · intro hne haddr
        exact hne (by simp only [VmReservation.run, haddr])
      · intro hne hstart
        exact hne (by rw [haa, haligned, hstart])
    simp only [Function.comp_apply, hiff]
  rw [hruns] at hgive
  refine { hledger with
    length := (length_fill _ _ _ _).trans hledger.length
    aligned := fun a ha => hledger.aligned a (List.mem_of_mem_filter ha)
    ledger := hgive
    lookup_iff := fun addr count => ?_ }
  by_cases haddr : addr = r.addr
  · rw [haddr]
    simp only [released, AList.lookup_erase]
    constructor
    · intro hnone
      cases hnone
    · rintro ⟨a, ha, haaddr, -⟩
      have hne := (List.mem_filter.mp ha).2
      exact absurd haaddr (by simpa using hne)
  · simp only [released, AList.lookup_erase_ne haddr]
    rw [hledger.lookup_iff]
    constructor
    · rintro ⟨a, ha, haaddr, hcount⟩
      have hkeep : a ∈ live.filter fun a => a.addr ≠ r.addr := by
        rw [List.mem_filter]
        exact ⟨ha, by simpa [haaddr] using haddr⟩
      exact ⟨a, hkeep, haaddr, hcount⟩
    · rintro ⟨a, ha, hrest⟩
      exact ⟨a, List.mem_of_mem_filter ha, hrest⟩

end

end VmLedger

/-! ## Every history -/

namespace VmHistory

/-- The invariant of a whole history: before a range is reserved nothing is
live, afterwards the bitmap is the ledger of the live reservations. -/
structure Consistent (h : VmHistory) : Prop where
  sized : h.manager.vmSize = h.manager.numBlocks * kBlockSize
  off : h.manager.initialized = false → h.live = []
  on : h.manager.initialized = true → VmLedger h.manager h.live

theorem Consistent.start : Consistent {} where
  sized := rfl
  off := fun _ => rfl
  on := fun h => absurd h (by simp)

theorem sized_withDefaultSize {m : VirtualMemoryManager}
    (hsized : m.vmSize = m.numBlocks * kBlockSize) :
    m.withDefaultSize.vmSize = m.withDefaultSize.numBlocks * kBlockSize := by
  unfold withDefaultSize
  split_ifs
  · exact Nat.mul_comm kBlockSize kDefaultNumBlocks
  · exact hsized

theorem initialized_withDefaultSize (m : VirtualMemoryManager) :
    m.withDefaultSize.initialized = m.initialized := by
  unfold withDefaultSize
  split_ifs <;> rfl

variable {h : VmHistory}

theorem capacity_sized (tb : ℕ) : wrapMul 64 tb kBytesPerTB =
      wrapMul 64 tb kBytesPerTB / kBlockSize * kBlockSize := by
  simp only [wrapMul, kBytesPerTB, kBlockSize]
  omega

theorem Consistent.of_ledger (hledger : VmLedger h.manager h.live) : h.Consistent where
  sized := hledger.sized
  off := fun hoff => by simp [hledger.initialized] at hoff
  on := fun _ => hledger

theorem Consistent.of_off (hsized : h.manager.vmSize = h.manager.numBlocks * kBlockSize)
    (hoff : h.manager.initialized = false) (hlive : h.live = []) : h.Consistent where
  sized := hsized
  off := fun _ => hlive
  on := fun hon => by simp [hoff] at hon

theorem Consistent.initializeManager (hcons : h.Consistent) (rt : ReserveRuntime) :
    Consistent { h with manager := (h.manager.initializeManager rt).2 } ∧
      ((h.manager.initializeManager rt).1 = .success ↔
        (h.manager.initializeManager rt).2.initialized = true) := by
  unfold VirtualMemoryManager.initializeManager
  cases hinit : h.manager.initialized with
  | true =>
    exact ⟨hcons, by simp [hinit]⟩
  | false =>
    have hsized := sized_withDefaultSize hcons.sized
    have hlive := hcons.off hinit
    cases h.manager.initProcess_cases rt with
    | inl hgranted =>
      obtain ⟨base, hspace, heq⟩ := hgranted
      rw [heq, hlive]
      constructor
      · exact of_ledger (VmLedger.withRange hsized hspace)
      · simp [withRange]
    | inr hrefused =>
      obtain ⟨status, hstatus, heq⟩ := hrefused
      rw [heq]
      have hoff := (initialized_withDefaultSize h.manager).trans hinit
      constructor
      · exact of_off hsized hoff hlive
      · simp [hstatus, hoff]

/-- A reservation on a manager that has its range, with what it does to the
ledger. -/
theorem Consistent.reserveBlocks (hcons : h.Consistent) (hon : h.manager.initialized = true)
    {size : ℕ} (hsize : 0 < size) : (∃ start, h.manager.reserveBlocks size =
          (.ok (h.manager.globalVirtualMemoryAddr + start * kBlockSize),
            VmLedger.reserved h.manager start (blocksNeeded size)) ∧
        VmLedger (VmLedger.reserved h.manager start (blocksNeeded size))
          (⟨h.manager.globalVirtualMemoryAddr + start * kBlockSize, size⟩ :: h.live)) ∨
      h.manager.reserveBlocks size = (.error .resourceExhausted, h.manager) := by
  have hledger := hcons.on hon
  cases hledger.reserveBlocks_cases hsize with
  | inl hserved =>
    obtain ⟨start, hfree, -, heq⟩ := hserved
    left
    exact ⟨start, heq, hledger.reserve hsize hfree⟩
  | inr hrefused =>
    right
    exact hrefused.2

section

variable (hcons : h.Consistent)

include hcons

theorem Consistent.reserveMemory (rt : ReserveRuntime) (size : ℕ) :
    (h.call (.reserveMemory rt size)).Consistent := by
  simp only [call, VirtualMemoryManager.reserveMemory]
  by_cases hsize : 0 < size
  · simp only [hsize, if_true]
    have hinit := hcons.initializeManager rt
    generalize h.manager.initializeManager rt = result at hinit
    obtain ⟨status, m⟩ := result
    by_cases hok : status = .success
    · subst status
      have hon : m.initialized = true := hinit.2.mp rfl
      cases Consistent.reserveBlocks hinit.1 hon hsize with
      | inl hserved =>
        obtain ⟨start, heq, hledger⟩ := hserved
        simp only at heq
        simp only [heq]
        exact Consistent.of_ledger hledger
      | inr hrefused =>
        simp only at hrefused
        simp only [hrefused]
        exact hinit.1
    · cases status with
      | success => exact absurd rfl hok
      | _ => exact hinit.1
  · simp only [hsize, if_false]
    exact hcons

theorem Consistent.releaseMemory (memAddr : ℕ) : (h.call (.releaseMemory memAddr)).Consistent := by
  simp only [call]
  cases hon : h.manager.initialized with
  | false =>
    have heq : h.manager.releaseMemory memAddr = (.paramInvalid, h.manager) := by
      simp [VirtualMemoryManager.releaseMemory, hon]
    simp only [heq]
    exact hcons
  | true =>
    have hledger := hcons.on hon
    rcases hledger.releaseMemory_cases memAddr with ⟨r, hr, rfl, hreleased⟩ | hrefused
    · rw [hreleased]
      exact of_ledger (hledger.release hr)
    · simp only [hrefused]
      exact hcons

theorem Consistent.call (c : VmCall) : (h.call c).Consistent := by
  cases c with
  | setVirtualMemoryCapacity tb =>
    simp only [VmHistory.call, VirtualMemoryManager.setVirtualMemoryCapacity]
    cases hon : h.manager.initialized with
    | true => exact hcons
    | false => exact .of_off (capacity_sized tb) rfl (hcons.off hon)
  | setGlobalStartAddress tb =>
    simp only [VmHistory.call, VirtualMemoryManager.setGlobalStartAddress]
    by_cases htb : tb ≤ kMaxUbMemStartAddrTB
    · simp only [htb, if_true]
      cases hon : h.manager.initialized with
      | true => exact hcons
      | false => exact .of_off hcons.sized rfl (hcons.off hon)
    · simp only [htb, if_false]
      exact hcons
  | initializeManager rt => exact (hcons.initializeManager rt).1
  | finalize =>
    simp only [VmHistory.call, VirtualMemoryManager.finalize]
    cases hon : h.manager.initialized with
    | true => exact .of_off hcons.sized rfl rfl
    | false => exact .of_off hcons.sized hon rfl
  | reserveMemory rt size => exact hcons.reserveMemory rt size
  | releaseMemory memAddr => exact hcons.releaseMemory memAddr

theorem Consistent.run (calls : List VmCall) : (h.run calls).Consistent := by
  induction calls generalizing h with
  | nil => exact hcons
  | cons c calls ih => exact ih (hcons.call c)

end

end VmHistory

/-! ## First fit -/

/-- The calls of the owners of reservations. -/
def VmCall.isReservation : VmCall → Bool
  | .reserveMemory _ _ => true
  | .releaseMemory _ => true
  | _ => false

namespace VmHistory

variable {h : VmHistory}

theorem initialized_reserveMemory {m : VirtualMemoryManager} (hon : m.initialized = true)
    (rt : ReserveRuntime) {size : ℕ} (hsize : 0 < size) :
    m.reserveMemory rt size = m.reserveBlocks size := by
  simp [reserveMemory, initializeManager, hsize, hon]

section

variable (hcons : h.Consistent) (hon : h.manager.initialized = true)

include hcons hon

theorem Consistent.initialized_call {c : VmCall} (hc : c.isReservation = true) :
    (h.call c).manager.initialized = true := by
  cases c with
  | reserveMemory rt size =>
    simp only [VmHistory.call]
    by_cases hsize : 0 < size
    · rw [initialized_reserveMemory hon rt hsize]
      cases hcons.reserveBlocks hon hsize with
      | inl hserved =>
        obtain ⟨start, heq, hledger⟩ := hserved
        rw [heq]
        exact hledger.initialized
      | inr hrefused => rwa [hrefused]
    · simp only [VirtualMemoryManager.reserveMemory, hsize, if_false]
      exact hon
  | releaseMemory memAddr =>
    simp only [VmHistory.call]
    rcases (hcons.on hon).releaseMemory_cases memAddr with ⟨r, -, -, hreleased⟩ | hrefused
    · rwa [hreleased]
    · rwa [hrefused]
  | _ => exact absurd hc (by simp [VmCall.isReservation])

theorem Consistent.initialized_run {calls : List VmCall}
    (hcalls : ∀ c ∈ calls, c.isReservation = true) : (h.run calls).manager.initialized = true := by
  induction calls generalizing h with
  | nil => exact hon
  | cons c calls ih =>
    have hfirst := hcalls c List.mem_cons_self
    exact ih (hcons.call c) (hcons.initialized_call hon hfirst)
      (fun c' hc' => hcalls c' (List.mem_cons_of_mem c hc'))

end

/-- The manager is an exact first-fit allocator for its live reservations. -/
structure ExactFirstFit (h : VmHistory) : Prop where
  bitmap_length : h.manager.bitmap.length = h.manager.numBlocks
  bitmap_iff : ∀ i,
    h.manager.bitmap[i]? = some true ↔
      ∃! r, r ∈ h.live ∧ r.Covers h.manager.globalVirtualMemoryAddr i
  live_disjoint :
    h.live.Pairwise fun a b => ∀ i, a.Covers h.manager.globalVirtualMemoryAddr i →
        ¬ b.Covers h.manager.globalVirtualMemoryAddr i
  reserve_succeeds_iff : ∀ rt size, 0 < size →
    ((∃ addr, (h.manager.reserveMemory rt size).1 = .ok addr) ↔
      ∃ start, FreeRun h.manager.bitmap start (size ⌈/⌉ kBlockSize))
  reserve_lowest : ∀ rt size addr,
    (h.manager.reserveMemory rt size).1 = .ok addr → ∃ start,
        addr = h.manager.globalVirtualMemoryAddr + start * kBlockSize ∧
        FreeRun h.manager.bitmap start (size ⌈/⌉ kBlockSize) ∧
        ∀ s, FreeRun h.manager.bitmap s (size ⌈/⌉ kBlockSize) → start ≤ s
  reserve_failure : ∀ rt size status,
    (h.manager.reserveMemory rt size).1 = .error status →
      (h.manager.reserveMemory rt size).2 = h.manager
  release_live : ∀ r ∈ h.live,
    (h.manager.releaseMemory r.addr).1 = .success ∧
      ∀ i, (h.manager.releaseMemory r.addr).2.bitmap[i]? =
        if r.Covers h.manager.globalVirtualMemoryAddr i then some false
        else h.manager.bitmap[i]?

end VmHistory

namespace VmLedger

variable {m : VirtualMemoryManager} {live : List VmReservation} {r : VmReservation}

section

variable (hledger : VmLedger m live)

include hledger

theorem covers_iff (hr : r ∈ live) (i : ℕ) : r.Covers m.globalVirtualMemoryAddr i ↔
      InRun (r.run m.globalVirtualMemoryAddr) i :=
  VmReservation.covers_iff_inRun (hledger.aligned r hr) i

theorem live_disjoint : live.Pairwise fun a b => ∀ i,
      a.Covers m.globalVirtualMemoryAddr i → ¬ b.Covers m.globalVirtualMemoryAddr i := by
  have hapart := List.pairwise_map.mp hledger.ledger.disjoint
  apply hapart.imp_of_mem
  intro a b ha hb hab i hai hbi
  exact hab i ((hledger.covers_iff ha i).mp hai) ((hledger.covers_iff hb i).mp hbi)

theorem eq_of_covers {a b : VmReservation} {i : ℕ} (ha : a ∈ live) (hb : b ∈ live)
    (hai : a.Covers m.globalVirtualMemoryAddr i) (hbi : b.Covers m.globalVirtualMemoryAddr i) :
    a = b := by
  by_contra hne
  have hsymm : Std.Symm fun a b : VmReservation => ∀ i, a.Covers m.globalVirtualMemoryAddr i →
        ¬ b.Covers m.globalVirtualMemoryAddr i :=
    ⟨fun _ _ hab i hb ha => hab i ha hb⟩
  exact hledger.live_disjoint.forall ha hb hne i hai hbi

theorem bitmap_iff (i : ℕ) : m.bitmap[i]? = some true ↔
      ∃! r, r ∈ live ∧ r.Covers m.globalVirtualMemoryAddr i := by
  rw [hledger.ledger.bits_iff]
  constructor
  · intro hrun
    obtain ⟨run, hrun, hi⟩ := hrun
    obtain ⟨r, hr, rfl⟩ := List.mem_map.mp hrun
    have hcovers := (hledger.covers_iff hr i).mpr hi
    apply ExistsUnique.intro r ⟨hr, hcovers⟩
    intro r' hr'
    exact hledger.eq_of_covers hr'.1 hr hr'.2 hcovers
  · intro hunique
    obtain ⟨r, ⟨hr, hcovers⟩, -⟩ := hunique
    exact ⟨_, mem_run hr, (hledger.covers_iff hr i).mp hcovers⟩

theorem released_bitmap (hr : r ∈ live) (i : ℕ) : (released m r).bitmap[i]? =
      if r.Covers m.globalVirtualMemoryAddr i then some false else m.bitmap[i]? := by
  have hinside := hledger.ledger.inside _ (mem_run hr)
  exact (getElem?_fill false hinside.2 i).trans
    (if_congr (hledger.covers_iff hr i).symm rfl rfl)

end

theorem exactFirstFit {h : VmHistory} (hledger : VmLedger h.manager h.live) : h.ExactFirstFit := by
  have hreserve := VmHistory.initialized_reserveMemory hledger.initialized
  constructor
  · exact hledger.length
  · exact hledger.bitmap_iff
  · exact hledger.live_disjoint
  · intro rt size hsize
    rw [hreserve rt hsize, ← blocksNeeded_eq_ceilDiv]
    cases hledger.reserveBlocks_cases hsize with
    | inl hserved =>
      obtain ⟨start, hfree, -, heq⟩ := hserved
      rw [heq]
      exact ⟨fun _ => ⟨start, hfree⟩, fun _ => ⟨_, rfl⟩⟩
    | inr hrefused =>
      rw [hrefused.2]
      constructor
      · intro hok
        obtain ⟨addr, hok⟩ := hok
        cases hok
      · intro hrun
        obtain ⟨start, hrun⟩ := hrun
        exact absurd hrun (hrefused.1 start)
  · intro rt size addr hok
    by_cases hsize : 0 < size
    · rw [hreserve rt hsize] at hok
      rw [← blocksNeeded_eq_ceilDiv]
      cases hledger.reserveBlocks_cases hsize with
      | inl hserved =>
        obtain ⟨start, hfree, hlowest, heq⟩ := hserved
        rw [heq] at hok
        simp only [Except.ok.injEq] at hok
        exact ⟨start, hok.symm, hfree, hlowest⟩
      | inr hrefused => simp [hrefused.2] at hok
    · simp [reserveMemory, hsize] at hok
  · intro rt size status herror
    by_cases hsize : 0 < size
    · rw [hreserve rt hsize] at herror ⊢
      cases hledger.reserveBlocks_cases hsize with
      | inl hserved =>
        obtain ⟨start, -, -, heq⟩ := hserved
        simp [heq] at herror
      | inr hrefused => rw [hrefused.2]
    · simp [reserveMemory, hsize]
  · intro r hr
    rw [hledger.releaseMemory_live hr]
    exact ⟨rfl, hledger.released_bitmap hr⟩

end VmLedger

/-- After any calls from construction on and a successful `Initialize`, every
sequence of reservations and releases leaves an exact first-fit allocator. -/
theorem virtualMemoryManager_exact_first_fit (before : List VmCall) (rt : ReserveRuntime)
    (hinit : ((VmHistory.run {} before).manager.initializeManager rt).1 = .success)
    (calls : List VmCall) (hcalls : ∀ c ∈ calls, c.isReservation = true) :
    (((VmHistory.run {} before).call (.initializeManager rt)).run calls).ExactFirstFit := by
  have hbefore := VmHistory.Consistent.start.run before
  have hstep := hbefore.initializeManager rt
  have hstart := hstep.1
  have hon := hstep.2.mp hinit
  have hfinal := hstart.run calls
  exact (hfinal.on (hstart.initialized_run hon hcalls)).exactFirstFit

def plainRuntime : ReserveRuntime where
  socType := .ok .gen1
  reserveNoUc := none
  reserve size :=
    if kGlobalVirtualMemoryStartAddr + size < 2 ^ 64 then
      .ok kGlobalVirtualMemoryStartAddr
    else .error .failed
  noUc_in_address_space := fun _ hf => absurd hf (by simp)
  reserve_in_address_space := by
    intro size base hok
    split_ifs at hok with hfits
    simp only [Except.ok.injEq] at hok
    rwa [← hok]
  socType_error := fun _ h => absurd h (by simp)
  reserve_error := by
    intro size status herror
    split_ifs at herror
    simp only [Except.error.injEq] at herror
    rw [← herror]
    decide

theorem virtualMemoryManager_exact_first_fit_one_tb :
    (((VmHistory.run {} [.setVirtualMemoryCapacity 1]).call (.initializeManager plainRuntime)).run
        [.reserveMemory plainRuntime 3, .reserveMemory plainRuntime 5,
          .releaseMemory kGlobalVirtualMemoryStartAddr]).ExactFirstFit :=
  virtualMemoryManager_exact_first_fit [.setVirtualMemoryCapacity 1]
    plainRuntime (by rfl) _ (by simp [VmCall.isReservation])

end Hixl
