import Hixl.BlockBitmaps
import Hixl.MachineWords
import Mathlib.Data.List.AList

/-!
# The process-wide virtual memory manager

`VirtualMemoryManager` reserves one range of virtual addresses from the runtime
and hands it out in blocks of one gigabyte.  A bitmap records the taken blocks,
`allocations` the number of blocks of every reservation.  Every method runs
under one mutex.  The answers of the runtime are a parameter; a granted range
lies inside the address space.
-/

namespace Hixl

def kBlockSize : ℕ := 1024 * 1024 * 1024

def kDefaultNumBlocks : ℕ := 32 * 1024

def kDefaultGlobalVirtualMemorySize : ℕ := kBlockSize * kDefaultNumBlocks

def kGlobalVirtualMemoryStartAddr : ℕ := kBlockSize * 1024 * 40

def kBytesPerTB : ℕ := 1024 * 1024 * 1024 * 1024

def kMaxUbMemStartAddrTB : ℕ := 1024

inductive SocType where
  | gen1
  | gen2
  | default
  deriving DecidableEq, Repr

inductive NoUcAnswer where
  | granted (base : ℕ)
  | featureNotSupported
  | error
  deriving DecidableEq, Repr

/-- What the runtime answers while a range is reserved.  `reserveNoUc` is
absent when the runtime does not export the function; its arguments are the
size and the requested start.  An error carries the return code that the
caller converts it to, which is never `SUCCESS`. -/
structure ReserveRuntime where
  socType : Except Status SocType
  reserveNoUc : Option (ℕ → ℕ → NoUcAnswer)
  reserve : ℕ → Except Status ℕ
  noUc_in_address_space :
    ∀ f ∈ reserveNoUc, ∀ size start base, f size start = .granted base → base + size < 2 ^ 64
  reserve_in_address_space :
    ∀ size base, reserve size = .ok base → base + size < 2 ^ 64
  socType_error : ∀ status, socType = .error status → status ≠ .success
  reserve_error :
    ∀ size status, reserve size = .error status → status ≠ .success

structure VirtualMemoryManager where
  bitmap : List Bool := []
  allocations : AList (fun _ : ℕ => ℕ) := ∅
  initialized : Bool := false
  globalVirtualMemoryAddr : ℕ := 0
  vmSize : ℕ := 0
  numBlocks : ℕ := 0
  globalStartVa : Option ℕ := none

namespace VirtualMemoryManager

def setVirtualMemoryCapacity (capacityInTb : ℕ) (m : VirtualMemoryManager) :
    Status × VirtualMemoryManager :=
  let requested := wrapMul 64 capacityInTb kBytesPerTB
  if m.initialized then
    (if m.vmSize = requested then .success else .paramInvalid, m)
  else
    (.success, { m with vmSize := requested, numBlocks := requested / kBlockSize })

def setGlobalStartAddress (startAddrInTb : ℕ) (m : VirtualMemoryManager) :
    Status × VirtualMemoryManager :=
  if startAddrInTb ≤ kMaxUbMemStartAddrTB then
    let requested := startAddrInTb * kBytesPerTB
    if m.initialized then
      (if m.globalStartVa.getD kGlobalVirtualMemoryStartAddr = requested
        then .success else .paramInvalid, m)
    else (.success, { m with globalStartVa := some requested })
  else (.paramInvalid, m)

def reserveMemAddress (rt : ReserveRuntime) (size : ℕ) (m : VirtualMemoryManager) :
    Except Status ℕ :=
  let startVa := m.globalStartVa.getD kGlobalVirtualMemoryStartAddr
  match rt.socType with
  | .error status => .error status
  | .ok soc =>
    match soc, rt.reserveNoUc with
    | .gen2, some reserveNoUc =>
      match reserveNoUc size startVa with
      | .granted base => .ok base
      | .featureNotSupported => rt.reserve size
      | .error => .error .failed
    | _, _ => rt.reserve size

def withDefaultSize (m : VirtualMemoryManager) : VirtualMemoryManager :=
  if m.vmSize = 0 then
    { m with
      vmSize := kDefaultGlobalVirtualMemorySize
      numBlocks := kDefaultNumBlocks }
  else m

def withRange (base : ℕ) (m : VirtualMemoryManager) : VirtualMemoryManager :=
  { m with
    globalVirtualMemoryAddr := base
    bitmap := List.replicate m.numBlocks false
    allocations := ∅
    initialized := true }

def initProcess (rt : ReserveRuntime) (m : VirtualMemoryManager) : Status × VirtualMemoryManager :=
  let m := m.withDefaultSize
  match m.reserveMemAddress rt m.vmSize with
  | .error status => (status, m)
  | .ok base => (.success, m.withRange base)

def initializeManager (rt : ReserveRuntime) (m : VirtualMemoryManager) :
    Status × VirtualMemoryManager :=
  if m.initialized then (.success, m) else m.initProcess rt

def finalize (m : VirtualMemoryManager) : VirtualMemoryManager :=
  if m.initialized then
    { m with
      bitmap := []
      allocations := ∅
      initialized := false
      globalVirtualMemoryAddr := 0 }
  else m

def blocksNeeded (size : ℕ) : ℕ := size / kBlockSize + if size % kBlockSize ≠ 0 then 1 else 0

/-- The part of `ReserveMemory` that runs on an initialized manager. -/
def reserveBlocks (size : ℕ) (m : VirtualMemoryManager) : Except Status ℕ × VirtualMemoryManager :=
  let needed := blocksNeeded size
  if needed ≤ m.numBlocks then
    let found := BlockBitmaps.scan m.bitmap needed m.numBlocks 0 0 0
    if needed ≤ found.2 then
      let memAddr := wrapAdd 64 m.globalVirtualMemoryAddr (wrapMul 64 found.1 kBlockSize)
      (.ok memAddr,
        { m with
          bitmap := BlockBitmaps.fill true found.1 needed m.bitmap
          allocations := m.allocations.insert memAddr needed })
    else (.error .resourceExhausted, m)
  else (.error .resourceExhausted, m)

def reserveMemory (rt : ReserveRuntime) (size : ℕ) (m : VirtualMemoryManager) :
    Except Status ℕ × VirtualMemoryManager :=
  if 0 < size then
    match m.initializeManager rt with
    | (.success, m) => m.reserveBlocks size
    | (status, m) => (.error status, m)
  else (.error .paramInvalid, m)

def releaseMemory (memAddr : ℕ) (m : VirtualMemoryManager) : Status × VirtualMemoryManager :=
  let base := m.globalVirtualMemoryAddr
  if m.initialized then
    if base ≤ memAddr ∧ memAddr < wrapAdd 64 base m.vmSize then
      if (memAddr - base) % kBlockSize = 0 then
        match m.allocations.lookup memAddr with
        | none => (.paramInvalid, m)
        | some count =>
          (.success,
            { m with
              bitmap := BlockBitmaps.fill false
                ((memAddr - base) / kBlockSize) count m.bitmap
              allocations := m.allocations.erase memAddr })
      else (.paramInvalid, m)
    else (.paramInvalid, m)
  else (.paramInvalid, m)

end VirtualMemoryManager

end Hixl
