import Hixl.MachineWords
import Hixl.KeyedLists

/-!
# The memory store of a client

`HixlMemStore` records the memory regions that the two sides of a client have
registered.  It answers whether a transfer may touch a byte range, and rewrites
host addresses to the device addresses of the regions.  A null pointer is the
address zero.  An iterator of a region map is the pair of the regions before it
and the regions from it on.
-/

namespace Hixl

structure MemoryRegion where
  addr : ℕ
  size : ℕ
  isHostMem : Bool := false
  registerDevAddr : ℕ := 0
  deriving DecidableEq, Repr

namespace MemoryRegion

def regionEnd (region : MemoryRegion) : ℕ := wrapAdd 64 region.addr region.size

/-- What `recordMemory` checks before it stores a region. -/
structure Recorded (region : MemoryRegion) : Prop where
  addr_ne_zero : region.addr ≠ 0
  size_ne_zero : region.size ≠ 0
  end_fits : region.addr + region.size ≤ wordMax 64
  devEnd_fits : region.registerDevAddr ≠ 0 →
    region.registerDevAddr + region.size ≤ wordMax 64

theorem Recorded.regionEnd_eq {region : MemoryRegion} (hrecorded : region.Recorded) :
    region.regionEnd = region.addr + region.size := by
  have hfits := hrecorded.end_fits
  rw [wordMax_64] at hfits
  exact wrapAdd_eq_add (by omega)

end MemoryRegion

def isAddrInRegion (region : MemoryRegion) (addr : ℕ) : Bool :=
  if addr < region.addr then false
  else addr < region.regionEnd

def checkRegionsContiguous (prev curr : MemoryRegion) : Bool :=
  if prev.regionEnd ≠ curr.addr then false
  else if prev.isHostMem ≠ curr.isHostMem then false
  else
    let prevHasDevAddr : Bool := prev.registerDevAddr ≠ 0
    let currHasDevAddr : Bool := curr.registerDevAddr ≠ 0
    if prevHasDevAddr ≠ currHasDevAddr then false
    else if prevHasDevAddr then
      wrapAdd 64 prev.registerDevAddr prev.size = curr.registerDevAddr
    else true

structure RegionMap where
  regions : List MemoryRegion
  sorted : KeyedLists.Sorted MemoryRegion.addr regions
  recorded : ∀ region ∈ regions, region.Recorded

namespace RegionMap

def empty : RegionMap where
  regions := []
  sorted := List.Pairwise.nil
  recorded := by simp

def find (map : RegionMap) (addr : ℕ) : Option MemoryRegion :=
  KeyedLists.find MemoryRegion.addr addr map.regions

def insert (map : RegionMap) (region : MemoryRegion)
    (hrecorded : region.Recorded) (hfresh : map.find region.addr = none) : RegionMap where
  regions := KeyedLists.insert MemoryRegion.addr region map.regions
  sorted := map.sorted.insert hfresh
  recorded := by
    intro other hother
    rcases KeyedLists.mem_insert.mp hother with rfl | hother
    · exact hrecorded
    · exact map.recorded other hother

def erase (map : RegionMap) (addr : ℕ) : RegionMap where
  regions := KeyedLists.erase MemoryRegion.addr addr map.regions
  sorted := map.sorted.erase addr
  recorded := fun region hregion => map.recorded region (KeyedLists.mem_erase.mp hregion).1

def below (map : RegionMap) (addr : ℕ) : List MemoryRegion :=
  KeyedLists.below MemoryRegion.addr addr map.regions

def atLeast (map : RegionMap) (addr : ℕ) : List MemoryRegion :=
  KeyedLists.atLeast MemoryRegion.addr addr map.regions

end RegionMap

structure HixlMemStore where
  serverRegions : RegionMap
  clientRegions : RegionMap

namespace HixlMemStore

def regions (store : HixlMemStore) (isServer : Bool) : RegionMap :=
  if isServer then store.serverRegions else store.clientRegions

def setRegions (store : HixlMemStore) (isServer : Bool) (map : RegionMap) : HixlMemStore :=
  if isServer then { store with serverRegions := map }
  else { store with clientRegions := map }

def recordMemory (store : HixlMemStore) (isServer : Bool) (addr size : ℕ)
    (isHostMem : Bool) (registerDevAddr : ℕ) : Status × HixlMemStore :=
  if hnull : ¬(addr ≠ 0 ∧ size ≠ 0) then (.paramInvalid, store)
  else if hend : checkedAdd 64 addr size = none then (.paramInvalid, store)
  else if hdev : registerDevAddr ≠ 0 ∧
      checkedAdd 64 registerDevAddr size = none then (.paramInvalid, store)
  else
    let newRegion : MemoryRegion :=
      { addr, size, isHostMem, registerDevAddr }
    if hfresh : (store.regions isServer).find newRegion.addr = none then
      have hrecorded : newRegion.Recorded := by
        have hnonzero := not_not.mp hnull
        refine ⟨hnonzero.1, hnonzero.2, ?_, ?_⟩
        · exact not_lt.mp fun hover => hend (checkedAdd_eq_none_iff.mpr hover)
        · exact fun hhas => not_lt.mp fun hover => hdev ⟨hhas, checkedAdd_eq_none_iff.mpr hover⟩
      (.success, store.setRegions isServer
        ((store.regions isServer).insert newRegion hrecorded hfresh))
    else if isServer then (.success, store)
    else (.paramInvalid, store)

def unrecordMemory (store : HixlMemStore) (isServer : Bool) (addr : ℕ) : Status × HixlMemStore :=
  if (store.regions isServer).find addr = none then (.paramInvalid, store)
  else
    (.success, store.setRegions isServer ((store.regions isServer).erase addr))

def overlaps (isServer : Bool) (s e : ℕ) (r : MemoryRegion) : Bool :=
  match checkedAdd 64 r.addr r.size with
  | none => true
  | some re =>
    let isOverlap : Bool := s < re ∧ r.addr < e
    let isSame : Bool := s = r.addr ∧ e = re
    isOverlap && (!isSame || !isServer)

/-- True when the range must not be registered.  The null check of the program
returns an error code from a boolean function, which reads as true. -/
def checkMemoryForRegister (store : HixlMemStore) (isServer : Bool)
    (checkAddr checkSize : ℕ) : Bool :=
  let map := store.regions isServer
  if checkAddr = 0 then true
  else if checkSize = 0 then true
  else
    match checkedAdd 64 checkAddr checkSize with
    | none => true
    | some e =>
      if map.regions.isEmpty then false
      else if (map.atLeast checkAddr).head?.any (overlaps isServer checkAddr e) then true
      else if (map.below checkAddr).getLast?.any (overlaps isServer checkAddr e) then true
      else false

def contains (s e : ℕ) (r : MemoryRegion) : Bool := r.addr ≤ s ∧ e ≤ r.regionEnd

/-- Walk backwards from an iterator while the neighbours are contiguous.  The
list holds the regions before the iterator, nearest first. -/
def extendBackward (curr : MemoryRegion) : List MemoryRegion → MemoryRegion
  | [] => curr
  | prev :: rest =>
    if checkRegionsContiguous prev curr then extendBackward prev rest
    else curr

def extendForward (curr : MemoryRegion) : List MemoryRegion → MemoryRegion
  | [] => curr
  | next :: rest =>
    if checkRegionsContiguous curr next then extendForward next rest
    else curr

/-- The access check over merged regions.  Iterators of one map are equal when
the keys they point to are. -/
def checkMergedRegionsAccess (s e : ℕ) (before : List MemoryRegion)
    (it : MemoryRegion) (after : List MemoryRegion) : Bool :=
  let startIt := extendBackward it before.reverse
  let endIt := extendForward it after
  if startIt.addr = endIt.addr then false
  else
    let mergedStart := startIt.addr
    let mergedEnd := endIt.regionEnd
    let merged : MemoryRegion :=
      { addr := startIt.addr, size := wrapSub 64 mergedEnd mergedStart }
    contains s e merged

def checkMemoryForAccess (store : HixlMemStore) (isServer : Bool)
    (checkAddr checkSize : ℕ) : Bool :=
  let map := store.regions isServer
  if checkAddr = 0 then true
  else if checkSize = 0 then false
  else if map.regions.isEmpty then false
  else if wordMax 64 - checkAddr < checkSize then false
  else
    let e := wrapAdd 64 checkAddr checkSize
    let before := map.below checkAddr
    match map.atLeast checkAddr with
    | [] => before.getLast?.any (contains checkAddr e)
    | it :: after =>
      if contains checkAddr e it then true
      else if before.getLast?.any (contains checkAddr e) then true
      else checkMergedRegionsAccess checkAddr e before it after

def validateMemoryAccess (store : HixlMemStore) (serverAddr memSize clientAddr : ℕ) : Status :=
  if ¬(serverAddr ≠ 0 ∧ clientAddr ≠ 0 ∧ memSize ≠ 0) then .paramInvalid
  else if !store.checkMemoryForAccess true serverAddr memSize then
    .paramInvalid
  else if !store.checkMemoryForAccess false clientAddr memSize then
    .paramInvalid
  else .success

end HixlMemStore

structure HixlOneSideOpDesc where
  remoteBuf : ℕ
  localBuf : ℕ
  len : ℕ
  deriving DecidableEq, Repr

namespace HixlMemStore

def batchValidateMemoryAccess (store : HixlMemStore)
    (checkLocalMem : Bool) : List HixlOneSideOpDesc → Status
  | [] => .success
  | desc :: rest =>
    if ¬(desc.remoteBuf ≠ 0 ∧ desc.localBuf ≠ 0 ∧ desc.len ≠ 0) then
      .paramInvalid
    else if !store.checkMemoryForAccess true desc.remoteBuf desc.len then
      .paramInvalid
    else if !checkLocalMem then
      store.batchValidateMemoryAccess checkLocalMem rest
    else if !store.checkMemoryForAccess false desc.localBuf desc.len then
      .paramInvalid
    else store.batchValidateMemoryAccess checkLocalMem rest

def findMemoryRegion (store : HixlMemStore) (isServer : Bool) (addr : ℕ) : Option MemoryRegion :=
  let map := store.regions isServer
  if map.regions.isEmpty then none
  else
    match (map.atLeast addr).head?.filter (isAddrInRegion · addr) with
    | some region => some region
    | none => (map.below addr).getLast?.filter (isAddrInRegion · addr)

/-- The address under which one end of a transfer is reached: the device
address at the same offset for host memory, the address itself otherwise.  The
second component says that the host counter is incremented. -/
def convertEnd (region : MemoryRegion) (buf : ℕ) : Except Status (ℕ × Bool) :=
  if region.isHostMem then
    if region.registerDevAddr = 0 then .error .paramInvalid
    else
      .ok (wrapAdd 64 region.registerDevAddr (wrapSub 64 buf region.addr), true)
  else .ok (buf, false)

structure ConvertState where
  desc : HixlOneSideOpDesc
  localHostCnt : ℕ
  remoteHostCnt : ℕ
  deriving DecidableEq, Repr

/-- Convert one descriptor in place.  A failure on the local side leaves the
remote side already converted. -/
def convertHostAddr (store : HixlMemStore) (state : ConvertState) : Status × ConvertState :=
  match store.findMemoryRegion true state.desc.remoteBuf with
  | none => (.failed, state)
  | some remoteRegion =>
    match convertEnd remoteRegion state.desc.remoteBuf with
    | .error status => (status, state)
    | .ok (remoteBuf, remoteHost) =>
      let state : ConvertState :=
        { state with
          desc := { state.desc with remoteBuf }
          remoteHostCnt := if remoteHost
            then wrapAdd 32 state.remoteHostCnt 1
            else state.remoteHostCnt }
      match store.findMemoryRegion false state.desc.localBuf with
      | none => (.failed, state)
      | some localRegion =>
        match convertEnd localRegion state.desc.localBuf with
        | .error status => (status, state)
        | .ok (localBuf, localHost) =>
          (.success,
            { state with
              desc := { state.desc with localBuf }
              localHostCnt := if localHost
                then wrapAdd 32 state.localHostCnt 1
                else state.localHostCnt })

def batchConvertLoop (store : HixlMemStore) (localHostCnt remoteHostCnt : ℕ) :
    List HixlOneSideOpDesc → Status × List HixlOneSideOpDesc
  | [] => (.success, [])
  | desc :: rest =>
    match store.convertHostAddr { desc, localHostCnt, remoteHostCnt } with
    | (.success, state) =>
      let (status, converted) := store.batchConvertLoop
        state.localHostCnt state.remoteHostCnt rest
      (status, state.desc :: converted)
    | (status, state) => (status, state.desc :: rest)

def batchConvertHostAddr (store : HixlMemStore)
    (descList : List HixlOneSideOpDesc) : Status × List HixlOneSideOpDesc :=
  store.batchConvertLoop 0 0 descList

end HixlMemStore

end Hixl
