import Hixl.HeldResources
import Hixl.UbMemRemoteModel
import Hixl.VirtualMemoryFirstFit

/-!
# Imports of remote memory

`RemoteMemory` imports the share handles of a peer.  One `Import` reserves one
block of virtual addresses for the span of its handles and maps each at its
offset; `imported_blocks_` counts the ranges mapped in a block, which goes back
with the last of them.  A failed `Import` clears the whole object.

The answers of the runtime are a parameter.  Calls of the rest of the process
to the virtual memory manager come between the calls.  Every resource taken or
given back leaves an event in a log; errors of `aclrtUnmapMem` and
`aclrtFreePhysical` are only reported, so their events stand for the calls.
-/

namespace Hixl

open HeldResources

/-- The bytes of an `aclrtMemFabricHandle`, as one number. -/
abbrev FabricHandle := ℕ

inductive MemType where
  | device
  | host
  deriving DecidableEq, Repr

structure ShareHandleInfo where
  vaAddr : ℕ
  len : ℕ
  shareHandle : FabricHandle
  isRetained : Bool := false
  memType : MemType := .device
  deriving DecidableEq, Repr

def isSameExportedRange (lhs rhs : ShareHandleInfo) : Bool :=
  lhs.vaAddr = rhs.vaAddr && lhs.len = rhs.len && lhs.shareHandle = rhs.shareHandle

/-- The loop of `ComputeRemoteSpan` from the bounds found so far.  The program
compares `vaAddr` with the largest address minus `len`. -/
def remoteSpanLoop : List ShareHandleInfo → ℕ → ℕ → Except Status (ℕ × ℕ)
  | [], start, stop => .ok (start, stop)
  | handle :: handles, start, stop =>
    if 0 < handle.len then
      if handle.vaAddr + handle.len ≤ wordMax 64 then
        remoteSpanLoop handles (min start handle.vaAddr) (max stop (handle.vaAddr + handle.len))
      else .error .paramInvalid
    else .error .paramInvalid

/-- The start and the length of the peer's addresses that the handles cover. -/
def computeRemoteSpan (handles : List ShareHandleInfo) : Except Status (ℕ × ℕ) :=
  if handles = [] then .error .paramInvalid
  else
    match remoteSpanLoop handles (wordMax 64) 0 with
    | .error status => .error status
    | .ok (start, stop) =>
      if start < stop then .ok (start, stop - start)
      else .error .paramInvalid

/-- An entry of `va_mappings_`.  An identity-bound range has no physical handle
and no block. -/
structure MappedRange where
  info : ShareHandleInfo
  localVa : ℕ
  imported : Bool
  paHandle : ℕ := 0
  importBase : ℕ := 0
  deriving DecidableEq, Repr

/-- The range as the translation index reads it. -/
def MappedRange.entry (range : MappedRange) : IndexEntry where
  peerAddr := range.info.vaAddr
  info := ⟨range.localVa, range.info.len, range.imported⟩

/-- The range when both of its ends are addresses. -/
def MappedRange.remoteRange? (range : MappedRange) : Option RemoteRange :=
  if hfits : range.info.vaAddr + range.info.len ≤ wordMax 64 ∧
      range.localVa + range.info.len ≤ wordMax 64 then
    some
      { vaAddr := range.info.vaAddr
        len := range.info.len
        localVa := range.localVa
        imported := range.imported
        peer_fits := hfits.1
        local_fits := hfits.2 }
  else none

structure ImportedBlock where
  len : ℕ
  liveRanges : ℕ
  deriving DecidableEq, Repr

structure RemoteMemory where
  vaMappings : AList (fun _ : ℕ => MappedRange) := ∅
  importedBlocks : AList (fun _ : ℕ => ImportedBlock) := ∅
  translationIndex : Option UbMemRemoteIndex := none

namespace RemoteMemory

def ranges (m : RemoteMemory) : List MappedRange := m.vaMappings.entries.map Sigma.snd

def rebuildTranslationIndexLocked (m : RemoteMemory) : RemoteMemory :=
  { m with
    translationIndex := some (buildIndex (m.ranges.map MappedRange.entry)) }

end RemoteMemory

inductive RemoteResource where
  | mapping (localVa base : ℕ)
  | physical (paHandle : ℕ)
  | block (base : ℕ)
  deriving DecidableEq, Repr

/-- The answers of the runtime to one call.  Imports and mappings are numbered
by the position of their handle in the call. -/
structure RemoteAnswers where
  reserve : ReserveRuntime
  importHandle : ℕ → Except AclError ℕ
  mapMem : ℕ → Option AclError
  alreadyMapped : AclError
  unmapMem : ℕ → Bool

/-- The object, the virtual memory manager of the process, and the addresses
at which the runtime keeps a mapping of the object. -/
structure RemoteWorld where
  memory : RemoteMemory := {}
  vm : VmHistory := {}
  mapped : Finset ℕ := ∅
  log : List (Event RemoteResource) := []

namespace RemoteWorld

def record (event : Event RemoteResource) (w : RemoteWorld) : RemoteWorld :=
  { w with log := event :: w.log }

def handleImported (paHandle : ℕ) (w : RemoteWorld) : RemoteWorld :=
  if paHandle ≠ 0 then w.record (.opened (.physical paHandle)) else w

def freePhysical (paHandle : ℕ) (w : RemoteWorld) : RemoteWorld :=
  if paHandle ≠ 0 then w.record (.closed (.physical paHandle)) else w

/-- `aclrtMapMem` fails at an address that is mapped. -/
def mapMem (answers : RemoteAnswers) (position localVa : ℕ) (w : RemoteWorld) : Option AclError :=
  if localVa ∈ w.mapped then some answers.alreadyMapped
  else answers.mapMem position

def unmapMem (answers : RemoteAnswers) (localVa base : ℕ) (w : RemoteWorld) : RemoteWorld :=
  { w with
    mapped :=
      if answers.unmapMem localVa then w.mapped.erase localVa else w.mapped
    log := .closed (.mapping localVa base) :: w.log }

/-- `VirtualMemoryManager::ReleaseMemory`, whose result is not looked at. -/
def releaseMemory (base : ℕ) (w : RemoteWorld) : RemoteWorld :=
  { w with
    vm := w.vm.call (.releaseMemory base)
    log :=
      if (w.vm.manager.releaseMemory base).1 = .success then
        .closed (.block base) :: w.log
      else w.log }

def setBlocks (blocks : AList fun _ : ℕ => ImportedBlock) (w : RemoteWorld) : RemoteWorld :=
  { w with memory := { w.memory with importedBlocks := blocks } }

def setMappings (mappings : AList fun _ : ℕ => MappedRange) (w : RemoteWorld) : RemoteWorld :=
  { w with memory := { w.memory with vaMappings := mappings } }

def rebuild (w : RemoteWorld) : RemoteWorld :=
  { w with memory := w.memory.rebuildTranslationIndexLocked }

def dropLiveRange (base : ℕ) (w : RemoteWorld) : RemoteWorld :=
  match w.memory.importedBlocks.lookup base with
  | none => w
  | some block =>
    let liveRanges := block.liveRanges - 1
    if liveRanges = 0 then
      (w.releaseMemory base).setBlocks (w.memory.importedBlocks.erase base)
    else
      w.setBlocks (w.memory.importedBlocks.insert base { block with liveRanges })

def releaseRangeLocked (answers : RemoteAnswers) (range : MappedRange) (w : RemoteWorld) :
    RemoteWorld :=
  if range.imported then
    ((w.unmapMem answers range.localVa range.importBase).freePhysical
      range.paHandle).dropLiveRange range.importBase
  else w

/-- The walk of `ReleaseByHandleLocked` over the entries of the table, with the
number of ranges released. -/
def releaseEntries (answers : RemoteAnswers) (handle : ShareHandleInfo) :
    List (Σ _ : ℕ, MappedRange) → RemoteWorld → ℕ × RemoteWorld
  | [], w => (0, w)
  | ⟨key, range⟩ :: entries, w =>
    if isSameExportedRange range.info handle then
      let w := w.releaseRangeLocked answers range
      let rest := releaseEntries answers handle entries
        (w.setMappings (w.memory.vaMappings.erase key))
      (rest.1 + 1, rest.2)
    else releaseEntries answers handle entries w

def releaseByHandleLocked (answers : RemoteAnswers) (handle : ShareHandleInfo) (w : RemoteWorld) :
    ℕ × RemoteWorld :=
  w.releaseEntries answers handle w.memory.vaMappings.entries

/-- Handles that are not mapped are skipped, and only counted for a warning. -/
def unimport (answers : RemoteAnswers) (handles : List ShareHandleInfo)
    (w : RemoteWorld) : ℕ × RemoteWorld :=
  (Status.success.code, (handles.foldl
      (fun w handle => (w.releaseByHandleLocked answers handle).2) w).rebuild)

def clearLocked (answers : RemoteAnswers) (w : RemoteWorld) : RemoteWorld :=
  let w := { w with memory := { w.memory with translationIndex := none } }
  let w := w.memory.ranges.foldl
    (fun w range => w.releaseRangeLocked answers range) w
  let w := w.setMappings ∅
  let w := w.memory.importedBlocks.keys.foldl
    (fun w base => w.releaseMemory base) w
  w.setBlocks ∅

def addRange (handle : ShareHandleInfo) (localVa paHandle base : ℕ)
    (w : RemoteWorld) : RemoteWorld :=
  let range : MappedRange :=
    { info := handle, localVa, imported := true, paHandle, importBase := base }
  { w.setMappings (w.memory.vaMappings.insert localVa range) with
    mapped := insert localVa w.mapped
    log := .opened (.mapping localVa base) :: w.log }

/-- The loop of `Import` from the handle at `position` on. -/
def importLoop (answers : RemoteAnswers) (peerBase localBase : ℕ) :
    List ShareHandleInfo → ℕ → RemoteWorld → Option AclError × RemoteWorld
  | [], _, w => (none, w)
  | handle :: handles, position, w =>
    let localVa := wrapAdd 64 localBase (wrapSub 64 handle.vaAddr peerBase)
    match answers.importHandle position with
    | .error error => (some error, w)
    | .ok paHandle =>
      let w := w.handleImported paHandle
      match w.mapMem answers position localVa with
      | some error => (some error, w.freePhysical paHandle)
      | none =>
        importLoop answers peerBase localBase handles (position + 1)
          (w.addRange handle localVa paHandle localBase)

/-- The manager handed out the block at `base` for the whole batch. -/
def addBlock (base span count : ℕ) (w : RemoteWorld) : RemoteWorld :=
  (w.setBlocks (w.memory.importedBlocks.insert base ⟨span, count⟩)).record (.opened (.block base))

def importHandles (answers : RemoteAnswers) (handles : List ShareHandleInfo)
    (w : RemoteWorld) : ℕ × RemoteWorld :=
  if handles = [] then (Status.success.code, w.rebuild)
  else
    match computeRemoteSpan handles with
    | .error status => (status.code, w.clearLocked answers)
    | .ok (peerBase, span) =>
      let reserved :=
        { w with vm := w.vm.call (.reserveMemory answers.reserve span) }
      match (w.vm.manager.reserveMemory answers.reserve span).1 with
      | .error status => (status.code, reserved.clearLocked answers)
      | .ok localBase =>
        match importLoop answers peerBase localBase handles 0
            (reserved.addBlock localBase span handles.length) with
        | (none, w) => (Status.success.code, w.rebuild)
        | (some error, w) => (error.status, w.clearLocked answers)

def bindLocalAddrs (handles : List ShareHandleInfo) (w : RemoteWorld) : ℕ × RemoteWorld :=
  let bind := fun (w : RemoteWorld) (info : ShareHandleInfo) =>
    w.setMappings (w.memory.vaMappings.insert info.vaAddr
      { info, localVa := info.vaAddr, imported := false })
  (Status.success.code, (handles.foldl bind w).rebuild)

/-- A call that the rest of the process makes to the manager: nobody gives back
a block of this object, and the manager is finalized only when the process
ends. -/
def isForeignCall (w : RemoteWorld) : VmCall → Bool
  | .finalize => false
  | .releaseMemory memAddr => memAddr ∉ w.memory.importedBlocks
  | _ => true

/-- The handles name memory that this process registered, which is not among
the addresses mapped for memory of a peer. -/
def isOwnMemory (w : RemoteWorld) (handles : List ShareHandleInfo) : Bool :=
  handles.all fun info => w.memory.ranges.all fun range =>
    !range.imported || range.localVa ≠ info.vaAddr

end RemoteWorld

inductive RemoteCall where
  | importHandles (answers : RemoteAnswers) (handles : List ShareHandleInfo)
  | unimport (answers : RemoteAnswers) (handles : List ShareHandleInfo)
  | finalize (answers : RemoteAnswers)
  | bindLocalAddrs (handles : List ShareHandleInfo)
  | elsewhere (call : VmCall)

namespace RemoteWorld

def call (w : RemoteWorld) : RemoteCall → RemoteWorld
  | .importHandles answers handles => (w.importHandles answers handles).2
  | .unimport answers handles => (w.unimport answers handles).2
  | .finalize answers => w.clearLocked answers
  | .bindLocalAddrs handles => (w.bindLocalAddrs handles).2
  | .elsewhere call => { w with vm := w.vm.call call }

def run (w : RemoteWorld) (calls : List RemoteCall) : RemoteWorld := calls.foldl call w

/-- What the callers see to: only own memory is bound, and the rest of the
process leaves the blocks of the object alone. -/
def Permits (w : RemoteWorld) : RemoteCall → Prop
  | .bindLocalAddrs handles => w.isOwnMemory handles = true
  | .elsewhere call => w.isForeignCall call = true
  | _ => True

def PermitsAll : RemoteWorld → List RemoteCall → Prop
  | _, [] => True
  | w, next :: calls => w.Permits next ∧ PermitsAll (w.call next) calls

end RemoteWorld

end Hixl
