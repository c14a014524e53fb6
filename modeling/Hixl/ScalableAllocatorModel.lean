import Hixl.MachineWords
import Mathlib.Data.Finset.Max

/-!
# The scalable memory allocator

The allocator serves blocks of pages from one memory range, cut into spans that
buddy links chain in the order of their addresses.  Free spans are in layers by
their page count, the ids of the layers in use in an ordered set.  A request
takes a span of the fitting layer, or cuts the end off a span of the next larger
one; freeing a block merges its span with the free neighbours.

Functions have no value where the program would dereference a null or a deleted
span, or remove a span from a list in which it is not.
-/

namespace Hixl

abbrev SpanPtr := ℕ

structure ScalableConfig where
  pageIdemNum : ℕ
  pageMemSizeTotalThreshold : ℕ
  spanLayerLiftMax : ℕ
  deriving DecidableEq, Repr

def pageLenGetLenFromSize (size pageIdemNum : ℕ) : ℕ := size / 2 ^ pageIdemNum % 2 ^ 32

def pageLenGetMemSize (pageLen pageIdemNum : ℕ) : ℕ := pageLen * 2 ^ pageIdemNum % 2 ^ 64

def pageLenForwardAddr (pageLen pageIdemNum addr : ℕ) : ℕ :=
  addr + pageLenGetMemSize pageLen pageIdemNum

def spanLayerIdInvalid : ℕ := wordMax 32

def memSizeGetAlignedOf (size alignSize : ℕ) : ℕ :=
  wrapSub 64 (wrapAdd 64 size alignSize) 1 / alignSize * alignSize

namespace ScalableConfig

def pageMemSize (config : ScalableConfig) : ℕ := pageLenGetMemSize 1 config.pageIdemNum

def spanLayerCapacity (config : ScalableConfig) : ℕ :=
  wrapAdd 32 1 (pageLenGetLenFromSize config.pageMemSizeTotalThreshold config.pageIdemNum)

def getAllocSize (config : ScalableConfig) (size : ℕ) : ℕ :=
  if size < config.pageMemSize then config.pageMemSize
  else memSizeGetAlignedOf size config.pageMemSize

end ScalableConfig

structure PageSpan where
  addr : ℕ
  count : ℕ
  pageLen : ℕ
  prevBuddy : Option SpanPtr
  nextBuddy : Option SpanPtr
  realSize : ℕ
  deriving DecidableEq, Repr

/-- The living span objects, the deleted ones that are used again first, and
the first object that never was used. -/
structure SpanHeap where
  spans : SpanPtr → Option PageSpan
  elems : List SpanPtr
  nextObject : SpanPtr

namespace SpanHeap

def alloc (spanOk : Bool) (heap : SpanHeap) : Option SpanPtr × SpanHeap :=
  if !spanOk then (none, heap)
  else
    match heap.elems with
    | elem :: rest => (some elem, { heap with elems := rest })
    | [] => (some heap.nextObject,
        { heap with nextObject := heap.nextObject + 1 })

def put (heap : SpanHeap) (ptr : SpanPtr) (span : PageSpan) : SpanHeap :=
  { heap with spans := Function.update heap.spans ptr (some span) }

def free (heap : SpanHeap) (ptr : SpanPtr) : SpanHeap :=
  { heap with
    spans := Function.update heap.spans ptr none
    elems := ptr :: heap.elems }

def modify (ptr : SpanPtr) (change : PageSpan → PageSpan) (heap : SpanHeap) : Option SpanHeap :=
  (heap.spans ptr).map fun span => heap.put ptr (change span)

def setPrev (ptr : Option SpanPtr) (prev : SpanPtr) (heap : SpanHeap) : Option SpanHeap :=
  match ptr with
  | none => some heap
  | some ptr => heap.modify ptr fun span => { span with prevBuddy := some prev }

def setBuddy (ptr buddy : SpanPtr) (heap : SpanHeap) : Option SpanHeap := do
  let span ← heap.spans ptr
  let heap ← heap.setPrev span.nextBuddy buddy
  let heap ← heap.modify ptr fun span => { span with nextBuddy := some buddy }
  heap.modify buddy fun new => { new with nextBuddy := span.nextBuddy, prevBuddy := some ptr }

def mergeBuddy (ptr buddy : SpanPtr) (heap : SpanHeap) : Option SpanHeap := do
  let span ← heap.spans ptr
  let merged ← heap.spans buddy
  if span.nextBuddy = some buddy ∧ merged.prevBuddy = some ptr then
    let heap ← heap.setPrev merged.nextBuddy ptr
    heap.modify ptr fun span =>
      { span with
        nextBuddy := merged.nextBuddy
        pageLen := wrapAdd 32 span.pageLen merged.pageLen }
  else some heap

end SpanHeap

/-- The layers that were created, with their free spans, and the ids in the
lookup set. -/
structure LayerTable where
  layers : ℕ → Option (List SpanPtr)
  ids : Finset ℕ

namespace LayerTable

def setLayer (table : LayerTable) (layerId : ℕ) (spans : List SpanPtr) :
    ℕ → Option (List SpanPtr) :=
  Function.update table.layers layerId (some spans)

def onLayerRemoveSpan (ids : Finset ℕ) (layerId : ℕ) (spans : List SpanPtr) : Finset ℕ :=
  if spans.length = 0 then ids.erase layerId else ids

def onLayerAddSpan (ids : Finset ℕ) (layerId : ℕ) (spans : List SpanPtr) : Finset ℕ :=
  if spans.length = 1 then insert layerId ids else ids

def popSpan (layerId : ℕ) (table : LayerTable) : Option (Option SpanPtr × LayerTable) :=
  match table.layers layerId with
  | none => none
  | some [] => some (none,
      { table with ids := onLayerRemoveSpan table.ids layerId [] })
  | some (ptr :: rest) => some (some ptr,
      { layers := table.setLayer layerId rest
        ids := onLayerRemoveSpan table.ids layerId rest })

def pushSpan (layerId : ℕ) (ptr : SpanPtr) (table : LayerTable) : Option LayerTable :=
  match table.layers layerId with
  | none => none
  | some spans => some
      { layers := table.setLayer layerId (ptr :: spans)
        ids := onLayerAddSpan table.ids layerId (ptr :: spans) }

def removeSpan (layerId : ℕ) (ptr : SpanPtr) (table : LayerTable) : Option LayerTable :=
  match table.layers layerId with
  | none => none
  | some spans =>
    if ptr ∈ spans then some
      { layers := table.setLayer layerId (spans.erase ptr)
        ids := onLayerRemoveSpan table.ids layerId (spans.erase ptr) }
    else none

def fetchSpanLayer (capacity : ℕ) (layerOk : Bool) (layerId : ℕ)
    (table : LayerTable) : Bool × LayerTable :=
  if layerId ≥ capacity then (false, table)
  else if (table.layers layerId).isSome then (true, table)
  else if !layerOk then (false, table)
  else (true, { table with layers := table.setLayer layerId [] })

def lowerBound (ids : Finset ℕ) (pageLen : ℕ) : Option ℕ :=
  if hfit : (ids.filter (pageLen ≤ ·)).Nonempty then
    some ((ids.filter (pageLen ≤ ·)).min' hfit)
  else none

def findFitLayerId (pageLen maxLiftLevel : ℕ) (table : LayerTable) : ℕ :=
  if maxLiftLevel = 0 then spanLayerIdInvalid
  else (lowerBound table.ids pageLen).getD spanLayerIdInvalid

end LayerTable

structure AllocStats where
  allocSuccCount : ℕ
  freeSuccCount : ℕ
  theorySize : ℕ
  theoryMinSize : ℕ
  realTheorySize : ℕ
  realTheoryMinSize : ℕ
  deriving DecidableEq, Repr

def AllocStats.onAlloc (stats : AllocStats) (size realSize : ℕ) : AllocStats :=
  let theorySize := wrapAdd 64 stats.theorySize size
  let realTheorySize := wrapAdd 64 stats.realTheorySize realSize
  { stats with
    theorySize := theorySize
    theoryMinSize := max stats.theoryMinSize theorySize
    realTheorySize := realTheorySize
    realTheoryMinSize := max stats.realTheoryMinSize realTheorySize }

def AllocStats.onFree (stats : AllocStats) (size realSize : ℕ) : AllocStats :=
  if stats.theorySize ≥ realSize then
    { stats with
      realTheorySize := wrapSub 64 stats.realTheorySize realSize
      theorySize := wrapSub 64 stats.theorySize size }
  else stats

structure ScalableAllocator where
  config : ScalableConfig
  baseAddr : ℕ
  heap : SpanHeap
  table : LayerTable
  occupied : List SpanPtr
  stats : AllocStats

/-- Whether a span object and a layer object can be allocated. -/
structure ObjectAnswers where
  spanOk : Bool
  layerOk : Bool

namespace ScalableAllocator

def fresh (config : ScalableConfig) (preparedSpans : ℕ) : ScalableAllocator where
  config := config
  baseAddr := 0
  heap := ⟨fun _ => none, List.range preparedSpans, preparedSpans⟩
  table := ⟨fun _ => none, ∅⟩
  occupied := []
  stats := ⟨0, 0, 0, 0, 0, 0⟩

def getSize (allocator : ScalableAllocator) (span : PageSpan) : ℕ :=
  pageLenGetMemSize span.pageLen allocator.config.pageIdemNum

def blockAlloc (spanOk : Bool) (addr : ℕ) (allocator : ScalableAllocator) :
    Option SpanPtr × ScalableAllocator :=
  match allocator.heap.alloc spanOk with
  | (none, heap) => (none, { allocator with heap := heap })
  | (some ptr, heap) => (some ptr, { allocator with
      heap := heap.put ptr
        { addr := addr, count := 1, pageLen := 0, prevBuddy := none
          nextBuddy := none, realSize := 0 } })

def popSpanFromLayer (layerId : ℕ) (allocator : ScalableAllocator) :
    Option (Option SpanPtr × ScalableAllocator) := do
  let (ptr, table) ← allocator.table.popSpan layerId
  return (ptr, { allocator with table := table })

def pushSpanToLayer (layerId : ℕ) (ptr : SpanPtr)
    (allocator : ScalableAllocator) : Option ScalableAllocator := do
  let table ← allocator.table.pushSpan layerId ptr
  return { allocator with table := table }

def removeFromLayer (layerId : ℕ) (ptr : SpanPtr)
    (allocator : ScalableAllocator) : Option ScalableAllocator := do
  let table ← allocator.table.removeSpan layerId ptr
  return { allocator with table := table }

def fetchSpanLayer (layerOk : Bool) (layerId : ℕ)
    (allocator : ScalableAllocator) : Bool × ScalableAllocator :=
  let fetched := allocator.table.fetchSpanLayer
    allocator.config.spanLayerCapacity layerOk layerId
  (fetched.1, { allocator with table := fetched.2 })

def occupySpan (ptr : SpanPtr) (pageLen : ℕ) (allocator : ScalableAllocator) :
    Option ScalableAllocator := do
  let heap ← allocator.heap.modify ptr fun span =>
    { span with
      pageLen := pageLen
      count := if span.count = 0 then 1 else span.count }
  return { allocator with
    heap := heap
    occupied := ptr :: allocator.occupied
    stats := { allocator.stats with
      allocSuccCount := allocator.stats.allocSuccCount + 1 } }

def fetchLayerSpan (layerId : ℕ) (allocator : ScalableAllocator) :
    Option (Option SpanPtr × ScalableAllocator) :=
  if (allocator.table.layers layerId).isNone then some (none, allocator)
  else do
    let (span, allocator) ← allocator.popSpanFromLayer layerId
    match span with
    | none => return (none, allocator)
    | some ptr =>
      let allocator ← allocator.occupySpan ptr layerId
      return (some ptr, allocator)

/-- Cut the requested pages off the end of a span that was taken from a larger
layer.  The front stays free; without a new span object everything is undone. -/
def splitSpan (answers : ObjectAnswers) (fixLayerId fitLayerId : ℕ)
    (ptr : SpanPtr) (allocator : ScalableAllocator) :
    Option (Option SpanPtr × ScalableAllocator) := do
  let span ← allocator.heap.spans ptr
  let leftPageLen := wrapSub 32 fitLayerId fixLayerId
  let buddyAddr := pageLenForwardAddr leftPageLen
    allocator.config.pageIdemNum span.addr
  match allocator.blockAlloc answers.spanOk buddyAddr with
  | (none, allocator) =>
    let allocator ← allocator.pushSpanToLayer fitLayerId ptr
    return (none, allocator)
  | (some buddy, allocator) =>
    let (found, allocator) := allocator.fetchSpanLayer answers.layerOk leftPageLen
    if !found then
      let allocator ← { allocator with
        heap := allocator.heap.free buddy }.pushSpanToLayer fitLayerId ptr
      return (none, allocator)
    else
      let heap ← allocator.heap.setBuddy ptr buddy
      let heap ← heap.modify ptr fun span => { span with pageLen := leftPageLen }
      let allocator ← { allocator with heap := heap }.pushSpanToLayer leftPageLen ptr
      let allocator ← allocator.occupySpan buddy fixLayerId
      return (some buddy, allocator)

def fetchSplitedSpan (answers : ObjectAnswers) (fixLayerId fitLayerId : ℕ)
    (allocator : ScalableAllocator) : Option (Option SpanPtr × ScalableAllocator) :=
  if fitLayerId ≤ fixLayerId then some (none, allocator)
  else if (allocator.table.layers fitLayerId).isNone then
    some (none, allocator)
  else do
    let (span, allocator) ← allocator.popSpanFromLayer fitLayerId
    match span with
    | none => return (none, allocator)
    | some ptr => allocator.splitSpan answers fixLayerId fitLayerId ptr

def fetchSpan (answers : ObjectAnswers) (fixLayerId : ℕ) (allocator : ScalableAllocator) :
    Option (Option SpanPtr × ScalableAllocator) := do
  let (span, allocator) ← allocator.fetchLayerSpan fixLayerId
  match span with
  | some ptr => return (some ptr, allocator)
  | none =>
    let fitLayerId := allocator.table.findFitLayerId
      (wrapAdd 32 fixLayerId 1) allocator.config.spanLayerLiftMax
    if fitLayerId ≥ allocator.config.spanLayerCapacity then
      return (none, allocator)
    else allocator.fetchSplitedSpan answers fixLayerId fitLayerId

def allocImp (answers : ObjectAnswers) (size : ℕ) (allocator : ScalableAllocator) :
    Option (Option SpanPtr × ScalableAllocator) :=
  let allocSize := allocator.config.getAllocSize size
  let fixLayerId := pageLenGetLenFromSize allocSize
    allocator.config.pageIdemNum
  if fixLayerId ≥ allocator.config.spanLayerCapacity then
    some (none, allocator)
  else do
    let (span, allocator) ← allocator.fetchSpan answers fixLayerId
    match span with
    | none => return (none, allocator)
    | some ptr =>
      let heap ← allocator.heap.modify ptr fun span => { span with realSize := size }
      return (some ptr, { allocator with heap := heap })

def alloc (answers : ObjectAnswers) (size : ℕ) (allocator : ScalableAllocator) :
    Option (Option SpanPtr × ScalableAllocator) :=
  if size > allocator.config.pageMemSizeTotalThreshold then
    some (none, allocator)
  else do
    let (result, allocator) ← allocator.allocImp answers size
    match result with
    | none => return (none, allocator)
    | some ptr =>
      let span ← allocator.heap.spans ptr
      return (some ptr, { allocator with
        stats := allocator.stats.onAlloc (allocator.getSize span)
          span.realSize })

def pickOutBuddy (buddy : Option SpanPtr) (allocator : ScalableAllocator) :
    Option (Option SpanPtr × ScalableAllocator) :=
  match buddy with
  | none => some (none, allocator)
  | some ptr => do
      let span ← allocator.heap.spans ptr
      if span.count ≠ 0 then return (none, allocator)
      else if span.pageLen ≥ allocator.config.spanLayerCapacity ∨
          (allocator.table.layers span.pageLen).isNone then
        return (none, allocator)
      else
        let allocator ← allocator.removeFromLayer span.pageLen ptr
        return (some ptr, allocator)

def tryMergeNext (ptr : SpanPtr) (allocator : ScalableAllocator) :
    Option (SpanPtr × ScalableAllocator) := do
  let span ← allocator.heap.spans ptr
  let (picked, allocator) ← allocator.pickOutBuddy span.nextBuddy
  match picked with
  | none => return (ptr, allocator)
  | some next =>
    let heap ← allocator.heap.mergeBuddy ptr next
    return (ptr, { allocator with heap := heap.free next })

def tryMergePrev (ptr : SpanPtr) (allocator : ScalableAllocator) :
    Option (SpanPtr × ScalableAllocator) := do
  let span ← allocator.heap.spans ptr
  let (picked, allocator) ← allocator.pickOutBuddy span.prevBuddy
  match picked with
  | none => return (ptr, allocator)
  | some prev =>
    let heap ← allocator.heap.mergeBuddy prev ptr
    return (prev, { allocator with heap := heap.free ptr })

def freeSpan (layerOk : Bool) (ptr : SpanPtr) (allocator : ScalableAllocator) :
    Option ScalableAllocator := do
  let span ← allocator.heap.spans ptr
  let (found, allocator) := allocator.fetchSpanLayer layerOk span.pageLen
  if !found then return allocator
  else
    let allocator ← allocator.pushSpanToLayer span.pageLen ptr
    return { allocator with stats := { allocator.stats with
      freeSuccCount := allocator.stats.freeSuccCount + 1 } }

def free (layerOk : Bool) (ptr : SpanPtr) (allocator : ScalableAllocator) :
    Option ScalableAllocator := do
  let span ← allocator.heap.spans ptr
  if ptr ∈ allocator.occupied then
    let allocator := { allocator with
      stats := allocator.stats.onFree (allocator.getSize span) span.realSize
      occupied := allocator.occupied.erase ptr }
    let (ptr, allocator) ← allocator.tryMergeNext ptr
    let (ptr, allocator) ← allocator.tryMergePrev ptr
    allocator.freeSpan layerOk ptr
  else none

/-- A block is freed through its use count: the last user reaches the
allocator. -/
def freeBlock (layerOk : Bool) (ptr : SpanPtr)
    (allocator : ScalableAllocator) : Option ScalableAllocator := do
  let span ← allocator.heap.spans ptr
  if span.count = 0 then return allocator
  else
    let heap ← allocator.heap.modify ptr fun span => { span with count := span.count - 1 }
    let allocator := { allocator with heap := heap }
    if span.count - 1 = 0 then allocator.free layerOk ptr
    else return allocator

def initFixSizedAllocator (answers : ObjectAnswers) (baseAddr size : ℕ)
    (allocator : ScalableAllocator) : Option (Status × ScalableAllocator) :=
  match allocator.blockAlloc answers.spanOk baseAddr with
  | (none, allocator) => some (.failed, allocator)
  | (some ptr, allocator) => do
      let allocator := { allocator with baseAddr := baseAddr }
      let heap ← allocator.heap.modify ptr fun span => { span with count := 0 }
      let fitLayerId := pageLenGetLenFromSize size allocator.config.pageIdemNum
      let (found, allocator) := { allocator with heap := heap }.fetchSpanLayer
        answers.layerOk fitLayerId
      if !found then
        return (.failed, { allocator with heap := allocator.heap.free ptr })
      else
        let allocator ← allocator.pushSpanToLayer fitLayerId ptr
        return (.success, allocator)

end ScalableAllocator

end Hixl
