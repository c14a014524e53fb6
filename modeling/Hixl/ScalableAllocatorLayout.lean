import Hixl.SpanHeapLayout
import Hixl.SpanLayerIndex

/-!
# The layout of an allocator

An allocator has a layout when its span heap holds it, its layers index the
free chunks and its list of occupied spans names the used ones.  Taking a span
from a layer, cutting one and freeing a block are moves between layouts, and
none of them reaches a deleted span.
-/

namespace Hixl

open ChunkLayouts

namespace ScalableAllocator

/-- The range has as many pages, which can be counted in the words of the
program. -/
structure HasLayout (pages : ℕ) (allocator : ScalableAllocator)
    (chunks : List (Chunk SpanPtr)) : Prop where
  heap : SpanHeap.HoldsLayout (2 ^ allocator.config.pageIdemNum)
    allocator.baseAddr allocator.heap chunks
  index : allocator.table.Indexes allocator.config.spanLayerCapacity
    (freeChunks chunks)
  occupied_iff : ∀ ptr, ptr ∈ allocator.occupied ↔ UsedName chunks ptr
  occupied_nodup : allocator.occupied.Nodup
  coalesced : Coalesced chunks
  page_count : pageCount chunks = pages
  nonempty : chunks ≠ []
  lt_capacity : pages < allocator.config.spanLayerCapacity
  fits : pages * 2 ^ allocator.config.pageIdemNum < 2 ^ 64

structure SameRange (allocator allocator' : ScalableAllocator) : Prop where
  config : allocator'.config = allocator.config
  baseAddr : allocator'.baseAddr = allocator.baseAddr

theorem SameRange.trans {first second third : ScalableAllocator} (hfirst : SameRange first second)
    (hsecond : SameRange second third) : SameRange first third :=
  ⟨hsecond.config.trans hfirst.config, hsecond.baseAddr.trans hfirst.baseAddr⟩

theorem spanLayerCapacity_lt (config : ScalableConfig) : config.spanLayerCapacity < 2 ^ 32 :=
  Nat.mod_lt _ (by decide)

variable {pages : ℕ} {allocator : ScalableAllocator}
  {xs ys chunks : List (Chunk SpanPtr)} {c d : Chunk SpanPtr}

theorem eq_of_ptr_eq (hnodup : (chunks.map Chunk.ptr).Nodup) (hc : c ∈ chunks)
    (hd : d ∈ chunks) (hptr : d.ptr = c.ptr) : d = c :=
  List.inj_on_of_nodup_map hnodup hd hc hptr

theorem HasLayout.names_nodup (hlayout : HasLayout pages allocator chunks) :
    (chunks.map Chunk.ptr).Nodup :=
  hlayout.heap.nodup

section

variable (hnodup : ((xs ++ c :: ys).map Chunk.ptr).Nodup)

include hnodup

theorem mem_freeChunks_without (e : Chunk SpanPtr) :
    e ∈ freeChunks (xs ++ ys) ↔ e ∈ freeChunks (xs ++ c :: ys) ∧ e ≠ c := by
  have hnot : c ∉ xs ++ ys := by
    intro hmem
    rw [List.map_append, List.map_cons] at hnodup
    have hname := List.mem_map_of_mem (f := Chunk.ptr) hmem
    rw [List.map_append] at hname
    exact (List.nodup_middle.mp hnodup).notMem hname
  simp only [mem_freeChunks, List.mem_append, List.mem_cons] at hnot ⊢
  constructor
  · rintro ⟨hmem, hfree⟩
    refine ⟨⟨by tauto, hfree⟩, ?_⟩
    rintro rfl
    exact hnot hmem
  · rintro ⟨⟨hmem, hfree⟩, hne⟩
    exact ⟨by tauto, hfree⟩

end

theorem mem_freeChunks_with (hfree : c.used = false) (e : Chunk SpanPtr) :
    e ∈ freeChunks (xs ++ c :: ys) ↔ e = c ∨ e ∈ freeChunks (xs ++ ys) := by
  simp only [freeChunks_append, freeChunks_cons_free hfree, List.mem_append, List.mem_cons]
  tauto

theorem ptr_ne_of_freeChunks (hnodup : ((xs ++ c :: ys).map Chunk.ptr).Nodup) {e : Chunk SpanPtr}
    (he : e ∈ freeChunks (xs ++ ys)) : e.ptr ≠ c.ptr := by
  rw [mem_freeChunks_without hnodup] at he
  intro hptr
  exact he.2 (eq_of_ptr_eq hnodup (by simp) (mem_freeChunks.mp he.1).1 hptr)

theorem HasLayout.free_of_bucket (hlayout : HasLayout pages allocator chunks) {layerId : ℕ}
    {ptr : SpanPtr} (hmem : ptr ∈ allocator.table.bucket layerId) :
    ∃ xs c ys, chunks = xs ++ c :: ys ∧ c.ptr = ptr ∧ c.pages = layerId ∧ c.used = false := by
  rcases (hlayout.index.mem_iff layerId ptr).mp hmem with
    ⟨c, hc, hptr, hpages⟩
  rw [mem_freeChunks] at hc
  rcases List.append_of_mem hc.1 with ⟨xs, ys, rfl⟩
  exact ⟨xs, c, ys, rfl, hptr, hpages, hc.2⟩

def tableWithout (table : LayerTable) (c : Chunk SpanPtr) : LayerTable where
  layers := table.setLayer c.pages ((table.bucket c.pages).erase c.ptr)
  ids := LayerTable.onLayerRemoveSpan table.ids c.pages
    ((table.bucket c.pages).erase c.ptr)

theorem indexes_without {capacity : ℕ} {table : LayerTable}
    (hindex : table.Indexes capacity (freeChunks (xs ++ c :: ys)))
    (hnodup : ((xs ++ c :: ys).map Chunk.ptr).Nodup) (hfree : c.used = false) :
    (tableWithout table c).Indexes capacity (freeChunks (xs ++ ys)) := by
  apply hindex.take
  · rw [mem_freeChunks]
    exact ⟨by simp, hfree⟩
  · intro e he hptr
    exact eq_of_ptr_eq hnodup (by simp) (mem_freeChunks.mp he).1 hptr
  · exact mem_freeChunks_without hnodup

theorem HasLayout.index_without (hlayout : HasLayout pages allocator (xs ++ c :: ys))
    (hfree : c.used = false) : (tableWithout allocator.table c).Indexes
      allocator.config.spanLayerCapacity (freeChunks (xs ++ ys)) :=
  indexes_without hlayout.index hlayout.names_nodup hfree

theorem fetchLayerSpan_empty (hlayout : HasLayout pages allocator chunks) {layerId : ℕ}
    (hempty : allocator.table.bucket layerId = []) :
    allocator.fetchLayerSpan layerId = some (none, allocator) := by
  unfold fetchLayerSpan
  cases hlayer : allocator.table.layers layerId with
  | none => rfl
  | some spans =>
    rw [LayerTable.bucket_of_layers hlayer] at hempty
    rw [hempty] at hlayer
    rw [popSpanFromLayer, LayerTable.popSpan_eq_of_empty hlayout.index hlayer]
    rfl

section

variable (hlayout : HasLayout pages allocator (xs ++ c :: ys)) (hfree : c.used = false)

include hlayout hfree

theorem HasLayout.occupy {span : PageSpan}
    (hspan : allocator.heap.spans c.ptr = some span) (stats : AllocStats) : HasLayout pages
      { allocator with
        heap := allocator.heap.put c.ptr
          { span with pageLen := c.pages, count := 1 }
        table := tableWithout allocator.table c
        occupied := c.ptr :: allocator.occupied
        stats := stats }
      (xs ++ ⟨c.ptr, c.pages, true⟩ :: ys) := by
  have hnodup := hlayout.names_nodup
  refine { hlayout with
    heap := ?_
    index := ?_
    occupied_iff := ?_
    occupied_nodup := ?_
    coalesced := hlayout.coalesced.use rfl
    page_count := ?_
    nonempty := by simp }
  · apply hlayout.heap.put hspan
    on_goal 6 => exact ⟨fun _ => ⟨rfl, rfl⟩, by simp⟩
    all_goals rfl
  · rw [freeChunks_append, freeChunks_cons_used rfl, ← freeChunks_append]
    exact hlayout.index_without hfree
  · intro ptr
    rw [List.mem_cons, hlayout.occupied_iff]
    simp only [usedName_append, usedName_cons, hfree, eq_comm (a := ptr)]
    simp
    tauto
  · refine List.nodup_cons.mpr ⟨?_, hlayout.occupied_nodup⟩
    rw [hlayout.occupied_iff]
    rintro ⟨e, he, hptr, hused⟩
    simp [eq_of_ptr_eq hnodup (by simp) he hptr, hfree] at hused
  · rw [← hlayout.page_count]
    simp

theorem fetchLayerSpan_taken {rest : List SpanPtr}
    (hbucket : allocator.table.bucket c.pages = c.ptr :: rest) :
    ∃ allocator', allocator.fetchLayerSpan c.pages = some (some c.ptr, allocator') ∧
      HasLayout pages allocator' (xs ++ ⟨c.ptr, c.pages, true⟩ :: ys) ∧
      allocator'.occupied = c.ptr :: allocator.occupied ∧ SameRange allocator allocator' := by
  have hmem : c.ptr ∈ allocator.table.bucket c.pages := by simp [hbucket]
  rcases hlayout.heap.spans c (by simp) with ⟨span, hspan, hmatches⟩
  have hcount := (hmatches.free hfree).1
  refine ⟨_, ?_, hlayout.occupy hfree hspan { allocator.stats with
    allocSuccCount := allocator.stats.allocSuccCount + 1 }, rfl, rfl, rfl⟩
  unfold fetchLayerSpan
  rw [LayerTable.layers_of_mem hmem, popSpanFromLayer, LayerTable.popSpan_eq hbucket]
  simp only [Option.isNone_some, Bool.false_eq_true, if_false,
    Option.bind_eq_bind, Option.bind_some, Option.pure_def]
  rw [occupySpan, SpanHeap.modify_eq hspan, hcount]
  rfl

end

/-! ## Cutting a span of a larger layer -/

theorem fetchSplitedSpan_eq {answers : ObjectAnswers} {fixLayerId : ℕ} {rest : List SpanPtr}
    (hbucket : allocator.table.bucket c.pages = c.ptr :: rest) (hlt : fixLayerId < c.pages) :
    allocator.fetchSplitedSpan answers fixLayerId c.pages =
      { allocator with
        table := tableWithout allocator.table c }.splitSpan answers fixLayerId
          c.pages c.ptr := by
  have hmem : c.ptr ∈ allocator.table.bucket c.pages := by simp [hbucket]
  unfold fetchSplitedSpan
  rw [if_neg (Nat.not_le.mpr hlt), LayerTable.layers_of_mem hmem,
    popSpanFromLayer, LayerTable.popSpan_eq hbucket]
  rfl

section

variable (hlayout : HasLayout pages allocator (xs ++ c :: ys)) (hfree : c.used = false)

include hlayout hfree

theorem HasLayout.pushBack :
    ∃ table', (tableWithout allocator.table c).pushSpan c.pages c.ptr = some table' ∧
      table'.Indexes allocator.config.spanLayerCapacity (freeChunks (xs ++ c :: ys)) := by
  have hnodup := hlayout.names_nodup
  have hindex := hlayout.index_without hfree
  rcases @LayerTable.Indexes.pushSpan _ _ _ (freeChunks (xs ++ c :: ys))
    hindex c (by simp [tableWithout, LayerTable.setLayer])
    (fun _ he => ptr_ne_of_freeChunks hnodup he)
    (mem_freeChunks_with hfree) with ⟨table', hpush, hindex', _⟩
  exact ⟨table', hpush, hindex'⟩

theorem fetchSplitedSpan_refused {rest : List SpanPtr}
    (hbucket : allocator.table.bucket c.pages = c.ptr :: rest)
    {fixLayerId : ℕ} (hlt : fixLayerId < c.pages) (layerOk : Bool) :
    ∃ allocator', allocator.fetchSplitedSpan ⟨false, layerOk⟩ fixLayerId
        c.pages = some (none, allocator') ∧ HasLayout pages allocator' (xs ++ c :: ys) ∧
      allocator'.occupied = allocator.occupied ∧ SameRange allocator allocator' := by
  rcases hlayout.heap.spans c (by simp) with ⟨span, hspan, _⟩
  rcases hlayout.pushBack hfree with ⟨table', hpush, hindex⟩
  refine ⟨{ allocator with table := table' }, ?_, ?_, rfl, rfl, rfl⟩
  · rw [fetchSplitedSpan_eq hbucket hlt, splitSpan]
    simp only [hspan, Option.bind_eq_bind, Option.bind_some]
    simp only [blockAlloc, SpanHeap.alloc, Bool.not_false, if_true]
    rw [pushSpanToLayer]
    simp only [hpush, Option.bind_eq_bind, Option.bind_some]
    rfl
  · exact { hlayout with index := hindex }

end

section

variable (hlayout : HasLayout pages allocator chunks)

include hlayout

theorem HasLayout.pages_le (hmem : c ∈ chunks) : c.pages ≤ pages := by
  rw [← hlayout.page_count]
  exact pages_le_pageCount hmem

end

section

variable (hlayout : HasLayout pages allocator (xs ++ c :: ys)) (hfree : c.used = false)

include hlayout hfree

theorem HasLayout.split {fixLayerId : ℕ} (hlt : fixLayerId < c.pages)
    {buddy : SpanPtr} (hfresh : allocator.heap.spans buddy = none)
    {heap : SpanHeap} {table : LayerTable} (stats : AllocStats)
    (hheap : SpanHeap.HoldsLayout (2 ^ allocator.config.pageIdemNum) allocator.baseAddr heap
      (xs ++ ⟨c.ptr, c.pages - fixLayerId, false⟩ :: ⟨buddy, fixLayerId, true⟩ :: ys))
    (hindex : table.Indexes allocator.config.spanLayerCapacity
      (freeChunks (xs ++ ⟨c.ptr, c.pages - fixLayerId, false⟩ ::
        ⟨buddy, fixLayerId, true⟩ :: ys))) : HasLayout pages
      { allocator with
        heap := heap
        table := table
        occupied := buddy :: allocator.occupied
        stats := stats }
      (xs ++ ⟨c.ptr, c.pages - fixLayerId, false⟩ :: ⟨buddy, fixLayerId, true⟩ :: ys) := by
  refine { hlayout with
    heap := hheap
    index := hindex
    occupied_iff := ?_
    occupied_nodup := ?_
    coalesced := hlayout.coalesced.split hfree.symm rfl
    page_count := ?_
    nonempty := by simp }
  · intro ptr
    rw [List.mem_cons, hlayout.occupied_iff]
    simp only [usedName_append, usedName_cons, hfree, eq_comm (a := ptr)]
    simp
    tauto
  · refine List.nodup_cons.mpr ⟨?_, hlayout.occupied_nodup⟩
    rw [hlayout.occupied_iff]
    intro hused
    exact hlayout.heap.alive hused.mem_names hfresh
  · rw [← hlayout.page_count]
    simp only [pageCount_append, pageCount_cons]
    omega

theorem HasLayout.pushFront {left right : Chunk SpanPtr} (hptr : left.ptr = c.ptr)
    (hleft : left.used = false) (hright : right.used = true) (hle : left.pages ≤ c.pages) :
    ∃ table₁ table₂, (tableWithout allocator.table c).fetchSpanLayer
        allocator.config.spanLayerCapacity true left.pages = (true, table₁) ∧
      table₁.pushSpan left.pages left.ptr = some table₂ ∧
      table₂.Indexes allocator.config.spanLayerCapacity
        (freeChunks (xs ++ left :: right :: ys)) := by
  have hnodup := hlayout.names_nodup
  have hlt : left.pages < allocator.config.spanLayerCapacity :=
    Nat.lt_of_le_of_lt (Nat.le_trans hle (hlayout.pages_le (by simp))) hlayout.lt_capacity
  rcases (hlayout.index_without hfree).fetchSpanLayer hlt with
    ⟨table₁, hfetch, hindex₁, hlayer, _, _⟩
  rcases @LayerTable.Indexes.pushSpan _ _ _
    (freeChunks (xs ++ left :: right :: ys)) hindex₁ left hlayer (by
      intro e he
      rw [hptr]
      exact ptr_ne_of_freeChunks hnodup he) (by
      intro e
      simp only [freeChunks_append, freeChunks_cons_used hright,
        freeChunks_cons_free hleft, List.mem_append, List.mem_cons]
      tauto) with ⟨table₂, hpush, hindex₂, _⟩
  exact ⟨table₁, table₂, hfetch, hpush, hindex₂⟩

theorem fetchSplitedSpan_cut {rest : List SpanPtr}
    (hbucket : allocator.table.bucket c.pages = c.ptr :: rest)
    {fixLayerId : ℕ} (hlt : fixLayerId < c.pages) :
    ∃ buddy allocator', allocator.fetchSplitedSpan ⟨true, true⟩ fixLayerId
        c.pages = some (some buddy, allocator') ∧
      HasLayout pages allocator' (xs ++ ⟨c.ptr, c.pages - fixLayerId, false⟩ ::
          ⟨buddy, fixLayerId, true⟩ :: ys) ∧ allocator'.occupied = buddy :: allocator.occupied ∧
      SameRange allocator allocator' ∧ allocator.heap.spans buddy = none := by
  rcases hlayout.heap.spans c (by simp) with ⟨span, hspan, hmatches⟩
  have hcount := (hmatches.free hfree).1
  have hle := hlayout.pages_le (c := c) (by simp)
  have hword := spanLayerCapacity_lt allocator.config
  have hcapacity := hlayout.lt_capacity
  have hleft : wrapSub 32 c.pages fixLayerId = c.pages - fixLayerId := by
    rw [wrapSub, Nat.mod_eq_of_lt (by omega : fixLayerId < 2 ^ 32)]
    omega
  have hsize : pageLenGetMemSize (c.pages - fixLayerId) allocator.config.pageIdemNum =
        (c.pages - fixLayerId) * 2 ^ allocator.config.pageIdemNum :=
    Nat.mod_eq_of_lt (Nat.lt_of_le_of_lt (Nat.mul_le_mul_right _ (by omega)) hlayout.fits)
  rcases hlayout.heap.objects.alloc
    { addr := span.addr + (c.pages - fixLayerId) *
        2 ^ allocator.config.pageIdemNum
      count := 1, pageLen := 0, prevBuddy := none, nextBuddy := none
      realSize := 0 } with ⟨buddy, heap₀, halloc, hfresh, hsame, hobjects⟩
  rcases SpanHeap.setBuddy_cut hlayout.heap hspan hfresh hsame hobjects with
    ⟨heap₁, hset, hfront₁, htail₁, hcut⟩
  rcases @HasLayout.pushFront pages allocator xs ys c hlayout hfree
    ⟨c.ptr, c.pages - fixLayerId, false⟩ ⟨buddy, fixLayerId, true⟩
    rfl rfl rfl (Nat.sub_le _ _) with ⟨table₁, table₂, hfetch, hpush, hindex⟩
  have hne : buddy ≠ c.ptr := SpanHeap.ne_of_dead hspan hfresh
  have hheap := hlayout.heap.cut hspan hfresh
    (hcut { span with
        nextBuddy := some buddy, pageLen := c.pages - fixLayerId }
      { addr := span.addr + (c.pages - fixLayerId) *
          2 ^ allocator.config.pageIdemNum
        count := 1, pageLen := fixLayerId, prevBuddy := some c.ptr
        nextBuddy := span.nextBuddy, realSize := 0 } rfl rfl rfl rfl rfl)
    (show (⟨c.ptr, c.pages - fixLayerId, false⟩ : Chunk SpanPtr).ptr = c.ptr from rfl)
    (show (⟨buddy, fixLayerId, true⟩ : Chunk SpanPtr).ptr = buddy from rfl)
    (by simp only; omega) rfl
    ⟨fun hused => absurd hused (by simp), fun _ => ⟨hcount, fun _ => rfl⟩⟩
    ⟨fun _ => ⟨rfl, rfl⟩, fun hunused => absurd hunused (by simp)⟩
  refine ⟨buddy, _, ?_, hlayout.split hfree hlt hfresh { allocator.stats with
    allocSuccCount := allocator.stats.allocSuccCount + 1 } hheap hindex, rfl,
    ⟨rfl, rfl⟩, hfresh⟩
  rw [fetchSplitedSpan_eq hbucket hlt, splitSpan]
  simp only [hspan, Option.bind_eq_bind, Option.bind_some, hleft,
    pageLenForwardAddr, hsize, blockAlloc, halloc, fetchSpanLayer, hfetch,
    hset, Bool.not_true, Bool.false_eq_true, if_false]
  rw [SpanHeap.modify_eq hfront₁]
  simp only [Option.bind_some, pushSpanToLayer, hpush, Option.bind_eq_bind,
    Option.pure_def, occupySpan]
  rw [SpanHeap.modify_eq (by rw [SpanHeap.put_of_ne hne]; exact htail₁)]
  rfl

end

end ScalableAllocator

end Hixl
