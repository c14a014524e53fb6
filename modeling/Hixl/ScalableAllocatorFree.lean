import Hixl.ScalableAllocatorLayout

/-!
# What freeing a block does

A freed span is for a while neither occupied nor in a layer.  It takes in the
free span behind it, is taken in by the free span before it, and what remains
enters the layer of its length.  Then no free neighbour is left.
-/

namespace Hixl

open ChunkLayouts

namespace ScalableAllocator

structure InTransit (pages : ℕ) (allocator : ScalableAllocator)
    (xs : List (Chunk SpanPtr)) (c : Chunk SpanPtr)
    (ys : List (Chunk SpanPtr)) : Prop where
  heap : SpanHeap.HoldsLayout (2 ^ allocator.config.pageIdemNum)
    allocator.baseAddr allocator.heap (xs ++ c :: ys)
  free : c.used = false
  pageLen : ∀ span, allocator.heap.spans c.ptr = some span →
    span.pageLen = c.pages
  index : allocator.table.Indexes allocator.config.spanLayerCapacity
    (freeChunks (xs ++ ys))
  occupied_iff : ∀ ptr, ptr ∈ allocator.occupied ↔ UsedName (xs ++ ys) ptr
  occupied_nodup : allocator.occupied.Nodup
  before : Coalesced xs
  behind : Coalesced ys
  page_count : pageCount (xs ++ c :: ys) = pages
  lt_capacity : pages < allocator.config.spanLayerCapacity
  fits : pages * 2 ^ allocator.config.pageIdemNum < 2 ^ 64

variable {pages : ℕ} {allocator : ScalableAllocator}
  {xs ys : List (Chunk SpanPtr)} {c d : Chunk SpanPtr} {span : PageSpan}

theorem pickOutBuddy_free (hspan : allocator.heap.spans d.ptr = some span) (hcount : span.count = 0)
    (hpageLen : span.pageLen = d.pages) (hlt : d.pages < allocator.config.spanLayerCapacity)
    (hmem : d.ptr ∈ allocator.table.bucket d.pages) :
    allocator.pickOutBuddy (some d.ptr) = some (some d.ptr,
      { allocator with table := tableWithout allocator.table d }) := by
  have hlayer := LayerTable.layers_of_mem hmem
  have hpresent : ¬(span.pageLen ≥ allocator.config.spanLayerCapacity ∨
      (allocator.table.layers span.pageLen).isNone = true) := by
    rw [hpageLen, hlayer]
    simp [hlt]
  simp only [pickOutBuddy, hspan, Option.bind_eq_bind, Option.bind_some]
  rw [if_neg (by simp [hcount]), if_neg hpresent, removeFromLayer, hpageLen,
    LayerTable.removeSpan_eq hmem]
  rfl

theorem mem_with_middle (hmem : d ∈ xs ++ ys) : d ∈ xs ++ c :: ys := by
  rw [List.mem_append] at hmem ⊢
  exact hmem.imp_right (List.mem_cons_of_mem c)

theorem InTransit.neighbour (htransit : InTransit pages allocator xs c ys) (hmem : d ∈ xs ++ ys)
    (hfree : d.used = false) (hspan : allocator.heap.spans d.ptr = some span) :
    span.count = 0 ∧ span.pageLen = d.pages ∧ d.pages < allocator.config.spanLayerCapacity ∧
      d.ptr ∈ allocator.table.bucket d.pages := by
  have hold : d ∈ xs ++ c :: ys := mem_with_middle hmem
  have hmany : ¬(xs ++ c :: ys).length = 1 := by
    have hlength := List.length_pos_of_mem hmem
    simp only [List.length_append, List.length_cons] at hlength ⊢
    omega
  have hdata := (htransit.heap.spanMatches hold hspan).free hfree
  refine ⟨hdata.1, hdata.2 hmany, ?_, ?_⟩
  · have hle := pages_le_pageCount hold
    rw [htransit.page_count] at hle
    exact Nat.lt_of_le_of_lt hle htransit.lt_capacity
  · rw [htransit.index.mem_iff]
    exact ⟨d, mem_freeChunks.mpr ⟨hmem, hfree⟩, rfl, rfl⟩

theorem InTransit.used_neighbour (htransit : InTransit pages allocator xs c ys)
    (hmem : d ∈ xs ++ ys) (hused : d.used = true) :
    allocator.pickOutBuddy (some d.ptr) = some (none, allocator) := by
  have hold : d ∈ xs ++ c :: ys := mem_with_middle hmem
  rcases htransit.heap.spans d hold with ⟨span, hspan, hmatches⟩
  simp [pickOutBuddy, hspan, (hmatches.used hused).1]

/-! ## Joining with a neighbour -/

theorem usedName_without (hfree : d.used = false) (ptr : SpanPtr) :
    UsedName (xs ++ d :: ys) ptr ↔ UsedName (xs ++ ys) ptr := by
  simp [usedName_append, usedName_cons, hfree]

/-- The span in transit and its free neighbour `e`, in either order, become one. -/
theorem InTransit.join {left right : List (Chunk SpanPtr)} {mid e : Chunk SpanPtr}
    {heap' : SpanHeap} {gone joined : PageSpan}
    (htransit : InTransit pages allocator left mid right)
    (hlist : left ++ mid :: right = xs ++ c :: d :: ys) (hrest : left ++ right = xs ++ e :: ys)
    (hfree : e.used = false) (hspan : allocator.heap.spans c.ptr = some span)
    (hgone : allocator.heap.spans d.ptr = some gone)
    (hjoined : SpanHeap.Joined allocator.heap heap' c.ptr d.ptr span gone joined)
    (hcount : joined.count = 0) (hpageLen : joined.pageLen = wrapAdd 32 c.pages d.pages)
    (hbefore : Coalesced xs) (hbehind : Coalesced ys) :
    InTransit pages { allocator with heap := heap', table := tableWithout allocator.table e } xs
      ⟨c.ptr, c.pages + d.pages, false⟩ ys := by
  have hpages := htransit.page_count
  rw [hlist] at hpages
  simp only [pageCount_append, pageCount_cons] at hpages
  have hsum : wrapAdd 32 c.pages d.pages = c.pages + d.pages := by
    have hword := spanLayerCapacity_lt allocator.config
    have hcapacity := htransit.lt_capacity
    exact Nat.mod_eq_of_lt (by omega)
  have hnames : ((left ++ right).map Chunk.ptr).Nodup := htransit.heap.nodup.sublist
    (((List.sublist_cons_self mid right).append_left left).map Chunk.ptr)
  refine { htransit with
    heap := (hlist ▸ htransit.heap).join hspan hgone hjoined rfl rfl
      ⟨fun hused => absurd hused (by simp), fun _ => ⟨hcount, fun _ => hpageLen.trans hsum⟩⟩
    free := rfl
    pageLen := ?_
    index := indexes_without (hrest ▸ htransit.index) (hrest ▸ hnames) hfree
    occupied_iff := ?_
    before := hbefore
    behind := hbehind
    page_count := ?_ }
  · intro span' hspan'
    rw [hjoined.here, Option.some.injEq] at hspan'
    rw [← hspan', hpageLen, hsum]
  · intro ptr
    rw [htransit.occupied_iff, hrest, usedName_without hfree]
  · simp only [pageCount_append, pageCount_cons]
    omega

theorem tryMergeNext_spec (htransit : InTransit pages allocator xs c ys) :
    ∃ c' ys' allocator', allocator.tryMergeNext c.ptr = some (c'.ptr, allocator') ∧
      InTransit pages allocator' xs c' ys' ∧ (∀ e ∈ ys'.head?, e.used = true) ∧
      allocator'.occupied = allocator.occupied ∧ SameRange allocator allocator' := by
  rcases htransit.heap.spans c (by simp) with ⟨span, hspan, hmatches⟩
  have hnext := htransit.heap.next_eq hspan
  rcases ys with _ | ⟨d, ys⟩
  · refine ⟨c, [], allocator, ?_, htransit, by simp, rfl, rfl, rfl⟩
    simp only [tryMergeNext, hspan, hnext, Option.bind_eq_bind,
      Option.bind_some, List.map_nil, List.head?_nil, pickOutBuddy]
    rfl
  have hmem : d ∈ xs ++ d :: ys := by simp
  cases hd : d.used with
  | true =>
    refine ⟨c, d :: ys, allocator, ?_, htransit, by simp [hd], rfl, rfl, rfl⟩
    simp only [tryMergeNext, hspan, hnext, Option.bind_eq_bind,
      Option.bind_some, List.map_cons, List.head?_cons,
      htransit.used_neighbour hmem hd]
    rfl
  | false =>
    rcases htransit.heap.spans d (by simp) with ⟨gone, hgone, _⟩
    rcases htransit.neighbour hmem hd hgone with
      ⟨hcount, hpageLen, hlt, hbucket⟩
    rcases SpanHeap.mergeBuddy_joined htransit.heap hspan hgone with
      ⟨heap₁, hmerge, hjoined⟩
    have hbehind := List.isChain_cons.mp htransit.behind
    refine ⟨_, ys, _, ?_, htransit.join rfl rfl hd hspan hgone hjoined
      (hmatches.free htransit.free).1 ?_ htransit.before hbehind.2, ?_, rfl, rfl, rfl⟩
    · simp only [tryMergeNext, hspan, hnext, Option.bind_eq_bind,
        Option.bind_some, List.map_cons, List.head?_cons,
        pickOutBuddy_free hgone hcount hpageLen hlt hbucket, hmerge]
      rfl
    · rw [← htransit.pageLen span hspan, ← hpageLen]
    · intro e he
      exact (hbehind.1 e he).resolve_left (by simp [hd])

/-- The span is taken in by the free one before it; afterwards a used one
precedes. -/
theorem tryMergePrev_spec (htransit : InTransit pages allocator xs c ys) :
    ∃ xs' c' allocator', allocator.tryMergePrev c.ptr = some (c'.ptr, allocator') ∧
      InTransit pages allocator' xs' c' ys ∧ (∀ e ∈ xs'.getLast?, e.used = true) ∧
      allocator'.occupied = allocator.occupied ∧ SameRange allocator allocator' := by
  rcases htransit.heap.spans c (by simp) with ⟨gone, hgone, hmatches⟩
  have hprev := htransit.heap.prev_eq hgone
  rcases List.eq_nil_or_concat xs with rfl | ⟨xs, b, rfl⟩
  · refine ⟨[], c, allocator, ?_, htransit, by simp, rfl, rfl, rfl⟩
    simp only [tryMergePrev, hgone, hprev, Option.bind_eq_bind,
      Option.bind_some, List.map_nil, List.getLast?_nil, pickOutBuddy]
    rfl
  have hlast : ((xs.concat b).map Chunk.ptr).getLast? = some b.ptr := by simp
  rw [hlast] at hprev
  rw [List.concat_eq_append] at htransit
  have hmem : b ∈ xs ++ [b] ++ ys := by simp
  cases hb : b.used with
  | true =>
    refine ⟨xs ++ [b], c, allocator, ?_, htransit, by simp [hb], rfl, rfl, rfl⟩
    simp only [tryMergePrev, hgone, hprev, Option.bind_eq_bind,
      Option.bind_some, htransit.used_neighbour hmem hb]
    rfl
  | false =>
    have hlist : xs ++ [b] ++ c :: ys = xs ++ b :: c :: ys := by simp
    have hheap := hlist ▸ htransit.heap
    rcases hheap.spans b (by simp) with ⟨span, hspan, _⟩
    rcases htransit.neighbour hmem hb hspan with
      ⟨hcount, hpageLen, hlt, hbucket⟩
    rcases SpanHeap.mergeBuddy_joined hheap hspan hgone with
      ⟨heap₁, hmerge, hjoined⟩
    have hbefore := Coalesced.last_used htransit.before hb
    refine ⟨xs, _, _, ?_, htransit.join hlist (by simp) hb hspan hgone hjoined hcount ?_
      hbefore.1 htransit.behind, hbefore.2, rfl, rfl, rfl⟩
    · simp only [tryMergePrev, hgone, hprev, Option.bind_eq_bind, Option.bind_some,
        pickOutBuddy_free hspan hcount hpageLen hlt hbucket, hmerge]
      rfl
    · rw [← htransit.pageLen gone hgone, ← hpageLen]

theorem freeSpan_spec (htransit : InTransit pages allocator xs c ys)
    (hlast : ∀ e ∈ xs.getLast?, e.used = true) (hhead : ∀ e ∈ ys.head?, e.used = true) :
    ∃ allocator', allocator.freeSpan true c.ptr = some allocator' ∧
      HasLayout pages allocator' (xs ++ c :: ys) ∧ allocator'.occupied = allocator.occupied ∧
      SameRange allocator allocator' := by
  rcases htransit.heap.spans c (by simp) with ⟨span, hspan, _⟩
  have hpageLen := htransit.pageLen span hspan
  have hlt : c.pages < allocator.config.spanLayerCapacity := by
    have hle : c.pages ≤ pageCount (xs ++ c :: ys) := pages_le_pageCount (by simp)
    rw [htransit.page_count] at hle
    exact Nat.lt_of_le_of_lt hle htransit.lt_capacity
  have hnodup := htransit.heap.nodup
  rcases htransit.index.fetchSpanLayer hlt with
    ⟨table₁, hfetch, hindex₁, hlayer, _, _⟩
  rcases @LayerTable.Indexes.pushSpan _ _ _ (freeChunks (xs ++ c :: ys))
    hindex₁ c hlayer (fun _ he => ptr_ne_of_freeChunks hnodup he)
    (mem_freeChunks_with htransit.free) with ⟨table₂, hpush, hindex₂, _⟩
  refine ⟨{ allocator with
    table := table₂
    stats := { allocator.stats with
      freeSuccCount := allocator.stats.freeSuccCount + 1 } }, ?_, ?_, rfl,
    rfl, rfl⟩
  · simp only [freeSpan, hspan, Option.bind_eq_bind, Option.bind_some,
      hpageLen, fetchSpanLayer, hfetch, Bool.not_true, Bool.false_eq_true,
      if_false, pushSpanToLayer, hpush]
    rfl
  · refine { htransit with
      index := hindex₂
      occupied_iff := fun ptr => ?_
      coalesced := Coalesced.release htransit.before hlast htransit.behind hhead
      nonempty := by simp }
    rw [htransit.occupied_iff, usedName_without htransit.free]

theorem HasLayout.inTransit (hlayout : HasLayout pages allocator (xs ++ c :: ys))
    (hused : c.used = true) (hspan : allocator.heap.spans c.ptr = some span) (stats : AllocStats) :
    InTransit pages
      { allocator with
        heap := allocator.heap.put c.ptr { span with count := span.count - 1 }
        occupied := allocator.occupied.erase c.ptr
        stats := stats } xs ⟨c.ptr, c.pages, false⟩ ys := by
  have hdata := (hlayout.heap.spanMatches (by simp) hspan).used hused
  have hcoalesced := coalesced_middle.mp hlayout.coalesced
  refine { hlayout with
    heap := ?_
    free := rfl
    pageLen := ?_
    index := ?_
    occupied_iff := ?_
    occupied_nodup := hlayout.occupied_nodup.erase _
    before := hcoalesced.1.1
    behind := hcoalesced.2.1
    page_count := ?_ }
  · apply hlayout.heap.put hspan
    on_goal 6 => exact ⟨by simp, fun _ => ⟨by simp [hdata.1], fun _ => hdata.2⟩⟩
    all_goals rfl
  · intro span' hspan'
    rw [SpanHeap.put_self, Option.some.injEq] at hspan'
    rw [← hspan']
    exact hdata.2
  · have hindex := hlayout.index
    rwa [freeChunks_append, freeChunks_cons_used hused, ← freeChunks_append] at hindex
  · intro ptr
    rw [hlayout.occupied_nodup.mem_erase_iff, hlayout.occupied_iff]
    have hgone : ¬UsedName (xs ++ ys) c.ptr := by
      rintro ⟨e, he, hptr, _⟩
      exact hlayout.heap.names_ne he hptr
    simp only [usedName_append, usedName_cons, hused, and_true] at hgone ⊢
    constructor
    · rintro ⟨hne, hname⟩
      rcases hname with hname | hname | hname
      · exact Or.inl hname
      · exact absurd hname.symm hne
      · exact Or.inr hname
    · intro hname
      refine ⟨?_, by tauto⟩
      rintro rfl
      exact hgone hname
  · rw [← hlayout.page_count]
    simp

theorem free_spec (htransit : InTransit pages allocator xs c ys) :
    ∃ allocator₁ ptr₁ allocator₂ ptr₂ allocator' chunks,
      allocator.tryMergeNext c.ptr = some (ptr₁, allocator₁) ∧
      allocator₁.tryMergePrev ptr₁ = some (ptr₂, allocator₂) ∧
      allocator₂.freeSpan true ptr₂ = some allocator' ∧ HasLayout pages allocator' chunks ∧
      allocator'.occupied = allocator.occupied ∧ SameRange allocator allocator' := by
  rcases tryMergeNext_spec htransit with
    ⟨c₁, ys₁, allocator₁, hnext, htransit₁, hhead, hoccupied₁, hrange₁⟩
  rcases tryMergePrev_spec htransit₁ with
    ⟨xs₂, c₂, allocator₂, hprev, htransit₂, hlast, hoccupied₂, hrange₂⟩
  rcases freeSpan_spec htransit₂ hlast hhead with
    ⟨allocator', hfree, hlayout, hoccupied, hrange⟩
  refine ⟨allocator₁, c₁.ptr, allocator₂, c₂.ptr, allocator', _, hnext, hprev,
    hfree, hlayout, ?_, (hrange₁.trans hrange₂).trans hrange⟩
  rw [hoccupied, hoccupied₂, hoccupied₁]

theorem freeBlock_spec {chunks : List (Chunk SpanPtr)} (hlayout : HasLayout pages allocator chunks)
    {ptr : SpanPtr} (hmem : ptr ∈ allocator.occupied) :
    ∃ allocator' chunks', allocator.freeBlock true ptr = some allocator' ∧
      HasLayout pages allocator' chunks' ∧ allocator'.occupied = allocator.occupied.erase ptr ∧
      SameRange allocator allocator' := by
  rcases (hlayout.occupied_iff ptr).mp hmem with ⟨c, hc, rfl, hused⟩
  rcases List.append_of_mem hc with ⟨xs, ys, rfl⟩
  rcases hlayout.heap.spans c hc with ⟨span, hspan, hmatches⟩
  have hcount := (hmatches.used hused).1
  have hheap : (allocator.heap.put c.ptr { span with count := span.count - 1 }).spans c.ptr =
        some { span with count := span.count - 1 } :=
    SpanHeap.put_self _ _
  rcases free_spec (hlayout.inTransit hused hspan (allocator.stats.onFree
    (allocator.getSize span) span.realSize)) with
    ⟨allocator₁, ptr₁, allocator₂, ptr₂, allocator', chunks, hnext, hprev,
      hfree, hlayout', hoccupied, hrange⟩
  refine ⟨allocator', chunks, ?_, hlayout', hoccupied, hrange.config, hrange.baseAddr⟩
  simp only [freeBlock, hspan, Option.bind_eq_bind, Option.bind_some]
  rw [if_neg (by simp [hcount]), SpanHeap.modify_eq hspan, Option.bind_some,
    if_pos (by simp [hcount])]
  simp only [free, hheap, Option.bind_eq_bind, Option.bind_some]
  rw [if_pos hmem]
  have hnext' := hnext
  simp only [getSize] at hnext' ⊢
  rw [hnext']
  simp only [Option.bind_some, hprev, hfree]

end ScalableAllocator

end Hixl
