import Hixl.ScalableAllocatorAlloc
import Hixl.ScalableAllocatorFree

/-!
# The heap invariant of the allocator

No call of a run reaches a deleted span.  After every call the spans along the
buddy links tile the range, the living blocks are the occupied spans, every
other span is in the layer of its length, the lookup set names the layers that
are not empty, and no two neighbours are free.
-/

namespace Hixl

open ChunkLayouts

/-! ## Setting up -/

namespace ScalableAllocator

theorem fresh_objectsOk (config : ScalableConfig) (preparedSpans : ℕ) :
    (fresh config preparedSpans).heap.ObjectsOk := by
  constructor
  · exact List.nodup_range
  · intro ptr _
    rfl
  · intro ptr hmem
    exact List.mem_range.mp hmem
  · intro ptr _
    rfl

theorem fresh_indexes (config : ScalableConfig) (preparedSpans : ℕ) :
    (fresh config preparedSpans).table.Indexes config.spanLayerCapacity [] := by
  constructor
  · intro layerId ptr
    simp [fresh, LayerTable.bucket]
  · intro layerId
    simp [fresh, LayerTable.bucket]
  · intro layerId
    simp [fresh, LayerTable.bucket]
  · intro layerId hlayer
    exact absurd rfl hlayer

variable {config : ScalableConfig} {preparedSpans : ℕ}

theorem fresh_fetchSpanLayer_refused {layerOk : Bool} {layerId : ℕ}
    (hrefused : ¬(layerOk = true ∧ layerId < config.spanLayerCapacity)) :
    (fresh config preparedSpans).table.fetchSpanLayer config.spanLayerCapacity layerOk layerId =
        (false, (fresh config preparedSpans).table) := by
  unfold LayerTable.fetchSpanLayer
  by_cases hlt : layerId < config.spanLayerCapacity
  · have hlayer : layerOk = false := by
      cases layerOk with
      | false => rfl
      | true => exact absurd ⟨rfl, hlt⟩ hrefused
    rw [if_neg (Nat.not_le.mpr hlt), hlayer]
    rfl
  · rw [if_pos (Nat.le_of_not_lt hlt)]

variable {ptr : SpanPtr} {pages : ℕ}

theorem holdsLayout_single {heap : SpanHeap} {page base : ℕ} (hspan : heap.spans ptr = some
      { addr := base, count := 0, pageLen := 0, prevBuddy := none
        nextBuddy := none, realSize := 0 }) (hdead : ∀ other, other ≠ ptr → heap.spans other = none)
    (hobjects : heap.ObjectsOk) : heap.HoldsLayout page base [⟨ptr, pages, false⟩] := by
  constructor
  · simp
  · exact ⟨SpanHeap.links_prev hspan, SpanHeap.links_next hspan, trivial⟩
  · exact ⟨SpanHeap.addrOf_eq hspan, trivial⟩
  · intro c hc
    rcases List.mem_singleton.mp hc with rfl
    refine ⟨_, hspan, fun hused => absurd hused (by simp), fun _ => ⟨rfl, ?_⟩⟩
    intro hmany
    exact absurd rfl hmany
  · intro other halive
    by_contra hne
    exact halive (hdead other (by simpa using hne))
  · exact hobjects

variable {allocator : ScalableAllocator}

theorem hasLayout_of_init {answers : ObjectAnswers} {baseAddr total : ℕ}
    (hinit : (fresh config preparedSpans).initFixSizedAllocator answers
      baseAddr total = some (.success, allocator)) (htotal : total < 2 ^ 64)
    (hpages : total / 2 ^ config.pageIdemNum < 2 ^ 32) :
    allocator.config = config ∧ allocator.baseAddr = baseAddr ∧ allocator.occupied = [] ∧
      ∃ ptr, HasLayout (total / 2 ^ config.pageIdemNum) allocator
        [⟨ptr, total / 2 ^ config.pageIdemNum, false⟩] := by
  have hlen : pageLenGetLenFromSize total config.pageIdemNum =
      total / 2 ^ config.pageIdemNum := Nat.mod_eq_of_lt hpages
  rcases answers with ⟨spanOk, layerOk⟩
  cases spanOk with
  | false => simp [initFixSizedAllocator, blockAlloc, SpanHeap.alloc] at hinit
  | true =>
    rcases (fresh_objectsOk config preparedSpans).alloc
      { addr := baseAddr, count := 1, pageLen := 0, prevBuddy := none
        nextBuddy := none, realSize := 0 } with
      ⟨ptr, heap₀, halloc, hfresh, hsame, hobjects⟩
    have hspan := @SpanHeap.put_self heap₀ ptr
      { addr := baseAddr, count := 1, pageLen := 0, prevBuddy := none
        nextBuddy := none, realSize := 0 }
    simp only [initFixSizedAllocator, blockAlloc, halloc,
      SpanHeap.modify_eq hspan, Option.bind_eq_bind, Option.bind_some,
      fetchSpanLayer, show (fresh config preparedSpans).config = config from rfl, hlen] at hinit
    by_cases hfits : layerOk = true ∧ total / 2 ^ config.pageIdemNum < config.spanLayerCapacity
    · rcases hfits with ⟨rfl, hlt⟩
      rcases (fresh_indexes config preparedSpans).fetchSpanLayer hlt with
        ⟨table₁, hfetch, hindex₁, hlayer, _, _⟩
      rcases @LayerTable.Indexes.pushSpan _ _ _
        [⟨ptr, total / 2 ^ config.pageIdemNum, false⟩] hindex₁
        ⟨ptr, total / 2 ^ config.pageIdemNum, false⟩ hlayer (by simp)
        (by simp) with ⟨table₂, hpush, hindex₂, _⟩
      simp only [hfetch, Bool.not_true, Bool.false_eq_true, if_false,
        pushSpanToLayer, hpush, Option.bind_eq_bind, Option.bind_some,
        Option.pure_def, Option.some.injEq, Prod.mk.injEq, true_and]
        at hinit
      rcases hinit with rfl
      refine ⟨rfl, rfl, rfl, ptr, ?_⟩
      constructor
      · apply holdsLayout_single (SpanHeap.put_self _ _)
        · intro other hne
          rw [SpanHeap.put_of_ne hne, SpanHeap.put_of_ne hne, hsame]
          rfl
        · exact hobjects.put (by rw [hspan]; simp) _
      · exact hindex₂
      · intro other
        simp [fresh, UsedName]
      · exact List.nodup_nil
      · exact List.isChain_singleton _
      · simp
      · simp
      · exact hlt
      · exact Nat.lt_of_le_of_lt (Nat.div_mul_le_self _ _) htotal
    · rw [fresh_fetchSpanLayer_refused hfits] at hinit
      simp at hinit

theorem Served.hasLayout {need : ℕ} {allocator' : ScalableAllocator} {chunks : List (Chunk SpanPtr)}
    (hserved : Served pages allocator allocator' chunks need ptr) :
    allocator'.occupied = ptr :: allocator.occupied ∧ SameRange allocator allocator' ∧
      ∃ chunks', allocator'.HasLayout pages chunks' := by
  rcases hserved with ⟨xs, c, ys, _, hfrom⟩
  refine ⟨hfrom.occupied, hfrom.range, ?_⟩
  rcases hfrom.layout with ⟨_, _, hlayout⟩ | ⟨_, _, hlayout⟩
  all_goals exact ⟨_, hlayout⟩

end ScalableAllocator

structure AllocHistory where
  allocator : ScalableAllocator
  live : List SpanPtr

/-- A span object may be missing at every allocation; a free names a living
block by its position. -/
inductive AllocCall where
  | alloc (size : ℕ) (spanOk : Bool)
  | free (position : ℕ)

namespace AllocHistory

def call (history : AllocHistory) : AllocCall → Option AllocHistory
  | .alloc size spanOk => do
      let (result, allocator) ← history.allocator.alloc ⟨spanOk, true⟩ size
      return ⟨allocator, result.toList ++ history.live⟩
  | .free position =>
    match history.live[position]? with
    | none => some history
    | some ptr => do
        let allocator ← history.allocator.freeBlock true ptr
        return ⟨allocator, history.live.eraseIdx position⟩

def run (history : AllocHistory) (calls : List AllocCall) : Option AllocHistory :=
  calls.foldlM call history

variable {history : AllocHistory}

theorem run_cons {history₁ : AllocHistory} {next : AllocCall}
    (hcall : history.call next = some history₁) (rest : List AllocCall) :
    history.run (next :: rest) = history₁.run rest := by
  rw [run, List.foldlM_cons, hcall]
  rfl

def Inv (pages : ℕ) (history : AllocHistory) : Prop :=
  history.live.Perm history.allocator.occupied ∧ ∃ chunks, history.allocator.HasLayout pages chunks

variable {pages : ℕ}

theorem Inv.call (hinv : history.Inv pages) (next : AllocCall) :
    ∃ history', history.call next = some history' ∧ history'.Inv pages ∧
      ScalableAllocator.SameRange history.allocator history'.allocator := by
  rcases hinv with ⟨hperm, chunks, hlayout⟩
  cases next with
  | alloc size spanOk =>
    rcases ScalableAllocator.alloc_outcome hlayout
      (show (⟨spanOk, true⟩ : ObjectAnswers).layerOk = true from rfl) size
      with ⟨result, allocator', halloc, houtcome⟩
    refine ⟨⟨allocator', result.toList ++ history.live⟩, ?_, ?_⟩
    · rw [AllocHistory.call, halloc]
      rfl
    · cases result with
      | none =>
        rcases houtcome.1 with ⟨hlayout', hoccupied, hrange⟩
        refine ⟨⟨?_, chunks, hlayout'⟩, hrange⟩
        rwa [hoccupied]
      | some ptr =>
        rcases ScalableAllocator.Served.hasLayout houtcome with
          ⟨hoccupied, hrange, hlayout'⟩
        refine ⟨⟨?_, hlayout'⟩, hrange⟩
        rw [hoccupied]
        exact hperm.cons ptr
  | free position =>
    cases hfound : history.live[position]? with
    | none =>
      refine ⟨history, ?_, ⟨hperm, chunks, hlayout⟩, rfl, rfl⟩
      simp only [AllocHistory.call, hfound]
    | some ptr =>
      rcases List.getElem?_eq_some_iff.mp hfound with ⟨hlt, hget⟩
      have hmem : ptr ∈ history.allocator.occupied := hperm.mem_iff.mp (List.mem_of_getElem? hfound)
      rcases ScalableAllocator.freeBlock_spec hlayout hmem with
        ⟨allocator', chunks', hfree, hlayout', hoccupied, hrange⟩
      refine ⟨⟨allocator', history.live.eraseIdx position⟩, ?_, ⟨?_, chunks', hlayout'⟩, hrange⟩
      · simp only [AllocHistory.call, hfound, hfree]
        rfl
      · rw [hoccupied]
        have hfirst : (ptr :: history.live.eraseIdx position).Perm
            history.live := by
          rw [← hget]
          exact List.getElem_cons_eraseIdx_perm hlt
        exact (hfirst.trans (hperm.trans (List.perm_cons_erase hmem))).cons_inv

theorem Inv.run (hinv : history.Inv pages) (calls : List AllocCall) :
    ∃ history', history.run calls = some history' ∧ history'.Inv pages ∧
      ScalableAllocator.SameRange history.allocator history'.allocator := by
  induction calls generalizing history with
  | nil => exact ⟨history, rfl, hinv, rfl, rfl⟩
  | cons next rest ih =>
    rcases hinv.call next with ⟨history₁, hcall, hinv₁, hrange₁⟩
    rcases ih hinv₁ with ⟨history', hrun, hinv', hrange⟩
    refine ⟨history', ?_, hinv', hrange₁.trans hrange⟩
    rwa [run_cons hcall]

end AllocHistory

namespace ScalableAllocator

def nextBuddyOf (allocator : ScalableAllocator) (ptr : SpanPtr) : Option SpanPtr :=
  (allocator.heap.spans ptr).bind PageSpan.nextBuddy

def prevBuddyOf (allocator : ScalableAllocator) (ptr : SpanPtr) : Option SpanPtr :=
  (allocator.heap.spans ptr).bind PageSpan.prevBuddy

/-- The pages of an occupied span are its page count, those of another span the
id of its layer. -/
def Extent (allocator : ScalableAllocator) (ptr : SpanPtr) (pages : ℕ) : Prop :=
  (ptr ∈ allocator.occupied ∧ ∃ span, allocator.heap.spans ptr = some span ∧ span.pageLen = pages) ∨
    (ptr ∉ allocator.occupied ∧ ptr ∈ allocator.table.bucket pages)

def TilesFrom (allocator : ScalableAllocator) : ℕ → List SpanPtr → ℕ → Prop
  | start, [], stop => start = stop
  | start, ptr :: rest, stop =>
    ∃ span pages, allocator.heap.spans ptr = some span ∧
      span.addr = start ∧ allocator.Extent ptr pages ∧
      allocator.TilesFrom (start + pages * 2 ^ allocator.config.pageIdemNum) rest stop

end ScalableAllocator

structure HeapInvariant (base total : ℕ) (history : AllocHistory)
    (ptrs : List SpanPtr) : Prop where
  first : ∃ ptr, ptrs.head? = some ptr ∧
    history.allocator.prevBuddyOf ptr = none
  walk : ∀ fuel, ptrs.length ≤ fuel →
    LinkedChains.walk history.allocator.nextBuddyOf fuel ptrs.head? = ptrs
  nodup : ptrs.Nodup
  living : ∀ ptr, history.allocator.heap.spans ptr ≠ none ↔ ptr ∈ ptrs
  tiles : history.allocator.TilesFrom base ptrs
    (base + total / 2 ^ history.allocator.config.pageIdemNum *
      2 ^ history.allocator.config.pageIdemNum)
  live_nodup : history.live.Nodup
  live_iff : ∀ ptr, ptr ∈ history.live ↔
    ptr ∈ ptrs ∧ ptr ∈ history.allocator.occupied
  live_apart : ∀ p q s t, p ∈ history.live → q ∈ history.live → p ≠ q →
    history.allocator.heap.spans p = some s →
    history.allocator.heap.spans q = some t →
      s.addr + s.pageLen * 2 ^ history.allocator.config.pageIdemNum ≤ t.addr ∨
        t.addr + t.pageLen * 2 ^ history.allocator.config.pageIdemNum ≤ s.addr
  one_layer : ∀ ptr ∈ ptrs, ptr ∉ history.allocator.occupied →
    ∃! layerId, ptr ∈ history.allocator.table.bucket layerId
  layer_free : ∀ layerId ptr,
    ptr ∈ history.allocator.table.bucket layerId → ptr ∈ ptrs ∧ ptr ∉ history.allocator.occupied
  layer_nodup : ∀ layerId,
    (history.allocator.table.bucket layerId).Nodup
  page_len : ∀ ptr span, ptr ∉ history.allocator.occupied →
    history.allocator.heap.spans ptr = some span →
    span.prevBuddy ≠ none ∨ span.nextBuddy ≠ none →
      ptr ∈ history.allocator.table.bucket span.pageLen
  ids_iff : ∀ layerId, layerId ∈ history.allocator.table.ids ↔
    history.allocator.table.bucket layerId ≠ []
  coalesced : ptrs.IsChain fun p q =>
    p ∈ history.allocator.occupied ∨ q ∈ history.allocator.occupied

/-! ## From the layout to the heap -/

namespace ScalableAllocator

variable {pages base : ℕ} {allocator : ScalableAllocator}
  {chunks : List (Chunk SpanPtr)} {c : Chunk SpanPtr}

section

variable (hlayout : HasLayout pages allocator chunks) (hmem : c ∈ chunks)

include hlayout hmem

theorem HasLayout.occupied_of_mem : c.ptr ∈ allocator.occupied ↔ c.used = true := by
  rw [hlayout.occupied_iff]
  constructor
  · rintro ⟨d, hd, hptr, hused⟩
    rwa [eq_of_ptr_eq hlayout.names_nodup hmem hd hptr] at hused
  · intro hused
    exact ⟨c, hmem, rfl, hused⟩

theorem HasLayout.bucket_of_mem (hnot : c.ptr ∉ allocator.occupied) (layerId : ℕ) :
    c.ptr ∈ allocator.table.bucket layerId ↔ layerId = c.pages := by
  rw [hlayout.index.mem_iff]
  constructor
  · rintro ⟨d, hd, hptr, hpages⟩
    rw [eq_of_ptr_eq hlayout.names_nodup hmem (mem_freeChunks.mp hd).1 hptr] at hpages
    exact hpages.symm
  · intro hpages
    rw [hlayout.occupied_of_mem hmem, Bool.not_eq_true] at hnot
    exact ⟨c, mem_freeChunks.mpr ⟨hmem, hnot⟩, rfl, hpages.symm⟩

theorem HasLayout.extent : allocator.Extent c.ptr c.pages := by
  by_cases hoccupied : c.ptr ∈ allocator.occupied
  · rcases hlayout.heap.spans c hmem with ⟨span, hspan, hmatches⟩
    have hused := (hlayout.occupied_of_mem hmem).mp hoccupied
    exact Or.inl ⟨hoccupied, span, hspan, (hmatches.used hused).2⟩
  · exact Or.inr ⟨hoccupied, (hlayout.bucket_of_mem hmem hoccupied c.pages).mpr rfl⟩

end

theorem tilesFrom_of_located {start : ℕ}
    (hlocated : Located allocator.heap.addrOf (2 ^ allocator.config.pageIdemNum) start chunks)
    (hextent : ∀ c ∈ chunks, allocator.Extent c.ptr c.pages) :
    allocator.TilesFrom start (chunks.map Chunk.ptr)
      (start + pageCount chunks * 2 ^ allocator.config.pageIdemNum) := by
  induction chunks generalizing start with
  | nil => simp [TilesFrom]
  | cons first rest ih =>
    rcases hlocated with ⟨haddr, hrest⟩
    rcases Option.map_eq_some_iff.mp haddr with ⟨span, hspan, hstart⟩
    refine ⟨span, first.pages, hspan, hstart, hextent first List.mem_cons_self, ?_⟩
    have htail := ih hrest fun c hc => hextent c (List.mem_cons_of_mem _ hc)
    rwa [pageCount_cons, Nat.add_mul, ← Nat.add_assoc]

variable {span : PageSpan}

section

variable (hlayout : HasLayout pages allocator chunks)

include hlayout

theorem HasLayout.used_pageLen (hmem : c ∈ chunks) (hused : c.used = true)
    (hspan : allocator.heap.spans c.ptr = some span) : span.pageLen = c.pages := by
  exact ((hlayout.heap.spanMatches hmem hspan).used hused).2

theorem HasLayout.used_apart {p q : SpanPtr} {s t : PageSpan} (hp : UsedName chunks p)
    (hq : UsedName chunks q) (hne : p ≠ q) (hs : allocator.heap.spans p = some s)
    (ht : allocator.heap.spans q = some t) :
    s.addr + s.pageLen * 2 ^ allocator.config.pageIdemNum ≤ t.addr ∨
      t.addr + t.pageLen * 2 ^ allocator.config.pageIdemNum ≤ s.addr := by
  rcases hp with ⟨c, hc, rfl, hcused⟩
  rcases hq with ⟨d, hd, rfl, hdused⟩
  rw [hlayout.used_pageLen hc hcused hs, hlayout.used_pageLen hd hdused ht]
  have haddr := SpanHeap.addrOf_eq hs
  have haddr' := SpanHeap.addrOf_eq ht
  have hapart := hlayout.heap.located.pairwise
  rcases List.append_of_mem hc with ⟨xs, ys, rfl⟩
  rw [List.pairwise_append, List.pairwise_cons] at hapart
  rcases List.mem_append.mp hd with hbefore | hafter
  · right
    exact hapart.2.2 d hbefore c List.mem_cons_self _ _ haddr' haddr
  rcases List.mem_cons.mp hafter with hsame | hafter
  · exact absurd (congrArg Chunk.ptr hsame.symm) hne
  · left
    exact hapart.2.1.1 d hafter _ _ haddr haddr'

theorem HasLayout.page_len {ptr : SpanPtr}
    (hnot : ptr ∉ allocator.occupied) (hspan : allocator.heap.spans ptr = some span)
    (hbuddy : span.prevBuddy ≠ none ∨ span.nextBuddy ≠ none) :
    ptr ∈ allocator.table.bucket span.pageLen := by
  have hmem : ptr ∈ chunks.map Chunk.ptr := hlayout.heap.living ptr (by simp [hspan])
  rcases List.mem_map.mp hmem with ⟨c, hc, rfl⟩
  rw [hlayout.bucket_of_mem hc hnot]
  have hfree : c.used = false := by rwa [← Bool.not_eq_true, ← hlayout.occupied_of_mem hc]
  apply ((hlayout.heap.spanMatches hc hspan).free hfree).2
  intro hsingle
  rcases List.length_eq_one_iff.mp hsingle with ⟨d, rfl⟩
  have hcd : c = d := by simpa using hc
  rw [hcd] at hspan
  have halone : SpanHeap.HoldsLayout _ _ _ ([] ++ d :: []) := hlayout.heap
  rw [halone.prev_eq hspan, halone.next_eq hspan] at hbuddy
  simp at hbuddy

end

end ScalableAllocator

variable {total : ℕ}

theorem AllocHistory.Inv.heapInvariant {pages : ℕ} {history : AllocHistory}
    (hinv : history.Inv pages) (hpages : pages = total / 2 ^ history.allocator.config.pageIdemNum) :
    ∃ ptrs, HeapInvariant history.allocator.baseAddr total history ptrs := by
  rcases hinv with ⟨hperm, chunks, hlayout⟩
  refine ⟨chunks.map Chunk.ptr, ?_⟩
  constructor
  · have hnonempty := hlayout.nonempty
    have hlinked := hlayout.heap.linked
    cases chunks with
    | nil => exact absurd rfl hnonempty
    | cons first rest => exact ⟨first.ptr, rfl, hlinked.1⟩
  · intro fuel hfuel
    exact hlayout.heap.linked.walk_eq hfuel
  · exact hlayout.names_nodup
  · intro ptr
    exact ⟨hlayout.heap.living ptr, hlayout.heap.alive⟩
  · rw [← hpages, ← hlayout.page_count]
    exact ScalableAllocator.tilesFrom_of_located hlayout.heap.located fun c hc => hlayout.extent hc
  · exact hperm.nodup_iff.mpr hlayout.occupied_nodup
  · intro ptr
    rw [hperm.mem_iff]
    constructor
    · intro hmem
      exact ⟨((hlayout.occupied_iff ptr).mp hmem).mem_names, hmem⟩
    · exact And.right
  · intro p q s t hp hq hne hs ht
    rw [hperm.mem_iff, hlayout.occupied_iff] at hp hq
    exact hlayout.used_apart hp hq hne hs ht
  · intro ptr hptr hnot
    rcases List.mem_map.mp hptr with ⟨c, hc, rfl⟩
    refine ⟨c.pages, (hlayout.bucket_of_mem hc hnot _).mpr rfl, ?_⟩
    intro layerId hmem
    exact (hlayout.bucket_of_mem hc hnot layerId).mp hmem
  · intro layerId ptr hmem
    rcases (hlayout.index.mem_iff layerId ptr).mp hmem with ⟨c, hc, rfl, _⟩
    rw [mem_freeChunks] at hc
    refine ⟨List.mem_map_of_mem hc.1, ?_⟩
    rw [hlayout.occupied_of_mem hc.1, hc.2]
    exact Bool.false_ne_true
  · exact hlayout.index.nodup
  · intro ptr span hnot hspan hbuddy
    exact hlayout.page_len hnot hspan hbuddy
  · exact hlayout.index.ids_iff
  · rw [List.isChain_map]
    apply List.IsChain.imp_of_mem_imp _ hlayout.coalesced
    intro c d hc hd hused
    rwa [hlayout.occupied_of_mem hc, hlayout.occupied_of_mem hd]

theorem AllocHistory.inv_of_init {config : ScalableConfig} {preparedSpans base : ℕ}
    {answers : ObjectAnswers} {allocator : ScalableAllocator}
    (hinit : (ScalableAllocator.fresh config
      preparedSpans).initFixSizedAllocator answers base total =
        some (.success, allocator)) (htotal : total < 2 ^ 64)
    (hpages : total / 2 ^ config.pageIdemNum < 2 ^ 32) :
    AllocHistory.Inv (total / 2 ^ config.pageIdemNum) ⟨allocator, []⟩ ∧
      allocator.config = config ∧ allocator.baseAddr = base := by
  rcases ScalableAllocator.hasLayout_of_init hinit htotal hpages with
    ⟨hconfig, hbase, hoccupied, ptr, hlayout⟩
  refine ⟨⟨?_, _, hlayout⟩, hconfig, hbase⟩
  rw [hoccupied]

/-- A page count has 32 bits in the program. -/
theorem allocatorRun_heapInvariant (config : ScalableConfig) (preparedSpans base total : ℕ)
    (answers : ObjectAnswers) (allocator : ScalableAllocator)
    (hinit : (ScalableAllocator.fresh config
      preparedSpans).initFixSizedAllocator answers base total = some (.success, allocator))
    (htotal : total < 2 ^ 64) (hpages : total / 2 ^ config.pageIdemNum < 2 ^ 32)
    (calls : List AllocCall) :
    ∃ history ptrs, AllocHistory.run ⟨allocator, []⟩ calls = some history ∧
        HeapInvariant base total history ptrs := by
  rcases AllocHistory.inv_of_init hinit htotal hpages with
    ⟨hinv, hconfig, hbase⟩
  rcases hinv.run calls with ⟨history, hrun, hinv', hrange⟩
  have hconfig' : history.allocator.config = config := hrange.config.trans hconfig
  have hbase' : history.allocator.baseAddr = base := hrange.baseAddr.trans hbase
  have hheap := hinv'.heapInvariant (congrArg
    (fun c => total / 2 ^ c.pageIdemNum) hconfig'.symm)
  rw [hbase'] at hheap
  rcases hheap with ⟨ptrs, hheap⟩
  exact ⟨history, ptrs, hrun, hheap⟩

def smallPool : ScalableConfig where
  pageIdemNum := 10
  pageMemSizeTotalThreshold := 8192
  spanLayerLiftMax := 5

/-- Two blocks are allocated, the lower one is freed, and an allocation that
needs a span object fails. -/
theorem allocatorRun_heapInvariant_smallPool :
    ∃ allocator, (ScalableAllocator.fresh smallPool 2).initFixSizedAllocator
          ⟨true, true⟩ 65536 8192 = some (.success, allocator) ∧
        ∃ history ptrs, AllocHistory.run ⟨allocator, []⟩
              [.alloc 1000 true, .alloc 3000 true, .free 1, .alloc 10 false] =
            some history ∧ HeapInvariant 65536 8192 history ptrs :=
  ⟨_, rfl, allocatorRun_heapInvariant smallPool 2 65536 8192 ⟨true, true⟩ _
    rfl (by decide) (by decide) _⟩

def widePool : ScalableConfig where
  pageIdemNum := 16
  pageMemSizeTotalThreshold := 2 ^ 32
  spanLayerLiftMax := 5

/-- The `2 ^ 32 + 1` pages of the pool are counted as one. -/
theorem allocatorRun_heapInvariant_widePool :
    ∃ allocator, (ScalableAllocator.fresh widePool 1).initFixSizedAllocator
          ⟨true, true⟩ 0 (2 ^ 48 + 2 ^ 16) = some (.success, allocator) ∧
        ∀ ptrs, ¬ HeapInvariant 0 (2 ^ 48 + 2 ^ 16) ⟨allocator, []⟩ ptrs := by
  refine ⟨_, rfl, fun ptrs hheap => ?_⟩
  have honly : ∀ ptr ∈ ptrs, ptr = 0 := by
    intro ptr hptr
    by_contra hne
    exact (hheap.living ptr).mpr hptr
      ((Function.update_of_ne hne _ _).trans (Function.update_of_ne hne _ _))
  have htiles := hheap.tiles
  cases ptrs with
  | nil => cases htiles
  | cons ptr rest =>
    obtain ⟨_, pages, -, -, hextent, hrest⟩ := htiles
    cases rest with
    | nil =>
      obtain ⟨hmem, -⟩ | ⟨-, hmem⟩ := hextent
      · cases hmem
      have hlayer : pages ∈ ({1} : Finset ℕ) := (hheap.ids_iff pages).mpr (List.ne_nil_of_mem hmem)
      rw [Finset.mem_singleton.mp hlayer] at hrest
      cases hrest
    | cons next rest =>
      have hnodup := hheap.nodup
      rw [honly ptr List.mem_cons_self, honly next (by simp)] at hnodup
      simp at hnodup

end Hixl
