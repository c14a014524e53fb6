import Hixl.ScalableAllocatorHeap

/-!
# Best fit and full coalescing

A request that the objects of the allocator can carry is served exactly when
some free span is long enough.  The block has the pages of the request, at least
one, and is the end of the first span of the smallest layer that is large
enough.  When the last living block is freed, one free span over the whole range
is left.
-/

namespace Hixl

open ChunkLayouts

namespace ScalableConfig

/-- What `ParseMemoryPoolConfig` checks of a pool: the page shift is in its
range and the pages can be counted in 32 bits. -/
structure Accepted (config : ScalableConfig) : Prop where
  pageIdemNum_ge : 10 ≤ config.pageIdemNum
  pageIdemNum_lt : config.pageIdemNum < 31
  pages_lt : config.pageMemSizeTotalThreshold / 2 ^ config.pageIdemNum <
    wordMax 32

def coveringPages (config : ScalableConfig) (size : ℕ) : ℕ :=
  max 1 ((size + 2 ^ config.pageIdemNum - 1) / 2 ^ config.pageIdemNum)

variable {config : ScalableConfig}

theorem Accepted.page_lt (haccepted : config.Accepted) : 2 ^ config.pageIdemNum < 2 ^ 31 :=
  Nat.pow_lt_pow_right (by decide) haccepted.pageIdemNum_lt

theorem Accepted.pageMemSize_eq (haccepted : config.Accepted) :
    config.pageMemSize = 2 ^ config.pageIdemNum := by
  have hpage := haccepted.page_lt
  rw [pageMemSize, pageLenGetMemSize, Nat.one_mul, Nat.mod_eq_of_lt]
  omega

variable {size : ℕ}

section

variable (haccepted : config.Accepted) (hsize : size ≤ config.pageMemSizeTotalThreshold)

include haccepted hsize

theorem Accepted.size_lt : size < 2 ^ 63 := by
  have hpage := haccepted.page_lt
  have hpages := haccepted.pages_lt
  rw [wordMax_32, Nat.div_lt_iff_lt_mul (Nat.two_pow_pos _)] at hpages
  calc
    size ≤ config.pageMemSizeTotalThreshold := hsize
    _ < (2 ^ 32 - 1) * 2 ^ config.pageIdemNum := hpages
    _ ≤ (2 ^ 32 - 1) * 2 ^ 31 := Nat.mul_le_mul_left _ (Nat.le_of_lt hpage)
    _ < 2 ^ 63 := by decide

theorem Accepted.aligned_eq : memSizeGetAlignedOf size (2 ^ config.pageIdemNum) =
      (size + 2 ^ config.pageIdemNum - 1) / 2 ^ config.pageIdemNum * 2 ^ config.pageIdemNum := by
  have hpage := haccepted.page_lt
  have hpositive := Nat.two_pow_pos config.pageIdemNum
  have hlt := haccepted.size_lt hsize
  rw [memSizeGetAlignedOf, wrapAdd_eq_add (by omega), wrapSub_eq_sub (by omega) (by omega)]

theorem Accepted.covering_lt :
    (size + 2 ^ config.pageIdemNum - 1) / 2 ^ config.pageIdemNum < 2 ^ 32 := by
  have hpositive := Nat.two_pow_pos config.pageIdemNum
  have hpages := haccepted.pages_lt
  have hle : (size + 2 ^ config.pageIdemNum - 1) / 2 ^ config.pageIdemNum ≤
      config.pageMemSizeTotalThreshold / 2 ^ config.pageIdemNum + 1 := by
    rw [← Nat.add_div_right _ hpositive]
    apply Nat.div_le_div_right
    omega
  rw [wordMax_32] at hpages
  omega

end

end ScalableConfig

namespace ScalableAllocator

variable {size : ℕ}

theorem requestPages_eq {config : ScalableConfig} (haccepted : config.Accepted)
    (hsize : size ≤ config.pageMemSizeTotalThreshold) :
    requestPages config size = config.coveringPages size := by
  have hpositive := Nat.two_pow_pos config.pageIdemNum
  unfold requestPages ScalableConfig.getAllocSize ScalableConfig.coveringPages pageLenGetLenFromSize
  rw [haccepted.pageMemSize_eq]
  by_cases hsmall : size < 2 ^ config.pageIdemNum
  · rw [if_pos hsmall, Nat.div_self hpositive, max_eq_left]
    · rfl
    · rw [Nat.div_le_iff_le_mul_add_pred hpositive]
      omega
  · rw [if_neg hsmall, haccepted.aligned_eq hsize, Nat.mul_div_cancel _ hpositive,
      Nat.mod_eq_of_lt (haccepted.covering_lt hsize), max_eq_right]
    rw [Nat.one_le_div_iff hpositive]
    omega

/-! ## The span that serves a request -/

/-- A span that is alive, not occupied and in the layer of so many pages. -/
structure FreeSpan (allocator : ScalableAllocator) (ptr : SpanPtr)
    (length : ℕ) : Prop where
  alive : allocator.heap.spans ptr ≠ none
  idle : ptr ∉ allocator.occupied
  layer : ptr ∈ allocator.table.bucket length

/-- The block is the end of the first span of the smallest layer that is large
enough, and the front of that span stays free. -/
structure CutFrom (allocator allocator' : ScalableAllocator) (need : ℕ)
    (ptr source : SpanPtr) (fit : ℕ) : Prop where
  first : (allocator.table.bucket fit).head? = some source
  enough : need ≤ fit
  smallest : ∀ layerId, allocator.table.bucket layerId ≠ [] →
    need ≤ layerId → fit ≤ layerId
  occupied : allocator'.occupied = ptr :: allocator.occupied
  place : ∃ before block, allocator.heap.spans source = some before ∧
    allocator'.heap.spans ptr = some block ∧ block.pageLen = need ∧
    block.addr = before.addr + (fit - need) * 2 ^ allocator.config.pageIdemNum
  rest : (fit = need ∧ ptr = source) ∨
    (need < fit ∧ allocator.heap.spans ptr = none ∧ allocator'.FreeSpan source (fit - need))

variable {pages need : ℕ} {allocator allocator' : ScalableAllocator}
  {xs ys chunks : List (Chunk SpanPtr)} {c : Chunk SpanPtr} {ptr : SpanPtr}

section

variable (hlayout : HasLayout pages allocator chunks)

include hlayout

theorem HasLayout.freeSpan_iff (length : ℕ) : allocator.FreeSpan ptr length ↔
      ∃ c ∈ chunks, c.ptr = ptr ∧ c.pages = length ∧ c.used = false := by
  constructor
  · intro hfree
    rcases (hlayout.index.mem_iff length ptr).mp hfree.layer with
      ⟨c, hc, hptr, hpages⟩
    rw [mem_freeChunks] at hc
    exact ⟨c, hc.1, hptr, hpages, hc.2⟩
  · rintro ⟨c, hc, rfl, rfl, hfree⟩
    have hidle : c.ptr ∉ allocator.occupied := by
      rw [hlayout.occupied_of_mem hc, hfree]
      exact Bool.false_ne_true
    exact ⟨hlayout.heap.alive (List.mem_map_of_mem hc), hidle,
      (hlayout.bucket_of_mem hc hidle _).mpr rfl⟩

end

theorem HasLayout.used_span {front : List (Chunk SpanPtr)}
    (hlayout : HasLayout pages allocator' (front ++ ⟨ptr, need, true⟩ :: ys)) :
    ∃ block, allocator'.heap.spans ptr = some block ∧ block.pageLen = need ∧
      block.addr = allocator'.baseAddr + pageCount front * 2 ^ allocator'.config.pageIdemNum := by
  rcases hlayout.heap.spans ⟨ptr, need, true⟩ (by simp) with
    ⟨block, hblock, _⟩
  exact ⟨block, hblock, hlayout.used_pageLen (c := ⟨ptr, need, true⟩) (by simp) rfl hblock,
    hlayout.heap.addr_eq (c := ⟨ptr, need, true⟩) hblock⟩

theorem ServedFrom.cutFrom (hserved : ServedFrom pages allocator allocator' xs c ys need ptr)
    (hlayout : HasLayout pages allocator (xs ++ c :: ys)) :
    CutFrom allocator allocator' need ptr c.ptr c.pages := by
  rcases hlayout.heap.spans c (by simp) with ⟨before, hbefore, _⟩
  have haddr := hlayout.heap.addr_eq hbefore
  constructor
  · exact hserved.first
  · exact hserved.enough
  · intro layerId hne hle
    exact hserved.smallest layerId ((hlayout.index.ids_iff layerId).mpr hne) hle
  · exact hserved.occupied
  · rcases hserved.layout with ⟨hpages, _, hlayout'⟩ | ⟨hlt, _, hlayout'⟩
    · rcases hlayout'.used_span with
        ⟨block, hblock, hlength, hplace⟩
      refine ⟨before, block, hbefore, hblock, hlength, ?_⟩
      rw [hplace, haddr, hserved.range.config, hserved.range.baseAddr,
        hpages, Nat.sub_self, Nat.zero_mul, Nat.add_zero]
    · rw [List.append_cons] at hlayout'
      rcases hlayout'.used_span with
        ⟨block, hblock, hlength, hplace⟩
      refine ⟨before, block, hbefore, hblock, hlength, ?_⟩
      rw [hplace, haddr, hserved.range.config, hserved.range.baseAddr,
        pageCount_append, pageCount_cons, pageCount_nil, Nat.add_zero,
        Nat.add_mul, Nat.add_assoc]
  · rcases hserved.layout with ⟨hpages, hptr, _⟩ | ⟨hlt, hnew, hlayout'⟩
    · exact Or.inl ⟨hpages, hptr⟩
    · refine Or.inr ⟨hlt, hnew, (hlayout'.freeSpan_iff _).mpr ?_⟩
      exact ⟨⟨c.ptr, c.pages - need, false⟩, by simp, rfl, rfl, rfl⟩

/-- The answer to a request of some pages: a block if and only if a free span
is long enough, cut from the smallest layer. -/
structure BestFit (allocator allocator' : ScalableAllocator) (need : ℕ)
    (result : Option SpanPtr) : Prop where
  served_iff : result.isSome = true ↔
    ∃ ptr length, allocator.FreeSpan ptr length ∧ need ≤ length
  cut : ∀ ptr, result = some ptr →
    ∃ source fit, CutFrom allocator allocator' need ptr source fit

theorem alloc_bestFit (hlayout : HasLayout pages allocator chunks)
    (haccepted : allocator.config.Accepted) (hlift : 0 < allocator.config.spanLayerLiftMax)
    (hsize : size ≤ allocator.config.pageMemSizeTotalThreshold) :
    ∃ result allocator', allocator.alloc ⟨true, true⟩ size = some (result, allocator') ∧
      BestFit allocator allocator' (allocator.config.coveringPages size) result := by
  rcases alloc_outcome hlayout
    (show (⟨true, true⟩ : ObjectAnswers).layerOk = true from rfl) size with
    ⟨result, allocator', halloc, houtcome⟩
  refine ⟨result, allocator', halloc, ?_⟩
  rw [RefusedBecause, requestPages_eq haccepted hsize] at houtcome
  cases result with
  | none =>
    rcases houtcome with ⟨_, hreason⟩
    constructor
    · simp only [Option.isSome_none, Bool.false_eq_true, false_iff]
      rintro ⟨ptr, length, hfree, hle⟩
      rcases hreason with hlarge | hcapacity | hobject | hzero | hnone
      · exact absurd hsize (Nat.not_le.mpr hlarge)
      · have hlt := hlayout.index.lt_capacity length (by
              rw [LayerTable.layers_of_mem hfree.layer]
              exact Option.some_ne_none _)
        omega
      · cases hobject
      · omega
      · have hne : allocator.table.bucket length ≠ [] := List.ne_nil_of_mem hfree.layer
        have hlt := hnone length ((hlayout.index.ids_iff length).mpr hne)
        omega
    · intro ptr hsome
      cases hsome
  | some ptr =>
    rcases houtcome with ⟨xs, c, ys, rfl, hserved⟩
    constructor
    · simp only [Option.isSome_some, true_iff]
      refine ⟨c.ptr, c.pages, (hlayout.freeSpan_iff _).mpr ?_, hserved.enough⟩
      exact ⟨c, by simp, rfl, rfl, hserved.free⟩
    · intro other hsome
      rw [Option.some.injEq] at hsome
      rw [← hsome]
      exact ⟨c.ptr, c.pages, hserved.cutFrom hlayout⟩

structure OneFreeSpan (allocator : ScalableAllocator) (pages : ℕ)
    (ptr : SpanPtr) : Prop where
  living : ∀ other, allocator.heap.spans other ≠ none ↔ other = ptr
  occupied : allocator.occupied = []
  layer : allocator.table.bucket pages = [ptr]
  others : ∀ layerId, layerId ≠ pages →
    allocator.table.bucket layerId = []

theorem HasLayout.oneFreeSpan (hlayout : HasLayout pages allocator chunks)
    (hoccupied : allocator.occupied = []) : ∃ ptr, allocator.OneFreeSpan pages ptr := by
  have hfree : ∀ c ∈ chunks, c.used = false := by
    intro c hc
    rw [← Bool.not_eq_true, ← hlayout.occupied_of_mem hc, hoccupied]
    exact List.not_mem_nil
  rcases hlayout.coalesced.eq_singleton hfree hlayout.nonempty with ⟨c, rfl⟩
  have hpages : c.pages = pages := by
    rw [← hlayout.page_count]
    simp
  have hbucket : ∀ layerId other, other ∈ allocator.table.bucket layerId ↔
        other = c.ptr ∧ layerId = pages := by
    intro layerId other
    rw [hlayout.index.mem_iff, ← hpages]
    simp only [mem_freeChunks, List.mem_singleton]
    constructor
    · rintro ⟨d, ⟨rfl, _⟩, hptr, hlayer⟩
      exact ⟨hptr.symm, hlayer.symm⟩
    · rintro ⟨hptr, hlayer⟩
      exact ⟨c, ⟨rfl, hfree c (by simp)⟩, hptr.symm, hlayer.symm⟩
  refine ⟨c.ptr, ?_⟩
  constructor
  · intro other
    constructor
    · intro halive
      simpa using hlayout.heap.living other halive
    · intro hsame
      exact hlayout.heap.alive (by simp [hsame])
  · exact hoccupied
  · rw [← List.perm_singleton, List.perm_ext_iff_of_nodup
      (hlayout.index.nodup pages) (List.nodup_singleton _)]
    intro other
    rw [hbucket, List.mem_singleton]
    exact and_iff_left rfl
  · intro layerId hne
    rw [List.eq_nil_iff_forall_not_mem]
    intro other hmem
    exact hne ((hbucket layerId other).mp hmem).2

end ScalableAllocator

def FreesAll : ℕ → List ℕ → Prop
  | blocks, [] => blocks = 0
  | blocks, position :: rest => position < blocks ∧ FreesAll (blocks - 1) rest

variable {history : AllocHistory}

theorem AllocHistory.call_free_live {history' : AllocHistory} {position : ℕ}
    (hcall : history.call (.free position) = some history') :
    history'.live = history.live.eraseIdx position := by
  rw [AllocHistory.call] at hcall
  cases hfound : history.live[position]? with
  | none =>
    simp only [hfound, Option.some.injEq] at hcall
    rw [← hcall, List.eraseIdx_of_length_le]
    exact List.getElem?_eq_none_iff.mp hfound
  | some ptr =>
    simp only [hfound, Option.bind_eq_bind, Option.pure_def,
      Option.bind_eq_some_iff, Option.some.injEq] at hcall
    rcases hcall with ⟨allocator, _, hhistory⟩
    rw [← hhistory]

theorem AllocHistory.Inv.run_frees {pages : ℕ} (hinv : history.Inv pages) {order : List ℕ}
    (horder : FreesAll history.live.length order) :
    ∃ history', history.run (order.map AllocCall.free) = some history' ∧ history'.live = [] ∧
      ∃ ptr, history'.allocator.OneFreeSpan pages ptr := by
  induction order generalizing history with
  | nil =>
    have hlive : history.live = [] := List.length_eq_zero_iff.mp horder
    rcases hinv with ⟨hperm, chunks, hlayout⟩
    rw [hlive] at hperm
    exact ⟨history, rfl, hlive, hlayout.oneFreeSpan hperm.symm.eq_nil⟩
  | cons position rest ih =>
    rcases horder with ⟨hlt, hrest⟩
    rcases hinv.call (.free position) with ⟨history₁, hcall, hinv₁, _⟩
    have hlength : history₁.live.length = history.live.length - 1 := by
      rw [AllocHistory.call_free_live hcall, List.length_eraseIdx_of_lt hlt]
    rw [← hlength] at hrest
    rcases ih hinv₁ hrest with ⟨history', hrun, hdone⟩
    refine ⟨history', ?_, hdone⟩
    rwa [List.map_cons, AllocHistory.run_cons hcall]

/-- What holds of a state in which no object is missing: requests up to the
threshold get the best fit, and the blocks can be freed down to one span. -/
structure AllocHistory.Serves (config : ScalableConfig) (pages : ℕ)
    (history : AllocHistory) : Prop where
  bestFit : ∀ size, size ≤ config.pageMemSizeTotalThreshold →
    ∃ result allocator', history.allocator.alloc ⟨true, true⟩ size = some (result, allocator') ∧
      ScalableAllocator.BestFit history.allocator allocator' (config.coveringPages size) result
  coalesces : ∀ order, FreesAll history.live.length order →
    ∃ emptied, history.run (order.map AllocCall.free) = some emptied ∧ emptied.live = [] ∧
      ∃ ptr, emptied.allocator.OneFreeSpan pages ptr

theorem allocatorRun_bestFit (config : ScalableConfig) (preparedSpans base total : ℕ)
    (answers : ObjectAnswers) (allocator : ScalableAllocator)
    (hinit : (ScalableAllocator.fresh config
      preparedSpans).initFixSizedAllocator answers base total = some (.success, allocator))
    (htotal : total < 2 ^ 64) (hpages : total / 2 ^ config.pageIdemNum < 2 ^ 32)
    (haccepted : config.Accepted) (hlift : 0 < config.spanLayerLiftMax) (calls : List AllocCall) :
    ∃ history, AllocHistory.run ⟨allocator, []⟩ calls = some history ∧
      history.Serves config (total / 2 ^ config.pageIdemNum) := by
  rcases AllocHistory.inv_of_init hinit htotal hpages with
    ⟨hinv, hconfig, _⟩
  rcases hinv.run calls with ⟨history, hrun, hinv', hrange⟩
  have hsame : history.allocator.config = config := hrange.config.trans hconfig
  refine ⟨history, hrun, ?_, ?_⟩
  · intro size hsize
    rcases hinv' with ⟨_, chunks, hlayout⟩
    rw [← hsame] at haccepted hlift hsize ⊢
    exact ScalableAllocator.alloc_bestFit hlayout haccepted hlift hsize
  · intro order horder
    exact hinv'.run_frees horder

theorem smallPool_accepted : smallPool.Accepted := ⟨by decide, by decide, by decide⟩

/-- A block of one page and a block of three pages, of which the first is
freed again. -/
theorem allocatorRun_bestFit_smallPool :
    ∃ allocator, (ScalableAllocator.fresh smallPool 2).initFixSizedAllocator
          ⟨true, true⟩ 65536 8192 = some (.success, allocator) ∧
        ∃ history, AllocHistory.run ⟨allocator, []⟩ [.alloc 1000 true, .alloc 3000 true, .free 1] =
            some history ∧ history.Serves smallPool (8192 / 2 ^ 10) :=
  ⟨_, rfl, allocatorRun_bestFit smallPool 2 65536 8192 ⟨true, true⟩ _ rfl
    (by decide) (by decide) smallPool_accepted (by decide) _⟩

/-- No block has been allocated, and the free span is in the layer of one page. -/
theorem allocatorRun_bestFit_widePool :
    ∃ allocator, (ScalableAllocator.fresh widePool 1).initFixSizedAllocator
          ⟨true, true⟩ 0 (2 ^ 48 + 2 ^ 16) = some (.success, allocator) ∧
        ¬ AllocHistory.Serves widePool ((2 ^ 48 + 2 ^ 16) / 2 ^ 16) ⟨allocator, []⟩ := by
  refine ⟨_, rfl, fun hserves => ?_⟩
  obtain ⟨emptied, hrun, -, ptr, hone⟩ := hserves.coalesces [] rfl
  cases hrun
  cases hone.layer

end Hixl
