import Hixl.ScalableAllocatorLayout

/-!
# What an allocation does

An allocation that is served takes the first span of the smallest layer that is
large enough.  A span of the requested length becomes used; a longer one keeps
its front, and its end becomes a new used span.  An allocation that is refused
leaves the layout as it is.
-/

namespace Hixl

open ChunkLayouts

namespace LayerTable

variable {ids : Finset ℕ} {pageLen : ℕ}

theorem lowerBound_some {layerId : ℕ} (hfound : lowerBound ids pageLen = some layerId) :
    layerId ∈ ids ∧ pageLen ≤ layerId ∧ ∀ other ∈ ids, pageLen ≤ other → layerId ≤ other := by
  unfold lowerBound at hfound
  split_ifs at hfound with hfit
  rw [Option.some.injEq] at hfound
  have hmem := Finset.min'_mem _ hfit
  rw [hfound, Finset.mem_filter] at hmem
  refine ⟨hmem.1, hmem.2, ?_⟩
  intro other hother hle
  rw [← hfound]
  exact Finset.min'_le _ _ (Finset.mem_filter.mpr ⟨hother, hle⟩)

theorem lowerBound_none (hnone : lowerBound ids pageLen = none) :
    ∀ other ∈ ids, other < pageLen := by
  unfold lowerBound at hnone
  split_ifs at hnone with hfit
  intro other hother
  by_contra hle
  exact hfit ⟨other, Finset.mem_filter.mpr ⟨hother, Nat.le_of_not_lt hle⟩⟩

end LayerTable

namespace ScalableAllocator

variable {pages : ℕ} {allocator allocator' : ScalableAllocator} {chunks : List (Chunk SpanPtr)}

def requestPages (config : ScalableConfig) (size : ℕ) : ℕ :=
  pageLenGetLenFromSize (config.getAllocSize size) config.pageIdemNum

/-- A request for some pages was served from a chunk of the smallest layer that
is large enough. -/
structure ServedFrom (pages : ℕ) (allocator allocator' : ScalableAllocator)
    (xs : List (Chunk SpanPtr)) (c : Chunk SpanPtr)
    (ys : List (Chunk SpanPtr)) (need : ℕ) (ptr : SpanPtr) : Prop where
  free : c.used = false
  first : (allocator.table.bucket c.pages).head? = some c.ptr
  enough : need ≤ c.pages
  smallest : ∀ layerId ∈ allocator.table.ids, need ≤ layerId →
    c.pages ≤ layerId
  layout : (c.pages = need ∧ ptr = c.ptr ∧
      HasLayout pages allocator' (xs ++ ⟨ptr, need, true⟩ :: ys)) ∨
    (need < c.pages ∧ allocator.heap.spans ptr = none ∧
      HasLayout pages allocator' (xs ++ ⟨c.ptr, c.pages - need, false⟩ :: ⟨ptr, need, true⟩ :: ys))
  occupied : allocator'.occupied = ptr :: allocator.occupied
  range : SameRange allocator allocator'

def Served (pages : ℕ) (allocator allocator' : ScalableAllocator)
    (chunks : List (Chunk SpanPtr)) (need : ℕ) (ptr : SpanPtr) : Prop :=
  ∃ xs c ys, chunks = xs ++ c :: ys ∧ ServedFrom pages allocator allocator' xs c ys need ptr

structure Refused (pages : ℕ) (allocator allocator' : ScalableAllocator)
    (chunks : List (Chunk SpanPtr)) : Prop where
  layout : HasLayout pages allocator' chunks
  occupied : allocator'.occupied = allocator.occupied
  range : SameRange allocator allocator'

def Outcome (pages : ℕ) (allocator allocator' : ScalableAllocator)
    (chunks : List (Chunk SpanPtr)) (need : ℕ) (reason : Prop) : Option SpanPtr → Prop
  | none => Refused pages allocator allocator' chunks ∧ reason
  | some ptr => Served pages allocator allocator' chunks need ptr

section

variable (hlayout : HasLayout pages allocator chunks)

include hlayout

theorem HasLayout.refused : Refused pages allocator allocator chunks :=
  ⟨hlayout, rfl, rfl, rfl⟩

theorem HasLayout.first_of_ids {layerId : ℕ} (hmem : layerId ∈ allocator.table.ids) :
    ∃ xs c ys rest, chunks = xs ++ c :: ys ∧ c.used = false ∧ c.pages = layerId ∧
      allocator.table.bucket c.pages = c.ptr :: rest := by
  rw [hlayout.index.ids_iff] at hmem
  rcases List.exists_cons_of_ne_nil hmem with ⟨ptr, rest, hbucket⟩
  rcases @free_of_bucket pages allocator chunks hlayout layerId ptr
    (by simp [hbucket]) with ⟨xs, c, ys, rfl, rfl, rfl, hfree⟩
  exact ⟨xs, c, ys, rest, rfl, hfree, rfl, hbucket⟩

end

/-! ## Finding a span -/

variable {answers : ObjectAnswers} {need : ℕ}

section

variable (hlayout : HasLayout pages allocator chunks)

include hlayout

theorem fetchSpan_of_larger (hlayer : answers.layerOk = true) (hnot : need ∉ allocator.table.ids)
    (hneed : need < allocator.config.spanLayerCapacity) :
    ∃ result allocator', allocator.fetchSpan answers need = some (result, allocator') ∧
      Outcome pages allocator allocator' chunks need
        (answers.spanOk = false ∨ allocator.config.spanLayerLiftMax = 0 ∨
          ∀ layerId ∈ allocator.table.ids, layerId < need) result := by
  have hword := spanLayerCapacity_lt allocator.config
  have hnext : wrapAdd 32 need 1 = need + 1 := Nat.mod_eq_of_lt (by omega)
  have hempty : allocator.table.bucket need = [] := by
    rw [hlayout.index.ids_iff] at hnot
    exact not_not.mp hnot
  have hfetch : allocator.fetchSpan answers need =
      if allocator.table.findFitLayerId (need + 1) allocator.config.spanLayerLiftMax ≥
            allocator.config.spanLayerCapacity then some (none, allocator)
      else allocator.fetchSplitedSpan answers need (allocator.table.findFitLayerId (need + 1)
          allocator.config.spanLayerLiftMax) := by
    rw [fetchSpan, fetchLayerSpan_empty hlayout hempty, hnext.symm]
    rfl
  rw [hfetch, LayerTable.findFitLayerId]
  have hinvalid : spanLayerIdInvalid ≥
      allocator.config.spanLayerCapacity := by
    rw [spanLayerIdInvalid, wordMax]
    omega
  by_cases hlift : allocator.config.spanLayerLiftMax = 0
  · rw [if_pos hlift, if_pos hinvalid]
    exact ⟨none, allocator, rfl, hlayout.refused, Or.inr (Or.inl hlift)⟩
  rw [if_neg hlift]
  cases hbound : LayerTable.lowerBound allocator.table.ids (need + 1) with
  | none =>
    rw [Option.getD_none, if_pos hinvalid]
    refine ⟨none, allocator, rfl, hlayout.refused, Or.inr (Or.inr ?_)⟩
    intro layerId hmem
    have hlt := LayerTable.lowerBound_none hbound layerId hmem
    have hne : layerId ≠ need := by
      rintro rfl
      exact hnot hmem
    omega
  | some fit =>
    rcases LayerTable.lowerBound_some hbound with ⟨hmem, hle, hleast⟩
    rcases hlayout.first_of_ids hmem with
      ⟨xs, c, ys, rest, rfl, hfree, rfl, hbucket⟩
    have hfit : ¬c.pages ≥ allocator.config.spanLayerCapacity := by
      have hpages := hlayout.pages_le (c := c) (by simp)
      have hcapacity := hlayout.lt_capacity
      omega
    rw [Option.getD_some, if_neg hfit]
    rcases answers with ⟨spanOk, layerOk⟩
    rcases hlayer with rfl
    cases spanOk with
    | false =>
      rcases fetchSplitedSpan_refused hlayout hfree hbucket hle true with
        ⟨allocator', hsplit, hlayout', hoccupied, hrange⟩
      exact ⟨none, allocator', hsplit, ⟨hlayout', hoccupied, hrange⟩, Or.inl rfl⟩
    | true =>
      rcases fetchSplitedSpan_cut hlayout hfree hbucket hle with
        ⟨buddy, allocator', hsplit, hlayout', hoccupied, hrange, hfresh⟩
      refine ⟨some buddy, allocator', hsplit, xs, c, ys, rfl, hfree,
        by simp [hbucket], Nat.le_of_lt hle, ?_,
        Or.inr ⟨hle, hfresh, hlayout'⟩, hoccupied, hrange⟩
      intro layerId hlayerId hneed'
      apply hleast layerId hlayerId
      have hne : layerId ≠ need := by
        rintro rfl
        exact hnot hlayerId
      omega

theorem fetchSpan_outcome
    (hlayer : answers.layerOk = true) (hneed : need < allocator.config.spanLayerCapacity) :
    ∃ result allocator', allocator.fetchSpan answers need = some (result, allocator') ∧
      Outcome pages allocator allocator' chunks need
        (answers.spanOk = false ∨ allocator.config.spanLayerLiftMax = 0 ∨
          ∀ layerId ∈ allocator.table.ids, layerId < need) result := by
  by_cases hmem : need ∈ allocator.table.ids
  · rcases hlayout.first_of_ids hmem with
      ⟨xs, c, ys, rest, rfl, hfree, rfl, hbucket⟩
    rcases fetchLayerSpan_taken hlayout hfree hbucket with
      ⟨allocator', hfetch, hlayout', hoccupied, hrange⟩
    refine ⟨some c.ptr, allocator', ?_, xs, c, ys, rfl, ?_⟩
    · rw [fetchSpan, hfetch]
      rfl
    · exact ⟨hfree, by simp [hbucket], Nat.le_refl _, fun _ _ hle => hle,
        Or.inl ⟨rfl, rfl, hlayout'⟩, hoccupied, hrange⟩
  · exact fetchSpan_of_larger hlayout hlayer hmem hneed

end

/-- The real size of a span and the statistics are not part of the layout. -/
theorem HasLayout.note (hlayout : HasLayout pages allocator chunks) {c : Chunk SpanPtr}
    (hmem : c ∈ chunks) {span : PageSpan} (hspan : allocator.heap.spans c.ptr = some span)
    (size : ℕ) (stats : AllocStats) : HasLayout pages
      { allocator with
        heap := allocator.heap.put c.ptr { span with realSize := size }
        stats := stats } chunks := by
  rcases List.append_of_mem hmem with ⟨xs, ys, rfl⟩
  have hmatches := hlayout.heap.spanMatches hmem hspan
  refine { hlayout with heap := ?_ }
  apply hlayout.heap.put hspan
  all_goals first | rfl | exact ⟨hmatches.used, hmatches.free⟩

variable {ptr : SpanPtr}

section

variable (hserved : Served pages allocator allocator' chunks need ptr)

include hserved

theorem Served.span : ∃ span, allocator'.heap.spans ptr = some span := by
  rcases hserved with ⟨xs, c, ys, _, hfrom⟩
  rcases hfrom.layout with ⟨_, _, hlayout⟩ | ⟨_, _, hlayout⟩
  all_goals
    rcases hlayout.heap.spans ⟨ptr, need, true⟩ (by simp) with ⟨span, hspan, _⟩
    exact ⟨span, hspan⟩

theorem Served.note {span : PageSpan}
    (hspan : allocator'.heap.spans ptr = some span) (size : ℕ) (stats : AllocStats) :
    Served pages allocator
      { allocator' with
        heap := allocator'.heap.put ptr { span with realSize := size }
        stats := stats } chunks need ptr := by
  rcases hserved with ⟨xs, c, ys, hchunks, hfrom⟩
  refine ⟨xs, c, ys, hchunks, { hfrom with
    layout := ?_, range := ⟨hfrom.range.config, hfrom.range.baseAddr⟩ }⟩
  rcases hfrom.layout with ⟨hpages, hptr, hlayout⟩ | ⟨hlt, hfresh, hlayout⟩
  · exact Or.inl ⟨hpages, hptr, @HasLayout.note pages allocator' _ hlayout
      ⟨ptr, need, true⟩ (by simp) span hspan size stats⟩
  · exact Or.inr ⟨hlt, hfresh, @HasLayout.note pages allocator' _ hlayout
      ⟨ptr, need, true⟩ (by simp) span hspan size stats⟩

end

def RefusedBecause (allocator : ScalableAllocator) (answers : ObjectAnswers) (size : ℕ) : Prop :=
  size > allocator.config.pageMemSizeTotalThreshold ∨ requestPages allocator.config size ≥
      allocator.config.spanLayerCapacity ∨
    answers.spanOk = false ∨ allocator.config.spanLayerLiftMax = 0 ∨
    ∀ layerId ∈ allocator.table.ids, layerId < requestPages allocator.config size

theorem alloc_outcome (hlayout : HasLayout pages allocator chunks) (hlayer : answers.layerOk = true)
    (size : ℕ) : ∃ result allocator', allocator.alloc answers size = some (result, allocator') ∧
      Outcome pages allocator allocator' chunks (requestPages allocator.config size)
        (allocator.RefusedBecause answers size) result := by
  unfold ScalableAllocator.alloc
  by_cases hthreshold : size > allocator.config.pageMemSizeTotalThreshold
  · rw [if_pos hthreshold]
    exact ⟨none, allocator, rfl, hlayout.refused, Or.inl hthreshold⟩
  rw [if_neg hthreshold]
  have hneed : pageLenGetLenFromSize (allocator.config.getAllocSize size)
      allocator.config.pageIdemNum = requestPages allocator.config size := rfl
  unfold allocImp
  dsimp only
  rw [hneed]
  by_cases hcapacity : requestPages allocator.config size ≥ allocator.config.spanLayerCapacity
  · rw [if_pos hcapacity]
    exact ⟨none, allocator, rfl, hlayout.refused, Or.inr (Or.inl hcapacity)⟩
  rw [if_neg hcapacity]
  rcases fetchSpan_outcome hlayout hlayer (Nat.lt_of_not_le hcapacity) with
    ⟨result, allocator₁, hfetch, houtcome⟩
  rw [hfetch]
  simp only [Option.bind_eq_bind, Option.bind_some]
  cases result with
  | none => exact ⟨none, allocator₁, rfl, houtcome.1, Or.inr (Or.inr houtcome.2)⟩
  | some ptr =>
    have hserved : Served pages allocator allocator₁ chunks
      (requestPages allocator.config size) ptr := houtcome
    rcases hserved.span with ⟨span, hspan⟩
    simp only [SpanHeap.modify_eq hspan, Option.bind_some, Option.pure_def, SpanHeap.put_self]
    exact ⟨some ptr, _, rfl, hserved.note hspan size _⟩

end ScalableAllocator

end Hixl
