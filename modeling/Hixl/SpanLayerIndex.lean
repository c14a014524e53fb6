import Hixl.ChunkLayouts
import Hixl.ScalableAllocatorModel

/-!
# The index of free spans

The layers index the free chunks of a layout by their page count, and the
lookup set holds the ids of the layers that are not empty.  Taking a span out
of its layer and putting one in change the indexed chunks by exactly this span.
-/

namespace Hixl

open ChunkLayouts

namespace LayerTable

def bucket (table : LayerTable) (layerId : ℕ) : List SpanPtr := (table.layers layerId).getD []

theorem bucket_of_layers {table : LayerTable} {layerId : ℕ} {spans : List SpanPtr}
    (hlayer : table.layers layerId = some spans) : table.bucket layerId = spans := by
  simp [bucket, hlayer]

theorem layers_of_mem {table : LayerTable} {layerId : ℕ} {ptr : SpanPtr}
    (hmem : ptr ∈ table.bucket layerId) : table.layers layerId = some (table.bucket layerId) := by
  unfold bucket at hmem ⊢
  cases hlayer : table.layers layerId with
  | none => simp [hlayer] at hmem
  | some spans => rfl

structure Indexes (capacity : ℕ) (table : LayerTable)
    (chunks : List (Chunk SpanPtr)) : Prop where
  mem_iff : ∀ layerId ptr, ptr ∈ table.bucket layerId ↔
    ∃ c ∈ chunks, c.ptr = ptr ∧ c.pages = layerId
  nodup : ∀ layerId, (table.bucket layerId).Nodup
  ids_iff : ∀ layerId, layerId ∈ table.ids ↔ table.bucket layerId ≠ []
  lt_capacity : ∀ layerId, table.layers layerId ≠ none → layerId < capacity

section SetLayer

variable {capacity : ℕ} {table table' : LayerTable} {layerId : ℕ}
  {spans : List SpanPtr} {chunks chunks' : List (Chunk SpanPtr)}

theorem bucket_setLayer (hlayers : table'.layers = table.setLayer layerId spans) (other : ℕ) :
    table'.bucket other =
      if other = layerId then spans else table.bucket other := by
  unfold bucket
  rw [hlayers, setLayer, Function.update_apply]
  split_ifs <;> rfl

theorem Indexes.setLayer (hindex : Indexes capacity table chunks)
    (hlayers : table'.layers = table.setLayer layerId spans) (hold : table.layers layerId ≠ none)
    (hnodup : spans.Nodup)
    (hmem : ∀ other ptr, ptr ∈ (if other = layerId then spans else table.bucket other) ↔
        ∃ c ∈ chunks', c.ptr = ptr ∧ c.pages = other) (hids : ∀ other, other ∈ table'.ids ↔
      (if other = layerId then spans else table.bucket other) ≠ []) :
    Indexes capacity table' chunks' := by
  constructor
  · intro other ptr
    rw [bucket_setLayer hlayers]
    exact hmem other ptr
  · intro other
    rw [bucket_setLayer hlayers]
    split_ifs
    · exact hnodup
    · exact hindex.nodup other
  · intro other
    rw [bucket_setLayer hlayers]
    exact hids other
  · intro other hother
    apply hindex.lt_capacity
    rw [hlayers, LayerTable.setLayer, Function.update_apply] at hother
    split_ifs at hother with heq
    · rwa [heq]
    · exact hother

theorem mem_onLayerRemoveSpan (hindex : Indexes capacity table chunks)
    (hsub : spans ≠ [] → table.bucket layerId ≠ []) (other : ℕ) :
    other ∈ onLayerRemoveSpan table.ids layerId spans ↔
      (if other = layerId then spans else table.bucket other) ≠ [] := by
  unfold onLayerRemoveSpan
  by_cases hempty : spans = []
  · rw [hempty, List.length_nil, if_pos rfl, Finset.mem_erase, hindex.ids_iff]
    split_ifs with heq <;> simp [heq]
  · rw [if_neg (by simpa using hempty), hindex.ids_iff]
    split_ifs with heq
    · rw [heq]
      exact ⟨fun _ => hempty, hsub⟩
    · exact Iff.rfl

theorem mem_onLayerAddSpan (hindex : Indexes capacity table chunks) (ptr : SpanPtr) (other : ℕ) :
    other ∈ onLayerAddSpan table.ids layerId (ptr :: table.bucket layerId) ↔
      (if other = layerId then ptr :: table.bucket layerId else table.bucket other) ≠ [] := by
  unfold onLayerAddSpan
  by_cases hempty : table.bucket layerId = []
  · rw [hempty, List.length_singleton, if_pos rfl, Finset.mem_insert, hindex.ids_iff]
    split_ifs with heq <;> simp [heq]
  · rw [if_neg (by simpa using hempty), hindex.ids_iff]
    split_ifs with heq
    · rw [heq]
      simp [hempty]
    · exact Iff.rfl

end SetLayer

variable {capacity : ℕ} {table : LayerTable} {chunks chunks' : List (Chunk SpanPtr)}

theorem Indexes.take (hindex : Indexes capacity table chunks) {c : Chunk SpanPtr}
    (hmem : c ∈ chunks) (hone : ∀ d ∈ chunks, d.ptr = c.ptr → d = c)
    (hrest : ∀ d, d ∈ chunks' ↔ d ∈ chunks ∧ d ≠ c) : Indexes capacity
      { layers := table.setLayer c.pages ((table.bucket c.pages).erase c.ptr)
        ids := onLayerRemoveSpan table.ids c.pages
          ((table.bucket c.pages).erase c.ptr) } chunks' := by
  have hptr : c.ptr ∈ table.bucket c.pages := (hindex.mem_iff _ _).mpr ⟨c, hmem, rfl, rfl⟩
  have hnodup := hindex.nodup c.pages
  apply hindex.setLayer rfl
  · rw [layers_of_mem hptr]
    simp
  · exact hnodup.erase _
  · intro other ptr
    have hchunks : (∃ d ∈ chunks', d.ptr = ptr ∧ d.pages = other) ↔
        ptr ≠ c.ptr ∧ ptr ∈ table.bucket other := by
      rw [hindex.mem_iff]
      constructor
      · rintro ⟨d, hd, rfl, rfl⟩
        rcases (hrest d).mp hd with ⟨hd, hne⟩
        exact ⟨fun hsame => hne (hone d hd hsame), d, hd, rfl, rfl⟩
      · rintro ⟨hne, d, hd, rfl, rfl⟩
        refine ⟨d, (hrest d).mpr ⟨hd, ?_⟩, rfl, rfl⟩
        rintro rfl
        exact hne rfl
    rw [hchunks]
    split_ifs with heq
    · rw [heq, hnodup.mem_erase_iff]
    · constructor
      · intro hptr'
        refine ⟨?_, hptr'⟩
        rintro rfl
        rcases (hindex.mem_iff _ _).mp hptr' with ⟨d, hd, hsame, hpages⟩
        rw [hone d hd hsame] at hpages
        exact heq hpages.symm
      · exact fun h => h.2
  · exact mem_onLayerRemoveSpan hindex fun _ => List.ne_nil_of_mem hptr

theorem popSpan_eq {layerId : ℕ} {ptr : SpanPtr} {rest : List SpanPtr}
    (hbucket : table.bucket layerId = ptr :: rest) : table.popSpan layerId = some (some ptr,
      { layers := table.setLayer layerId ((table.bucket layerId).erase ptr)
        ids := onLayerRemoveSpan table.ids layerId
          ((table.bucket layerId).erase ptr) }) := by
  have hlayer : table.layers layerId = some (ptr :: rest) := by
    rw [← hbucket]
    apply layers_of_mem
    rw [hbucket]
    exact List.mem_cons_self
  unfold popSpan
  rw [hlayer, hbucket, List.erase_cons_head]

theorem popSpan_eq_of_empty (hindex : Indexes capacity table chunks) {layerId : ℕ}
    (hlayer : table.layers layerId = some []) : table.popSpan layerId = some (none, table) := by
  have hnot : layerId ∉ table.ids := by
    rw [hindex.ids_iff, bucket_of_layers hlayer]
    simp
  unfold popSpan onLayerRemoveSpan
  rw [hlayer]
  simp [Finset.erase_eq_of_notMem hnot]

theorem removeSpan_eq {layerId : ℕ} {ptr : SpanPtr} (hmem : ptr ∈ table.bucket layerId) :
    table.removeSpan layerId ptr = some
      { layers := table.setLayer layerId ((table.bucket layerId).erase ptr)
        ids := onLayerRemoveSpan table.ids layerId
          ((table.bucket layerId).erase ptr) } := by
  unfold removeSpan
  rw [layers_of_mem hmem]
  simp [hmem]

theorem Indexes.pushSpan (hindex : Indexes capacity table chunks) {c : Chunk SpanPtr}
    (hlayer : table.layers c.pages ≠ none) (hfresh : ∀ d ∈ chunks, d.ptr ≠ c.ptr)
    (hmore : ∀ d, d ∈ chunks' ↔ d = c ∨ d ∈ chunks) :
    ∃ table', table.pushSpan c.pages c.ptr = some table' ∧ Indexes capacity table' chunks' ∧
      table'.bucket c.pages = c.ptr :: table.bucket c.pages := by
  rcases Option.ne_none_iff_exists'.mp hlayer with ⟨spans, hspans⟩
  have hbucket := bucket_of_layers hspans
  refine ⟨_, by rw [LayerTable.pushSpan, hspans], ?_, ?_⟩
  · rw [← hbucket]
    apply hindex.setLayer rfl hlayer
    · refine List.nodup_cons.mpr ⟨?_, hindex.nodup _⟩
      intro hmem
      rcases (hindex.mem_iff _ _).mp hmem with ⟨d, hd, hsame, _⟩
      exact hfresh d hd hsame
    · intro other ptr
      have hchunks : (∃ d ∈ chunks', d.ptr = ptr ∧ d.pages = other) ↔
          (c.ptr = ptr ∧ c.pages = other) ∨ ptr ∈ table.bucket other := by
        rw [hindex.mem_iff]
        constructor
        · rintro ⟨d, hd, hfields⟩
          rcases (hmore d).mp hd with rfl | hd
          · exact Or.inl hfields
          · exact Or.inr ⟨d, hd, hfields⟩
        · rintro (hfields | ⟨d, hd, hfields⟩)
          · exact ⟨c, (hmore c).mpr (Or.inl rfl), hfields⟩
          · exact ⟨d, (hmore d).mpr (Or.inr hd), hfields⟩
      rw [hchunks]
      split_ifs with heq
      · rw [heq, List.mem_cons]
        tauto
      · constructor
        · exact Or.inr
        · rintro (⟨_, hpages⟩ | hmem)
          · exact absurd hpages.symm heq
          · exact hmem
    · exact mem_onLayerAddSpan hindex c.ptr
  · rw [bucket_setLayer rfl, if_pos rfl, hbucket]

theorem Indexes.fetchSpanLayer (hindex : Indexes capacity table chunks) {layerId : ℕ}
    (hlt : layerId < capacity) :
    ∃ table', table.fetchSpanLayer capacity true layerId = (true, table') ∧
      Indexes capacity table' chunks ∧ table'.layers layerId ≠ none ∧ table'.ids = table.ids ∧
      ∀ other, table'.bucket other = table.bucket other := by
  unfold LayerTable.fetchSpanLayer
  rw [if_neg (Nat.not_le.mpr hlt)]
  cases hlayer : table.layers layerId with
  | some spans => exact ⟨table, rfl, hindex, by simp [hlayer], rfl, fun _ => rfl⟩
  | none =>
    have hsame : ∀ other, LayerTable.bucket ⟨table.setLayer layerId [], table.ids⟩ other =
          table.bucket other := by
      intro other
      rw [bucket_setLayer rfl]
      split_ifs with heq
      · rw [heq, bucket, hlayer]
        rfl
      · rfl
    refine ⟨⟨table.setLayer layerId [], table.ids⟩, rfl, ?_,
      by simp [LayerTable.setLayer], rfl, hsame⟩
    constructor
    · intro other ptr
      rw [hsame]
      exact hindex.mem_iff other ptr
    · intro other
      rw [hsame]
      exact hindex.nodup other
    · intro other
      rw [hsame]
      exact hindex.ids_iff other
    · intro other hother
      by_cases heq : other = layerId
      · rwa [heq]
      · apply hindex.lt_capacity
        simpa [LayerTable.setLayer, heq] using hother

end LayerTable

end Hixl
