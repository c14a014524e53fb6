import Hixl.ChunkLayouts
import Hixl.LinkedChains
import Hixl.ScalableAllocatorModel

/-!
# Layouts held by the span heap

The living span objects hold a layout: their buddy links chain them in the
order of the chunks, they stand at consecutive addresses, and their use counts
and page counts are those of the chunks.  A span that is free and alone may
still lack its page count, because it never was cut or merged.
-/

namespace Hixl

open ChunkLayouts LinkedChains

namespace SpanHeap

def links (heap : SpanHeap) : Links SpanPtr where
  prev ptr := (heap.spans ptr).bind PageSpan.prevBuddy
  next ptr := (heap.spans ptr).bind PageSpan.nextBuddy

def addrOf (heap : SpanHeap) (ptr : SpanPtr) : Option ℕ := (heap.spans ptr).map PageSpan.addr

variable {ptr : SpanPtr} {span : PageSpan}

section

variable {heap : SpanHeap} (hspan : heap.spans ptr = some span)

include hspan

theorem links_prev : heap.links.prev ptr = span.prevBuddy := by
  simp [links, hspan]

theorem links_next : heap.links.next ptr = span.nextBuddy := by
  simp [links, hspan]

theorem addrOf_eq : heap.addrOf ptr = some span.addr := by
  simp [addrOf, hspan]

end

/-! ## Object allocation -/

structure ObjectsOk (heap : SpanHeap) : Prop where
  elems_nodup : heap.elems.Nodup
  elems_dead : ∀ ptr ∈ heap.elems, heap.spans ptr = none
  elems_lt : ∀ ptr ∈ heap.elems, ptr < heap.nextObject
  unused_dead : ∀ ptr, heap.nextObject ≤ ptr → heap.spans ptr = none

theorem ObjectsOk.congr {heap heap' : SpanHeap} (hobjects : ObjectsOk heap)
    (helems : heap'.elems = heap.elems) (hnext : heap'.nextObject = heap.nextObject)
    (hdead : ∀ ptr, heap.spans ptr = none → heap'.spans ptr = none) : ObjectsOk heap' := by
  constructor
  · rw [helems]
    exact hobjects.elems_nodup
  · rw [helems]
    exact fun ptr hmem => hdead ptr (hobjects.elems_dead ptr hmem)
  · rw [helems, hnext]
    exact hobjects.elems_lt
  · rw [hnext]
    exact fun ptr hle => hdead ptr (hobjects.unused_dead ptr hle)

section

variable {heap : SpanHeap} {other : SpanPtr}

@[simp] theorem put_self (ptr : SpanPtr) (span : PageSpan) :
    (heap.put ptr span).spans ptr = some span := by
  simp [SpanHeap.put]

theorem put_of_ne (hne : other ≠ ptr) (span : PageSpan) :
    (heap.put ptr span).spans other = heap.spans other := by
  simp [SpanHeap.put, hne]

end

section

variable {heap : SpanHeap} (hobjects : ObjectsOk heap)

include hobjects

theorem ObjectsOk.alloc (span : PageSpan) : ∃ ptr heap', heap.alloc true = (some ptr, heap') ∧
      heap.spans ptr = none ∧ heap'.spans = heap.spans ∧ ObjectsOk (heap'.put ptr span) := by
  unfold SpanHeap.alloc
  cases helems : heap.elems with
  | nil =>
    refine ⟨heap.nextObject, { heap with nextObject := heap.nextObject + 1 },
      by simp [helems], hobjects.unused_dead _ (Nat.le_refl _), rfl, ?_⟩
    refine ⟨hobjects.elems_nodup, ?_, ?_, fun ptr hle => ?_⟩
    · exact fun ptr hmem => absurd hmem (by simp [put, helems])
    · exact fun ptr hmem => absurd hmem (by simp [put, helems])
    · have hlt : heap.nextObject < ptr := hle
      exact (put_of_ne hlt.ne' span).trans (hobjects.unused_dead ptr hlt.le)
  | cons elem rest =>
    have hnodup := hobjects.elems_nodup
    rw [helems, List.nodup_cons] at hnodup
    have hrest : rest ⊆ heap.elems := helems ▸ List.subset_cons_self elem rest
    have hmem : elem ∈ heap.elems := helems ▸ List.mem_cons_self
    refine ⟨elem, { heap with elems := rest }, rfl, hobjects.elems_dead elem hmem, rfl, hnodup.2,
      fun ptr hptr => ?_, fun ptr hptr => hobjects.elems_lt ptr (hrest hptr), fun ptr hle => ?_⟩
    · have hne : ptr ≠ elem := ne_of_mem_of_not_mem hptr hnodup.1
      exact (put_of_ne hne span).trans (hobjects.elems_dead ptr (hrest hptr))
    · have hne : ptr ≠ elem := ((hobjects.elems_lt elem hmem).trans_le hle).ne'
      exact (put_of_ne hne span).trans (hobjects.unused_dead ptr hle)

theorem ObjectsOk.put (halive : heap.spans ptr ≠ none) (span : PageSpan) :
    ObjectsOk (heap.put ptr span) := by
  apply hobjects.congr
  · rfl
  · rfl
  · intro other hdead
    have hne : other ≠ ptr := by
      rintro rfl
      exact halive hdead
    rwa [put_of_ne hne]

theorem ObjectsOk.free (halive : heap.spans ptr ≠ none) : ObjectsOk (heap.free ptr) := by
  have hfree : ∀ other, heap.spans other = none → (heap.free ptr).spans other = none := by
    intro other hdead
    by_cases heq : other = ptr
    · simp [SpanHeap.free, heq]
    · simp [SpanHeap.free, heq, hdead]
  constructor
  · refine List.nodup_cons.mpr ⟨?_, hobjects.elems_nodup⟩
    intro hmem
    exact halive (hobjects.elems_dead ptr hmem)
  · refine List.forall_mem_cons.mpr ⟨by simp [SpanHeap.free], ?_⟩
    exact fun other hmem => hfree other (hobjects.elems_dead other hmem)
  · refine List.forall_mem_cons.mpr ⟨?_, hobjects.elems_lt⟩
    by_contra hle
    exact halive (hobjects.unused_dead _ (Nat.le_of_not_lt hle))
  · intro other hle
    exact hfree other (hobjects.unused_dead other hle)

end

structure SpanMatches (single : Prop) (span : PageSpan)
    (c : Chunk SpanPtr) : Prop where
  used : c.used = true → span.count = 1 ∧ span.pageLen = c.pages
  free : c.used = false →
    span.count = 0 ∧ (¬single → span.pageLen = c.pages)

structure HoldsLayout (page base : ℕ) (heap : SpanHeap)
    (chunks : List (Chunk SpanPtr)) : Prop where
  nodup : (chunks.map Chunk.ptr).Nodup
  linked : Linked heap.links none (chunks.map Chunk.ptr) none
  located : Located heap.addrOf page base chunks
  spans : ∀ c ∈ chunks, ∃ span, heap.spans c.ptr = some span ∧
    SpanMatches (chunks.length = 1) span c
  living : ∀ ptr, heap.spans ptr ≠ none → ptr ∈ chunks.map Chunk.ptr
  objects : ObjectsOk heap

variable {page base : ℕ} {heap heap' : SpanHeap}
  {xs ys chunks : List (Chunk SpanPtr)} {c d : Chunk SpanPtr} {other : SpanPtr}

theorem HoldsLayout.spanMatches (hlayout : HoldsLayout page base heap chunks) (hmem : c ∈ chunks)
    (hspan : heap.spans c.ptr = some span) : SpanMatches (chunks.length = 1) span c := by
  obtain ⟨span', hspan', hmatches⟩ := hlayout.spans c hmem
  rwa [Option.some.inj (hspan.symm.trans hspan')]

theorem HoldsLayout.names_ne (hlayout : HoldsLayout page base heap (xs ++ c :: ys))
    {e : Chunk SpanPtr} (hmem : e ∈ xs ++ ys) : e.ptr ≠ c.ptr := by
  have hnodup := hlayout.nodup
  rw [List.map_append, List.map_cons] at hnodup
  intro hsame
  have hname : e.ptr ∈ xs.map Chunk.ptr ++ ys.map Chunk.ptr := by
    rw [← List.map_append]
    exact List.mem_map_of_mem hmem
  rw [hsame] at hname
  exact (List.nodup_middle.mp hnodup).notMem hname

/-! ## Cutting a chunk -/

theorem ne_of_dead (hspan : heap.spans ptr = some span) (hdead : heap.spans other = none) :
    other ≠ ptr := by
  intro hsame
  rw [hsame, hspan] at hdead
  exact absurd hdead (Option.some_ne_none span)

theorem modify_eq (hspan : heap.spans ptr = some span) (change : PageSpan → PageSpan) :
    heap.modify ptr change = some (heap.put ptr (change span)) := by
  simp [modify, hspan]

/-- The heap after the neighbour behind a span, if there is one, was told its
new predecessor. -/
structure PrevSet (heap heap' : SpanHeap) (after : Option SpanPtr)
    (prev : SpanPtr) : Prop where
  elems : heap'.elems = heap.elems
  nextObject : heap'.nextObject = heap.nextObject
  changed : ∀ ptr span, after = some ptr → heap.spans ptr = some span →
    heap'.spans ptr = some { span with prevBuddy := some prev }
  same : ∀ ptr, after ≠ some ptr → heap'.spans ptr = heap.spans ptr

theorem setPrev_spec {after : Option SpanPtr} (prev : SpanPtr)
    (halive : ∀ ptr, after = some ptr → heap.spans ptr ≠ none) :
    ∃ heap', heap.setPrev after prev = some heap' ∧ PrevSet heap heap' after prev := by
  cases after with
  | none =>
    refine ⟨heap, rfl, rfl, rfl, ?_, fun _ _ => rfl⟩
    intro ptr span hsome
    cases hsome
  | some next =>
    rcases Option.ne_none_iff_exists'.mp (halive next rfl) with
      ⟨span, hspan⟩
    refine ⟨_, modify_eq hspan _, rfl, rfl, ?_, ?_⟩
    · rintro ptr span' ⟨⟩ hspan'
      rw [hspan, Option.some.injEq] at hspan'
      rw [put_self, hspan']
    · intro ptr hne
      apply put_of_ne
      rintro rfl
      exact hne rfl

theorem SpanMatches.of_many {single single' : Prop} (hmatches : SpanMatches single span c)
    (hmany : ¬single) : SpanMatches single' span c := by
  constructor
  · exact hmatches.used
  · intro hfree
    exact ⟨(hmatches.free hfree).1, fun _ => (hmatches.free hfree).2 hmany⟩

section

variable (hlayout : HoldsLayout page base heap (xs ++ c :: ys))
  (hspan : heap.spans c.ptr = some span)

include hlayout hspan

theorem HoldsLayout.next_eq : span.nextBuddy = (ys.map Chunk.ptr).head? := by
  have hlinked := hlayout.linked
  rw [List.map_append, List.map_cons] at hlinked
  rw [← links_next hspan, hlinked.next_eq, Option.or_none]

theorem HoldsLayout.prev_eq : span.prevBuddy = (xs.map Chunk.ptr).getLast? := by
  have hlinked := hlayout.linked
  rw [List.map_append, List.map_cons] at hlinked
  rw [← links_prev hspan, hlinked.prev_eq, Option.or_none]

theorem HoldsLayout.addr_eq : span.addr = base + pageCount xs * page := by
  have hhere := (located_middle.mp hlayout.located).2.1
  rwa [addrOf_eq hspan, Option.some.injEq] at hhere

end

/-- Beside a span and its buddy, only the one behind is told a predecessor. -/
structure Told (heap heap' : SpanHeap) (ptr buddy : SpanPtr) (behind : Option SpanPtr)
    (prev : SpanPtr) : Prop where
  after : ∀ next s, behind = some next → heap.spans next = some s →
    heap'.spans next = some { s with prevBuddy := some prev }
  same : ∀ other, other ≠ ptr → other ≠ buddy → behind ≠ some other →
    heap'.spans other = heap.spans other

variable {buddy : SpanPtr}

section

variable {behind : Option SpanPtr} {prev : SpanPtr} (htold : Told heap heap' ptr buddy behind prev)

include htold

theorem Told.spans {s : PageSpan} (hother : heap.spans other = some s) (hptr : other ≠ ptr)
    (hbuddy : other ≠ buddy) : ∃ prev, heap'.spans other = some { s with prevBuddy := prev } := by
  by_cases hnext : behind = some other
  · exact ⟨_, htold.after other s hnext hother⟩
  · exact ⟨s.prevBuddy, by rw [htold.same other hptr hbuddy hnext, hother]⟩

theorem Told.relinked {new : PageSpan} (hspan : heap.spans ptr = some span)
    (hnew : heap'.spans ptr = some new) (hprev : new.prevBuddy = span.prevBuddy)
    (halive : ∀ next, behind = some next → heap.spans next ≠ none) :
    Relinked heap.links heap'.links ptr buddy behind prev where
  prev_after other hnext := by
    rcases Option.ne_none_iff_exists'.mp (halive other hnext) with ⟨s, hs⟩
    rw [links_prev (htold.after other s hnext hs)]
  next_rest other hptr hbuddy := by
    by_cases hnext : behind = some other
    · rcases Option.ne_none_iff_exists'.mp (halive other hnext) with ⟨s, hs⟩
      rw [links_next (htold.after other s hnext hs), links_next hs]
    · simp [links, htold.same other hptr hbuddy hnext]
  prev_rest other hbuddy hnext := by
    by_cases hptr : other = ptr
    · rw [hptr, links_prev hnew, links_prev hspan, hprev]
    · simp [links, htold.same other hptr hbuddy hnext]

end

structure Cut (heap heap' : SpanHeap) (ptr buddy : SpanPtr) (span front tail : PageSpan) : Prop
    extends Told heap heap' ptr buddy span.nextBuddy buddy where
  objects : ObjectsOk heap'
  front_here : heap'.spans ptr = some front
  front_addr : front.addr = span.addr
  front_prev : front.prevBuddy = span.prevBuddy
  front_next : front.nextBuddy = some buddy
  tail_here : heap'.spans buddy = some tail
  tail_prev : tail.prevBuddy = some ptr
  tail_next : tail.nextBuddy = span.nextBuddy

theorem Cut.linkedIn {front tail : PageSpan} (hcut : Cut heap heap' ptr buddy span front tail)
    (hspan : heap.spans ptr = some span)
    (halive : ∀ next, span.nextBuddy = some next → heap.spans next ≠ none) :
    LinkedIn heap.links heap'.links ptr buddy where
  toRelinked := links_next hspan ▸
    hcut.toTold.relinked hspan hcut.front_here hcut.front_prev halive
  next_node := by rw [links_next hcut.front_here, hcut.front_next]
  next_other := by rw [links_next hcut.tail_here, hcut.tail_next, links_next hspan]
  prev_other := by rw [links_prev hcut.tail_here, hcut.tail_prev]

theorem HoldsLayout.alive (hlayout : HoldsLayout page base heap chunks)
    (hmem : ptr ∈ chunks.map Chunk.ptr) : heap.spans ptr ≠ none := by
  rcases List.mem_map.mp hmem with ⟨e, he, rfl⟩
  rcases hlayout.spans e he with ⟨span, hspan, _⟩
  rw [hspan]
  simp

theorem HoldsLayout.next_alive (hlayout : HoldsLayout page base heap (xs ++ c :: ys))
    (hspan : heap.spans c.ptr = some span) {next : SpanPtr} (hnext : span.nextBuddy = some next) :
    heap.spans next ≠ none ∧ next ≠ c.ptr := by
  rw [hlayout.next_eq hspan] at hnext
  rcases List.mem_map.mp (List.mem_of_mem_head? hnext) with ⟨e, he, rfl⟩
  constructor
  · exact hlayout.alive (by simp [List.mem_map_of_mem he])
  · exact hlayout.names_ne (by simp [he])

/-- Some neighbouring chunks are replaced by others of the same size, while
the spans of the rest change at most their predecessor. -/
theorem HoldsLayout.replace {old new : List (Chunk SpanPtr)}
    (hlayout : HoldsLayout page base heap (xs ++ (old ++ ys))) (hold : old ≠ [])
    (hpages : pageCount new = pageCount old)
    (hrest : ∀ e ∈ xs ++ ys, ∀ s, heap.spans e.ptr = some s →
      ∃ prev, heap'.spans e.ptr = some { s with prevBuddy := prev })
    (hnodup : ((xs ++ (new ++ ys)).map Chunk.ptr).Nodup)
    (hlinked : Linked heap'.links none ((xs ++ (new ++ ys)).map Chunk.ptr) none)
    (hplaced : Located heap'.addrOf page (base + pageCount xs * page) new)
    (hspans : ∀ e ∈ new, ∃ span, heap'.spans e.ptr = some span ∧
      SpanMatches ((xs ++ (new ++ ys)).length = 1) span e)
    (hliving : ∀ ptr, heap'.spans ptr ≠ none → ptr ∉ new.map Chunk.ptr →
      heap.spans ptr ≠ none ∧ ptr ∉ old.map Chunk.ptr) (hobjects : ObjectsOk heap') :
    HoldsLayout page base heap' (xs ++ (new ++ ys)) := by
  have hmem : ∀ e ∈ xs ++ ys, e ∈ xs ++ (old ++ ys) := by
    intro e he
    simp only [List.mem_append] at he ⊢
    tauto
  have haddr : ∀ e ∈ xs ++ ys, heap'.addrOf e.ptr = heap.addrOf e.ptr := by
    intro e he
    rcases hlayout.spans e (hmem e he) with ⟨s, hs, _⟩
    rcases hrest e he s hs with ⟨prev, hs'⟩
    rw [addrOf_eq hs, addrOf_eq hs']
  have hmatches : ∀ e ∈ xs ++ ys, ∃ span, heap'.spans e.ptr = some span ∧
      SpanMatches ((xs ++ (new ++ ys)).length = 1) span e := by
    intro e he
    have hmany : ¬(xs ++ (old ++ ys)).length = 1 := by
      have hlength : 0 < (xs ++ ys).length := List.length_pos_of_mem he
      have hsome : 0 < old.length := List.length_pos_of_ne_nil hold
      simp only [List.length_append] at hlength ⊢
      omega
    rcases hlayout.spans e (hmem e he) with ⟨s, hs, hmatches⟩
    rcases hrest e he s hs with ⟨prev, hs'⟩
    exact ⟨_, hs', hmatches.used, (hmatches.of_many hmany).free⟩
  constructor
  · exact hnodup
  · exact hlinked
  · have hlocated := hlayout.located
    rw [located_append, located_append] at hlocated ⊢
    rcases hlocated with ⟨hxs, _, hys⟩
    refine ⟨hxs.congr ?_, hplaced, ?_⟩
    · intro e he
      exact haddr e (List.mem_append_left _ he)
    · rw [hpages]
      apply hys.congr
      intro e he
      exact haddr e (List.mem_append_right _ he)
  · intro e he
    simp only [List.mem_append] at he
    rcases he with he | he | he
    · exact hmatches e (List.mem_append_left _ he)
    · exact hspans e he
    · exact hmatches e (List.mem_append_right _ he)
  · intro ptr halive
    by_cases hnew : ptr ∈ new.map Chunk.ptr
    · simp only [List.map_append, List.mem_append, hnew, true_or, or_true]
    obtain ⟨hbefore, hgone⟩ := hliving ptr halive hnew
    have hname := hlayout.living ptr hbefore
    simp only [List.map_append, List.mem_append] at hname ⊢
    tauto
  · exact hobjects

theorem HoldsLayout.put (hlayout : HoldsLayout page base heap (xs ++ c :: ys)) {span' : PageSpan}
    (hspan : heap.spans c.ptr = some span) (haddr : span'.addr = span.addr)
    (hprev : span'.prevBuddy = span.prevBuddy) (hnext : span'.nextBuddy = span.nextBuddy)
    {c' : Chunk SpanPtr} (hptr : c'.ptr = c.ptr) (hpages : c'.pages = c.pages)
    (hmatches : SpanMatches ((xs ++ c' :: ys).length = 1) span' c') :
    HoldsLayout page base (heap.put c.ptr span') (xs ++ c' :: ys) := by
  have hhere : (heap.put c.ptr span').spans c.ptr = some span' := put_self _ _
  have hnames : (xs ++ c' :: ys).map Chunk.ptr = (xs ++ c :: ys).map Chunk.ptr := by simp [hptr]
  apply @replace page base heap _ xs ys [c] [c'] hlayout
  · simp
  · simp [hpages]
  · intro e he s hs
    exact ⟨s.prevBuddy, by rw [put_of_ne (hlayout.names_ne he), hs]⟩
  · exact hnames ▸ hlayout.nodup
  · rw [show xs ++ ([c'] ++ ys) = xs ++ c' :: ys from rfl, hnames]
    apply hlayout.linked.congr
    intro ptr _
    by_cases heq : ptr = c.ptr
    · rw [heq, links_prev hhere, links_prev hspan, links_next hhere, links_next hspan]
      exact ⟨hprev, hnext⟩
    · simp [links, put_of_ne heq]
  · exact ⟨by rw [hptr, addrOf_eq hhere, haddr, hlayout.addr_eq hspan], trivial⟩
  · exact List.forall_mem_singleton.mpr ⟨span', hptr ▸ hhere, hmatches⟩
  · intro ptr halive hne
    rw [List.map_singleton, List.mem_singleton, hptr] at hne
    exact ⟨put_of_ne hne span' ▸ halive, by simpa using hne⟩
  · exact hlayout.objects.put (by rw [hspan]; simp) span'

theorem HoldsLayout.cut (hlayout : HoldsLayout page base heap (xs ++ c :: ys))
    {front tail : PageSpan} (hspan : heap.spans c.ptr = some span)
    (hfresh : heap.spans buddy = none) (hcut : Cut heap heap' c.ptr buddy span front tail)
    {left right : Chunk SpanPtr} (hleft : left.ptr = c.ptr) (hright : right.ptr = buddy)
    (hpages : c.pages = left.pages + right.pages)
    (haddr : tail.addr = span.addr + left.pages * page) (hfront : SpanMatches False front left)
    (htail : SpanMatches False tail right) :
    HoldsLayout page base heap' (xs ++ left :: right :: ys) := by
  have hnew : buddy ∉ (xs ++ c :: ys).map Chunk.ptr := fun hmem => hlayout.alive hmem hfresh
  have hnames : (xs ++ left :: right :: ys).map Chunk.ptr =
      xs.map Chunk.ptr ++ c.ptr :: buddy :: ys.map Chunk.ptr := by
    simp [hleft, hright]
  have hnodup := hlayout.nodup
  have hlinked := hlayout.linked
  have hstart := hlayout.addr_eq hspan
  rw [List.map_append, List.map_cons] at hnew hnodup hlinked
  apply @replace page base heap heap' xs ys [c] [left, right] hlayout
  · simp
  · simp [hpages]
  · intro e he s hs
    exact hcut.toTold.spans hs (hlayout.names_ne he) (ne_of_dead hs hfresh).symm
  · rw [show xs ++ ([left, right] ++ ys) = xs ++ left :: right :: ys from rfl, hnames]
    have hperm : (xs.map Chunk.ptr ++ c.ptr :: buddy ::
        ys.map Chunk.ptr).Perm (buddy :: (xs.map Chunk.ptr ++ c.ptr :: ys.map Chunk.ptr)) :=
      ((List.Perm.swap _ _ _).append_left _).trans List.perm_middle
    exact hperm.nodup_iff.mpr (List.nodup_cons.mpr ⟨hnew, hnodup⟩)
  · rw [show xs ++ ([left, right] ++ ys) = xs ++ left :: right :: ys from rfl, hnames]
    apply hlinked.linkIn hnodup hnew
    exact hcut.linkedIn hspan fun next hnext => (hlayout.next_alive hspan hnext).1
  · refine ⟨?_, ?_, trivial⟩
    · rw [hleft, addrOf_eq hcut.front_here, hcut.front_addr, hstart]
    · rw [hright, addrOf_eq hcut.tail_here, haddr, hstart]
  · intro e he
    simp only [List.mem_cons, List.not_mem_nil, or_false] at he
    rcases he with rfl | rfl
    · rw [hleft]
      exact ⟨front, hcut.front_here, hfront.of_many not_false⟩
    · rw [hright]
      exact ⟨tail, hcut.tail_here, htail.of_many not_false⟩
  · intro ptr halive hne
    simp only [List.map_cons, List.map_nil, List.mem_cons, List.not_mem_nil, or_false, not_or,
      hleft, hright] at hne ⊢
    refine ⟨?_, hne.1⟩
    by_cases hnext : span.nextBuddy = some ptr
    · exact (hlayout.next_alive hspan hnext).1
    · rwa [hcut.same ptr hne.1 hne.2 hnext] at halive
  · exact hcut.objects

/-- The heap after a span took in the one behind it, which was deleted. -/
structure Joined (heap heap' : SpanHeap) (ptr buddy : SpanPtr) (span gone joined : PageSpan) :
    Prop extends Told heap heap' ptr buddy gone.nextBuddy ptr where
  objects : ObjectsOk heap'
  here : heap'.spans ptr = some joined
  joined_addr : joined.addr = span.addr
  joined_prev : joined.prevBuddy = span.prevBuddy
  joined_next : joined.nextBuddy = gone.nextBuddy
  dead : heap'.spans buddy = none

variable {gone : PageSpan}

theorem Joined.linkedOut {joined : PageSpan}
    (hjoined : Joined heap heap' ptr buddy span gone joined)
    (hspan : heap.spans ptr = some span) (hgone : heap.spans buddy = some gone)
    (halive : ∀ next, gone.nextBuddy = some next → heap.spans next ≠ none) :
    LinkedOut heap.links heap'.links ptr buddy where
  toRelinked := links_next hgone ▸
    hjoined.toTold.relinked hspan hjoined.here hjoined.joined_prev halive
  next_node := by rw [links_next hjoined.here, hjoined.joined_next, links_next hgone]

theorem HoldsLayout.join (hlayout : HoldsLayout page base heap (xs ++ c :: d :: ys))
    {joined : PageSpan} (hspan : heap.spans c.ptr = some span)
    (hgone : heap.spans d.ptr = some gone)
    (hjoined : Joined heap heap' c.ptr d.ptr span gone joined) {both : Chunk SpanPtr}
    (hptr : both.ptr = c.ptr) (hpages : both.pages = c.pages + d.pages)
    (hmatches : SpanMatches False joined both) :
    HoldsLayout page base heap' (xs ++ both :: ys) := by
  have hlayout' : HoldsLayout page base heap ((xs ++ [c]) ++ d :: ys) := by rwa [List.append_assoc]
  have hnodup := hlayout.nodup
  have hlinked := hlayout.linked
  have halive : ∀ next, gone.nextBuddy = some next → heap.spans next ≠ none :=
    fun next hnext => (hlayout'.next_alive hgone hnext).1
  have hnames : (xs ++ both :: ys).map Chunk.ptr =
      xs.map Chunk.ptr ++ c.ptr :: ys.map Chunk.ptr := by
    simp [hptr]
  rw [List.map_append, List.map_cons, List.map_cons] at hnodup hlinked
  apply @replace page base heap heap' xs ys [c, d] [both] hlayout
  · simp
  · simp [hpages]
  · intro e he s hs
    apply hjoined.toTold.spans hs
    · apply hlayout.names_ne
      simp only [List.mem_append, List.mem_cons] at he ⊢
      tauto
    · apply hlayout'.names_ne
      simp only [List.mem_append, List.mem_cons] at he ⊢
      tauto
  · rw [show xs ++ ([both] ++ ys) = xs ++ both :: ys from rfl, hnames]
    have hsub := (List.Sublist.refl (xs.map Chunk.ptr)).append
      ((List.sublist_cons_self d.ptr (ys.map Chunk.ptr)).cons_cons c.ptr)
    exact List.Nodup.sublist hsub hnodup
  · rw [show xs ++ ([both] ++ ys) = xs ++ both :: ys from rfl, hnames]
    exact hlinked.linkOut hnodup (hjoined.linkedOut hspan hgone halive)
  · refine ⟨?_, trivial⟩
    rw [hptr, addrOf_eq hjoined.here, hjoined.joined_addr, hlayout.addr_eq hspan]
  · exact List.forall_mem_singleton.mpr
      ⟨joined, hptr ▸ hjoined.here, hmatches.of_many not_false⟩
  · intro ptr halive' hc
    have hd : ptr ≠ d.ptr := by
      rintro rfl
      exact halive' hjoined.dead
    rw [List.map_singleton, List.mem_singleton, hptr] at hc
    refine ⟨?_, by simp [hc, hd]⟩
    by_cases hnext : gone.nextBuddy = some ptr
    · exact halive ptr hnext
    · rwa [hjoined.same ptr hc hd hnext] at halive'
  · exact hjoined.objects

/-! ## The program cuts and joins -/

structure BuddySet (heap heap' : SpanHeap) (ptr buddy : SpanPtr) (span new : PageSpan) : Prop
    extends Told heap heap' ptr buddy span.nextBuddy buddy where
  elems : heap'.elems = heap.elems
  nextObject : heap'.nextObject = heap.nextObject
  here : heap'.spans ptr = some { span with nextBuddy := some buddy }
  buddy_here : heap'.spans buddy = some { new with
    nextBuddy := span.nextBuddy, prevBuddy := some ptr }

variable {new : PageSpan}

theorem setBuddy_spec (hspan : heap.spans ptr = some span) (hnew : heap.spans buddy = some new)
    (hne : ptr ≠ buddy) (hnext : ∀ next, span.nextBuddy = some next →
      heap.spans next ≠ none ∧ next ≠ ptr ∧ next ≠ buddy) :
    ∃ heap', heap.setBuddy ptr buddy = some heap' ∧ BuddySet heap heap' ptr buddy span new := by
  rcases @setPrev_spec heap span.nextBuddy buddy
    (fun next hn => (hnext next hn).1) with ⟨heap₁, hset, hprev⟩
  have hptr₁ : heap₁.spans ptr = some span := by
    rwa [hprev.same ptr fun hn => (hnext ptr hn).2.1 rfl]
  have hbuddy₁ : heap₁.spans buddy = some new := by
    rwa [hprev.same buddy fun hn => (hnext buddy hn).2.2 rfl]
  refine ⟨(heap₁.put ptr { span with nextBuddy := some buddy }).put buddy
    { new with nextBuddy := span.nextBuddy, prevBuddy := some ptr }, ?_, ?_⟩
  · unfold setBuddy
    rw [hspan]
    simp only [Option.bind_eq_bind, Option.bind_some]
    rw [hset]
    simp only [Option.bind_some]
    rw [modify_eq hptr₁]
    simp only [Option.bind_some]
    rw [modify_eq (by rw [put_of_ne hne.symm]; exact hbuddy₁)]
  · refine ⟨⟨?_, ?_⟩, hprev.elems, hprev.nextObject, ?_, put_self _ _⟩
    · intro next s hn hs
      rw [put_of_ne (hnext next hn).2.2, put_of_ne (hnext next hn).2.1]
      exact hprev.changed next s hn hs
    · intro other hptr hbuddy hn
      rw [put_of_ne hbuddy, put_of_ne hptr]
      exact hprev.same other hn
    · rw [put_of_ne hne, put_self]

theorem setBuddy_cut (hlayout : HoldsLayout page base heap (xs ++ c :: ys))
    (hspan : heap.spans c.ptr = some span) {heap₀ : SpanHeap} (hfresh : heap.spans buddy = none)
    (hsame : heap₀.spans = heap.spans) (hobjects : ObjectsOk (heap₀.put buddy new)) :
    ∃ heap₁, (heap₀.put buddy new).setBuddy c.ptr buddy = some heap₁ ∧
      heap₁.spans c.ptr = some { span with nextBuddy := some buddy } ∧
      heap₁.spans buddy = some { new with
        nextBuddy := span.nextBuddy, prevBuddy := some c.ptr } ∧
      ∀ front tail : PageSpan, front.addr = span.addr →
        front.prevBuddy = span.prevBuddy → front.nextBuddy = some buddy →
        tail.prevBuddy = some c.ptr → tail.nextBuddy = span.nextBuddy →
          Cut heap ((heap₁.put c.ptr front).put buddy tail) c.ptr buddy span
            front tail := by
  have hne : c.ptr ≠ buddy := (ne_of_dead hspan hfresh).symm
  have hold : ∀ ptr, ptr ≠ buddy → (heap₀.put buddy new).spans ptr = heap.spans ptr := by
    intro ptr hptr
    rw [put_of_ne hptr, hsame]
  have hnext : ∀ next, span.nextBuddy = some next →
      heap.spans next ≠ none ∧ next ≠ c.ptr ∧ next ≠ buddy := by
    intro next hnext
    rcases hlayout.next_alive hspan hnext with ⟨halive, hother⟩
    refine ⟨halive, hother, ?_⟩
    intro hbuddy
    exact halive (hbuddy ▸ hfresh)
  rcases setBuddy_spec ((hold c.ptr hne).trans hspan) (put_self _ _) hne (by
    intro next hn
    rw [hold next (hnext next hn).2.2]
    exact hnext next hn) with ⟨heap₁, hset, hbuddy⟩
  refine ⟨heap₁, hset, hbuddy.here, hbuddy.buddy_here, ?_⟩
  intro front tail haddr hfprev hfnext htprev htnext
  have hrest : ∀ ptr, ptr ≠ c.ptr → ptr ≠ buddy →
      ((heap₁.put c.ptr front).put buddy tail).spans ptr =
        heap₁.spans ptr := by
    intro ptr hc hb
    rw [put_of_ne hb, put_of_ne hc]
  refine ⟨⟨?_, ?_⟩, ?_, ?_, haddr, hfprev, hfnext, put_self _ _, htprev, htnext⟩
  · intro next s hn hs
    rw [hrest next (hnext next hn).2.1 (hnext next hn).2.2]
    apply hbuddy.after next s hn
    rwa [hold next (hnext next hn).2.2]
  · intro other hc hb hn
    rw [hrest other hc hb, hbuddy.same other hc hb hn, hold other hb]
  · refine hobjects.congr (show _ = (heap₀.put buddy new).elems from hbuddy.elems)
      (show _ = (heap₀.put buddy new).nextObject from hbuddy.nextObject) ?_
    intro ptr hdead
    have hb : ptr ≠ buddy := ne_of_dead (put_self _ _) hdead
    rw [hold ptr hb] at hdead
    have hc : ptr ≠ c.ptr := ne_of_dead hspan hdead
    rwa [hrest ptr hc hb, hbuddy.same ptr hc hb fun hn => (hnext ptr hn).1 hdead, hold ptr hb]
  · rw [put_of_ne hne, put_self]

theorem mergeBuddy_joined (hlayout : HoldsLayout page base heap (xs ++ c :: d :: ys))
    (hspan : heap.spans c.ptr = some span) (hgone : heap.spans d.ptr = some gone) :
    ∃ heap₁, heap.mergeBuddy c.ptr d.ptr = some heap₁ ∧
      Joined heap (heap₁.free d.ptr) c.ptr d.ptr span gone
        { span with
          nextBuddy := gone.nextBuddy
          pageLen := wrapAdd 32 span.pageLen gone.pageLen } := by
  have hlayout' : HoldsLayout page base heap ((xs ++ [c]) ++ d :: ys) := by rwa [List.append_assoc]
  have hne : d.ptr ≠ c.ptr := hlayout.names_ne (by simp)
  have hforward : span.nextBuddy = some d.ptr := by
    rw [hlayout.next_eq hspan]
    rfl
  have hback : gone.prevBuddy = some c.ptr := by
    rw [hlayout'.prev_eq hgone]
    simp
  have hnext : ∀ next, gone.nextBuddy = some next →
      heap.spans next ≠ none ∧ next ≠ c.ptr ∧ next ≠ d.ptr := by
    intro next hnext
    rcases hlayout'.next_alive hgone hnext with ⟨halive, hother⟩
    refine ⟨halive, ?_, hother⟩
    rw [hlayout'.next_eq hgone] at hnext
    rcases List.mem_map.mp (List.mem_of_mem_head? hnext) with ⟨e, he, rfl⟩
    exact hlayout.names_ne (by simp [he])
  rcases @setPrev_spec heap gone.nextBuddy c.ptr
    (fun next hn => (hnext next hn).1) with ⟨heap₂, hset, hprev⟩
  have hc₂ : heap₂.spans c.ptr = some span := by
    rwa [hprev.same c.ptr fun hn => (hnext c.ptr hn).2.1 rfl]
  refine ⟨heap₂.put c.ptr { span with
    nextBuddy := gone.nextBuddy
    pageLen := wrapAdd 32 span.pageLen gone.pageLen }, ?_, ?_⟩
  · unfold mergeBuddy
    rw [hspan, hgone]
    simp only [Option.bind_eq_bind, Option.bind_some]
    rw [if_pos ⟨hforward, hback⟩, hset]
    simp only [Option.bind_some]
    rw [modify_eq hc₂]
  · have hrest : ∀ ptr span', ptr ≠ c.ptr → ptr ≠ d.ptr →
        ((heap₂.put c.ptr span').free d.ptr).spans ptr = heap₂.spans ptr := by
      intro ptr span' hc hd
      simp [SpanHeap.free, SpanHeap.put, hc, hd]
    refine ⟨⟨?_, ?_⟩, ?_, ?_, rfl, rfl, rfl, ?_⟩
    · intro next s hn hs
      rw [hrest next _ (hnext next hn).2.1 (hnext next hn).2.2]
      exact hprev.changed next s hn hs
    · intro other hc hd hn
      rw [hrest other _ hc hd, hprev.same other hn]
    · apply ObjectsOk.free
      · apply ObjectsOk.put
        · apply hlayout.objects.congr hprev.elems hprev.nextObject
          intro ptr hdead
          rwa [hprev.same ptr fun hn => (hnext ptr hn).1 hdead]
        · rw [hc₂]
          simp
      · rw [put_of_ne hne, hprev.same d.ptr fun hn => (hnext d.ptr hn).2.2 rfl, hgone]
        simp
    · simp [SpanHeap.free, SpanHeap.put, hne.symm]
    · simp [SpanHeap.free]

end SpanHeap

end Hixl
