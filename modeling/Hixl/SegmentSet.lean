import Hixl.SegmentCoverage

/-!
# The segment of the HIXL layer

This segment keeps its ranges as the one of the ADXL layer does, with the same
`RemoveRange` and `Contains`.  Its `AddRange` takes a length and skips a range
that a neighbour of the insertion point equals.  Among ranges of one start only
the last is such a neighbour: the segment is a set as long as no range is added
beside another one of the same start.
-/

namespace Hixl.Segment

open Adxl (Segment)
open Adxl.Segment

def addRange (start len : ℕ) (seg : Segment) : Status × Segment :=
  if wordMax 64 - start < len then (.paramInvalid, seg)
  else
    let range := (start, start + len)
    if (seg.upTo start).getLast? = some range then (.success, seg)
    else if (seg.above start).head? = some range then (.success, seg)
    else (.success, { seg with ranges := seg.upTo start ++ range :: seg.above start })

inductive RangeCall where
  | add (start len : ℕ)
  | remove (start stop : ℕ)
  deriving DecidableEq, Repr

namespace RangeCall

/-- An added range is not empty and does not overflow. -/
def Fits : RangeCall → Prop
  | add start len => 0 < len ∧ start + len ≤ wordMax 64
  | remove _ _ => True

def apply (seg : Segment) : RangeCall → Segment
  | add start len => (addRange start len seg).2
  | remove start stop => seg.removeRange start stop

/-- The ranges that were added and not removed since. -/
def held (ranges : Finset (ℕ × ℕ)) : RangeCall → Finset (ℕ × ℕ)
  | add start len => insert (start, start + len) ranges
  | remove start stop => ranges.erase (start, stop)

def Alone (ranges : Finset (ℕ × ℕ)) : RangeCall → Prop
  | add start len => ∀ range ∈ ranges, range.1 = start → range.2 = start + len
  | remove _ _ => True

/-- No call adds a range beside another one of the same start. -/
def AllAlone (ranges : Finset (ℕ × ℕ)) : List RangeCall → Prop
  | [] => True
  | call :: rest => call.Alone ranges ∧ AllAlone (call.held ranges) rest

end RangeCall

/-- The segment holds the ranges of the set, and their starts differ. -/
structure Holds (ranges : Finset (ℕ × ℕ)) (seg : Segment) : Prop where
  sorted : Sorted seg.ranges
  val : (seg.ranges : Multiset (ℕ × ℕ)) = ranges.val
  starts : Set.InjOn Prod.fst (ranges : Set (ℕ × ℕ))

namespace Holds

variable {ranges : Finset (ℕ × ℕ)} {seg : Segment} {start len : ℕ} (hholds : Holds ranges seg)

include hholds

theorem mem_iff {range : ℕ × ℕ} : range ∈ seg.ranges ↔ range ∈ ranges := by
  rw [← Finset.mem_val, ← hholds.val, Multiset.mem_coe]

/-- The range before the insertion point is the one with this start. -/
theorem getLast?_upTo {stop : ℕ} (hmem : (start, stop) ∈ ranges) :
    (seg.upTo start).getLast? = some (start, stop) := by
  have hupTo : (start, stop) ∈ seg.upTo start := by
    rw [← hholds.mem_iff, ← upTo_append_above seg start, List.mem_append] at hmem
    exact hmem.resolve_right fun habove =>
      absurd (lt_start_of_mem_above hholds.sorted habove) (lt_irrefl start)
  have hsorted : (seg.upTo start).Pairwise _ := hholds.sorted.sublist (List.takeWhile_sublist _)
  obtain hnil | ⟨init, last, heq⟩ := List.eq_nil_or_concat' (seg.upTo start)
  · simp [hnil] at hupTo
  have hlast : last ∈ seg.upTo start := by simp [heq]
  have hstart : last.1 = start := by
    refine le_antisymm (start_le_of_mem_upTo hlast) ?_
    rw [heq] at hupTo hsorted
    obtain hinit | hsame := List.mem_append.mp hupTo
    · exact (List.pairwise_append.mp hsorted).2.2 _ hinit _ List.mem_cons_self
    · exact (congrArg Prod.fst (List.mem_singleton.mp hsame)).le
  rw [heq, List.getLast?_concat, Option.some_inj]
  refine hholds.starts (hholds.mem_iff.mp ?_) hmem hstart
  exact (List.takeWhile_sublist _).subset hlast

theorem addRange_present (hfits : start + len ≤ wordMax 64) (hmem : (start, start + len) ∈ ranges) :
    addRange start len seg = (.success, seg) := by
  rw [addRange, if_neg (by omega), if_pos (hholds.getLast?_upTo hmem)]

theorem addRange_absent (hfits : start + len ≤ wordMax 64) (hmem : (start, start + len) ∉ ranges) :
    addRange start len seg = (.success, seg.addRange start (start + len)) := by
  rw [← hholds.mem_iff, ← upTo_append_above seg start, List.mem_append] at hmem
  rw [addRange, if_neg (by omega), if_neg fun hlast => hmem (.inl (List.mem_of_getLast? hlast)),
    if_neg fun hhead => hmem (.inr (List.mem_of_head? hhead)), Adxl.Segment.addRange,
    if_neg (by omega)]

theorem apply (call : RangeCall) (hfits : call.Fits) (halone : call.Alone ranges) :
    Holds (call.held ranges) (call.apply seg) := by
  cases call with
  | add start len =>
    rw [RangeCall.apply, RangeCall.held]
    by_cases hmem : (start, start + len) ∈ ranges
    · rwa [hholds.addRange_present hfits.2 hmem, Finset.insert_eq_of_mem hmem]
    rw [hholds.addRange_absent hfits.2 hmem]
    obtain ⟨hsorted, hval⟩ := @addRange_spec start (start + len) seg hholds.sorted
    rw [if_neg (by omega), hholds.val, ← Finset.insert_val_of_notMem hmem] at hval
    refine ⟨hsorted, hval, ?_⟩
    rw [Finset.coe_insert, Set.injOn_insert (by simpa using hmem)]
    refine ⟨hholds.starts, ?_⟩
    rintro ⟨range, hrange, hstart⟩
    exact hmem (Prod.ext hstart (halone range hrange hstart) ▸ hrange)
  | remove start stop =>
    have herase : (seg.removeRange start stop).ranges = _ := removeRange_ranges hholds.sorted
    refine ⟨herase ▸ hholds.sorted.sublist List.erase_sublist, ?_,
      hholds.starts.mono (Finset.coe_subset.mpr (Finset.erase_subset _ _))⟩
    rw [RangeCall.apply, herase, RangeCall.held, Finset.erase_val, ← hholds.val,
      Multiset.coe_erase, lawful_beq_subsingleton instBEqOfDecidableEq instBEqProd]

end Holds

theorem holds_foldl (calls : List RangeCall) {ranges : Finset (ℕ × ℕ)} {seg : Segment}
    (hholds : Holds ranges seg) (hfits : ∀ call ∈ calls, call.Fits)
    (halone : RangeCall.AllAlone ranges calls) :
    Holds (calls.foldl RangeCall.held ranges) (calls.foldl RangeCall.apply seg) := by
  induction calls generalizing ranges seg with
  | nil => exact hholds
  | cons call rest ih =>
    obtain ⟨hfits, hrest⟩ := List.forall_mem_cons.mp hfits
    exact ih (hholds.apply call hfits halone.1) hrest halone.2

/-- After calls that add no range beside another one of the same start, adding
a range that is there changes nothing, one removal takes a range out, and
`Contains` is true for exactly the intervals that the ranges added and not
removed since cover. -/
theorem segment_is_range_set (type : Adxl.MemType) (calls : List RangeCall)
    (hfits : ∀ call ∈ calls, call.Fits) (halone : RangeCall.AllAlone ∅ calls) :
    let seg := calls.foldl RangeCall.apply { memType := type }
    let ranges := calls.foldl RangeCall.held ∅
    (∀ start len, (RangeCall.add start len).Fits → (start, start + len) ∈ ranges →
      addRange start len seg = (.success, seg)) ∧
    (∀ start stop, (start, stop) ∉ (seg.removeRange start stop).ranges) ∧
    ∀ start stop, start < stop →
      (seg.contains start stop = true ↔ Covers ranges.val start stop) := by
  intro seg ranges
  have hholds : Holds ranges seg :=
    holds_foldl calls ⟨List.Pairwise.nil, rfl, by simp⟩ hfits halone
  refine ⟨fun start len hfits hmem => hholds.addRange_present hfits.2 hmem, ?_, ?_⟩
  · intro start stop hmem
    have hremoved := hholds.apply (.remove start stop) trivial trivial
    exact Finset.notMem_erase _ _ (hremoved.mem_iff.mp hmem)
  · intro start stop hlt
    rw [contains_iff hholds.sorted hlt, hholds.val]

theorem segment_is_range_set_readded :
    let seg := [RangeCall.add 4 5, .add 0 6, .add 4 5, .remove 4 9].foldl
      RangeCall.apply { memType := .host }
    seg.contains 0 6 = true ∧ ¬ seg.contains 0 9 = true ∧ (4, 9) ∉ (seg.removeRange 4 9).ranges :=
  ⟨rfl, by decide, (segment_is_range_set .host [.add 4 5, .add 0 6, .add 4 5, .remove 4 9]
    (by simp [RangeCall.Fits, wordMax]) (by simp [RangeCall.AllAlone, RangeCall.Alone,
      RangeCall.held])).2.1 4 9⟩

/-- Two ranges of one start: the first is added again as a second copy, and is
still contained after both ranges were removed. -/
theorem segment_same_start_kept :
    let calls : List RangeCall := [.add 0 4, .add 0 8, .add 0 4, .remove 0 4, .remove 0 8]
    (∀ call ∈ calls, call.Fits) ∧
      (calls.foldl RangeCall.apply { memType := .device }).contains 0 4 = true ∧
      ¬ Covers (calls.foldl RangeCall.held ∅).val 0 4 := by
  refine ⟨by simp [RangeCall.Fits, wordMax], by decide, fun hcovers => ?_⟩
  obtain ⟨range, hmem, -⟩ := hcovers 0 le_rfl (by decide)
  revert hmem
  decide +revert

end Hixl.Segment
