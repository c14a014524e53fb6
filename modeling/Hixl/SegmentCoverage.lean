import Hixl.KeyedLists
import Hixl.SegmentTableModel
import Mathlib.Data.Multiset.AddSub

/-!
# What a segment contains

A segment is a multiset of half-open ranges that is kept sorted by their start.
`Contains` looks first at the ranges that start at or before the address and
then at the later ones.  Both loops keep one invariant: the ranges seen so far
cover everything up to the address that is reached, and none of them reaches
further.
-/

namespace Hixl.Adxl.Segment

variable {start stop : ℕ}

/-- Every address of the interval lies in some range. -/
def Covers (ranges : Multiset (ℕ × ℕ)) (start stop : ℕ) : Prop :=
  ∀ addr, start ≤ addr → addr < stop → ∃ range ∈ ranges, range.1 ≤ addr ∧ addr < range.2

theorem Covers.mono {ranges more : List (ℕ × ℕ)} (hcovers : Covers ↑ranges start stop)
    (hsub : ranges ⊆ more) : Covers ↑more start stop := fun addr hle hlt =>
  (hcovers addr hle hlt).imp fun _ => And.imp_left fun hmem => hsub hmem

def Sorted (ranges : List (ℕ × ℕ)) : Prop := ranges.Pairwise fun a b => a.1 ≤ b.1

section Ranges

variable {seg : Segment} (hsorted : Sorted seg.ranges)

theorem upTo_append_above (seg : Segment) (start : ℕ) :
    seg.upTo start ++ seg.above start = seg.ranges :=
  List.takeWhile_append_dropWhile

theorem start_le_of_mem_upTo {range : ℕ × ℕ} (hrange : range ∈ seg.upTo start) :
    range.1 ≤ start := by
  simpa using List.mem_takeWhile_imp hrange

theorem not_of_mem_dropWhile {p : ℕ × ℕ → Bool} (hp : ∀ a b, a.1 ≤ b.1 → p b → p a)
    {ranges : List (ℕ × ℕ)} (hranges : Sorted ranges) {range : ℕ × ℕ}
    (hrange : range ∈ ranges.dropWhile p) : ¬ p range := by
  simp [KeyedLists.eq_false_of_mem_dropWhile (hranges.imp (hp _ _)) hrange]

include hsorted in
theorem lt_start_of_mem_above {range : ℕ × ℕ} (hrange : range ∈ seg.above start) :
    start < range.1 := by
  simpa using not_of_mem_dropWhile (by simp; omega) hsorted hrange

include hsorted in
theorem addRange_spec : Sorted (seg.addRange start stop).ranges ∧
    ((seg.addRange start stop).ranges : Multiset (ℕ × ℕ)) =
      if stop < start then ↑seg.ranges else (start, stop) ::ₘ ↑seg.ranges := by
  unfold addRange
  split_ifs with hinverted
  · exact ⟨hsorted, rfl⟩
  refine ⟨List.pairwise_append.mpr ⟨hsorted.sublist (List.takeWhile_sublist _),
    List.pairwise_cons.mpr ⟨fun _ hrange => (lt_start_of_mem_above hsorted hrange).le,
      hsorted.sublist (List.dropWhile_sublist _)⟩, ?_⟩, ?_⟩
  · intro a ha b hb
    refine (start_le_of_mem_upTo ha).trans ?_
    obtain rfl | hb := List.mem_cons.mp hb
    · exact le_rfl
    · exact (lt_start_of_mem_above hsorted hb).le
  · rw [Multiset.cons_coe, Multiset.coe_eq_coe, ← upTo_append_above seg start]
    exact List.perm_middle

theorem removeFrom_eq_erase {ranges : List (ℕ × ℕ)} (hranges : Sorted ranges)
    (hfrom : ∀ range ∈ ranges, start ≤ range.1) :
    removeFrom start stop ranges = ranges.erase (start, stop) := by
  induction ranges with
  | nil => rfl
  | cons range rest ih =>
    obtain ⟨hfirst, hrest⟩ := List.pairwise_cons.mp hranges
    obtain ⟨hle, hfrom⟩ := List.forall_mem_cons.mp hfrom
    unfold removeFrom
    split_ifs with hstart hstop
    · rw [show range = (start, stop) from Prod.ext hstart hstop, List.erase_cons_head]
    · rw [List.erase_cons_tail (by simp [Prod.ext_iff, hstop]), ih hrest hfrom]
    · -- The loop ends here: every later range starts after the one to remove.
      refine (List.erase_of_not_mem fun hmem => ?_).symm
      obtain heq | hmem := List.mem_cons.mp hmem
      · exact hstart (heq ▸ rfl)
      · exact hstart (le_antisymm (hfirst _ hmem) hle)

include hsorted in
theorem removeRange_ranges :
    (seg.removeRange start stop).ranges = seg.ranges.erase (start, stop) := by
  have hfrom : ∀ range ∈ seg.ranges.dropWhile fun range => range.1 < start, start ≤ range.1 :=
    fun range hrange => by simpa using not_of_mem_dropWhile (by simp; omega) hsorted hrange
  conv_rhs => rw [← List.takeWhile_append_dropWhile (p := fun range => range.1 < start)
    (l := seg.ranges)]
  rw [List.erase_append_right]
  · exact congrArg _ (removeFrom_eq_erase (hsorted.sublist (List.dropWhile_sublist _)) hfrom)
  · exact fun hmem => absurd (List.mem_takeWhile_imp hmem) (by simp)

end Ranges

/-! ## The two loops of `Contains` -/

/-- The ranges seen so far cover everything before the address that is reached,
and none of them reaches further. -/
structure Reached (seen : List (ℕ × ℕ)) (start stop reached : ℕ) : Prop where
  start_le : start ≤ reached
  lt_stop : reached < stop
  ends : ∀ range ∈ seen, range.2 ≤ reached
  covered : Covers ↑seen start reached

namespace Reached

variable {seen rest : List (ℕ × ℕ)} {reached : ℕ} {range : ℕ × ℕ}
  (hreached : Reached seen start stop reached)

include hreached

theorem gap (hrest : ∀ range ∈ rest, reached < range.1) :
    ¬ Covers ↑(rest.reverse ++ seen) start stop := by
  intro hcovers
  obtain ⟨range, hmem, hle, hlt⟩ := hcovers reached hreached.start_le hreached.lt_stop
  obtain hmem | hmem := List.mem_append.mp (Multiset.mem_coe.mp hmem)
  · exact absurd (hrest range (List.mem_reverse.mp hmem)) (by omega)
  · exact absurd (hreached.ends range hmem) (by omega)

theorem covers (hstart : range.1 ≤ reached) : Covers ↑(range :: seen) start range.2 := by
  intro addr hle hlt
  by_cases hbefore : addr < reached
  · exact hreached.covered.mono (List.subset_cons_self _ _) addr hle hbefore
  · exact ⟨range, List.mem_cons_self, by omega, hlt⟩

theorem skip (hshort : range.2 ≤ reached) : Reached (range :: seen) start stop reached where
  start_le := hreached.start_le
  lt_stop := hreached.lt_stop
  ends := List.forall_mem_cons.mpr ⟨hshort, hreached.ends⟩
  covered := hreached.covered.mono (List.subset_cons_self _ _)

theorem extend (hstart : range.1 ≤ reached) (hlong : reached < range.2) (hstop : range.2 < stop) :
    Reached (range :: seen) start stop range.2 where
  start_le := hreached.start_le.trans hlong.le
  lt_stop := hstop
  ends := List.forall_mem_cons.mpr ⟨le_rfl, fun other hother =>
    (hreached.ends other hother).trans hlong.le⟩
  covered := hreached.covers hstart

theorem settled (hstart : range.1 ≤ reached) (hstop : stop ≤ range.2) (rest : List (ℕ × ℕ)) :
    Covers ↑(rest.reverse ++ range :: seen) start stop := fun addr hle hlt =>
  (hreached.covers hstart).mono (List.subset_append_right _ _) addr hle (hlt.trans_le hstop)

end Reached

variable {ranges seen : List (ℕ × ℕ)} {reached : ℕ}

theorem reachLeft_spec (hreached : Reached seen start stop reached)
    (hfrom : ∀ range ∈ ranges, range.1 ≤ start) :
    match reachLeft start stop ranges reached (decide (start < reached)) with
    | none => Covers ↑(ranges.reverse ++ seen) start stop
    | some (reached', covered) => Reached (ranges.reverse ++ seen) start stop reached' ∧
        covered = decide (start < reached') := by
  induction ranges generalizing seen reached with
  | nil => exact ⟨hreached, rfl⟩
  | cons range rest ih =>
    obtain ⟨hle, hrest⟩ := List.forall_mem_cons.mp hfrom
    rw [List.reverse_cons, List.append_assoc, List.singleton_append]
    have hstart := hle.trans hreached.start_le
    by_cases hlong : reached < range.2
    · have hcovers : start < range.2 := hreached.start_le.trans_lt hlong
      rw [reachLeft, if_pos hcovers, max_eq_right hlong.le]
      split_ifs with hstop
      · exact hreached.settled hstart hstop rest
      · have hspec := ih (hreached.extend hstart hlong (not_le.mp hstop)) hrest
        rwa [decide_eq_true hcovers] at hspec
    · have hspec := ih (hreached.skip (not_lt.mp hlong)) hrest
      rw [reachLeft, max_eq_left (not_lt.mp hlong), if_neg (not_le.mpr hreached.lt_stop)]
      split_ifs with hcovers
      · rwa [decide_eq_true (hcovers.trans_le (not_lt.mp hlong))] at hspec
      · exact hspec

theorem reachRight_iff (hreached : Reached seen start stop reached) (hsorted : Sorted ranges) :
    reachRight stop ranges reached = true ↔ Covers ↑(ranges.reverse ++ seen) start stop := by
  have hshort : decide (stop ≤ reached) ≠ true := by simp [hreached.lt_stop]
  induction ranges generalizing seen reached with
  | nil => exact iff_of_false hshort (hreached.gap (by simp))
  | cons range rest ih =>
    obtain ⟨hfirst, hrest⟩ := List.pairwise_cons.mp hsorted
    rw [reachRight]
    split_ifs with hafter hlong hstop
    · exact iff_of_false hshort (hreached.gap (List.forall_mem_cons.mpr
        ⟨hafter, fun other hother => hafter.trans_le (hfirst other hother)⟩))
    all_goals rw [List.reverse_cons, List.append_assoc, List.singleton_append]
    · exact iff_of_true rfl (hreached.settled (not_lt.mp hafter) hstop rest)
    · have hnext := hreached.extend (not_lt.mp hafter) hlong (not_le.mp hstop)
      exact ih hnext hrest (by simpa using hstop)
    · exact ih (hreached.skip (not_lt.mp hlong)) hrest hshort

theorem contains_iff {seg : Segment} (hsorted : Sorted seg.ranges) (hlt : start < stop) :
    seg.contains start stop = true ↔ Covers ↑seg.ranges start stop := by
  have hfrom : ∀ range ∈ (seg.upTo start).reverse, range.1 ≤ start := fun range hrange =>
    start_le_of_mem_upTo (List.mem_reverse.mp hrange)
  have hnone : Reached [] start stop start :=
    ⟨le_rfl, hlt, by simp, fun addr hle hlt => absurd hlt (not_lt.mpr hle)⟩
  have hleft := reachLeft_spec hnone hfrom
  have hall : Covers ↑((seg.above start).reverse ++ seg.upTo start) start stop ↔
      Covers ↑seg.ranges start stop := by
    rw [← upTo_append_above seg start]
    simp [Covers, or_comm]
  rw [List.reverse_reverse, List.append_nil, decide_eq_false (lt_irrefl start)] at hleft
  rw [contains, if_neg (not_lt.mpr hlt.le), ← hall]
  split at hleft
  · next heq =>
    rw [heq]
    exact iff_of_true rfl (hleft.mono (List.subset_append_right _ _))
  · next reached covered heq =>
    obtain ⟨hreached, rfl⟩ := hleft
    rw [heq]
    by_cases hcovered : start < reached
    · rw [decide_eq_true hcovered]
      exact reachRight_iff hreached (hsorted.sublist (List.dropWhile_sublist _))
    · rw [decide_eq_false hcovered]
      refine iff_of_false (by simp) (hreached.gap fun range hrange => ?_)
      exact (not_lt.mp hcovered).trans_lt (lt_start_of_mem_above hsorted hrange)

inductive RangeCall where
  | add (start stop : ℕ)
  | remove (start stop : ℕ)
  deriving DecidableEq, Repr

def RangeCall.apply (seg : Segment) : RangeCall → Segment
  | add start stop => seg.addRange start stop
  | remove start stop => seg.removeRange start stop

/-- The ranges that were added more often than removed: an inverted range is
ignored, and so is the removal of a range that is not there. -/
def RangeCall.held (ranges : Multiset (ℕ × ℕ)) : RangeCall → Multiset (ℕ × ℕ)
  | add start stop => if stop < start then ranges else (start, stop) ::ₘ ranges
  | remove start stop => ranges.erase (start, stop)

theorem RangeCall.apply_spec (call : RangeCall) {seg : Segment} (hsorted : Sorted seg.ranges) :
    Sorted (call.apply seg).ranges ∧
      ((call.apply seg).ranges : Multiset (ℕ × ℕ)) = call.held ↑seg.ranges := by
  cases call with
  | add start stop => exact addRange_spec hsorted
  | remove start stop =>
    rw [apply, removeRange_ranges hsorted]
    refine ⟨hsorted.sublist List.erase_sublist, ?_⟩
    rw [held, Multiset.coe_erase, lawful_beq_subsingleton instBEqOfDecidableEq instBEqProd]

theorem apply_foldl (calls : List RangeCall) (seg : Segment) (hsorted : Sorted seg.ranges) :
    Sorted (calls.foldl RangeCall.apply seg).ranges ∧
      ((calls.foldl RangeCall.apply seg).ranges : Multiset (ℕ × ℕ)) =
        calls.foldl RangeCall.held ↑seg.ranges := by
  induction calls generalizing seg with
  | nil => exact ⟨hsorted, rfl⟩
  | cons call rest ih =>
    obtain ⟨hnext, heq⟩ := call.apply_spec hsorted
    rw [List.foldl_cons, List.foldl_cons, ← heq]
    exact ih _ hnext

/-- After any calls of `AddRange` and `RemoveRange` on a new segment its ranges
are sorted, and `Contains` is true for exactly the intervals that the ranges
added more often than removed cover. -/
theorem segment_contains_exact (type : MemType) (calls : List RangeCall) (start stop : ℕ)
    (hlt : start < stop) : Sorted (calls.foldl RangeCall.apply { memType := type }).ranges ∧
      ((calls.foldl RangeCall.apply { memType := type }).contains start stop = true ↔
        Covers (calls.foldl RangeCall.held 0) start stop) := by
  obtain ⟨hsorted, heq⟩ := apply_foldl calls { memType := type } List.Pairwise.nil
  refine ⟨hsorted, ?_⟩
  rw [contains_iff hsorted hlt, heq]
  rfl

/-- Two overlapping ranges, one of them added twice and removed once. -/
theorem segment_contains_exact_overlap :
    ([RangeCall.add 4 9, .add 0 6, .add 4 9, .add 8 2, .remove 4 9, .remove 1 2].foldl
      RangeCall.apply { memType := .host }).contains 1 9 = true ∧
    Covers ([RangeCall.add 4 9, .add 0 6, .add 4 9, .add 8 2, .remove 4 9, .remove 1 2].foldl
      RangeCall.held 0) 1 9 :=
  ⟨rfl, (segment_contains_exact .host _ 1 9 (by decide)).2.mp rfl⟩

end Hixl.Adxl.Segment
