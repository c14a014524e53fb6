import Hixl.IntervalChains
import Hixl.MemStoreModel

/-!
# Exactness of the access check

The access check of the memory store accepts a byte range exactly when it lies
inside a chain of recorded regions that may be merged.  Completeness needs the
regions to be disjoint: then a chain of adjacent regions is a block of
neighbours in the region map, which the two walks of the check cross completely.
-/

namespace Hixl

open IntervalChains

namespace MemoryRegion

def stop (region : MemoryRegion) : ℕ := region.addr + region.size

def Holds (region : MemoryRegion) (byte : ℕ) : Prop :=
  region.addr ≤ byte ∧ byte < region.addr + region.size

variable {region : MemoryRegion}

theorem Recorded.addr_lt_stop (hrecorded : region.Recorded) : region.addr < region.stop := by
  have hsize := hrecorded.size_ne_zero
  unfold stop
  omega

theorem Recorded.stop_lt (hrecorded : region.Recorded) : region.stop < 2 ^ 64 := by
  have hfits := hrecorded.end_fits
  rw [wordMax_64] at hfits
  unfold stop
  omega

end MemoryRegion

/-- The compatibility of two consecutive regions of a chain, over the true
integers. -/
structure Mergeable (prev curr : MemoryRegion) : Prop where
  adjacent : prev.addr + prev.size = curr.addr
  sameKind : prev.isHostMem = curr.isHostMem
  sameMapping : prev.registerDevAddr ≠ 0 ↔ curr.registerDevAddr ≠ 0
  devAdjacent : prev.registerDevAddr ≠ 0 → curr.registerDevAddr ≠ 0 →
    prev.registerDevAddr + prev.size = curr.registerDevAddr

namespace RegionMap

def PairwiseDisjoint (map : RegionMap) : Prop :=
  map.regions.Pairwise fun a b => ∀ byte, ¬(a.Holds byte ∧ b.Holds byte)

/-- The bytes from `s` up to `e` lie in the union of a chain of mergeable
recorded regions. -/
def CoveredByChain (map : RegionMap) (s e : ℕ) : Prop :=
  ∃ chain : List MemoryRegion, (∀ region ∈ chain, region ∈ map.regions) ∧ chain.IsChain Mergeable ∧
      ∀ byte, s ≤ byte → byte < e → ∃ region ∈ chain, region.Holds byte

variable {map : RegionMap}

theorem split_at {addr : ℕ} {before after : List MemoryRegion}
    (hregions : map.regions = before ++ after) (hbefore : ∀ region ∈ before, region.addr < addr)
    (hafter : ∀ region ∈ after, addr ≤ region.addr) :
    map.below addr = before ∧ map.atLeast addr = after := by
  unfold below atLeast
  rw [hregions]
  exact KeyedLists.below_atLeast_of_split hbefore hafter

theorem split_behind {s : ℕ} {region : MemoryRegion} {before after : List MemoryRegion}
    (hregions : map.regions = before ++ region :: after) (hlt : region.addr < s)
    (hafter : ∀ other ∈ after, s ≤ other.addr) :
    map.below s = before ++ [region] ∧ map.atLeast s = after := by
  have hsorted := map.sorted
  rw [hregions] at hsorted
  refine split_at (hregions.trans (List.append_cons before region after)) ?_ hafter
  intro other hother
  obtain hother | rfl : other ∈ before ∨ other = region := by simpa using hother
  · exact ((List.pairwise_append.mp hsorted).2.2 other hother _ List.mem_cons_self).trans hlt
  · exact hlt

theorem PairwiseDisjoint.laid (hdisjoint : map.PairwiseDisjoint) :
    Laid MemoryRegion.addr MemoryRegion.stop map.regions := by
  refine (map.sorted.and hdisjoint).imp_of_mem ?_
  intro a b ha hb hab
  by_contra hlt
  have hproper := (map.recorded b hb).addr_lt_stop
  exact hab.2 b.addr ⟨⟨hab.1.le, not_le.mp hlt⟩, ⟨le_refl _, hproper⟩⟩

variable {region : MemoryRegion} (hregion : region ∈ map.regions) {s : ℕ}

include hregion

theorem head?_atLeast (hle : s ≤ region.addr) :
    ∃ first ∈ map.regions, (map.atLeast s).head? = some first ∧ s ≤ first.addr ∧
      first.addr ≤ region.addr := by
  have hmem : region ∈ map.atLeast s := by
    rw [← KeyedLists.below_append_atLeast MemoryRegion.addr s map.regions,
      List.mem_append] at hregion
    exact hregion.resolve_left fun hbelow => hle.not_gt (KeyedLists.key_lt_of_mem_below hbelow)
  have hsorted : (map.atLeast s).Pairwise _ := map.sorted.sublist (List.dropWhile_sublist _)
  obtain ⟨first, rest, heq⟩ := List.exists_cons_of_ne_nil (List.ne_nil_of_mem hmem)
  have hfirst : first ∈ map.atLeast s := by simp [heq]
  refine ⟨first, KeyedLists.mem_of_mem_atLeast hfirst, by rw [heq, List.head?_cons],
    map.sorted.le_key_of_mem_atLeast hfirst, ?_⟩
  rw [heq] at hmem hsorted
  obtain rfl | hrest := List.mem_cons.mp hmem
  · exact le_rfl
  · exact ((List.pairwise_cons.mp hsorted).1 region hrest).le

theorem PairwiseDisjoint.getLast?_below (hdisjoint : map.PairwiseDisjoint) (hlt : region.addr < s)
    (hstop : s < region.stop) : (map.below s).getLast? = some region := by
  obtain ⟨before, after, hregions⟩ := List.append_of_mem hregion
  have hlaid := hdisjoint.laid
  rw [hregions] at hlaid
  have hafter := (List.pairwise_cons.mp (List.pairwise_append.mp hlaid).2.1).1
  rw [(split_behind hregions hlt fun other hother => hstop.le.trans (hafter other hother)).1,
    List.getLast?_concat]

end RegionMap

theorem checkRegionsContiguous_iff {prev curr : MemoryRegion} (hprev : prev.Recorded) :
    checkRegionsContiguous prev curr = true ↔ Mergeable prev curr := by
  have hdevEnd : prev.registerDevAddr ≠ 0 → wrapAdd 64 prev.registerDevAddr prev.size =
        prev.registerDevAddr + prev.size := by
    intro hdev
    have hfits := hprev.devEnd_fits hdev
    rw [wordMax_64] at hfits
    exact wrapAdd_eq_add (by omega)
  simp only [checkRegionsContiguous, hprev.regionEnd_eq]
  constructor
  · intro hcheck
    split_ifs at hcheck with hadjacent hkind hmapping hdev
    all_goals
      refine ⟨not_not.mp hadjacent, not_not.mp hkind, decide_eq_decide.mp (not_not.mp hmapping),
        fun hne _ => ?_⟩
    · rw [← hdevEnd hne]
      exact of_decide_eq_true hcheck
    · exact absurd (decide_eq_true hne) hdev
  · intro hmerge
    have hmapping : decide (prev.registerDevAddr ≠ 0) = decide (curr.registerDevAddr ≠ 0) :=
      decide_eq_decide.mpr hmerge.sameMapping
    rw [if_neg (not_not.mpr hmerge.adjacent), if_neg (not_not.mpr hmerge.sameKind),
      if_neg (not_not.mpr hmapping)]
    split_ifs with hdev
    · have hne := of_decide_eq_true hdev
      rw [hdevEnd hne]
      exact decide_eq_true (hmerge.devAdjacent hne (hmerge.sameMapping.mp hne))
    · rfl

theorem linked_of_isChain {chain : List MemoryRegion} (hchain : chain.IsChain Mergeable) :
    Linked MemoryRegion.addr MemoryRegion.stop chain :=
  hchain.imp fun _ _ hmerge => hmerge.adjacent

namespace HixlMemStore

variable {s e : ℕ} {region : MemoryRegion}

theorem contains_iff (hrecorded : region.Recorded) :
    contains s e region = true ↔ region.addr ≤ s ∧ e ≤ region.stop := by
  simp [contains, hrecorded.regionEnd_eq, MemoryRegion.stop]

variable {addr : ℕ}

theorem isAddrInRegion_iff (hrecorded : region.Recorded) :
    isAddrInRegion region addr = true ↔ region.Holds addr := by
  unfold isAddrInRegion MemoryRegion.Holds
  rw [hrecorded.regionEnd_eq]
  split_ifs with hlt
  · simp [hlt]
  · simp [not_lt.mp hlt]

/-! ## The two walks of the merged check -/

section

variable (curr : MemoryRegion)

include curr

theorem extendForward_chain (after : List MemoryRegion)
    (hrecorded : ∀ region ∈ curr :: after, region.Recorded) :
    ∃ taken rest, after = taken ++ rest ∧ (curr :: taken).IsChain Mergeable ∧
      (curr :: taken).getLast? = some (extendForward curr after) := by
  induction after generalizing curr with
  | nil => exact ⟨[], [], rfl, by simp, rfl⟩
  | cons next rest ih =>
    by_cases hnext : checkRegionsContiguous curr next = true
    · obtain ⟨taken, left, hsplit, hchain, hlast⟩ := ih next (fun region hregion =>
          hrecorded region (List.mem_cons_of_mem _ hregion))
      have hmerge : Mergeable curr next :=
        (checkRegionsContiguous_iff (hrecorded curr List.mem_cons_self)).mp hnext
      refine ⟨next :: taken, left, by rw [hsplit]; rfl,
        List.isChain_cons_cons.mpr ⟨hmerge, hchain⟩, ?_⟩
      rw [List.getLast?_cons_cons, hlast, extendForward, if_pos hnext]
    · refine ⟨[], next :: rest, rfl, by simp, ?_⟩
      rw [extendForward, if_neg hnext]
      rfl

theorem extendBackward_chain (before : List MemoryRegion)
    (hrecorded : ∀ region ∈ before, region.Recorded) :
    ∃ rest taken, before = taken ++ rest ∧ (taken.reverse ++ [curr]).IsChain Mergeable ∧
      (taken.reverse ++ [curr]).head? = some (extendBackward curr before) := by
  induction before generalizing curr with
  | nil => exact ⟨[], [], rfl, by simp, rfl⟩
  | cons prev rest ih =>
    by_cases hprev : checkRegionsContiguous prev curr = true
    · obtain ⟨left, taken, hsplit, hchain, hhead⟩ := ih prev (fun region hregion =>
          hrecorded region (List.mem_cons_of_mem _ hregion))
      have hmerge : Mergeable prev curr :=
        (checkRegionsContiguous_iff (hrecorded prev List.mem_cons_self)).mp hprev
      refine ⟨left, prev :: taken, by rw [hsplit]; rfl, ?_, ?_⟩
      · rw [List.reverse_cons]
        refine hchain.append (by simp) ?_
        intro x hx y hy
        have hx' : x = prev := by simpa using hx.symm
        have hy' : y = curr := by simpa using hy.symm
        rwa [hx', hy']
      · rw [List.reverse_cons, List.head?_append, hhead, extendBackward, if_pos hprev]
        rfl
    · refine ⟨prev :: rest, [], rfl, by simp, ?_⟩
      rw [extendBackward, if_neg hprev]
      rfl

theorem extendForward_ge (after : List MemoryRegion)
    (hrecorded : ∀ region ∈ curr :: after, region.Recorded) :
    curr.addr ≤ (extendForward curr after).addr ∧ curr.stop ≤ (extendForward curr after).stop := by
  induction after generalizing curr with
  | nil => exact ⟨le_rfl, le_rfl⟩
  | cons next rest ih =>
    obtain ⟨hcurr, hafter⟩ := List.forall_mem_cons.mp hrecorded
    rw [extendForward]
    split_ifs with hnext
    · have hadjacent : curr.stop = next.addr :=
        ((checkRegionsContiguous_iff hcurr).mp hnext).adjacent
      have hproper := hcurr.addr_lt_stop
      have hproper' := (hafter next List.mem_cons_self).addr_lt_stop
      obtain ⟨haddr, hstop⟩ := ih next hafter
      exact ⟨by omega, by omega⟩
    · exact ⟨le_rfl, le_rfl⟩

theorem extendBackward_addr_le (before : List MemoryRegion)
    (hrecorded : ∀ region ∈ before, region.Recorded) :
    (extendBackward curr before).addr ≤ curr.addr := by
  induction before generalizing curr with
  | nil => exact le_rfl
  | cons prev rest ih =>
    obtain ⟨hprev, hrest⟩ := List.forall_mem_cons.mp hrecorded
    rw [extendBackward]
    split_ifs with hcheck
    · have hadjacent : prev.stop = curr.addr :=
        ((checkRegionsContiguous_iff hprev).mp hcheck).adjacent
      have hproper := hprev.addr_lt_stop
      have haddr := ih prev hrest
      omega
    · exact le_rfl

end

theorem stop_le_extendForward {curr : MemoryRegion} {seg rest : List MemoryRegion}
    (hrecorded : ∀ region ∈ curr :: (seg ++ rest), region.Recorded)
    (hchain : (curr :: seg).IsChain Mergeable) (hregion : region ∈ curr :: seg) :
    region.stop ≤ (extendForward curr (seg ++ rest)).stop := by
  induction seg generalizing curr region with
  | nil =>
    have hcurr : region = curr := by simpa using hregion
    rw [hcurr]
    exact (extendForward_ge curr rest hrecorded).2
  | cons next seg ih =>
    have hlink := List.isChain_cons_cons.mp hchain
    have hcontiguous : checkRegionsContiguous curr next = true :=
      (checkRegionsContiguous_iff (hrecorded curr List.mem_cons_self)).mpr hlink.1
    have hrest : ∀ other ∈ next :: (seg ++ rest), other.Recorded :=
      fun other hother => hrecorded other (List.mem_cons_of_mem _ hother)
    rw [List.cons_append, extendForward, if_pos hcontiguous]
    rcases List.mem_cons.mp hregion with rfl | hregion
    · have hnext := ih hrest hlink.2 List.mem_cons_self
      have hproper := (hrest next List.mem_cons_self).addr_lt_stop
      have hadjacent : region.stop = next.addr := hlink.1.adjacent
      omega
    · exact ih hrest hlink.2 hregion

variable {before after : List MemoryRegion} {it : MemoryRegion}

section

variable (hrecorded : ∀ region ∈ before ++ it :: after, region.Recorded)

include hrecorded

theorem merged_chain :
    ∃ chain : List MemoryRegion, (∀ region ∈ chain, region ∈ before ++ it :: after) ∧
      chain.IsChain Mergeable ∧ chain.head? = some (extendBackward it before.reverse) ∧
      chain.getLast? = some (extendForward it after) := by
  obtain ⟨restB, takenB, hsplitB, hchainB, hhead⟩ :=
    extendBackward_chain it before.reverse (fun region hregion =>
      hrecorded region (List.mem_append_left _ (List.mem_reverse.mp hregion)))
  obtain ⟨takenF, restF, hsplitF, hchainF, hlast⟩ :=
    extendForward_chain it after (fun region hregion =>
      hrecorded region (List.mem_append_right _ hregion))
  refine ⟨takenB.reverse ++ it :: takenF, ?_, ?_, ?_, ?_⟩
  · intro region hregion
    rcases List.mem_append.mp hregion with hB | hF
    · refine List.mem_append_left _ (List.mem_reverse.mp ?_)
      rw [hsplitB]
      exact List.mem_append_left _ (List.mem_reverse.mp hB)
    · refine List.mem_append_right _ ?_
      rw [hsplitF, ← List.cons_append]
      exact List.mem_append_left _ hF
  · exact List.isChain_split.mpr ⟨hchainB, hchainF⟩
  · rw [← hhead]
    cases takenB.reverse <;> simp
  · rw [← hlast, List.getLast?_append]
    simp [List.getLast?_cons]

theorem checkMergedRegionsAccess_iff :
    checkMergedRegionsAccess s e before it after = true ↔ (extendBackward it before.reverse).addr ≠
          (extendForward it after).addr ∧ (extendBackward it before.reverse).addr ≤ s ∧
        e ≤ (extendForward it after).stop := by
  obtain ⟨chain, hmem, hchain, hhead, hlast⟩ := merged_chain hrecorded
  have hitRecorded : it.Recorded := hrecorded it (by simp)
  have hstart : (extendBackward it before.reverse).addr ≤ it.addr :=
    extendBackward_addr_le it before.reverse fun region hregion => hrecorded region
      (List.mem_append_left _ (List.mem_reverse.mp hregion))
  have hend : it.stop ≤ (extendForward it after).stop :=
    (extendForward_ge it after fun region hregion =>
      hrecorded region (List.mem_append_right _ hregion)).2
  have hitProper := hitRecorded.addr_lt_stop
  have hendRecorded : (extendForward it after).Recorded :=
    hrecorded _ (hmem _ (List.mem_of_getLast? hlast))
  have hstop : (extendForward it after).regionEnd =
      (extendForward it after).stop := hendRecorded.regionEnd_eq
  have hbound := hendRecorded.stop_lt
  have hsum : (extendBackward it before.reverse).addr + ((extendForward it after).stop -
        (extendBackward it before.reverse).addr) =
      (extendForward it after).stop := by omega
  have hmergedEnd : wrapAdd 64 (extendBackward it before.reverse).addr
      (wrapSub 64 (extendForward it after).stop (extendBackward it before.reverse).addr) =
      (extendForward it after).stop := by
    rw [wrapSub_eq_sub hbound (by omega), wrapAdd_eq_add (by rw [hsum]; exact hbound), hsum]
  unfold checkMergedRegionsAccess contains
  simp only [hstop]
  split_ifs with heq
  · simp [heq]
  · simp [heq, MemoryRegion.regionEnd, hmergedEnd]

end

/-! ## Exactness -/

variable {store : HixlMemStore} {isServer : Bool} {size : ℕ}

theorem checkMemoryForAccess_iff_cases (haddr : addr ≠ 0) (hsize : size ≠ 0) :
    store.checkMemoryForAccess isServer addr size = true ↔ addr + size ≤ wordMax 64 ∧
        ((∃ prev, ((store.regions isServer).below addr).getLast? =
              some prev ∧ contains addr (addr + size) prev = true) ∨
          ∃ it after, (store.regions isServer).atLeast addr = it :: after ∧
            (contains addr (addr + size) it = true ∨ checkMergedRegionsAccess addr (addr + size)
                ((store.regions isServer).below addr) it after = true)) := by
  unfold checkMemoryForAccess
  simp only [haddr, hsize, if_false]
  by_cases hover : wordMax 64 - addr < size
  · have hnot : ¬addr + size ≤ wordMax 64 := by omega
    simp [hover, hnot]
  · have hfits : addr + size ≤ wordMax 64 := by
      omega
    have hend : wrapAdd 64 addr size = addr + size := by
      rw [wordMax_64] at hfits
      exact wrapAdd_eq_add (by omega)
    simp only [hover, hfits, hend, if_false, true_and]
    by_cases hempty : (store.regions isServer).regions = []
    · simp [hempty, RegionMap.below, RegionMap.atLeast, KeyedLists.below, KeyedLists.atLeast]
    · rw [if_neg (by simpa using hempty)]
      cases hlast : ((store.regions isServer).below addr).getLast? with
      | none =>
        cases hatLeast : (store.regions isServer).atLeast addr with
        | nil => simp
        | cons it after => simp
      | some prev =>
        cases hatLeast : (store.regions isServer).atLeast addr with
        | nil => simp
        | cons it after =>
          simp
          tauto

variable {map : RegionMap}

theorem covered_of_contains (hregion : region ∈ map.regions)
    (hcontains : contains s e region = true) : map.CoveredByChain s e := by
  have hbounds := (contains_iff (map.recorded region hregion)).mp hcontains
  refine ⟨[region], by simpa using hregion, by simp, ?_⟩
  intro byte hlow hhigh
  exact ⟨region, List.mem_singleton_self _, le_trans hbounds.1 hlow, lt_of_lt_of_le hhigh hbounds.2⟩

theorem covered_of_checkMerged (hregions : before ++ it :: after = map.regions)
    (hcheck : checkMergedRegionsAccess s e before it after = true) : map.CoveredByChain s e := by
  have hrecorded : ∀ region ∈ before ++ it :: after, region.Recorded := by
    rw [hregions]
    exact map.recorded
  obtain ⟨-, hstart, hstop⟩ := (checkMergedRegionsAccess_iff hrecorded).mp hcheck
  obtain ⟨chain, hmem, hchain, hhead, hlast⟩ := merged_chain hrecorded
  refine ⟨chain, fun region hregion => hregions ▸ hmem region hregion, hchain, ?_⟩
  intro byte hlow hhigh
  have hne : chain ≠ [] := by
    rintro rfl
    simp at hhead
  rw [List.head?_eq_some_head hne] at hhead
  rw [List.getLast?_eq_some_getLast hne] at hlast
  refine (linked_of_isChain hchain).exists_covers hne ?_ ?_
  · rw [Option.some.inj hhead]
    exact le_trans hstart hlow
  · rw [Option.some.inj hlast]
    exact lt_of_lt_of_le hhigh hstop

theorem checkMemoryForAccess_sound (haddr : addr ≠ 0) (hsize : size ≠ 0)
    (hcheck : store.checkMemoryForAccess isServer addr size = true) :
    addr + size ≤ wordMax 64 ∧ (store.regions isServer).CoveredByChain addr (addr + size) := by
  have hsplit := KeyedLists.below_append_atLeast MemoryRegion.addr addr
    (store.regions isServer).regions
  obtain ⟨hfits, hcases⟩ := (checkMemoryForAccess_iff_cases haddr hsize).mp hcheck
  refine ⟨hfits, ?_⟩
  rcases hcases with ⟨prev, hlast, hprev⟩ | ⟨it, after, hatLeast, hit⟩
  · refine covered_of_contains ?_ hprev
    exact KeyedLists.mem_of_mem_below (List.mem_of_getLast? hlast)
  · rcases hit with hit | hmerged
    · refine covered_of_contains ?_ hit
      refine KeyedLists.mem_of_mem_atLeast (?_ : it ∈ (store.regions isServer).atLeast addr)
      rw [hatLeast]
      exact List.mem_cons_self
    · refine covered_of_checkMerged ?_ hmerged
      rwa [← hatLeast]

section ChainInMap

variable {before seg rest : List MemoryRegion} {first next last : MemoryRegion} {s e : ℕ}

section

variable (hrecorded : ∀ region ∈ before ++ first :: next :: (seg ++ rest), region.Recorded)
  (hchain : (first :: next :: seg).IsChain Mergeable) (hs : first.addr ≤ s)
  (hlast : last ∈ next :: seg) (he : e ≤ last.stop)

include hrecorded hchain hs hlast he

theorem checkMerged_from_first : checkMergedRegionsAccess s e before first (next :: (seg ++ rest)) =
      true := by
  have hfirst : first.Recorded := hrecorded first (by simp)
  have hafter : ∀ region ∈ first :: next :: (seg ++ rest),
      region.Recorded :=
    fun region hregion => hrecorded region (List.mem_append_right _ hregion)
  have hlink := List.isChain_cons_cons.mp hchain
  have hstart := extendBackward_addr_le first before.reverse fun region hregion =>
    hrecorded region (List.mem_append_left _ (List.mem_reverse.mp hregion))
  have hstop : last.stop ≤ (extendForward first ((next :: seg) ++ rest)).stop :=
    stop_le_extendForward hafter hchain (List.mem_cons_of_mem _ hlast)
  have hforward : extendForward first (next :: (seg ++ rest)) =
      extendForward next (seg ++ rest) := by
    rw [extendForward, if_pos ((checkRegionsContiguous_iff hfirst).mpr hlink.1)]
  have hend := (extendForward_ge next (seg ++ rest)
    fun region hregion => hafter region (List.mem_cons_of_mem _ hregion)).1
  have hadjacent : first.stop = next.addr := hlink.1.adjacent
  have hproper := hfirst.addr_lt_stop
  rw [checkMergedRegionsAccess_iff hrecorded]
  rw [List.cons_append, hforward] at hstop
  rw [hforward]
  exact ⟨by omega, le_trans hstart hs, le_trans he hstop⟩

/-- The walks from two adjacent regions merge the same regions. -/
theorem checkMerged_from_next :
    checkMergedRegionsAccess s e (before ++ [first]) next (seg ++ rest) = true := by
  have hlink := (checkRegionsContiguous_iff (hrecorded first (by simp))).mpr
    (List.isChain_cons_cons.mp hchain).1
  have hmerged := checkMerged_from_first hrecorded hchain hs hlast he
  rw [checkMergedRegionsAccess, extendForward, if_pos hlink] at hmerged
  rwa [checkMergedRegionsAccess, List.reverse_append, List.reverse_singleton,
    List.singleton_append, extendBackward, if_pos hlink]

end

end ChainInMap

/-- Where a covered range starts in the map: the region that holds its first
byte, and the chain behind it as far as the range reaches. -/
structure RangePlaced (map : RegionMap) (s e : ℕ)
    (before : List MemoryRegion) (first : MemoryRegion)
    (trail right : List MemoryRegion) : Prop where
  regions_eq : map.regions = before ++ first :: (trail ++ right)
  chain : (first :: trail).IsChain Mergeable
  start_le : first.addr ≤ s
  before_lt : ∀ region ∈ before, region.addr < first.addr
  after_gt : ∀ region ∈ trail ++ right, s < region.addr
  reaches : e ≤ first.stop ∨ ∃ last ∈ trail, e ≤ last.stop

theorem exists_rangePlaced (hdisjoint : map.PairwiseDisjoint) (hne : s < e)
    (hcovered : map.CoveredByChain s e) : ∃ before first trail right,
      RangePlaced map s e before first trail right := by
  obtain ⟨chain, hmem, hchain, hholds⟩ := hcovered
  have hproper : ∀ region ∈ map.regions, region.addr < region.stop :=
    fun region hregion => (map.recorded region hregion).addr_lt_stop
  obtain ⟨left, right, hinfix⟩ :=
    (linked_of_isChain hchain).isInfix_of_laid hdisjoint.laid hproper hmem
  obtain ⟨first, hfirst, hfirstHolds⟩ := hholds s (le_refl _) hne
  obtain ⟨last, hlast, hlastHolds⟩ := hholds (e - 1) (by omega) (by omega)
  have hstart : first.addr ≤ s ∧ s < first.stop := hfirstHolds
  have hend : last.addr ≤ e - 1 ∧ e - 1 < last.stop := hlastHolds
  obtain ⟨lead, trail, rfl⟩ := List.append_of_mem hfirst
  have hregions : map.regions = (left ++ lead) ++ first :: (trail ++ right) := by
    rw [← hinfix]
    simp
  have hlaid := hdisjoint.laid
  rw [hregions] at hlaid
  obtain ⟨-, hlaidTrail, hcross⟩ := List.pairwise_append.mp hlaid
  have hfirstTrail := (List.pairwise_cons.mp hlaidTrail).1
  refine ⟨left ++ lead, first, trail, right, hregions,
    (List.isChain_append.mp hchain).2.1, hstart.1, ?_, ?_, ?_⟩
  · intro region hregion
    have hle := hcross region hregion first List.mem_cons_self
    have hlt := hproper region (by
      rw [hregions]
      exact List.mem_append_left _ hregion)
    exact lt_of_lt_of_le hlt hle
  · intro region hregion
    exact lt_of_lt_of_le hstart.2 (hfirstTrail region hregion)
  · rcases List.mem_append.mp hlast with hlead | hrest
    · have hle := hcross last (List.mem_append_right _ hlead) first List.mem_cons_self
      left
      omega
    rcases List.mem_cons.mp hrest with hsame | htrail
    · rw [hsame] at hend
      left
      omega
    · exact Or.inr ⟨last, htrail, by omega⟩

namespace RangePlaced

variable {map : RegionMap} {s e : ℕ} {before trail right : List MemoryRegion} {first : MemoryRegion}

section

variable (hplaced : RangePlaced map s e before first trail right)

include hplaced

theorem recorded : ∀ region ∈ before ++ first :: (trail ++ right), region.Recorded := by
  rw [← hplaced.regions_eq]
  exact map.recorded

theorem contains_first (hin : e ≤ first.stop) : contains s e first = true :=
  (contains_iff (hplaced.recorded first (by simp))).mpr ⟨hplaced.start_le, hin⟩

theorem accepted_at_first (hat : first.addr = s) :
    ∃ it after, map.atLeast s = it :: after ∧ (contains s e it = true ∨
        checkMergedRegionsAccess s e (map.below s) it after = true) := by
  obtain ⟨hbelow, hatLeast⟩ := RegionMap.split_at hplaced.regions_eq
    (fun region hregion => hat ▸ hplaced.before_lt region hregion)
    (List.forall_mem_cons.mpr ⟨hat.ge, fun region hregion => (hplaced.after_gt region hregion).le⟩)
  refine ⟨first, trail ++ right, hatLeast, ?_⟩
  rcases hplaced.reaches with hin | ⟨last, hlast, hend⟩
  · exact Or.inl (hplaced.contains_first hin)
  · right
    rw [hbelow]
    cases trail with
    | nil => cases hlast
    | cons next seg =>
      exact checkMerged_from_first hplaced.recorded hplaced.chain hplaced.start_le hlast hend

/-- The range starts inside its first region, which is just before the lower
bound. -/
theorem accepted_inside_first (hinside : first.addr ≠ s) :
    (∃ prev, (map.below s).getLast? = some prev ∧ contains s e prev = true) ∨
      ∃ it after, map.atLeast s = it :: after ∧ (contains s e it = true ∨
          checkMergedRegionsAccess s e (map.below s) it after = true) := by
  have hlt : first.addr < s := lt_of_le_of_ne hplaced.start_le hinside
  obtain ⟨hbelow, hatLeast⟩ := RegionMap.split_behind hplaced.regions_eq hlt
    fun region hregion => (hplaced.after_gt region hregion).le
  rw [hbelow]
  rcases hplaced.reaches with hin | ⟨last, hlast, hend⟩
  · exact Or.inl ⟨first, by simp, hplaced.contains_first hin⟩
  · right
    cases trail with
    | nil => cases hlast
    | cons next seg =>
      refine ⟨next, seg ++ right, hatLeast, Or.inr ?_⟩
      exact checkMerged_from_next hplaced.recorded hplaced.chain hplaced.start_le hlast hend

end

end RangePlaced

/-- The access check is exact: over disjoint regions it accepts exactly the
ranges inside a chain of mergeable regions, and it never accepts another range
even when recorded regions overlap. -/
theorem checkMemoryForAccess_exact (store : HixlMemStore) (isServer : Bool) (addr size : ℕ)
    (haddr : addr ≠ 0) (hsize : 0 < size) : ((store.regions isServer).PairwiseDisjoint →
      (store.checkMemoryForAccess isServer addr size = true ↔ addr + size ≤ 2 ^ 64 - 1 ∧
          (store.regions isServer).CoveredByChain addr (addr + size))) ∧
    (store.checkMemoryForAccess isServer addr size = true → addr + size ≤ 2 ^ 64 - 1 ∧
        (store.regions isServer).CoveredByChain addr (addr + size)) := by
  have hsize' : size ≠ 0 := by omega
  have hsound : store.checkMemoryForAccess isServer addr size = true → addr + size ≤ wordMax 64 ∧
        (store.regions isServer).CoveredByChain addr (addr + size) :=
    checkMemoryForAccess_sound haddr hsize'
  refine ⟨fun hdisjoint => ⟨hsound, ?_⟩, hsound⟩
  rintro ⟨hfits, hcovered⟩
  obtain ⟨before, first, trail, right, hplaced⟩ := exists_rangePlaced hdisjoint (by omega) hcovered
  rw [checkMemoryForAccess_iff_cases haddr hsize']
  refine ⟨hfits, ?_⟩
  by_cases hat : first.addr = addr
  · exact Or.inr (hplaced.accepted_at_first hat)
  · exact hplaced.accepted_inside_first hat

def adjacentPairStore : HixlMemStore :=
  let empty : HixlMemStore := ⟨RegionMap.empty, RegionMap.empty⟩
  let one := (empty.recordMemory true 4112 16 true 81936).2
  (one.recordMemory true 4096 16 true 81920).2

theorem adjacentPairStore_access : (adjacentPairStore.regions true).PairwiseDisjoint ∧
      adjacentPairStore.checkMemoryForAccess true 4100 20 = true ∧
      (adjacentPairStore.regions true).CoveredByChain 4100 4120 := by
  have hregions : (adjacentPairStore.regions true).regions =
      [⟨4096, 16, true, 81920⟩, ⟨4112, 16, true, 81936⟩] := by decide
  have hdisjoint : (adjacentPairStore.regions true).PairwiseDisjoint := by
    unfold RegionMap.PairwiseDisjoint
    rw [hregions]
    simp only [List.pairwise_cons, List.mem_singleton, forall_eq, MemoryRegion.Holds]
    refine ⟨?_, by simp⟩
    intro byte
    omega
  have hcheck :
      adjacentPairStore.checkMemoryForAccess true 4100 20 = true := by
    decide
  have hexact := checkMemoryForAccess_exact adjacentPairStore true 4100 20
    (by decide) (by decide)
  exact ⟨hdisjoint, hcheck, ((hexact.1 hdisjoint).mp hcheck).2⟩

end HixlMemStore

end Hixl
