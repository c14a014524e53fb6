import Hixl.MemStoreAccess

/-!
# The memory that a client has registered

`RegMem` checks a range against the recorded ones, registers it with the local
endpoint and records it; a guard takes the registration back when a later step
fails.  `UnRegMem` deregisters the memory that the endpoint has under a handle.
The endpoint is its table `reg_mems_` and the answers of the library.
-/

namespace Hixl

structure CommMem where
  addr : ℕ
  size : ℕ
  isHost : Bool
  deriving DecidableEq, Repr

structure RegMemAnswers where
  registerMem : Except Status ℕ
  registeredDeviceAddr : Except Status ℕ
  rollbackOk : Bool

structure RegMemClient where
  memStore : HixlMemStore
  regMems : ℕ → Option CommMem := fun _ => none
  needHostVaMapping : Bool

namespace RegMemClient

def setMem (c : RegMemClient) (handle : ℕ) (mem : Option CommMem) : RegMemClient :=
  { c with regMems := Function.update c.regMems handle mem }

def regMemLocked (c : RegMemClient) (mem : CommMem) (answers : RegMemAnswers) :
    Except Status ℕ × RegMemClient :=
  if ¬(mem.addr ≠ 0 ∧ 0 < mem.size) then (.error .paramInvalid, c)
  else if c.memStore.checkMemoryForRegister false mem.addr mem.size then
    (.error .paramInvalid, c)
  else
    match answers.registerMem with
    | .error status => (.error status, c)
    | .ok handle =>
      let rolledBack := c.setMem handle (if answers.rollbackOk then none else some mem)
      match if mem.isHost && c.needHostVaMapping then answers.registeredDeviceAddr else .ok 0 with
      | .error status => (.error status, rolledBack)
      | .ok registerDevAddr =>
        match c.memStore.recordMemory false mem.addr mem.size mem.isHost registerDevAddr with
        | (.success, memStore) => (.ok handle, { c.setMem handle (some mem) with memStore })
        | (status, _) => (.error status, rolledBack)

def unRegMem (c : RegMemClient) (handle : ℕ) (deregisterOk : Bool) : Status × RegMemClient :=
  if handle = 0 then (.paramInvalid, c)
  else
    match c.regMems handle with
    | none => (.paramInvalid, c)
    | some mem =>
      if !deregisterOk then (.paramInvalid, c)
      else
        let (status, memStore) := c.memStore.unrecordMemory false mem.addr
        (status, { c.setMem handle none with memStore })

end RegMemClient

inductive RegMemCall where
  | regMem (mem : CommMem) (answers : RegMemAnswers)
  | unRegMem (handle : ℕ) (deregisterOk : Bool)

/-- The client with the ranges that were registered and not unregistered since.
A handle stands for the memory that the endpoint has under it. -/
structure RegMemHistory where
  client : RegMemClient
  live : List (ℕ × ℕ) := []

def RegMemHistory.step (s : RegMemHistory) : RegMemCall → RegMemHistory
  | .regMem mem answers =>
    let result := s.client.regMemLocked mem answers
    ⟨result.2, if result.1.isOk then (mem.addr, mem.size) :: s.live else s.live⟩
  | .unRegMem handle deregisterOk =>
    let result := s.client.unRegMem handle deregisterOk
    ⟨result.2, if result.1 = .success then s.live.filter fun range =>
      some range.1 ≠ (s.client.regMems handle).map CommMem.addr else s.live⟩

/-- Some byte of the range lies in a recorded region. -/
def RegionMap.Meets (map : RegionMap) (addr size : ℕ) : Prop :=
  ∃ region ∈ map.regions, ∃ byte, region.Holds byte ∧ addr ≤ byte ∧ byte < addr + size

namespace HixlMemStore

variable {store : HixlMemStore} {map : RegionMap} {s e : ℕ} {region : MemoryRegion}

theorem overlaps_iff (hrecorded : region.Recorded) :
    overlaps false s e region = true ↔ s < region.stop ∧ region.addr < e := by
  rw [overlaps, checkedAdd_eq_some_iff.mpr ⟨rfl, hrecorded.end_fits⟩]
  simp [MemoryRegion.stop]

/-- In disjoint regions a range that meets some region meets one of the two
next to the lower bound of its start. -/
theorem neighbour_overlaps (hdisjoint : map.PairwiseDisjoint) (hregion : region ∈ map.regions)
    (hstop : s < region.stop) (haddr : region.addr < e) :
    (map.atLeast s).head?.any (overlaps false s e) = true ∨
      (map.below s).getLast?.any (overlaps false s e) = true := by
  have hrecorded := map.recorded
  obtain hlt | hle := lt_or_ge region.addr s
  · right
    rw [hdisjoint.getLast?_below hregion hlt hstop, Option.any_some,
      overlaps_iff (hrecorded region hregion)]
    exact ⟨hstop, haddr⟩
  · left
    obtain ⟨first, hmem, hfirst, hstart, hbefore⟩ := RegionMap.head?_atLeast hregion hle
    rw [hfirst, Option.any_some, overlaps_iff (hrecorded first hmem)]
    exact ⟨hstart.trans_lt (hrecorded first hmem).addr_lt_stop, hbefore.trans_lt haddr⟩

theorem checkMemoryForRegister_iff (hdisjoint : store.clientRegions.PairwiseDisjoint)
    (addr size : ℕ) : store.checkMemoryForRegister false addr size = true ↔
      addr = 0 ∨ size = 0 ∨ wordMax 64 < addr + size ∨ store.clientRegions.Meets addr size := by
  unfold checkMemoryForRegister
  by_cases hnull : addr = 0
  · simp [hnull]
  by_cases hsize : size = 0
  · simp [hsize]
  cases hend : checkedAdd 64 addr size with
  | none => simp [hnull, hsize, checkedAdd_eq_none_iff.mp hend]
  | some e =>
    obtain ⟨rfl, hfits⟩ := checkedAdd_eq_some_iff.mp hend
    simp only [hnull, hsize, if_false, false_or, not_lt.mpr hfits]
    have hmeets : ∀ region ∈ store.clientRegions.regions,
        overlaps false addr (addr + size) region = true →
          store.clientRegions.Meets addr size := by
      intro region hregion hoverlap
      have hrecorded := store.clientRegions.recorded region hregion
      obtain ⟨hstop, haddr⟩ := (overlaps_iff hrecorded).mp hoverlap
      exact ⟨region, hregion, max addr region.addr,
        ⟨le_max_right _ _, max_lt hstop hrecorded.addr_lt_stop⟩, le_max_left _ _,
        max_lt (by omega) haddr⟩
    constructor
    · intro hcheck
      split_ifs at hcheck with hempty hhead hlast
      · obtain ⟨region, hregion, hoverlap⟩ := (Option.any_eq_true _ _).mp hhead
        exact hmeets region (KeyedLists.mem_of_mem_atLeast (List.mem_of_head? hregion)) hoverlap
      · obtain ⟨region, hregion, hoverlap⟩ := (Option.any_eq_true _ _).mp hlast
        exact hmeets region (KeyedLists.mem_of_mem_below (List.mem_of_getLast? hregion)) hoverlap
    · rintro ⟨region, hregion, byte, hholds, hle, hlt⟩
      have hne := List.ne_nil_of_mem hregion
      obtain hhead | hlast := neighbour_overlaps hdisjoint hregion (hle.trans_lt hholds.2)
        (hholds.1.trans_lt hlt)
      · simp [regions, hne, hhead]
      · simp [regions, hne, hlast]

theorem recordMemory_success {store' : HixlMemStore} {addr size dev : ℕ} {isHost : Bool}
    (hrecord : store.recordMemory false addr size isHost dev = (.success, store')) :
    store'.clientRegions.regions = KeyedLists.insert MemoryRegion.addr
      ⟨addr, size, isHost, dev⟩ store.clientRegions.regions := by
  simp only [recordMemory, Bool.false_eq_true, if_false] at hrecord
  split_ifs at hrecord
  all_goals
    cases hrecord
  rfl

end HixlMemStore

namespace RegMemHistory

def regions (s : RegMemHistory) : RegionMap := s.client.memStore.clientRegions

/-- The recorded regions are disjoint, and they are the live ranges. -/
structure Exact (s : RegMemHistory) : Prop where
  disjoint : s.regions.PairwiseDisjoint
  mem_live : ∀ range, range ∈ s.live ↔ ∃ region ∈ s.regions.regions,
    (region.addr, region.size) = range

namespace Exact

variable {s : RegMemHistory} (hexact : s.Exact)

include hexact

theorem keep {c : RegMemClient} (hsame : c.memStore = s.client.memStore) : Exact ⟨c, s.live⟩ := by
  have hregions : regions ⟨c, s.live⟩ = s.regions := congrArg HixlMemStore.clientRegions hsame
  exact ⟨hregions ▸ hexact.disjoint, hregions ▸ hexact.mem_live⟩

theorem record {c : RegMemClient} {region : MemoryRegion}
    (hcheck : ¬s.client.memStore.checkMemoryForRegister false region.addr region.size = true)
    (hregions : c.memStore.clientRegions.regions =
      KeyedLists.insert MemoryRegion.addr region s.regions.regions) :
    Exact ⟨c, (region.addr, region.size) :: s.live⟩ := by
  constructor
  · have hperm := @List.perm_middle _ region
      (KeyedLists.below MemoryRegion.addr region.addr s.regions.regions)
      (KeyedLists.atLeast MemoryRegion.addr region.addr s.regions.regions)
    rw [KeyedLists.below_append_atLeast] at hperm
    rw [RegionMap.PairwiseDisjoint, regions, hregions, KeyedLists.insert, hperm.pairwise_iff
      (fun hab byte hboth => hab byte hboth.symm)]
    refine List.pairwise_cons.mpr ⟨?_, hexact.disjoint⟩
    rintro other hother byte ⟨hnew, hholds⟩
    exact hcheck ((HixlMemStore.checkMemoryForRegister_iff hexact.disjoint _ _).mpr
      (.inr (.inr (.inr ⟨other, hother, byte, hholds, hnew⟩))))
  · intro range
    rw [regions, hregions]
    simp only [List.mem_cons, KeyedLists.mem_insert, hexact.mem_live, or_and_right, exists_or,
      exists_eq_left, @eq_comm _ range]

theorem regMem (mem : CommMem) (answers : RegMemAnswers) :
    (s.step (.regMem mem answers)).Exact := by
  rw [step]
  generalize hresult : s.client.regMemLocked mem answers = result
  unfold RegMemClient.regMemLocked at hresult
  split at hresult
  · exact hresult ▸ hexact
  split at hresult
  · exact hresult ▸ hexact
  next hcheck =>
  split at hresult
  · exact hresult ▸ hexact
  dsimp only at hresult
  split at hresult
  · exact hresult ▸ hexact.keep rfl
  split at hresult <;> subst hresult
  · next hrecord => exact hexact.record hcheck (HixlMemStore.recordMemory_success hrecord)
  · exact hexact.keep rfl

theorem unRegMem (handle : ℕ) (deregisterOk : Bool) :
    (s.step (.unRegMem handle deregisterOk)).Exact := by
  rw [step]
  generalize hresult : s.client.unRegMem handle deregisterOk = result
  unfold RegMemClient.unRegMem at hresult
  split at hresult
  · exact hresult ▸ hexact
  split at hresult
  · exact hresult ▸ hexact
  next mem hmem =>
  split at hresult
  · exact hresult ▸ hexact
  unfold HixlMemStore.unrecordMemory at hresult
  dsimp only at hresult
  split at hresult <;> subst hresult
  · exact hexact.keep rfl
  · refine ⟨hexact.disjoint.sublist List.filter_sublist, fun range => ?_⟩
    rw [hmem, if_pos rfl, List.mem_filter, hexact.mem_live]
    constructor
    · rintro ⟨⟨region, hregion, rfl⟩, hne⟩
      exact ⟨region, KeyedLists.mem_erase.mpr ⟨hregion, by simpa using hne⟩, rfl⟩
    · rintro ⟨region, hregion, rfl⟩
      obtain ⟨hregion, hne⟩ := KeyedLists.mem_erase.mp hregion
      exact ⟨⟨region, hregion, rfl⟩, by simpa using hne⟩

end Exact

/-- In every state that calls of `RegMem` and `UnRegMem` lead to, whatever the
endpoint answers, the recorded client regions are disjoint, they are the ranges
registered and not unregistered since, and `CheckMemoryForRegister` refuses a
range that is null, empty or overflows, and else exactly if it meets a region. -/
theorem clientRegions_exact (serverRegions : RegionMap) (needHostVaMapping : Bool)
    (calls : List RegMemCall) :
    let s := calls.foldl step ⟨{ memStore := ⟨serverRegions, .empty⟩, needHostVaMapping }, []⟩
    s.regions.PairwiseDisjoint ∧
    (∀ range, range ∈ s.live ↔ ∃ region ∈ s.regions.regions, (region.addr, region.size) = range) ∧
    ∀ addr size, s.client.memStore.checkMemoryForRegister false addr size = true ↔
      addr = 0 ∨ size = 0 ∨ wordMax 64 < addr + size ∨ s.regions.Meets addr size := by
  intro s
  have hexact : s.Exact := by
    refine List.foldlRecOn calls step ⟨List.Pairwise.nil, by simp [regions, RegionMap.empty]⟩ ?_
    rintro s hexact (⟨mem, answers⟩ | ⟨handle, deregisterOk⟩) -
    · exact hexact.regMem mem answers
    · exact hexact.unRegMem handle deregisterOk
  exact ⟨hexact.disjoint, hexact.mem_live,
    HixlMemStore.checkMemoryForRegister_iff hexact.disjoint⟩

/-- Without any region the null address is reported as a conflict. -/
theorem null_conflicts : (HixlMemStore.mk .empty .empty).clientRegions.regions = [] ∧
      (HixlMemStore.mk .empty .empty).checkMemoryForRegister false 0 8 = true :=
  ⟨rfl, rfl⟩

end RegMemHistory

end Hixl
