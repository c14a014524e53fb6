import Hixl.MemStoreAccess

/-!
# Converted transfers reach the right device bytes

Validation accepts an operation that spans several merged regions, while the
conversion looks up one region, by the start address, and adds the offset.
The two agree on every byte because host kind and the distance between a
region and its device mapping are constant along a chain of mergeable regions.
-/

namespace Hixl

/-- The address under which a byte of the region is reached by the device. -/
def MemoryRegion.deviceByte (region : MemoryRegion) (byte : ℕ) : ℕ :=
  if region.isHostMem then region.registerDevAddr + (byte - region.addr)
  else byte

/-- The two regions map their bytes to device addresses in the same way. -/
structure SameMapping (a b : MemoryRegion) : Prop where
  kind : a.isHostMem = b.isHostMem
  mapped : a.registerDevAddr ≠ 0 ↔ b.registerDevAddr ≠ 0
  distance : a.registerDevAddr ≠ 0 →
    a.registerDevAddr + b.addr = b.registerDevAddr + a.addr

namespace SameMapping

theorem refl (a : MemoryRegion) : SameMapping a a := ⟨rfl, Iff.rfl, fun _ => rfl⟩

variable {a b : MemoryRegion}

theorem symm (hab : SameMapping a b) : SameMapping b a :=
  ⟨hab.kind.symm, hab.mapped.symm, fun hb => (hab.distance (hab.mapped.mpr hb)).symm⟩

theorem trans {c : MemoryRegion} (hab : SameMapping a b) (hbc : SameMapping b c) :
    SameMapping a c := by
  refine ⟨hab.kind.trans hbc.kind, hab.mapped.trans hbc.mapped, ?_⟩
  intro ha
  have habDistance := hab.distance ha
  have hbcDistance := hbc.distance (hab.mapped.mp ha)
  omega

theorem of_mergeable (hmerge : Mergeable a b) : SameMapping a b := by
  refine ⟨hmerge.sameKind, hmerge.sameMapping, ?_⟩
  intro ha
  have hdev := hmerge.devAdjacent ha (hmerge.sameMapping.mp ha)
  have haddr := hmerge.adjacent
  omega

theorem deviceByte_eq (hab : SameMapping a b) (hmapped : a.isHostMem = true → a.registerDevAddr ≠ 0)
    {start byte : ℕ} (ha : a.addr ≤ start) (hstart : start ≤ byte) (hb : b.addr ≤ byte) :
    a.deviceByte start + (byte - start) = b.deviceByte byte := by
  unfold MemoryRegion.deviceByte
  rw [← hab.kind]
  by_cases hhost : a.isHostMem = true
  · have hdistance := hab.distance (hmapped hhost)
    simp only [hhost, if_true]
    omega
  · simp only [hhost]
    simp only [Bool.false_eq_true, if_false]
    omega

end SameMapping

theorem sameMapping_of_isChain {chain : List MemoryRegion} (hchain : chain.IsChain Mergeable)
    {a b : MemoryRegion} (ha : a ∈ chain) (hb : b ∈ chain) : SameMapping a b := by
  have htrans : chain.IsChain SameMapping :=
    hchain.imp fun _ _ hmerge => SameMapping.of_mergeable hmerge
  have hpairwise : chain.Pairwise SameMapping := by
    have : IsTrans MemoryRegion SameMapping := ⟨fun _ _ _ hab hbc => hab.trans hbc⟩
    exact htrans.pairwise
  have : Std.Symm SameMapping := ⟨fun _ _ hab => hab.symm⟩
  exact hpairwise.forall_of_forall (fun region _ => SameMapping.refl region) ha hb

namespace HixlMemStore

variable {store : HixlMemStore} {isServer : Bool}

theorem findMemoryRegion_of_holds {addr : ℕ} (hdisjoint : (store.regions isServer).PairwiseDisjoint)
    {region : MemoryRegion} (hregion : region ∈ (store.regions isServer).regions)
    (hholds : region.Holds addr) : store.findMemoryRegion isServer addr = some region := by
  have hrecorded := (store.regions isServer).recorded
  have hin : isAddrInRegion region addr = true :=
    (isAddrInRegion_iff (hrecorded region hregion)).mpr hholds
  have hne : (store.regions isServer).regions ≠ [] := List.ne_nil_of_mem hregion
  have hsame : ∀ other ∈ (store.regions isServer).regions, isAddrInRegion other addr = true →
      other = region := by
    intro other hother hthere
    exact hdisjoint.laid.eq_of_covers hother hregion
      ((isAddrInRegion_iff (hrecorded other hother)).mp hthere) hholds
  unfold findMemoryRegion
  simp only [List.isEmpty_iff, hne, if_false]
  obtain hat | hlt := hholds.1.eq_or_lt
  · obtain ⟨first, hmem, hfirst, hle, hge⟩ := RegionMap.head?_atLeast hregion hat.ge
    have hstart : isAddrInRegion first addr = true := by
      have hproper := (hrecorded first hmem).addr_lt_stop
      rw [isAddrInRegion_iff (hrecorded first hmem)]
      exact ⟨by omega, hle.trans_lt hproper⟩
    simp [hfirst, Option.filter_some, hsame first hmem hstart, hin]
  · have hnone : ((store.regions isServer).atLeast addr).head?.filter
        (isAddrInRegion · addr) = none := by
      rw [Option.filter_eq_none_iff]
      intro next hnext hthere
      have hmem := List.mem_of_head? hnext
      have hle := (store.regions isServer).sorted.le_key_of_mem_atLeast hmem
      rw [hsame next (KeyedLists.mem_of_mem_atLeast hmem) hthere] at hle
      omega
    simp [hnone, hdisjoint.getLast?_below hregion hlt hholds.2, Option.filter_some, hin]

/-- Every byte from `buf` on is reached, from the converted address, at the
device byte of the recorded region that holds it. -/
def ReachesDeviceBytes (map : RegionMap) (buf converted len : ℕ) : Prop :=
  ∀ k, k < len → (∃ region ∈ map.regions, region.Holds (buf + k)) ∧
      ∀ region ∈ map.regions, region.Holds (buf + k) →
        converted + k = region.deviceByte (buf + k)

theorem convertEnd_of_access {buf len : ℕ} (hdisjoint : (store.regions isServer).PairwiseDisjoint)
    (hmapped : ∀ region ∈ (store.regions isServer).regions,
      region.isHostMem = true → region.registerDevAddr ≠ 0) (hbuf : buf ≠ 0) (hlen : len ≠ 0)
    (haccess : store.checkMemoryForAccess isServer buf len = true) :
    ∃ region converted host, store.findMemoryRegion isServer buf = some region ∧
        convertEnd region buf = .ok (converted, host) ∧
        ReachesDeviceBytes (store.regions isServer) buf converted len := by
  obtain ⟨-, chain, hmem, hchain, hholds⟩ := checkMemoryForAccess_sound hbuf hlen haccess
  obtain ⟨first, hfirst, hfirstHolds⟩ := hholds buf (le_refl _) (by omega)
  have hfirstMem := hmem first hfirst
  have hfind := findMemoryRegion_of_holds hdisjoint hfirstMem hfirstHolds
  have hrecorded := (store.regions isServer).recorded first hfirstMem
  have hconvert : ∃ host,
      convertEnd first buf = .ok (first.deviceByte buf, host) := by
    unfold convertEnd MemoryRegion.deviceByte
    by_cases hhost : first.isHostMem = true
    · have hdev := hmapped first hfirstMem hhost
      have hdevFits := hrecorded.devEnd_fits hdev
      have hbound := hrecorded.stop_lt
      have hlt : buf < first.addr + first.size := hfirstHolds.2
      unfold MemoryRegion.stop at hbound
      rw [wordMax_64] at hdevFits
      rw [wrapSub_eq_sub (by omega) hfirstHolds.1, wrapAdd_eq_add (by omega)]
      exact ⟨true, by simp [hhost, hdev]⟩
    · exact ⟨false, by simp [hhost]⟩
  obtain ⟨host, hconvert⟩ := hconvert
  refine ⟨first, first.deviceByte buf, host, hfind, hconvert, ?_⟩
  intro k hk
  obtain ⟨region, hregion, hregionHolds⟩ := hholds (buf + k) (by omega) (by omega)
  refine ⟨⟨region, hmem region hregion, hregionHolds⟩, ?_⟩
  intro other hother hotherHolds
  have hsame : other = region :=
    hdisjoint.laid.eq_of_covers hother (hmem region hregion) hotherHolds hregionHolds
  have hmapping := sameMapping_of_isChain hchain hfirst hregion
  have hbytes := hmapping.deviceByte_eq (hmapped first hfirstMem)
    hfirstHolds.1 (Nat.le_add_right buf k) hregionHolds.1
  rw [Nat.add_sub_cancel_left] at hbytes
  rwa [hsame]

/-- A converted descriptor keeps its length and reaches, on both sides, the
device bytes of the original range. -/
structure ConvertsTo (store : HixlMemStore)
    (desc converted : HixlOneSideOpDesc) : Prop where
  len_eq : converted.len = desc.len
  remote : ReachesDeviceBytes (store.regions true) desc.remoteBuf
    converted.remoteBuf desc.len
  localSide : ReachesDeviceBytes (store.regions false) desc.localBuf
    converted.localBuf desc.len

theorem batchConvertLoop_of_validated
    (hdisjoint : ∀ isServer, (store.regions isServer).PairwiseDisjoint)
    (hmapped : ∀ isServer, ∀ region ∈ (store.regions isServer).regions,
      region.isHostMem = true → region.registerDevAddr ≠ 0) {descs : List HixlOneSideOpDesc}
    (hvalid : store.batchValidateMemoryAccess true descs = .success)
    (localHostCnt remoteHostCnt : ℕ) :
    ∃ converted, store.batchConvertLoop localHostCnt remoteHostCnt descs = (.success, converted) ∧
        List.Forall₂ store.ConvertsTo descs converted := by
  induction descs generalizing localHostCnt remoteHostCnt with
  | nil => exact ⟨[], rfl, List.Forall₂.nil⟩
  | cons desc rest ih =>
    unfold batchValidateMemoryAccess at hvalid
    simp only [Bool.not_true, Bool.false_eq_true, if_false] at hvalid
    split_ifs at hvalid with hnull hremote hlocal
    obtain ⟨remoteRegion, remoteBuf, remoteHost, hremoteFind,
      hremoteConvert, hremoteBytes⟩ := convertEnd_of_access
        (hdisjoint true) (hmapped true) hnull.1 hnull.2.2
        (by simpa using hremote)
    obtain ⟨localRegion, localBuf, localHost, hlocalFind,
      hlocalConvert, hlocalBytes⟩ := convertEnd_of_access
        (hdisjoint false) (hmapped false) hnull.2.1 hnull.2.2
        (by simpa using hlocal)
    obtain ⟨converted, hloop, hall⟩ := ih hvalid
      (if localHost then wrapAdd 32 localHostCnt 1 else localHostCnt)
      (if remoteHost then wrapAdd 32 remoteHostCnt 1 else remoteHostCnt)
    refine ⟨{ desc with remoteBuf, localBuf } :: converted, ?_,
      List.Forall₂.cons ⟨rfl, hremoteBytes, hlocalBytes⟩ hall⟩
    unfold batchConvertLoop convertHostAddr
    simp only [hremoteFind, hremoteConvert, hlocalFind, hlocalConvert, hloop]

/-- A batch that passed validation on both sides converts without failure, and
every byte of every operation is reached at the device address of the recorded
region that holds it. -/
theorem batchConvertHostAddr_of_validated (store : HixlMemStore)
    (hdisjoint : ∀ isServer, (store.regions isServer).PairwiseDisjoint)
    (hmapped : ∀ isServer, ∀ region ∈ (store.regions isServer).regions,
      region.isHostMem = true → region.registerDevAddr ≠ 0) (descs : List HixlOneSideOpDesc)
    (hvalid : store.batchValidateMemoryAccess true descs = .success) :
    ∃ converted, store.batchConvertHostAddr descs = (.success, converted) ∧
        List.Forall₂ store.ConvertsTo descs converted :=
  batchConvertLoop_of_validated hdisjoint hmapped hvalid 0 0

def spanningStore : HixlMemStore := (adjacentPairStore.recordMemory false 65536 64 false 0).2

theorem spanningStore_converts :
    ∃ converted, spanningStore.batchConvertHostAddr [⟨4100, 65540, 20⟩] = (.success, converted) ∧
        List.Forall₂ spanningStore.ConvertsTo [⟨4100, 65540, 20⟩] converted := by
  have hserver : (spanningStore.regions true).regions =
      [⟨4096, 16, true, 81920⟩, ⟨4112, 16, true, 81936⟩] := by decide
  have hclient : (spanningStore.regions false).regions = [⟨65536, 64, false, 0⟩] := by decide
  refine batchConvertHostAddr_of_validated spanningStore ?_ ?_ _ (by decide)
  · intro isServer
    unfold RegionMap.PairwiseDisjoint
    cases isServer with
    | false =>
      rw [hclient]
      simp
    | true =>
      rw [hserver]
      simp only [List.pairwise_cons, List.mem_singleton, forall_eq, MemoryRegion.Holds]
      refine ⟨?_, by simp⟩
      intro byte
      omega
  · intro isServer
    cases isServer with
    | false =>
      rw [hclient]
      simp
    | true =>
      rw [hserver]
      simp

end HixlMemStore

end Hixl
