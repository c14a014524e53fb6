import Hixl.AdxlConnectAtomic

/-!
# The ranges of a peer after a connect

A connect adds the ranges of the peer to those of its id in the segment table;
only `Disconnect` removes them.  After a successful connect the table has
exactly the ranges of the peer if its earlier channels have left none behind.  A
socket error, a heartbeat, the guard of `DoConnect` and an incoming connect of
the same id leave some.
-/

namespace Hixl.Adxl

open SharedObjectPrograms ProgramRuns ProgramRuns.System

namespace SegmentTable

open InnerEngine

def held (type : MemType) : List Segment → Multiset (ℕ × ℕ)
  | [] => 0
  | seg :: rest => (if seg.memType = type then ↑seg.ranges else 0) + held type rest

def AllSorted (segs : List Segment) : Prop := ∀ seg ∈ segs, Segment.Sorted seg.ranges

theorem ranges_le_held {seg : Segment} {segs : List Segment} (hseg : seg ∈ segs) :
    (seg.ranges : Multiset (ℕ × ℕ)) ≤ held seg.memType segs := by
  induction segs with
  | nil => cases hseg
  | cons first rest ih =>
    rw [held]
    obtain rfl | hrest := List.mem_cons.mp hseg
    · simp
    · exact (ih hrest).trans (Multiset.le_add_left _ _)

theorem addToSegments_spec {start stop : ℕ} (hle : start ≤ stop) (type : MemType)
    {segs : List Segment} (hsorted : AllSorted segs) :
    AllSorted (addToSegments start stop type segs) ∧
      ∀ other, held other (addToSegments start stop type segs) =
        held other segs + if type = other then {(start, stop)} else 0 := by
  have hadd : ∀ seg : Segment, Segment.Sorted seg.ranges →
      Segment.Sorted (seg.addRange start stop).ranges ∧
        ((seg.addRange start stop).ranges : Multiset (ℕ × ℕ)) = (start, stop) ::ₘ ↑seg.ranges :=
    fun seg hseg => by
      have hspec := @Segment.addRange_spec start stop seg hseg
      rwa [if_neg hle.not_gt] at hspec
  have htype : ∀ seg : Segment, (seg.addRange start stop).memType = seg.memType := fun seg => by
    unfold Segment.addRange
    split_ifs <;> rfl
  induction segs with
  | nil =>
    obtain ⟨hnew, hranges⟩ := hadd { memType := type } List.Pairwise.nil
    refine ⟨List.forall_mem_singleton.mpr hnew, fun other => ?_⟩
    simp [addToSegments, held, htype, hranges]
  | cons seg rest ih =>
    obtain ⟨hseg, hrest⟩ := List.forall_mem_cons.mp hsorted
    unfold addToSegments
    split_ifs with hsame
    · obtain ⟨hnew, hranges⟩ := hadd seg hseg
      refine ⟨List.forall_mem_cons.mpr ⟨hnew, hrest⟩, fun other => ?_⟩
      rw [held, held, htype, hranges, hsame]
      split_ifs
      · rw [← Multiset.singleton_add, add_comm {_}, add_right_comm]
      · rw [add_zero]
    · obtain ⟨hnew, hheld⟩ := ih hrest
      refine ⟨List.forall_mem_cons.mpr ⟨hseg, hnew⟩, fun other => ?_⟩
      rw [held, held, hheld, add_assoc]

variable (channelId other : String) (table : SegmentTable)

theorem segments_removeChannel : (table.removeChannel channelId).segments other =
    if other = channelId then [] else table.segments other := by
  unfold segments removeChannel
  induction table with
  | nil => simp
  | cons entry rest ih =>
    obtain ⟨name, segs⟩ := entry
    by_cases hname : name = channelId
    · subst hname
      rw [List.filter_cons_of_neg (by simp), ih]
      split_ifs with hother
      · rfl
      · rw [List.lookup_cons, beq_false_of_ne hother]
    · rw [List.filter_cons_of_pos (by simpa using hname), List.lookup_cons, List.lookup_cons]
      by_cases hother : other = name
      · simp [hother, hname]
      · rw [beq_false_of_ne hother]
        exact ih

theorem segments_addRange (addr : AddrInfo) :
    (addRange channelId addr.start addr.stop addr.memType table).segments other =
      if other = channelId then
        addToSegments addr.start addr.stop addr.memType (table.segments channelId)
      else table.segments other := by
  change (List.lookup other ((channelId, _) :: table.removeChannel channelId)).getD [] = _
  rw [List.lookup_cons]
  split_ifs with hother
  · rw [hother, beq_self_eq_true]
    rfl
  · rw [beq_false_of_ne hother]
    exact (segments_removeChannel channelId other table).trans (if_neg hother)

end SegmentTable

namespace InnerEngine

open SegmentTable

def advertised (addrs : List AddrInfo) (type : MemType) : Multiset (ℕ × ℕ) :=
  ((addrs.filter fun addr => addr.memType = type).map fun addr => (addr.start, addr.stop) : List _)

def recorded (table : Option SegmentTable) (channelId : String) : List Segment :=
  (table.map (·.segments channelId)).getD []

/-! ## A connect -/

def Grows (channelId : String) (addrs : List AddrInfo) (table table' : Option SegmentTable) :
    Prop :=
  AllSorted (recorded table channelId) → AllSorted (recorded table' channelId) ∧
    ∀ type, held type (recorded table' channelId) =
      held type (recorded table channelId) + advertised addrs type

/-- There is a new channel of the id that the peer gave, and the ranges of the
peer were added to those of this id. -/
def Connected (before : Traces) (peer : ConnectInfo) (after : Traces) : Prop :=
  ∃ table, after = { before.add (.client, peer.channelId) with segmentTable := table } ∧
    Grows peer.channelId peer.addrs before.segmentTable table

variable {options : Options} {kind : Request → Oracle → Prop} {w : World} {peer : ConnectInfo}

abbrev Gives (options : Options) (kind : Request → Oracle → Prop) (post : World → Prop)
    (p : EngineProg ℕ) (w : World) : Prop :=
  Does options kind (fun ret w' => ret = 0 → post w') p w

theorem Gives.chk {mid post : World → Prop} {first rest : EngineProg ℕ}
    (hfirst : Gives options kind mid first w)
    (hrest : ∀ w', mid w' → Gives options kind post rest w') :
    Gives options kind post (chkStatusRet first rest) w :=
  obeys_chk hfirst (fun w' hmid => hrest w' (hmid rfl)) fun _ _ hret _ h => absurd h hret

theorem Gives.of_keeps {p : EngineProg ℕ} (hkeeps : KeepsTraces options kind (· = w.traces) p) :
    Gives options kind (fun w' => w'.traces = w.traces) p w :=
  (hkeeps w rfl).mono fun _ _ h _ => h

theorem gives_addRanges (channelId : String) {addrs : List AddrInfo}
    (hvalid : ∀ addr ∈ addrs, addr.start ≤ addr.stop) (w : World) :
    Gives options kind (fun w' => ∃ table, w'.traces = { w.traces with segmentTable := table } ∧
      Grows channelId addrs w.segmentTable table) (addRanges channelId addrs) w := by
  induction addrs generalizing w with
  | nil => exact fun _ => ⟨w.segmentTable, rfl, fun h => ⟨h, by simp [advertised]⟩⟩
  | cons addr addrs ih =>
    obtain ⟨haddr, hrest⟩ := List.forall_mem_cons.mp hvalid
    refine does_send fun oracle _ => ?_
    split_ifs with hsome
    · obtain ⟨old, hold⟩ := Option.isSome_iff_exists.mp hsome
      refine (ih hrest _).mono fun ret w' hpost hret => ?_
      obtain ⟨table, htraces, hgrows⟩ := hpost hret
      refine ⟨table, htraces, fun hsorted => ?_⟩
      rw [hold] at hsorted ⊢
      have hnew : recorded (some (SegmentTable.addRange channelId addr.start addr.stop
          addr.memType old)) channelId = addToSegments addr.start addr.stop addr.memType
            (recorded (some old) channelId) :=
        (segments_addRange channelId channelId old addr).trans (if_pos rfl)
      obtain ⟨hsorted, hheld⟩ := addToSegments_spec haddr addr.memType hsorted
      change Grows channelId addrs (w.segmentTable.map _) table at hgrows
      rw [hold, Option.map_some, Grows, hnew] at hgrows
      obtain ⟨hsorted, hall⟩ := hgrows hsorted
      refine ⟨hsorted, fun type => ?_⟩
      rw [hall, hheld, add_assoc]
      by_cases htype : addr.memType = type <;> simp [advertised, htype]
    · exact fun h => absurd h (by decide)

theorem gives_createChannel (peer : ConnectInfo) (w : World) :
    Gives options kind (fun w' => Connected w.traces peer w'.traces)
      (createChannel .client peer) w := by
  have hclient : Gives options kind (· = w) (destroyPrevious (.client, peer.channelId)) w :=
    fun _ => rfl
  refine hclient.chk fun w₁ hw₁ => ?_
  subst w₁
  split_ifs with hvalid
  · exact fun h => absurd h (by decide)
  have hmanager : Gives options kind (fun w' => w'.traces = w.traces.add (.client, peer.channelId))
      (managerCreateChannel (.client, peer.channelId)) w :=
    (does_managerCreateChannel _ w).mono fun ret w' h hret =>
      (h.resolve_right fun h => h.1 hret).2.1
  refine hmanager.chk fun w₁ hw₁ => ?_
  refine (gives_addRanges _ (by simpa using hvalid) w₁).mono fun ret w' hpost hret => ?_
  obtain ⟨table, htraces, hgrows⟩ := hpost hret
  exact ⟨table, htraces.trans (by rw [hw₁]), (congrArg Traces.segmentTable hw₁) ▸ hgrows⟩

theorem gives_connectToEngine {remote : String} (polls : ℕ) (w : World)
    (hlt : ∀ obj ∈ w.channels, obj < w.keys.length)
    (hnone : w.getChannel (.client, remote) = none) :
    Gives options (fun _ oracle => oracle.peer = peer)
      (fun w' => Connected w.traces peer w'.traces ∧ peer.channelId = remote)
      (connectToEngine options polls remote) w := by
  refine does_send fun oracle hpeer => ?_
  subst peer
  split_ifs with hexchanged
  · exact fun h => absurd h hexchanged
  have hprocess : Gives options (fun _ other => other.peer = oracle.peer)
      (fun w' => Connected w.traces oracle.peer w'.traces)
      (connectInfoProcess options polls .client oracle.peer) w := by
    refine Gives.chk ((does_awaitCapacity polls w).mono fun _ _ h _ => h.1) fun w₁ hw₁ => ?_
    refine (Gives.of_keeps (keeps_tame rfl)).chk fun w₂ hw₂ => ?_
    rw [← hw₁, ← hw₂]
    exact gives_createChannel oracle.peer w₂
  refine hprocess.bind fun ret w₁ hw₁ => ?_
  refine (Gives.of_keeps (keeps_tame rfl)).chk fun w₂ hw₂ => ?_
  refine (Gives.of_keeps (keeps_tame rfl)).chk fun w₃ hw₃ => ?_
  have hcreated : Gives options (fun _ other => other.peer = oracle.peer)
      (fun w' => w' = w₃ ∧ Connected w.traces oracle.peer w₃.traces) (.ret ret) w₃ := by
    rw [hw₃, hw₂]
    exact fun hret => ⟨rfl, hw₁ hret⟩
  refine hcreated.chk ?_
  rintro _ ⟨rfl, hconnected⟩
  refine does_send fun _ _ => ?_
  change Does options _ _ (if (World.getChannel _ (.client, remote)).isSome then _ else _) _
  split_ifs with hfound
  · have hname : oracle.peer.channelId = remote := by
      obtain ⟨table, htraces, -⟩ := hconnected
      rw [getChannel_added hlt htraces, hnone] at hfound
      by_contra hne
      rw [if_neg fun h => hne (congrArg Prod.snd h)] at hfound
      cases hfound
    have hrest : KeepsTraces options (fun _ other => other.peer = oracle.peer)
        (Connected w.traces oracle.peer) (chkStatusRet (send (.outside .setSocketNonBlocking))
          (send (.outside .addSocketToEpoll))) := keeps_chk (keeps_tame rfl) (keeps_tame rfl)
    exact (hrest _ hconnected).mono fun _ _ hpost _ => ⟨hpost, hname⟩
  · exact fun h => absurd h (by decide)

theorem gives_handlerConnect {remote : String} (polls : ℕ) (w : World)
    (hlt : ∀ obj ∈ w.channels, obj < w.keys.length) :
    Gives options (fun _ oracle => oracle.peer = peer)
      (fun w' => w.getChannel (.client, remote) = none ∧ Connected w.traces peer w'.traces ∧
        peer.channelId = remote) (handlerConnect options polls remote) w := by
  refine does_send fun _ _ => ?_
  split_ifs with hfound
  · exact fun h => absurd h (by decide)
  have hnone := Option.not_isSome_iff_eq_none.mp hfound
  refine does_send fun oracle _ => ?_
  split_ifs with hdialled
  · refine (gives_connectToEngine polls w hlt hnone).bind fun ret w₁ hw₁ => ?_
    split_ifs with hret
    · exact fun _ => ⟨hnone, hw₁ hret⟩
    · refine does_send fun _ _ => ?_
      split_ifs
      · exact does_send fun _ _ h => absurd h hret
      · exact fun h => absurd h hret
  · exact fun h => absurd h hdialled

/-! ## Histories that leave no ranges behind -/

/-- A client channel of the remote leaves the map only when no ranges are
recorded for it, and ranges are recorded for it only while it has one. -/
def tidily (remote : String) : Condition World Notes Oracle Request
  | w, _, _, .destroy _ target, _ =>
    !(w.channels.any fun obj => w.isTarget target obj && w.keys[obj]? = some (.client, remote)) ||
      (recorded w.segmentTable remote).isEmpty
  | w, _, _, .addRange channelId _, _ =>
    channelId ≠ remote || (w.getChannel (.client, remote)).isSome
  | _, _, _, _, _ => true

structure Tidy (remote : String) (w : World) : Prop where
  lt : ∀ obj ∈ w.channels, obj < w.keys.length
  empty : w.getChannel (.client, remote) = none → recorded w.segmentTable remote = []

theorem Tidy.of_traces {remote : String} {w w' : World} (htidy : Tidy remote w)
    (htraces : w'.traces = w.traces) : Tidy remote w' := by
  have hkeys : w'.keys = w.keys := congrArg Traces.keys htraces
  have hchannels : w'.channels = w.channels := congrArg Traces.channels htraces
  have htable : w'.segmentTable = w.segmentTable := congrArg Traces.segmentTable htraces
  refine ⟨by rw [hkeys, hchannels]; exact htidy.lt, ?_⟩
  rw [getChannel_eq_of_traces htraces, htable]
  exact htidy.empty

theorem tidy_sound (remote : String) :
    (engine options).Sound (allowed options) (tidily remote) fun w _ => Tidy remote w where
  follows := follows_program
  start := id
  serve := by
    intro w all i n request oracle htidy _ _ _ hok
    cases request with
    | emplace key =>
      change Tidy remote (w.serve oracle (.emplace key))
      rw [serve_emplace]
      split_ifs
      · exact htidy
      refine ⟨lt_length_emplace htidy.lt key, fun hnone => htidy.empty ?_⟩
      change ((w.channels ++ [w.keys.length]).find? fun obj =>
        decide ((w.keys ++ [key])[obj]? = some (.client, remote))) = none at hnone
      rw [List.find?_append, find?_keys_append htidy.lt] at hnone
      exact (Option.or_eq_none_iff.mp hnone).1
    | destroy cause target =>
      refine ⟨fun obj hobj => htidy.lt obj (List.mem_of_mem_filter hobj), fun hnone => ?_⟩
      change recorded w.segmentTable remote = []
      cases hfound : w.getChannel (.client, remote) with
      | none => exact htidy.empty hfound
      | some obj =>
        obtain ⟨hobj, hkey⟩ := getChannel_some hfound
        have hgone : w.isTarget target obj = true := by
          by_contra hkept
          refine getChannel_none hnone (List.mem_filter.mpr ⟨hobj, ?_⟩) hkey
          simpa using hkept
        have hany : (w.channels.any fun obj => w.isTarget target obj &&
            decide (w.keys[obj]? = some (.client, remote))) = true :=
          List.any_eq_true.mpr ⟨obj, hobj, by simp [hgone, hkey]⟩
        simpa [tidily, hany] using hok
    | addRange channelId addr =>
      refine ⟨htidy.lt, fun hnone => ?_⟩
      change w.getChannel (.client, remote) = none at hnone
      have hother : channelId ≠ remote := by simpa [tidily, hnone] using hok
      have hempty := htidy.empty hnone
      change recorded (w.segmentTable.map _) remote = []
      cases htable : w.segmentTable with
      | none => rfl
      | some table =>
        rw [htable] at hempty
        exact (segments_addRange channelId remote table addr).trans
          ((if_neg hother.symm).trans hempty)
    | removeSegments channelId =>
      refine ⟨htidy.lt, fun hnone => ?_⟩
      have hempty := htidy.empty hnone
      change recorded (w.segmentTable.map _) remote = []
      cases htable : w.segmentTable with
      | none => rfl
      | some table =>
        rw [htable] at hempty
        refine (segments_removeChannel channelId remote table).trans ?_
        split_ifs
        · rfl
        · exact hempty
    | _ => exact htidy.of_traces (traces_effect rfl _ _)

/-- After a history in which no client channel of the remote leaves ranges
behind, a successful connect leaves exactly the ranges that the peer advertises
in it, and `FindSegment` accepts only what they cover. -/
theorem connect_ranges_fresh (options : Options) (remote : String)
    (actions : List (Action Call Oracle)) (s : EngineConfig)
    (hrun : (engine options).run { world := {} } actions = some s)
    (hok : (engine options).along (tidily remote) { world := {} } actions = true) (polls : ℕ)
    (peer : ConnectInfo) (oracles : List Oracle) (hpeer : ∀ oracle ∈ oracles, oracle.peer = peer)
    (w : World) (hconnect : (engine options).alone oracles s.world
      (handlerConnect options polls remote) = some (0, w)) :
    (∀ type, held type (recorded w.segmentTable remote) = advertised peer.addrs type) ∧
      ∀ table ∈ w.segmentTable, ∀ start stop, (table.findSegment remote start stop).isSome →
        ∃ type, Segment.Covers (advertised peer.addrs type) start stop := by
  have hkept := (tidy_sound remote).run hrun hok ⟨by simp, fun _ => rfl⟩
  obtain ⟨hnone, ⟨table, htraces, hgrows⟩, hname⟩ :=
    alone_post (gives_handlerConnect polls s.world hkept.1.lt) (fun _ => hpeer) hconnect rfl
  have htable : w.segmentTable = table := congrArg Traces.segmentTable htraces
  have hempty : recorded s.world.traces.segmentTable remote = [] := hkept.1.empty hnone
  rw [hname, Grows, hempty] at hgrows
  obtain ⟨hsorted, hheld⟩ := hgrows (by simp [AllSorted])
  simp only [held, zero_add] at hheld
  rw [htable]
  refine ⟨hheld, fun found hfound start stop hsegment => ?_⟩
  obtain ⟨seg, hseg⟩ := Option.isSome_iff_exists.mp hsegment
  have hmem : seg ∈ recorded table remote := by
    rw [Option.mem_def.mp hfound]
    exact List.mem_of_find?_eq_some hseg
  refine ⟨seg.memType, fun addr hle hlt => ?_⟩
  have hcovers := (Segment.contains_iff (hsorted seg hmem) (hle.trans_lt hlt)).mp
    (by simpa using List.find?_some hseg)
  obtain ⟨range, hrange, hin⟩ := hcovers addr hle hlt
  exact ⟨range, hheld seg.memType ▸ Multiset.mem_of_le (ranges_le_held hmem) hrange, hin⟩

/-- The peer of the first connect, and the same peer with other ranges. -/
def firstPeer : ConnectInfo := { channelId := "a", addrs := [⟨0, 16, .device⟩] }

def laterPeer : ConnectInfo := { channelId := "a", addrs := [⟨32, 48, .device⟩] }

def tidyRun : List (Action Call Oracle) :=
  .start (.connect "a" 0) :: serves 0 13 { peer := firstPeer } ++
    .start (.disconnect "a") :: serves 1 8 {}

theorem connect_ranges_fresh_disconnected : ∃ (s : EngineConfig) (w : World),
    (engine { pool := false }).run { world := {} } tidyRun = some s ∧
      (engine { pool := false }).alone (List.replicate 13 { peer := laterPeer }) s.world
        (handlerConnect { pool := false } 0 "a") = some (0, w) ∧
      held .device (recorded w.segmentTable "a") = advertised laterPeer.addrs .device :=
  ⟨_, _, rfl, rfl, (connect_ranges_fresh { pool := false } "a" tidyRun _ rfl rfl 0 laterPeer
    (List.replicate 13 { peer := laterPeer }) (fun _ h => congrArg _ (List.eq_of_mem_replicate h))
    _ rfl).1 .device⟩

/-- The socket of the first channel fails and the remote is connected again. -/
def staleRun : List (Action Call Oracle) :=
  .start (.connect "a" 0) :: serves 0 13 { peer := firstPeer } ++
    .start (.socketError 0) :: serves 1 1 {}

/-- An address that only the peer of the first connect has is still accepted. -/
theorem connect_ranges_stale : ∃ (s : EngineConfig) (w : World),
    (engine { pool := false }).run { world := {} } staleRun = some s ∧
      (engine { pool := false }).alone (List.replicate 13 { peer := laterPeer }) s.world
        (handlerConnect { pool := false } 0 "a") = some (0, w) ∧
      w.segmentTable = some [("a", [⟨.device, [(0, 16), (32, 48)]⟩])] ∧
      ((w.segmentTable.getD []).findSegment "a" 0 16).isSome = true :=
  ⟨_, _, rfl, rfl, rfl, rfl⟩

end InnerEngine

end Hixl.Adxl
