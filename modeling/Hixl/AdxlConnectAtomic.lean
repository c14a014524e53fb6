import Hixl.AdxlEngineRules
import Hixl.SegmentCoverage

/-!
# A failed connect and what it leaves

The peer says in its connect message under which id its channel is registered
and which ranges it has.  The guard of `DoConnect` destroys the channel of the
dialled name and leaves the segment table as it is.  A connect that fails after
the channel was created leaves nothing behind exactly if the peer gives the
dialled name and no ranges are recorded for it.
-/

namespace Hixl.Adxl.InnerEngine

open SharedObjectPrograms ProgramRuns ProgramRuns.System

def SameConnections (w w' : World) : Prop :=
  (∀ name, w'.getChannel (.client, name) = w.getChannel (.client, name)) ∧
    w'.segmentTable = w.segmentTable

structure Traces where
  keys : List Key
  channels : List ℕ
  segmentTable : Option SegmentTable
  inserted : ℕ

def World.traces (w : World) : Traces := ⟨w.keys, w.channels, w.segmentTable, w.inserted⟩

def tame : Request → Bool
  | .emplace _ | .destroy _ _ | .addRange _ _ | .removeSegments _ => false
  | _ => true

variable {request : Request}

theorem traces_effect (h : tame request = true) (w : World) (answer : Answer request) :
    (w.effect request answer).traces = w.traces := by
  cases request with
  | emplace _ | destroy _ _ | addRange _ _ | removeSegments _ => cases h
  | _ => rfl

variable {options : Options} {kind : Request → Oracle → Prop} {β : Type} {w base : World}

abbrev Does (options : Options) (kind : Request → Oracle → Prop) (post : β → World → Prop)
    (p : EngineProg β) (w : World) : Prop :=
  Obeys ((engine options).worldContract kind) post p w

theorem does_send {next : Answer request → EngineProg β} {post : β → World → Prop}
    (hnext : ∀ oracle, kind request oracle →
      Does options kind post (next (w.reply oracle request)) (w.serve oracle request)) :
    Does options kind post (send request >>= next) w := by
  refine ⟨trivial, ?_⟩
  rintro _ _ ⟨oracle, hkind, rfl, rfl⟩
  exact hnext oracle hkind

abbrev KeepsTraces (options : Options) (kind : Request → Oracle → Prop) (Q : Traces → Prop)
    (p : EngineProg β) : Prop :=
  Preserves ((engine options).worldContract kind) (fun w => Q w.traces) p

variable {Q : Traces → Prop}

theorem keeps_tame (h : tame request = true) : KeepsTraces options kind Q (send request) := by
  refine fun w hw => ⟨trivial, ?_⟩
  rintro answer _ ⟨oracle, -, -, rfl⟩
  change Q (w.effect request answer).traces
  rwa [traces_effect h]

theorem keeps_getTotalChannelCount : KeepsTraces options kind Q getTotalChannelCount :=
  (keeps_tame rfl).bind fun _ => (keeps_tame rfl).bind fun _ => .ret _

theorem keeps_notifyEviction : KeepsTraces options kind Q (notifyEviction options) := by
  refine keeps_getTotalChannelCount.bind fun _ => .ite (.ret ()) ?_
  refine keeps_getTotalChannelCount.bind fun _ => .ite (.ret ()) ?_
  refine .bind ?_ fun _ => keeps_tame rfl
  refine (keeps_tame rfl).bind fun _ => (keeps_tame rfl).bind fun _ => ?_
  exact (keeps_tame rfl).bind fun _ =>
    (keeps_forEach (fun _ => keeps_tame rfl) _).bind fun _ => .ret _

def World.HasRoom (options : Options) (w : World) : Prop :=
  (((w.ofType .client).length + (w.ofType .server).length : ℕ) : ℤ) < options.maxChannel

theorem getChannel_eq_of_traces {w w' : World} (h : w'.traces = w.traces) (key : Key) :
    w'.getChannel key = w.getChannel key := by
  have hkeys : w'.keys = w.keys := congrArg Traces.keys h
  have hchannels : w'.channels = w.channels := congrArg Traces.channels h
  rw [World.getChannel, World.getChannel, hkeys, hchannels]

theorem HasRoom.of_traces {w w' : World} (h : w'.traces = w.traces) :
    w'.HasRoom options = w.HasRoom options := by
  have hkeys : w'.keys = w.keys := congrArg Traces.keys h
  have hchannels : w'.channels = w.channels := congrArg Traces.channels h
  simp only [World.HasRoom, World.ofType, hkeys, hchannels]

theorem length_allChannels (oracle : Oracle) (w : World) (type : ChannelType) :
    (w.reply oracle (.allChannels type)).length = (w.ofType type).length := by
  change (if _ then _ else _ : List ℕ).length = _
  split_ifs with hperm
  · exact (List.isPerm_iff.mp hperm).length_eq
  · rfl

theorem does_ifRoom {otherwise : EngineProg ℕ} {post : ℕ → World → Prop}
    (hroom : w.HasRoom options → post 0 w)
    (hfull : ¬ w.HasRoom options → Does options kind post otherwise w) :
    Does options kind post (ifRoom options otherwise) w := by
  refine does_send fun clients _ => does_send fun servers _ => ?_
  change Does options kind _ (if (((w.reply clients (.allChannels .client)).length +
    (w.reply servers (.allChannels .server)).length : ℕ) : ℤ) < options.maxChannel then _ else _) w
  rw [length_allChannels, length_allChannels]
  split_ifs with h
  · exact hroom h
  · exact hfull h

theorem does_waitForChannel (polls : ℕ) (w : World) : Does options kind
    (fun ret w' => w' = w ∧ (ret = 0 ↔ w.HasRoom options)) (waitForChannel options polls) w := by
  induction polls with
  | zero =>
    exact does_ifRoom (fun h => ⟨rfl, fun _ => h, fun _ => rfl⟩) fun h =>
      ⟨rfl, fun hret => absurd hret (by decide), fun hroom => absurd hroom h⟩
  | succ polls ih => exact does_ifRoom (fun h => ⟨rfl, fun _ => h, fun _ => rfl⟩) fun _ => ih

theorem does_awaitCapacity (polls : ℕ) (w : World) : Does options kind
    (fun ret w' => w'.traces = w.traces ∧ (ret = 0 ↔ (options.pool → w.HasRoom options)))
    (awaitCapacity options polls) w := by
  rw [awaitCapacity]
  split_ifs with hpool
  · refine (keeps_notifyEviction (Q := (· = w.traces)) w rfl).bind fun _ w₁ hw₁ => ?_
    refine (does_waitForChannel polls w₁).mono ?_
    rintro ret _ ⟨rfl, hret⟩
    rw [HasRoom.of_traces hw₁] at hret
    exact ⟨hw₁, hret.trans (by simp [hpool])⟩
  · exact ⟨rfl, fun _ h => absurd h hpool, fun _ => rfl⟩

theorem does_outside (step : Outside) (w : World) : Does options kind
    (fun ret w' => w' = w ∧ ∃ oracle, kind (.outside step) oracle ∧ oracle.status = ret)
    (send (.outside step)) w := by
  refine ⟨trivial, ?_⟩
  rintro _ _ ⟨oracle, hkind, rfl, rfl⟩
  exact ⟨rfl, oracle, hkind, rfl⟩

def Traces.add (t : Traces) (key : Key) : Traces :=
  { t with
    keys := t.keys ++ [key]
    channels := t.channels ++ [t.keys.length]
    inserted := t.inserted + 1 }

theorem does_managerCreateChannel (key : Key) (w : World) : Does options kind
    (fun ret w' =>
      (ret = 0 ∧ w'.traces = w.traces.add key ∧ w.getChannel key = none ∧
        ∃ oracle, kind (.outside .initChannel) oracle ∧ oracle.status = 0) ∨
      (ret ≠ 0 ∧ w'.traces = w.traces ∧ (w.getChannel key = none →
        ∃ oracle, kind (.outside .initChannel) oracle ∧ oracle.status ≠ 0)))
    (managerCreateChannel key) w := by
  refine does_send fun _ _ => ?_
  change Does options kind _ (if (w.getChannel key).isSome then _ else _) w
  cases hfound : w.getChannel key with
  | some obj => exact Or.inr ⟨by decide, rfl, nofun⟩
  | none =>
    refine obeys_chk (does_outside _ w) ?_ ?_
    · rintro _ ⟨rfl, oracle, hkind, hstatus⟩
      refine does_send fun _ _ => ?_
      rw [serve_emplace]
      change Does options kind _ (.ret (if (if (World.getChannel _ key).isSome then none
        else some _).isSome then 0 else alreadyConnected)) _
      rw [hfound]
      exact Or.inl ⟨rfl, rfl, rfl, oracle, hkind, hstatus⟩
    · rintro ret _ hret ⟨rfl, oracle, hkind, rfl⟩
      exact Or.inr ⟨hret, rfl, fun _ => ⟨oracle, hkind, hret⟩⟩

/-! ## The ranges -/

def addAll (channelId : String) (addrs : List AddrInfo) (table : SegmentTable) : SegmentTable :=
  addrs.foldl (fun table addr => table.addRange channelId addr.start addr.stop addr.memType) table

theorem does_addRanges (channelId : String) (addrs : List AddrInfo) (w : World) :
    Does options kind (fun _ w' => w'.traces =
        { w.traces with segmentTable := w.segmentTable.map (addAll channelId addrs) })
      (addRanges channelId addrs) w := by
  induction addrs generalizing w with
  | nil => exact congrArg (fun table => { w.traces with segmentTable := table }) Option.map_id'.symm
  | cons addr addrs ih =>
    refine does_send fun _ _ => ?_
    split_ifs with hsome
    · refine (ih _).mono fun _ w' hw' => hw'.trans ?_
      exact congrArg (fun table => { w.traces with segmentTable := table }) (Option.map_map _ _ _)
    · have hnone : w.segmentTable = none := Option.not_isSome_iff_eq_none.mp hsome
      change ({ w.traces with segmentTable := w.segmentTable.map _ } : Traces) = _
      rw [hnone]
      rfl

def rangeCount (segs : List Segment) : ℕ := (segs.map fun seg => seg.ranges.length).sum

theorem rangeCount_addToSegments {start stop : ℕ} (hle : start ≤ stop) (type : MemType)
    (segs : List Segment) :
    rangeCount (SegmentTable.addToSegments start stop type segs) = rangeCount segs + 1 := by
  have hadd : ∀ seg : Segment, (seg.addRange start stop).ranges.length = seg.ranges.length + 1 :=
    fun seg => by
      rw [Segment.addRange, if_neg hle.not_gt, ← Segment.upTo_append_above seg start]
      simp
      omega
  induction segs with
  | nil => simpa [SegmentTable.addToSegments, rangeCount] using hadd { memType := type }
  | cons seg rest ih =>
    unfold SegmentTable.addToSegments
    split_ifs
    · simp only [rangeCount, List.map_cons, List.sum_cons, hadd]
      omega
    · simp only [rangeCount, List.map_cons, List.sum_cons] at ih ⊢
      omega

theorem rangeCount_addAll {addrs : List AddrInfo} (hvalid : ∀ addr ∈ addrs, addr.start ≤ addr.stop)
    (channelId : String) (table : SegmentTable) :
    rangeCount ((addAll channelId addrs table).segments channelId) =
      rangeCount (table.segments channelId) + addrs.length := by
  induction addrs generalizing table with
  | nil => rfl
  | cons addr addrs ih =>
    obtain ⟨haddr, hrest⟩ := List.forall_mem_cons.mp hvalid
    have hnew : (table.addRange channelId addr.start addr.stop addr.memType).segments channelId =
        SegmentTable.addToSegments addr.start addr.stop addr.memType
          (table.segments channelId) := by
      simp [SegmentTable.addRange, SegmentTable.setSegments, SegmentTable.segments]
    have hcount := ih hrest (table.addRange channelId addr.start addr.stop addr.memType)
    rw [hnew, rangeCount_addToSegments haddr] at hcount
    rw [List.length_cons]
    exact hcount.trans (by omega)

theorem map_addAll_eq_iff {addrs : List AddrInfo}
    (hvalid : ∀ addr ∈ addrs, addr.start ≤ addr.stop) (channelId : String)
    (table : Option SegmentTable) :
    table.map (addAll channelId addrs) = table ↔ addrs = [] ∨ table = none := by
  cases table with
  | none => simp
  | some table =>
    simp only [Option.map_some, Option.some.injEq, reduceCtorEq, or_false]
    refine ⟨fun h => ?_, fun h => h ▸ rfl⟩
    have hcount := rangeCount_addAll hvalid channelId table
    rw [h] at hcount
    exact List.length_eq_zero_iff.mp (by omega)

/-! ## A connect up to its guard -/

theorem keeps_startHeartbeat (key : Key) : KeepsTraces options kind Q (startHeartbeat key) :=
  (keeps_tame rfl).bind fun _ => .ite (keeps_chk (keeps_tame rfl) (keeps_tame rfl)) (.ret _)

/-- The steps of a connect up to the registration of its channel succeed. -/
structure CreatesChannel (options : Options) (remote : String) (answers : Request → Oracle)
    (w : World) : Prop where
  unknown : w.getChannel (.client, remote) = none
  dialled : (answers (.outside .connectToPeer)).status = 0
  exchanged : (answers .exchangeConnectInfo).status = 0
  room : options.pool → w.HasRoom options
  ranked : (answers (.outside .rankTable)).status = 0
  valid : ∀ addr ∈ (answers .exchangeConnectInfo).peer.addrs, addr.start ≤ addr.stop
  free : w.getChannel (.client, (answers .exchangeConnectInfo).peer.channelId) = none
  initialised : (answers (.outside .initChannel)).status = 0

/-- There is a new channel of the id that the peer gave, with its ranges, or
nothing has changed. -/
def Creates (before : Traces) (peer : ConnectInfo) (created : Prop) (t : Traces) : Prop :=
  (created ∧ t = { before.add (.client, peer.channelId) with
    segmentTable := before.segmentTable.map (addAll peer.channelId peer.addrs) }) ∨
  (¬ created ∧ t = before)

section Answers

variable {answers : Request → Oracle} {remote : String}

abbrev Answered (options : Options) (answers : Request → Oracle) (post : β → World → Prop)
    (p : EngineProg β) (w : World) : Prop :=
  Does options (fun request oracle => oracle = answers request) post p w

theorem answered_createChannel (peer : ConnectInfo) (w : World) : Answered options answers
    (fun _ w' => Creates w.traces peer ((∀ addr ∈ peer.addrs, addr.start ≤ addr.stop) ∧
      w.getChannel (.client, peer.channelId) = none ∧
        (answers (.outside .initChannel)).status = 0) w'.traces)
    (createChannel .client peer) w := by
  change Answered _ _ _ (if peer.addrs.any _ then _ else _) w
  split_ifs with hinvalid
  · obtain ⟨addr, haddr, hlt⟩ := List.any_eq_true.mp hinvalid
    exact Or.inr ⟨fun h => absurd (h.1 addr haddr) (by simpa using hlt), rfl⟩
  have hvalid : ∀ addr ∈ peer.addrs, addr.start ≤ addr.stop := by simpa using hinvalid
  refine obeys_chk (does_managerCreateChannel _ w) (fun w₁ hw₁ => ?_) fun ret w₁ hret hw₁ => ?_
  · obtain ⟨-, hadded, hfree, _, rfl, hinit⟩ := hw₁.resolve_right fun h => h.1 rfl
    refine (does_addRanges _ _ w₁).mono fun _ w₂ hw₂ => Or.inl ⟨⟨hvalid, hfree, hinit⟩, ?_⟩
    rw [hw₂, hadded, show w₁.segmentTable = w.segmentTable from congrArg Traces.segmentTable hadded]
    rfl
  · obtain ⟨-, hsame, hinit⟩ := hw₁.resolve_left fun h => hret h.1
    refine Or.inr ⟨?_, hsame⟩
    rintro ⟨-, hfree, hok⟩
    obtain ⟨_, rfl, hbad⟩ := hinit hfree
    exact hbad hok

theorem answered_connectToEngine (polls : ℕ) (w : World)
    (hunknown : w.getChannel (.client, remote) = none)
    (hdialled : (answers (.outside .connectToPeer)).status = 0) : Answered options answers
    (fun _ w' => Creates w.traces (answers .exchangeConnectInfo).peer
      (CreatesChannel options remote answers w) w'.traces)
    (connectToEngine options polls remote) w := by
  refine does_send fun oracle horacle => ?_
  subst horacle
  split_ifs with hexchanged
  · exact Or.inr ⟨fun h => hexchanged h.exchanged, rfl⟩
  have hprocess : Answered options answers (fun _ w' => Creates w.traces
      (answers .exchangeConnectInfo).peer (CreatesChannel options remote answers w) w'.traces)
      (connectInfoProcess options polls .client (answers .exchangeConnectInfo).peer) w := by
    refine obeys_chk (does_awaitCapacity polls w) ?_ ?_
    · rintro w₁ ⟨hw₁, hroom⟩
      refine obeys_chk (does_outside _ w₁) ?_ ?_
      · rintro _ ⟨rfl, _, rfl, hranked⟩
        refine (answered_createChannel _ _).mono fun _ w₂ hw₂ => ?_
        rw [hw₁, getChannel_eq_of_traces hw₁] at hw₂
        refine hw₂.imp (And.imp_left ?_) (And.imp_left ?_)
        · rintro ⟨hvalid, hfree, hinit⟩
          exact ⟨hunknown, hdialled, not_not.mp hexchanged, hroom.mp rfl, hranked, hvalid, hfree,
            hinit⟩
        · exact fun h hcreates => h ⟨hcreates.valid, hcreates.free, hcreates.initialised⟩
      · rintro ret _ hret ⟨rfl, _, rfl, rfl⟩
        exact Or.inr ⟨fun h => hret h.ranked, hw₁⟩
    · rintro ret w₁ hret ⟨hw₁, hroom⟩
      exact Or.inr ⟨fun h => hret (hroom.mpr h.room), hw₁⟩
  refine hprocess.bind fun ret w₁ hw₁ => ?_
  exact keeps_chk (keeps_tame rfl) (keeps_chk (keeps_tame rfl) (keeps_chk (.ret ret)
    (keeps_startHeartbeat _))) w₁ hw₁

end Answers

/-! ## The guard -/

variable {w' : World}

theorem SameConnections.of_traces {w : World} (h : w'.traces = w.traces) : SameConnections w w' :=
  ⟨fun _ => getChannel_eq_of_traces h _, congrArg Traces.segmentTable h⟩

/-- The peer gives the dialled name, and no ranges are recorded for it. -/
def Plain (base : World) (remote : String) (peer : ConnectInfo) : Prop :=
  peer.channelId = remote ∧ (peer.addrs = [] ∨ base.segmentTable = none)

theorem find?_keys_append {keys : List Key} {channels : List ℕ}
    (hlt : ∀ obj ∈ channels, obj < keys.length) (extra key : Key) :
    (channels.find? fun obj => (keys ++ [extra])[obj]? = some key) =
      channels.find? fun obj => keys[obj]? = some key :=
  List.find?_congr fun obj hobj => by rw [List.getElem?_append_left (hlt obj hobj)]

variable {remote : String} {peer : ConnectInfo} {created : Prop}

section Guard

variable (hlt : ∀ obj ∈ base.channels, obj < base.keys.length)
  (hnone : base.getChannel (.client, remote) = none)

include hlt

variable {table : Option SegmentTable}

theorem getChannel_added {name : String} {w : World}
    (hw : w.traces = { base.traces.add (.client, name) with segmentTable := table }) (key : Key) :
    w.getChannel key = (base.getChannel key).or
      (if (.client, name) = key then some base.keys.length else none) := by
  have hkeys : w.keys = base.keys ++ [(.client, name)] := congrArg Traces.keys hw
  have hchannels : w.channels = base.channels ++ [base.keys.length] := congrArg Traces.channels hw
  rw [World.getChannel, hkeys, hchannels, List.find?_append, find?_keys_append hlt]
  simp [World.getChannel, List.find?_singleton]

include hnone

theorem channels_destroy_added {w : World}
    (hw : w.traces = { base.traces.add (.client, remote) with segmentTable := table }) :
    (w.channels.filter fun obj => !w.isTarget (.key (.client, remote)) obj) = base.channels := by
  have hkeys : w.keys = base.keys ++ [(.client, remote)] := congrArg Traces.keys hw
  have hchannels : w.channels = base.channels ++ [base.keys.length] := congrArg Traces.channels hw
  have hold : ∀ obj ∈ base.channels, w.keys[obj]? ≠ some (.client, remote) := fun obj hobj => by
    rw [hkeys, List.getElem?_append_left (hlt obj hobj)]
    exact getChannel_none hnone hobj
  rw [hchannels, List.filter_append, List.filter_eq_self.mpr fun obj hobj => by
    simp [World.isTarget, hold obj hobj]]
  simp [World.isTarget, hkeys, hchannels]

theorem does_closeConnection (ret : ℕ) (hcreates : Creates base.traces peer created w.traces)
    (hvalid : created → ∀ addr ∈ peer.addrs, addr.start ≤ addr.stop)
    (hfree : created → base.getChannel (.client, peer.channelId) = none) : Does options kind
    (fun _ w' => SameConnections base w' ↔ (created → Plain base remote peer))
    (closeConnection remote ret) w := by
  refine does_send fun _ _ => ?_
  change Does options kind _ (if (w.getChannel (.client, remote)).isSome then _ else _) w
  rcases hcreates with ⟨hcreated, hadded⟩ | ⟨hcreated, hsame⟩
  · have hgiven := getChannel_added hlt hadded (.client, peer.channelId)
    have htable : w.segmentTable = base.segmentTable.map (addAll peer.channelId peer.addrs) :=
      congrArg Traces.segmentTable hadded
    rw [getChannel_added hlt hadded, hnone]
    by_cases hname : peer.channelId = remote
    · subst hname
      rw [if_pos rfl]
      refine does_send fun _ _ => ?_
      have hkeys : w.keys = base.keys ++ [(.client, peer.channelId)] := congrArg Traces.keys hadded
      have hchannels : ∀ name, (w.destroy (w.isTarget (.key (.client, peer.channelId)))).getChannel
          (.client, name) = base.getChannel (.client, name) := fun name => by
        change ((w.channels.filter _).find? fun obj => decide (w.keys[obj]? = some _)) = _
        rw [channels_destroy_added hlt hnone hadded, hkeys]
        exact find?_keys_append hlt _ _
      change (_ ∧ w.segmentTable = _) ↔ _
      rw [htable, map_addAll_eq_iff (hvalid hcreated)]
      exact ⟨fun h _ => ⟨rfl, h.2⟩, fun h => ⟨hchannels, (h hcreated).2⟩⟩
    · rw [if_neg fun h => hname (congrArg Prod.snd h)]
      refine ⟨fun hsame => ?_, fun h => absurd (h hcreated).1 hname⟩
      have hold := hsame.1 peer.channelId
      rw [hgiven, hfree hcreated, if_pos rfl] at hold
      cases hold
  · rw [getChannel_eq_of_traces hsame, hnone]
    exact ⟨fun _ h => absurd h hcreated, fun _ => .of_traces hsame⟩

end Guard

/-- A connect that fails leaves the client channels and the ranges as they were
exactly if a step before the registration of the channel has failed, or the peer
gives the dialled name and no ranges are recorded for it. -/
theorem connect_atomic (options : Options) (polls : ℕ) (remote : String)
    (answers : Request → Oracle) (w w' : World) (ret : ℕ)
    (hlt : ∀ obj ∈ w.channels, obj < w.keys.length)
    (hrun : (engine options).answered answers w (handlerConnect options polls remote) = (ret, w'))
    (hret : ret ≠ 0) :
    SameConnections w w' ↔ (CreatesChannel options remote answers w →
      Plain w remote (answers .exchangeConnectInfo).peer) := by
  have hsame : ∀ (w' : World), w'.traces = w.traces → ¬ CreatesChannel options remote answers w →
      (SameConnections w w' ↔ (CreatesChannel options remote answers w →
        Plain w remote (answers .exchangeConnectInfo).peer)) := fun _ hw' hnot =>
    ⟨fun _ h => absurd h hnot, fun _ => .of_traces hw'⟩
  have hobeys : Answered options answers (fun ret w' => ret ≠ 0 → (SameConnections w w' ↔
      (CreatesChannel options remote answers w →
        Plain w remote (answers .exchangeConnectInfo).peer)))
      (handlerConnect options polls remote) w := by
    refine does_send fun _ _ => ?_
    split_ifs with hfound
    · exact fun _ => hsame _ rfl fun h => absurd hfound (by simp [World.reply, h.unknown])
    have hnone := Option.not_isSome_iff_eq_none.mp hfound
    refine obeys_chk (does_outside _ w) ?_ ?_
    · rintro _ ⟨rfl, _, rfl, hdialled⟩
      refine (answered_connectToEngine polls _ hnone hdialled).bind fun ret w₂ hw₂ => ?_
      split_ifs with hzero
      · exact fun h => absurd rfl h
      · exact (does_closeConnection hlt hnone ret hw₂ (·.valid) (·.free)).mono fun _ _ h _ => h
    · rintro ret _ hret ⟨rfl, _, rfl, rfl⟩ _
      exact hsame _ rfl fun h => hret h.dialled
  have hpost := answered_post hobeys
  rw [hrun] at hpost
  exact hpost hret

/-- The connect message of the peer comes, and then the socket is closed. -/
def noStatus (peer : ConnectInfo) : Request → Oracle
  | .outside .recvStatus => { status := Status.failed.code }
  | _ => { peer := peer }

theorem connect_atomic_plain : ∃ w' : World,
    (engine { pool := false }).answered (noStatus { channelId := "a" }) {}
        (handlerConnect { pool := false } 0 "a") = (Status.failed.code, w') ∧
      w'.inserted = 1 ∧ SameConnections {} w' :=
  ⟨_, rfl, rfl, (connect_atomic { pool := false } 0 "a" (noStatus { channelId := "a" }) {} _
    Status.failed.code nofun rfl (by decide)).mpr fun _ => ⟨rfl, Or.inl rfl⟩⟩

/-- The peer is dialled as `a` and gives the id `b` and a range. -/
theorem connect_leavesChannel : ∃ w' : World, (engine { pool := false }).answered
        (noStatus { channelId := "b", addrs := [⟨0, 16, .device⟩] }) {}
        (handlerConnect { pool := false } 0 "a") = (Status.failed.code, w') ∧
      World.getChannel {} (.client, "b") = none ∧ w'.getChannel (.client, "b") = some 0 ∧
      w'.segmentTable = some [("b", [⟨.device, [(0, 16)]⟩])] :=
  ⟨_, rfl, rfl, rfl, rfl⟩

end Hixl.Adxl.InnerEngine
