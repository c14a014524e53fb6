import Hixl.AdxlEngineModel
import Hixl.ExclusiveOwners

/-!
# What the functions of the engine keep to

A call increments a count only after it has found the channel, decrements only
what it holds, reaps only a request that it has found under the lock, destroys
in its guard only the name that it dials, and so on.  The rules are about the
notes of one call, and every function is shown to keep to them.
-/

namespace Hixl.Adxl.InnerEngine

open SharedObjectPrograms ProgramRuns ProgramRuns.System

def Notes.HasRoom (options : Options) (n : Notes) : Prop :=
  ∃ total ∈ n.counts.total, (total : ℤ) < options.maxChannel

def allowed (options : Options) : Request → Notes → Prop
  | .increment obj, n => n.transfer.held = none ∧ ∃ remote, n.transfer.found = some (remote, obj)
  | .decrement obj, n => ∃ remote, n.transfer.held = some (remote, obj)
  | .emplaceReq _ remote obj, n => options.pool → n.transfer.held = some (remote, obj)
  | .lookupReq _, n => n.owns .requests
  | .reapReq id counted, n =>
    n.owns .requests ∧ n.transfer.polled = some id ∧ (options.pool → counted.isSome)
  | .unlock lock, n => n.owns lock ∧ (lock = .connection → n.connect.dialled = none)
  | .getChannel .transfer key, _ => key.1 = .client
  | .getChannel .check key, n => key.1 = .client ∧ (options.pool → n.owns .connection)
  | .emplace key, n =>
    (key.1 = .client → n.connect.dialled.isSome) ∧ (options.pool → n.HasRoom options)
  | .destroy .guard target, n =>
    ∃ name, target = .key (.client, name) ∧ n.connect.dialled = some name
  | .destroy .eviction target, n => ∃ e ∈ n.evict, e.checked ∧ target = .key (.client, e.name)
  | .outside (.sendDisconnect .eviction remote), n => ∃ e ∈ n.evict, e.checked ∧ remote = e.name
  | .getTransferCount .evict obj, n => ∀ e ∈ n.evict, e.obj = obj
  | _, _ => True

variable {options : Options} {β γ : Type} {P : Notes → Prop}

abbrev Follows (options : Options) (post : β → Notes → Prop) (p : EngineProg β) (n : Notes) :
    Prop :=
  (engine options).Follows (allowed options) post p n

variable {request : Request}

theorem follows_send {post : β → Notes → Prop} {next : Answer request → EngineProg β} {n : Notes}
    (hallowed : allowed options request n)
    (hnext : ∀ w answer, Follows options post (next answer) (n.after w request answer)) :
    Follows options post (send request >>= next) n :=
  follows_call hallowed hnext

section Generic

variable {ghost : Type} {contract : Contract Request Answer ghost} {P : ghost → Prop}
  {first rest : EngineProg ℕ}

theorem obeys_chk {mid post : ℕ → ghost → Prop} {g : ghost} (hfirst : Obeys contract mid first g)
    (hrest : ∀ g', mid 0 g' → Obeys contract post rest g')
    (hfail : ∀ ret g', ret ≠ 0 → mid ret g' → post ret g') :
    Obeys contract post (chkStatusRet first rest) g := by
  refine hfirst.bind fun ret g' hmid => ?_
  split_ifs with hret
  · exact hrest g' (hret ▸ hmid)
  · exact hfail ret g' hret hmid

theorem keeps_chk (hfirst : Preserves contract P first) (hrest : Preserves contract P rest) :
    Preserves contract P (chkStatusRet first rest) :=
  hfirst.bind fun ret => .ite hrest (.ret ret)

theorem keeps_forEach {ι : Type} {f : ι → EngineProg Unit} (hf : ∀ i, Preserves contract P (f i))
    (is : List ι) : Preserves contract P (forEach f is) := by
  induction is with
  | nil => exact .ret ()
  | cons i is ih => exact (hf i).bind fun _ => ih

end Generic

abbrev Keeps (options : Options) (P : Notes → Prop) (p : EngineProg β) : Prop :=
  Preserves ((engine options).contract (allowed options)) P p

theorem keeps_send (hallowed : ∀ n, P n → allowed options request n)
    (hafter : ∀ n w answer, P n → P (n.after w request answer)) : Keeps options P (send request) :=
  fun n hn => follows_call (hallowed n hn) fun w answer => hafter n w answer hn

/-- Requests that leave no trace in the notes and that are always allowed. -/
def traceless : Request → Bool
  | .outside .connectToPeer | .outside .addSocketToEpoll
  | .outside (.sendDisconnect .eviction _) => false
  | .outside _ | .exchangeConnectInfo | .pollTransfer | .getChannel .other _
  | .sortByTransferred _ | .keyOf _ | .getTransferCount .other _ | .isDisconnecting _
  | .setDisconnecting _ _ | .setHasTransferred _ _ | .destroy .other _ | .addRange _ _
  | .removeSegments _ | .pushEvict _ | .takeEvict | .newReqId => true
  | _ => false

section

variable (h : traceless request = true)

include h

theorem traceless_allowed (n : Notes) : allowed options request n := by
  cases request with
  | outside step =>
    cases step with
    | sendDisconnect cause remote => cases cause <;> trivial
    | _ => trivial
  | getChannel lookup | getTransferCount lookup => cases lookup <;> trivial
  | destroy cause target => cases cause <;> trivial
  | _ => trivial

theorem traceless_after (n : Notes) (w : World)
    (answer : Answer request) : n.after w request answer = n := by
  cases request with
  | outside step => cases step <;> first | rfl | cases h
  | getChannel lookup | getTransferCount lookup => cases lookup <;> first | rfl | cases h
  | destroy cause target => cases cause <;> first | rfl | cases h
  | _ => first | rfl | cases h

theorem keeps_traceless : Keeps options P (send request) :=
  keeps_send (fun n _ => traceless_allowed h n) fun n w answer hn =>
    (traceless_after h n w answer).symm ▸ hn

end

def Uncounted (P : Notes → Prop) : Prop := ∀ n counts, P n → P { n with counts }

section

variable (hP : Uncounted P)

include hP

theorem Uncounted.allChannels (type : ChannelType) : Keeps options P (send (.allChannels type)) :=
  keeps_send (fun _ _ => trivial) fun n w answer hn => by cases type <;> exact hP n _ hn

theorem Uncounted.getTotalChannelCount {n : Notes} (hn : P n) :
    Follows options (fun count n' => P n' ∧ ∃ total ∈ n'.counts.total, count = (total : ℤ))
      getTotalChannelCount n := by
  refine follows_send trivial fun w clients => follows_send trivial fun w' servers => ?_
  exact ⟨hP _ _ (hP n (n.counts.after w.inserted (.allChannels .client) clients) hn), _, rfl, rfl⟩

theorem Uncounted.notifyEviction : Keeps options P (notifyEviction options) := by
  have htotal : Keeps options P InnerEngine.getTotalChannelCount :=
    fun n hn => (hP.getTotalChannelCount hn).mono fun _ _ h => h.1
  refine htotal.bind fun count => Preserves.ite (.ret ()) (htotal.bind fun count' => ?_)
  refine Preserves.ite (.ret ()) (.bind ?_ fun _ => keeps_traceless rfl)
  refine (hP.allChannels _).bind fun _ => (hP.allChannels _).bind fun _ => ?_
  exact (keeps_traceless rfl).bind fun _ =>
    (keeps_forEach (fun _ => keeps_traceless rfl) _).bind fun _ => .ret _

theorem Uncounted.ifRoom {otherwise : EngineProg ℕ} {n : Notes}
    (hotherwise : ∀ n, P n → Follows options
      (fun ret n' => P n' ∧ (ret = 0 → n'.HasRoom options)) otherwise n) (hn : P n) :
    Follows options (fun ret n' => P n' ∧ (ret = 0 → n'.HasRoom options))
      (ifRoom options otherwise) n := by
  refine (hP.getTotalChannelCount hn).bind ?_
  rintro count n' ⟨hn', total, htotal, rfl⟩
  split_ifs with hroom
  · exact ⟨hn', fun _ => ⟨total, htotal, hroom⟩⟩
  · exact hotherwise n' hn'

theorem Uncounted.waitForChannel (polls : ℕ) {n : Notes} (hn : P n) :
    Follows options (fun ret n' => P n' ∧ (ret = 0 → n'.HasRoom options))
      (waitForChannel options polls) n := by
  induction polls generalizing n with
  | zero => exact hP.ifRoom (fun n hn => ⟨hn, nofun⟩) hn
  | succ polls ih => exact hP.ifRoom (fun n hn => ih hn) hn

end

/-! ## Connecting -/

/-- The notes agree, apart from the counts and the created channels. -/
structure Quiet (base n : Notes) : Prop where
  transfer : n.transfer = base.transfer
  evict : n.evict = base.evict
  owns : n.owns = base.owns
  dialled : n.connect.dialled = base.connect.dialled

theorem Quiet.refl (n : Notes) : Quiet n n := ⟨rfl, rfl, rfl, rfl⟩

theorem Quiet.uncounted (base : Notes) : Uncounted (Quiet base) :=
  fun _ _ h => { h with }

def Roomy (options : Options) (base n : Notes) : Prop :=
  Quiet base n ∧ (options.pool → n.HasRoom options)

variable {base : Notes} {type : ChannelType}

theorem keeps_createChannel (hdialled : type = .client → base.connect.dialled.isSome)
    (peer : ConnectInfo) : Keeps options (Roomy options base) (createChannel type peer) := by
  have hemplace : Keeps options (Roomy options base) (send (.emplace (type, peer.channelId))) := by
    refine keeps_send (fun n hn => ⟨fun htype => ?_, hn.2⟩) fun n w answer hn => ⟨?_, hn.2⟩
    · rw [hn.1.dialled]
      exact hdialled htype
    · exact { hn.1 with }
  have hranges : ∀ addrs,
      Keeps options (Roomy options base) (addRanges peer.channelId addrs) := by
    intro addrs
    induction addrs with
    | nil => exact .ret _
    | cons addr addrs ih => exact (keeps_traceless rfl).bind fun _ => .ite ih (.ret _)
  refine keeps_chk ?_ (.ite (.ret _) (keeps_chk ?_ (hranges _)))
  · cases type with
    | client => exact .ret _
    | server => exact (keeps_traceless rfl).bind fun _ => .ite (keeps_traceless rfl) (.ret _)
  · exact (keeps_traceless rfl).bind fun _ =>
      .ite (.ret _) (keeps_chk (keeps_traceless rfl) (hemplace.bind fun _ => .ret _))

theorem keeps_connectInfoProcess (polls : ℕ)
    (hdialled : type = .client → base.connect.dialled.isSome) (peer : ConnectInfo) :
    Keeps options (Quiet base) (connectInfoProcess options polls type peer) := by
  intro n hn
  have hwait : Follows options (fun ret n' => Quiet base n' ∧ (ret = 0 → options.pool →
        n'.HasRoom options)) (awaitCapacity options polls) n := by
    rw [awaitCapacity]
    split_ifs with hpool
    · refine ((Quiet.uncounted base).notifyEviction n hn).bind fun _ n' hn' => ?_
      exact ((Quiet.uncounted base).waitForChannel polls hn').mono fun _ _ h =>
        ⟨h.1, fun hret _ => h.2 hret⟩
    · exact ⟨hn, fun _ h => absurd h hpool⟩
  refine obeys_chk hwait (fun n' h => ?_) fun _ _ _ h => h.1
  exact (keeps_chk (keeps_traceless rfl) (keeps_createChannel hdialled peer) n' ⟨h.1, h.2 rfl⟩).mono
    fun _ _ h => h.1

def Notes.dialling (n : Notes) (remote : String) : Notes :=
  { n with connect := { n.connect with dialled := some remote } }

def DialsWhile (base : Notes) (remote : String) (c : Prop) (n : Notes) : Prop :=
  (c → Quiet (base.dialling remote) n) ∧ (¬c → Quiet base n)

variable {remote : String} {n' : Notes}

theorem Quiet.dialsWhile {n : Notes} {c : Prop} [Decidable c] (hn : Quiet (base.dialling remote) n)
    (hbase : base.connect.dialled = none) (htransfer : n'.transfer = n.transfer)
    (hevict : n'.evict = n.evict) (howns : n'.owns = n.owns)
    (hdialled : n'.connect.dialled = if c then n.connect.dialled else none) :
    DialsWhile base remote c n' := by
  constructor
  all_goals
    intro hc
    refine ⟨htransfer.trans hn.transfer, hevict.trans hn.evict, howns.trans hn.owns, ?_⟩
  · rw [hdialled, if_pos hc, hn.dialled]
  · rw [hdialled, if_neg hc, hbase]

theorem follows_connectToEngine (polls : ℕ) (hbase : base.connect.dialled = none) {n : Notes}
    (hn : Quiet (base.dialling remote) n) :
    Follows options (fun ret => DialsWhile base remote (ret ≠ 0))
      (connectToEngine options polls remote) n := by
  have hfail : ∀ ret n', ret ≠ 0 → Quiet (base.dialling remote) n' →
      DialsWhile base remote (ret ≠ 0) n' :=
    fun ret n' hret h => ⟨fun _ => h, fun h => absurd hret h⟩
  refine follows_send trivial fun _ exchanged => ?_
  split_ifs with hret
  · exact hfail _ _ hret hn
  · refine (keeps_connectInfoProcess polls (fun _ => rfl) _ n hn).bind fun ret n₁ hn₁ => ?_
    refine obeys_chk (keeps_traceless rfl n₁ hn₁) (fun n₂ hn₂ => ?_) hfail
    refine obeys_chk (keeps_traceless rfl n₂ hn₂) (fun n₃ hn₃ => ?_) hfail
    refine obeys_chk (Preserves.ret ret n₃ hn₃) (fun n₄ hn₄ => ?_) hfail
    refine follows_send trivial fun _ found => ?_
    split_ifs
    · refine obeys_chk (keeps_traceless rfl n₄ hn₄) (fun n₅ hn₅ => ?_) hfail
      exact follows_call trivial fun _ ret => hn₅.dialsWhile hbase rfl rfl rfl rfl
    · exact hfail _ _ (by decide) hn₄

theorem follows_closeConnection (hbase : base.connect.dialled = none) {n : Notes}
    (hn : Quiet (base.dialling remote) n) (ret : ℕ) :
    Follows options (fun _ => Quiet base) (closeConnection remote ret) n := by
  have hguard : Follows options (fun found => DialsWhile base remote (found.isSome = true))
      (send (.getChannel .guard (.client, remote))) n :=
    follows_call trivial fun _ found => hn.dialsWhile hbase rfl rfl rfl rfl
  refine hguard.bind fun found n' hn' => ?_
  split_ifs with hfound
  · have hdials := hn'.1 hfound
    refine follows_send ⟨remote, rfl, hdials.dialled⟩ fun w status => ?_
    have hend : DialsWhile base remote False
        (n'.after w (.destroy .guard (.key (.client, remote))) status) :=
      hdials.dialsWhile hbase rfl rfl rfl rfl
    exact hend.2 not_false
  · exact hn'.2 hfound

theorem follows_handlerConnect (polls : ℕ) (remote : String) {n : Notes}
    (hrest : n.connect.dialled = none) (hlocked : options.pool → n.owns .connection) :
    Follows options (fun _ => Quiet n) (handlerConnect options polls remote) n := by
  refine follows_send ⟨rfl, hlocked⟩ fun w found => ?_
  cases found with
  | some obj => exact ⟨rfl, rfl, rfl, hrest.symm⟩
  | none =>
    have hdial : Quiet (n.dialling remote)
        (n.after w (.getChannel .check (.client, remote)) none) := ⟨rfl, rfl, rfl, rfl⟩
    have hpeer : Follows options (fun ret => DialsWhile n remote (ret = 0))
        (send (.outside .connectToPeer))
        (n.after w (.getChannel .check (.client, remote)) none) :=
      follows_call trivial fun _ ret => hdial.dialsWhile hrest rfl rfl rfl rfl
    refine obeys_chk hpeer (fun n' hn' => ?_) fun ret n' hret h => h.2 hret
    refine (follows_connectToEngine polls hrest (hn'.1 rfl)).bind fun ret n'' h => ?_
    split_ifs with hret
    · exact h.2 (not_not.mpr hret)
    · exact follows_closeConnection hrest (h.1 hret) ret

theorem follows_disconnect {cause : Cause} {Q : Notes → Prop} {n : Notes}
    (hsend : Keeps options P (send (.outside (.sendDisconnect cause remote))))
    (hdestroy : ∀ n, P n →
      Follows options (fun _ => Q) (send (.destroy cause (.key (.client, remote)))) n)
    (hPQ : ∀ n, P n → Q n) (hn : P n) :
    Follows options (fun _ => Q) (disconnect cause remote) n := by
  refine obeys_chk (keeps_traceless rfl n hn) (fun n₁ hn₁ => ?_) fun _ n' _ => hPQ n'
  refine (keeps_traceless rfl n₁ hn₁).bind fun found n₂ hn₂ => ?_
  split_ifs
  · refine (keeps_traceless rfl n₂ hn₂).bind fun connected n₃ hn₃ => ?_
    split_ifs
    · exact hPQ n₃ hn₃
    · refine (Preserves.ite hsend (.ret _) n₃ hn₃).bind fun sent n₄ hn₄ => ?_
      refine (keeps_traceless rfl n₄ hn₄).bind fun _ n₅ hn₅ => ?_
      refine obeys_chk (hdestroy n₅ hn₅) ?_ fun _ _ _ h => h
      exact Preserves.ite (keeps_chk (keeps_traceless rfl) (keeps_traceless rfl)) (.ret 0)
  · exact hPQ n₂ hn₂

theorem keeps_disconnect (remote : String) : Keeps options P (disconnect .other remote) :=
  fun _ hn => follows_disconnect (keeps_traceless rfl) (keeps_traceless rfl) (fun _ h => h) hn

def evictNotes (item : Key) (obj : ℕ) (checked : Bool) : Option EvictNotes :=
  match item.1 with
  | .client => some ⟨item.2, obj, checked⟩
  | .server => none

def Notes.evicting (n : Notes) (evict : Option EvictNotes) : Notes :=
  { n with evict }

variable {n : Notes} {item : Key} {obj : ℕ}

theorem Quiet.evicting {evict evict' : Option EvictNotes} (hn : Quiet (base.evicting evict) n)
    (htransfer : n'.transfer = n.transfer) (hconnect : n'.connect = n.connect)
    (howns : n'.owns = n.owns) (hevict : n'.evict = evict') : Quiet (base.evicting evict') n' :=
  ⟨htransfer.trans hn.transfer, hevict, howns.trans hn.owns, hconnect ▸ hn.dialled⟩

theorem follows_hasNoTransfer (hn : Quiet (base.evicting (evictNotes item obj false)) n) :
    Follows options (fun evictable n' => ∃ checked, (evictable = true → checked = true) ∧
      Quiet (base.evicting (evictNotes item obj checked)) n') (hasNoTransfer obj) n := by
  refine follows_send (fun e he => ?_) fun w count => ?_
  · rw [hn.evict] at he
    obtain ⟨_ | _, id⟩ := item <;> cases he
    rfl
  · have hcounted : Quiet (base.evicting (evictNotes item obj (count ≤ 0)))
        (n.after w (.getTransferCount .evict obj) count) := by
      refine hn.evicting rfl rfl rfl ?_
      change n.evict.map _ = _
      rw [hn.evict]
      obtain ⟨_ | _, id⟩ := item <;> rfl
    split_ifs with hpos
    · exact ⟨_, fun h => absurd h Bool.false_ne_true, hcounted⟩
    · exact follows_call trivial fun _ _ => ⟨_, fun _ => decide_eq_true (not_lt.mp hpos), hcounted⟩

theorem follows_evict {checked evictable : Bool} (hevictable : evictable = true → checked = true)
    (hn : Quiet (base.evicting (evictNotes item obj checked)) n) :
    Follows options (fun _ n' => ∃ evict, Quiet (base.evicting evict) n')
      (evict item obj evictable) n := by
  have hkeeps : ∀ {p : EngineProg Unit},
      Keeps options (fun n' => ∃ evict, Quiet (base.evicting evict) n') p →
      Follows options (fun _ n' => ∃ evict, Quiet (base.evicting evict) n') p n :=
    fun h => h n ⟨_, hn⟩
  obtain ⟨_ | _, id⟩ := item <;> cases evictable
  · exact hkeeps (keeps_traceless rfl)
  · obtain rfl := hevictable rfl
    refine .bind (follows_disconnect ?_ ?_ (fun _ h => ⟨_, h⟩) hn) fun _ _ h => h
    · exact keeps_send (fun n' h => ⟨_, h.evict, rfl, rfl⟩) fun _ _ _ h => h
    · exact fun n' h => follows_call ⟨_, h.evict, rfl, rfl⟩ fun _ _ =>
        ⟨none, h.evicting rfl rfl rfl rfl⟩
  · exact hkeeps (keeps_traceless rfl)
  · exact hkeeps ((keeps_traceless rfl).bind fun _ => keeps_traceless rfl)

/-- From its lookup to its end an eviction keeps to the channel that it has
found. -/
theorem keeps_processEviction (hbase : base.evict = none) (item : Key) :
    Keeps options (Quiet base) (processEviction item) := by
  intro n hn
  have hdone : ∀ n', (∃ evict, Quiet (base.evicting evict) n') →
      Follows options (fun _ => Quiet base) (send .evictionDone) n' := by
    rintro n' ⟨evict, h⟩
    exact follows_call trivial fun _ _ => { h with evict := hbase.symm }
  refine follows_send trivial fun w found => ?_
  cases found with
  | none =>
    exact hdone _ ⟨(n.after w (.getChannel .evict item) none).evict, hn.transfer, rfl, hn.owns,
      hn.dialled⟩
  | some obj =>
    have hfound : Quiet (base.evicting (evictNotes item obj false))
        (n.after w (.getChannel .evict item) (some obj)) := by
      refine { hn with evict := ?_ }
      obtain ⟨_ | _, id⟩ := item
      · rfl
      · exact hn.evict.trans hbase
    refine (follows_hasNoTransfer hfound).bind fun evictable n₁ ⟨checked, hchecked, hn₁⟩ => ?_
    exact (follows_evict hchecked hn₁).bind fun _ n₂ hn₂ => hdone n₂ hn₂

theorem keeps_evictionTurn (hbase : base.evict = none) :
    Keeps options (Quiet base) evictionTurn := by
  have hcount := @Uncounted.allChannels options _ (Quiet.uncounted base)
  refine (keeps_traceless rfl).bind fun items => ?_
  refine (keeps_forEach (keeps_processEviction hbase) items).bind fun _ => ?_
  refine (hcount _).bind fun _ => (hcount _).bind fun _ => .bind (keeps_forEach (fun obj => ?_) _)
    fun _ => .ret 0
  exact (keeps_traceless rfl).bind fun _ => .ite (keeps_traceless rfl) (.ret ())

/-! ## Transfers -/

theorem owns_lock (n : Notes) (w : World) (lock : Lock) :
    (n.after w (.lock lock) ()).owns lock := by
  simp [Notes.after, ownsAfter]

theorem follows_locked {p : EngineProg ℕ} (hrest : n.connect.dialled = none)
    (hp : ∀ n', n'.connect.dialled = none → n'.owns .connection →
      Follows options (fun _ => Quiet n') p n') (hfree : n.owns .connection = false) :
    Follows options (fun _ => Quiet n) (locked p) n := by
  refine follows_send trivial fun w _ => ?_
  refine (hp (n.after w (.lock .connection) ()) hrest (owns_lock n w _)).bind fun _ n₁ hn₁ => ?_
  have howned : n₁.owns .connection := by rw [hn₁.owns]; exact owns_lock n w _
  refine follows_send ⟨howned, fun _ => hn₁.dialled.trans hrest⟩ fun _ _ => ?_
  refine { hn₁ with owns := ?_ }
  change Function.update n₁.owns _ _ = _
  rw [hn₁.owns]
  exact (Function.update_idem ..).trans (Function.update_eq_self_iff.mpr hfree.symm)

structure Resting (n : Notes) : Prop where
  dialled : n.connect.dialled = none
  free : n.owns .connection = false
  evict : n.evict = none

theorem follows_connectWhenTransfer (remote : String) (polls waits : ℕ) (hn : Resting n) :
    Follows options (fun _ => Quiet n) (connectWhenTransfer options remote polls waits) n := by
  have hturn : ∀ {again : EngineProg ℕ}, Follows options (fun _ => Quiet n) again n →
      Follows options (fun _ => Quiet n) (connectTurn options remote polls again) n := by
    intro again hagain
    refine follows_send trivial fun w found => ?_
    cases found with
    | none =>
      refine follows_locked hn.dialled (fun n' hrest hlocked => ?_) hn.free
      refine follows_send trivial fun _ _ => ?_
      split_ifs
      · exact .refl _
      · exact follows_handlerConnect polls remote hrest fun _ => hlocked
    | some obj =>
      refine follows_send trivial fun _ disconnecting => ?_
      split_ifs
      · exact hagain
      · exact .refl _
  induction waits with
  | zero => exact hturn (.refl _)
  | succ waits ih => exact hturn ih

def Notes.foundAt (n : Notes) (remote : String) (found : Option ℕ) : Notes :=
  { n with transfer := { n.transfer with found := found.map (remote, ·) } }

theorem follows_prepareTransfer (remote : String) (polls waits : ℕ) (hn : Resting n) :
    Follows options (fun found => Quiet (n.foundAt remote found))
      (prepareTransfer options remote polls waits) n := by
  have hfind : ∀ n', Quiet n n' → Follows options (fun found => Quiet (n.foundAt remote found))
      (send (.getChannel .transfer (.client, remote))) n' := by
    refine fun n' hn' => follows_call rfl fun w found => ?_
    exact ⟨congrArg (fun t : TransferNotes => { t with found := found.map (remote, ·) })
      hn'.transfer, hn'.evict, hn'.owns, hn'.dialled⟩
  rw [prepareTransfer]
  split_ifs
  · exact (follows_connectWhenTransfer remote polls waits hn).bind fun _ => hfind
  · exact hfind n (.refl n)

theorem keeps_failTransfer (remote : String) (ret : ℕ) :
    Keeps options P (failTransfer options remote ret) :=
  keeps_chk (.ite (keeps_disconnect remote) (.ret 0)) (.ret ret)

theorem follows_startCount {obj : ℕ} (hheld : base.transfer.held = none)
    (hn : Quiet (base.foundAt remote (some obj)) n) :
    Follows options (fun _ n' => options.pool → n'.transfer.held = some (remote, obj))
      (startCount options obj) n := by
  have hfound : n.transfer.found = some (remote, obj) := by rw [hn.transfer]; rfl
  rw [startCount]
  split_ifs with hpool
  · refine follows_send trivial fun _ _ => ?_
    have hfree : n.transfer.held = none := by rw [hn.transfer]; exact hheld
    exact follows_call ⟨hfree, remote, hfound⟩ fun _ _ _ => hfound
  · exact fun h => absurd h hpool

theorem follows_endCount {obj : ℕ} (hheld : options.pool → n.transfer.held = some (remote, obj)) :
    Follows options (fun _ _ => True) (endCount options obj) n := by
  rw [endCount]
  split_ifs with hpool
  · exact follows_call ⟨remote, hheld hpool⟩ fun _ _ => trivial
  · trivial

theorem follows_transferSync (remote : String) (polls waits : ℕ) :
    Follows options (fun _ _ => True) (transferSync options remote polls waits) {} := by
  refine (follows_prepareTransfer remote polls waits ⟨rfl, rfl, rfl⟩).bind fun found n hn => ?_
  cases found with
  | none => trivial
  | some obj =>
    refine (follows_startCount rfl hn).bind fun _ n₁ hn₁ => ?_
    have hbody : Keeps options (Quiet n₁) (chkStatusRet (send (.outside .transferType)) do
          let ret ← send (.outside .transfer)
          if ret = 0 then return 0 else failTransfer options remote ret) :=
      keeps_chk (keeps_traceless rfl) ((keeps_traceless rfl).bind fun ret =>
        .ite (.ret 0) (keeps_failTransfer remote ret))
    refine (hbody n₁ (.refl n₁)).bind fun ret n₂ hn₂ => ?_
    exact (follows_endCount fun h => hn₂.transfer ▸ hn₁ h).bind fun _ _ _ => trivial

theorem follows_transferAsync (remote : String) (polls waits : ℕ) :
    Follows options (fun _ _ => True) (transferAsync options remote polls waits) {} := by
  refine (follows_prepareTransfer remote polls waits ⟨rfl, rfl, rfl⟩).bind fun found n hn => ?_
  cases found with
  | none => trivial
  | some obj =>
    refine follows_send trivial fun _ id => ?_
    refine (follows_startCount rfl hn).bind fun _ n₁ hn₁ => ?_
    refine follows_send trivial fun _ ret => ?_
    split_ifs
    · exact follows_call hn₁ fun _ _ => trivial
    · refine (keeps_failTransfer remote ret n₁ (Quiet.refl n₁)).bind fun _ n₂ hn₂ => ?_
      exact (follows_endCount fun h => hn₂.transfer ▸ hn₁ h).bind fun _ _ _ => trivial

theorem follows_pollRequest {id : ℕ} (remote : String) (obj : ℕ) (hlocked : n.owns .requests)
    (hpolled : n.transfer.polled = some id) :
    Follows options (fun _ n' => n'.owns .requests) (pollRequest options id remote obj) n := by
  unfold pollRequest
  extract_lets counted
  have hcounted : options.pool → counted.isSome := by
    intro hpool
    simp [counted, hpool]
  refine follows_send trivial fun _ polled => ?_
  split_ifs
  · refine follows_send ⟨hlocked, hpolled, hcounted⟩ fun _ _ => ?_
    exact keeps_failTransfer (P := fun n' => n'.owns .requests = true) remote _ _ hlocked
  · exact hlocked
  · exact follows_send ⟨hlocked, hpolled, hcounted⟩ fun _ _ => hlocked

theorem follows_program (call : Call) :
    Follows options (fun _ _ => True) (call.program options) {} := by
  have hquiet : ∀ {β : Type} {p : EngineProg β}, Keeps options (Quiet {}) p →
      Follows options (fun _ _ => True) p {} :=
    fun h => (h {} (.refl {})).mono fun _ _ _ => trivial
  have hdestroy : ∀ type obj, Keeps options (Quiet {}) (destroyById type obj) := by
    refine fun type obj => (keeps_traceless rfl).bind fun key => ?_
    cases key with
    | none => exact .ret ()
    | some key => exact (keeps_traceless rfl).bind fun _ => .ret ()
  have hcount := @Uncounted.allChannels options _ (Quiet.uncounted {})
  cases call with
  | connect remote polls =>
    simp only [Call.program, connect]
    split_ifs with hpool
    · exact (follows_locked rfl (fun n hrest hlocked =>
        follows_handlerConnect polls remote hrest fun _ => hlocked) rfl).mono fun _ _ _ => trivial
    · exact (follows_handlerConnect polls remote rfl fun h => absurd h hpool).mono
        fun _ _ _ => trivial
  | disconnect remote => exact hquiet (keeps_disconnect remote)
  | disconnectAll | socketError => exact hquiet (keeps_traceless rfl)
  | transferSync remote polls waits => exact follows_transferSync remote polls waits
  | transferAsync remote polls waits => exact follows_transferAsync remote polls waits
  | getTransferStatus id =>
    refine follows_send trivial fun w _ => ?_
    have howned := owns_lock {} w .requests
    refine follows_send howned fun _ found => ?_
    suffices hstatus : Follows options (fun _ n => n.owns .requests)
        (requestStatus options id found) _ from
      hstatus.bind fun _ _ h => follows_send ⟨h, nofun⟩ fun _ _ => trivial
    obtain _ | ⟨remote, _ | obj⟩ := found
    · exact howned
    · exact howned
    · exact follows_pollRequest remote obj howned rfl
  | connectRequest peer polls =>
    have hsocket : Keeps options (Quiet {}) (send (.outside .addSocketToEpoll)) := by
      refine keeps_send (fun _ _ => trivial) fun n w ret hn => ⟨hn.transfer, hn.evict, hn.owns, ?_⟩
      change (if ret ≠ 0 then n.connect.dialled else none) = none
      rw [hn.dialled]
      exact ite_self _
    have hinfo : Keeps options (Quiet {}) (connectInfoProcess options polls .server peer) :=
      keeps_connectInfoProcess polls (fun h => by cases h) peer
    refine hquiet (keeps_chk (keeps_traceless rfl)
      (keeps_chk (keeps_traceless rfl) (keeps_chk hinfo ?_)))
    exact (keeps_traceless rfl).bind fun _ =>
      .ite (keeps_chk (keeps_traceless rfl) hsocket) (.ret _)
  | disconnectRequest channelId =>
    exact hquiet (keeps_chk (keeps_traceless rfl) (keeps_traceless rfl))
  | requestDisconnect obj =>
    refine hquiet ((keeps_traceless rfl).bind fun count => .ite ?_ (.ret _))
    refine (keeps_traceless rfl).bind fun key => ?_
    obtain _ | ⟨_ | _, id⟩ := key
    · exact .ret _
    · exact (keeps_traceless rfl).bind fun _ => (keeps_traceless rfl).bind fun _ => .ret 0
    · exact .ret _
  | evictionTurn => exact hquiet (keeps_evictionTurn rfl)
  | sendHeartbeats =>
    refine hquiet ((hcount _).bind fun objs => .bind (keeps_forEach (fun obj => ?_) objs)
      fun _ => .ret 0)
    exact (keeps_traceless rfl).bind fun _ => .ite (hdestroy _ obj) (.ret ())
  | checkHeartbeatTimeouts =>
    refine hquiet ((hcount _).bind fun objs => .bind (keeps_forEach (fun obj => ?_) objs)
      fun _ => .ret 0)
    exact (keeps_traceless rfl).bind fun _ => .ite (.ret ()) (hdestroy _ obj)

abbrev World.Locks (w : World) (all : List Notes) : Prop :=
  ExclusiveOwners.Owned (fun lock n => Notes.owns n lock) w.busy all

def locks : Request → Bool
  | .lock _ | .unlock _ => true
  | _ => false

theorem busy_effect (h : locks request = false) (w : World) (answer : Answer request) :
    (w.effect request answer).busy = w.busy := by
  cases request with
  | emplace key => exact (apply_ite World.busy _ _ _).trans (ite_self _)
  | lock lock | unlock lock => cases h
  | _ => rfl

variable {w : World}

theorem World.Locks.serve {all : List Notes} {i : ℕ} (answer : Answer request)
    (hlocks : w.Locks all) (hi : all[i]? = some n) (hallowed : allowed options request n)
    (hready : w.ready request = true) :
    (w.effect request answer).Locks (all.set i (n.after w request answer)) := by
  cases request with
  | lock lock =>
    refine hlocks.take hi (Bool.not_eq_true' _ |>.mp hready) fun r => ?_
    by_cases hr : r = lock
    all_goals simp [Notes.after, ownsAfter, hr]
  | unlock lock =>
    refine hlocks.giveBack hi hallowed.1 fun r => ?_
    by_cases hr : r = lock
    all_goals simp [Notes.after, ownsAfter, hr]
  | _ =>
    rw [World.Locks, busy_effect rfl]
    exact hlocks.keep hi fun _ => rfl

variable {key : Key}

theorem getChannel_some {obj : ℕ} (h : w.getChannel key = some obj) :
    obj ∈ w.channels ∧ w.keys[obj]? = some key :=
  ⟨List.mem_of_find?_eq_some h, by simpa using List.find?_some h⟩

theorem getChannel_none {obj : ℕ} (h : w.getChannel key = none) (hobj : obj ∈ w.channels) :
    w.keys[obj]? ≠ some key := by
  simpa using List.find?_eq_none.mp h obj hobj

theorem lt_length_emplace {keys : List Key} {channels : List ℕ}
    (hlt : ∀ obj ∈ channels, obj < keys.length) (key : Key) :
    ∀ obj ∈ channels ++ [keys.length], obj < (keys ++ [key]).length := by
  rw [List.length_append, List.length_singleton]
  exact InterleavedCalls.forall_mem_append (Nat.lt_succ_self _)
    fun obj hobj => (hlt obj hobj).trans (Nat.lt_succ_self _)

theorem serve_emplace (w : World) (oracle : Oracle) (key : Key) : w.serve oracle (.emplace key) =
      if (w.getChannel key).isSome then w else w.emplace key := by
  by_cases hfound : (w.getChannel key).isSome <;>
    simp [World.serve, World.effect, World.reply, hfound]

end Hixl.Adxl.InnerEngine
