import Hixl.AdxlEngineRules

/-!
# Transfer counts of the channel pool

With the channel pool every transfer counts on the channel object that it has
found, from before its first operation until `TransferSync` ends or
`GetTransferStatus` reaps the request.  The count of a registered channel is the
number of such transfers as long as every request is reaped on the object that
it was issued on.
-/

namespace Hixl.Adxl.InnerEngine

open ProgramRuns ProgramRuns.System
open InterleavedCalls (forall_mem_append forall_mem_set forall_mem_set_of_forall countP_set_add)

/-- The call is in a transfer on the channel, and no request of it is in the map. -/
def TransferNotes.holds (obj : ℕ) (t : TransferNotes) : Bool := t.held.any fun p => p.2 = obj

/-- The transfers issued on the channel that have not ended and were not reaped. -/
def unfinished (reqMap : List TransferInfo) (all : List TransferNotes) (obj : ℕ) : ℕ :=
  all.countP (·.holds obj) + reqMap.countP fun info => info.issuedOn = obj

def EngineConfig.unfinished (s : EngineConfig) (obj : ℕ) : ℕ :=
  InnerEngine.unfinished s.world.reqMap (s.notes.map Notes.transfer) obj

variable {keys : List Key} {count : ℕ → ℤ} {channels : List ℕ} {reqMap : List TransferInfo}
  {all : List TransferNotes} {i obj id : ℕ} {t t' : TransferNotes} {remote : String}

theorem TransferNotes.holds_none (hfree : t.held = none) (obj : ℕ) : t.holds obj = false := by
  rw [holds, hfree]
  rfl

theorem TransferNotes.holds_some (hheld : t.held = some (remote, obj)) (other : ℕ) :
    t.holds other = decide (obj = other) := by
  rw [holds, hheld]
  rfl

variable {α : Type} {l : List α} {a : α}

theorem countP_eraseP_add {p : α → Bool} (hfind : l.find? p = some a) (q : α → Bool) :
    (l.eraseP p).countP q + (if q a then 1 else 0) = l.countP q := by
  obtain ⟨hp, as, bs, rfl, hbefore⟩ := List.find?_eq_some_iff_append.mp hfind
  rw [List.eraseP_append_right _ (by simpa using hbefore), List.eraseP_cons_of_pos hp,
    List.countP_append, List.countP_append, List.countP_cons]
  omega

theorem getElem?_append_some {l' : List α} (h : l[i]? = some a) : (l ++ l')[i]? = some a := by
  rwa [List.getElem?_append_left (List.getElem?_eq_some_iff.mp h).1]

structure Counts (keys : List Key) (count : ℕ → ℤ) (channels : List ℕ)
    (reqMap : List TransferInfo) (all : List TransferNotes) : Prop where
  known : ∀ t ∈ all, ∀ p, t.found = some p ∨ t.held = some p → keys[p.2]? = some (.client, p.1)
  issued : ∀ info ∈ reqMap, keys[info.issuedOn]? = some (.client, info.remote)
  registered : ∀ obj ∈ channels, obj < keys.length
  exact : ∀ obj ∈ channels, count obj = unfinished reqMap all obj

namespace Counts

variable {count' : ℕ → ℤ}

section

variable (h : Counts keys count channels reqMap all)

include h

theorem move (hi : all[i]? = some t)
    (hknown : ∀ p, t'.found = some p ∨ t'.held = some p → keys[p.2]? = some (.client, p.1))
    {reqMap' : List TransferInfo}
    (hissued : ∀ info ∈ reqMap', keys[info.issuedOn]? = some (.client, info.remote))
    (hcount : ∀ obj ∈ channels, count' obj + (if t.holds obj then 1 else 0) +
      (reqMap.countP fun info => info.issuedOn = obj : ℕ) =
        count obj + (if t'.holds obj then 1 else 0) +
          (reqMap'.countP fun info => info.issuedOn = obj : ℕ)) :
    Counts keys count' channels reqMap' (all.set i t') where
  known := forall_mem_set_of_forall hknown h.known
  issued := hissued
  registered := h.registered
  exact obj hobj := by
    have hold := h.exact obj hobj
    have hset : unfinished reqMap (all.set i t') obj + (if t.holds obj then 1 else 0) = unfinished
        reqMap all obj + (if t'.holds obj then 1 else 0) := by
      have hadd := countP_set_add hi t' (·.holds obj)
      unfold unfinished
      omega
    have hchange := hcount obj hobj
    unfold unfinished at hold hset ⊢
    split_ifs at hset hchange <;> omega

theorem start : Counts keys count channels reqMap (all ++ [({} : TransferNotes)]) where
  known := forall_mem_append (fun p hp => by rcases hp with hp | hp <;> cases hp) h.known
  issued := h.issued
  registered := h.registered
  exact obj hobj := by
    rw [unfinished, List.countP_append]
    exact h.exact obj hobj

theorem acquire (hi : all[i]? = some t)
    (hfree : t.held = none) (hfound : t.found = some (remote, obj)) :
    Counts keys (Function.update count obj (count obj + 1)) channels reqMap
      (all.set i { t with held := t.found }) := by
  have hknown := h.known t (List.mem_of_getElem? hi)
  refine h.move hi ?_ h.issued fun other _ => ?_
  · exact fun p hp => hknown p (Or.inl (hp.elim id id))
  · rw [TransferNotes.holds_none hfree, TransferNotes.holds_some hfound, Function.update_apply]
    grind

theorem release (hi : all[i]? = some t) (hheld : t.held = some (remote, obj)) :
    Counts keys (Function.update count obj (count obj + -1)) channels reqMap
      (all.set i { t with held := none }) := by
  have hknown := h.known t (List.mem_of_getElem? hi)
  refine h.move hi ?_ h.issued fun other _ => ?_
  · exact fun p hp => hknown p (hp.imp_right nofun)
  · rw [TransferNotes.holds_some hheld, TransferNotes.holds_none rfl, Function.update_apply]
    grind

theorem handOver (hi : all[i]? = some t) (hheld : t.held = some (remote, obj)) (id : ℕ) :
    Counts keys count channels (reqMap ++ [⟨id, remote, obj⟩])
      (all.set i { t with held := none }) := by
  have hknown := h.known t (List.mem_of_getElem? hi)
  refine h.move hi ?_ (forall_mem_append ?_ h.issued) fun other _ => ?_
  · exact fun p hp => hknown p (hp.imp_right nofun)
  · exact hknown _ (Or.inr hheld)
  · rw [TransferNotes.holds_some hheld, TransferNotes.holds_none rfl, List.countP_append,
      List.countP_singleton]
    grind

theorem erase {p : TransferInfo → Bool} {info : TransferInfo} (hfind : reqMap.find? p = some info)
    (hcount : ∀ obj ∈ channels, count' obj + (if info.issuedOn = obj then 1 else 0) = count obj) :
    Counts keys count' channels (reqMap.eraseP p) all where
  known := h.known
  issued info hinfo := h.issued info (List.mem_of_mem_eraseP hinfo)
  registered := h.registered
  exact obj hobj := by
    have hold := h.exact obj hobj
    have hchange := hcount obj hobj
    have herase := countP_eraseP_add hfind fun info => info.issuedOn = obj
    simp only [decide_eq_true_eq] at herase
    unfold unfinished at hold ⊢
    split_ifs at herase hchange <;> omega

theorem destroy (gone : ℕ → Bool) : Counts keys (fun obj => if gone obj then 0 else count obj)
      (channels.filter fun obj => !gone obj) reqMap all where
  known := h.known
  issued := h.issued
  registered obj hobj := h.registered obj (List.mem_of_mem_filter hobj)
  exact obj hobj := by
    obtain ⟨hmem, hstays⟩ := List.mem_filter.mp hobj
    rw [if_neg (by simpa using hstays)]
    exact h.exact obj hmem

theorem unfinished_new : unfinished reqMap all keys.length = 0 := by
  have hlt : ∀ {obj key}, keys[obj]? = some key → obj ≠ keys.length :=
    fun hkey => (List.getElem?_eq_some_iff.mp hkey).1.ne
  rw [unfinished, Nat.add_eq_zero_iff, List.countP_eq_zero, List.countP_eq_zero]
  constructor
  · intro t ht hholds
    cases hheld : t.held with
    | none => exact absurd hholds (by simp [TransferNotes.holds_none hheld])
    | some p =>
      rw [TransferNotes.holds_some hheld, decide_eq_true_eq] at hholds
      exact hlt (h.known t ht p (Or.inr hheld)) hholds
  · intro info hinfo hissued
    exact hlt (h.issued info hinfo) (of_decide_eq_true hissued)

theorem emplace (key : Key) :
    Counts (keys ++ [key]) (Function.update count keys.length 0) (channels ++ [keys.length])
      reqMap all where
  known t ht p hp := getElem?_append_some (h.known t ht p hp)
  issued info hinfo := getElem?_append_some (h.issued info hinfo)
  registered := lt_length_emplace h.registered key
  exact obj hobj := by
    rcases List.mem_append.mp hobj with hmem | hmem
    · rw [Function.update_of_ne (h.registered obj hmem).ne]
      exact h.exact obj hmem
    · rw [List.mem_singleton.mp hmem, Function.update_self, h.unfinished_new]
      rfl

end

end Counts

/-! ## Every request keeps the counts -/

/-- `GetTransferStatus` reaps a request on the channel that it was issued on. -/
def reapsOnIssuer : Condition World Notes Oracle Request
  | w, _, _, .reapReq id (some obj), _ =>
    (w.reqMap.find? fun info => info.id = id).all fun info => info.issuedOn = obj
  | _, _, _, _, _ => true

structure TransferInvariant (w : World) (all : List Notes) : Prop where
  locks : w.Locks all
  polled : ∀ n ∈ all, ∀ id, n.transfer.polled = some id →
    n.owns .requests ∧ ∃ info ∈ w.reqMap, info.id = id
  counts : Counts w.keys w.count w.channels w.reqMap (all.map Notes.transfer)

variable {options : Options} {w : World} {notes : List Notes} {n : Notes} {request : Request}
  {oracle : Oracle}

theorem TransferInvariant.serve_counts (hpool : options.pool = true) (h : TransferInvariant w notes)
    (hi : notes[i]? = some n) (hallowed : allowed options request n)
    (hok : reapsOnIssuer w notes i request oracle = true) :
    Counts (w.serve oracle request).keys (w.serve oracle request).count
      (w.serve oracle request).channels (w.serve oracle request).reqMap
      ((notes.set i (n.serve oracle request w)).map Notes.transfer) := by
  have hcounts := h.counts
  have hn : (notes.map Notes.transfer)[i]? = some n.transfer := by simp [hi]
  have hknown := hcounts.known _ (List.mem_of_getElem? hn)
  have hpolls : ∀ polled, Counts w.keys w.count w.channels w.reqMap
      ((notes.map Notes.transfer).set i { n.transfer with polled }) := by
    intro polled
    refine hcounts.move hn ?_ hcounts.issued fun _ _ => rfl
    exact hknown
  have hsame := hpolls n.transfer.polled
  rw [List.map_set]
  cases request with
  | getChannel lookup key =>
    cases lookup with
    | transfer =>
      refine hcounts.move hn ?_ hcounts.issued fun _ _ => rfl
      rintro p (hfound | hheld)
      · obtain ⟨obj, hobj, rfl⟩ := Option.map_eq_some_iff.mp hfound
        rw [(getChannel_some hobj).2, ← hallowed]
      · exact hknown p (Or.inr hheld)
    | _ => exact hsame
  | increment obj =>
    obtain ⟨hfree, remote, hfound⟩ := hallowed
    exact hcounts.acquire hn hfree hfound
  | decrement obj =>
    obtain ⟨remote, hheld⟩ := hallowed
    exact hcounts.release hn hheld
  | emplace key =>
    rw [serve_emplace]
    split_ifs
    · exact hsame
    · exact hsame.emplace key
  | destroy cause target => exact hsame.destroy _
  | emplaceReq id remote obj =>
    unfold World.serve Notes.serve
    cases hinserted : w.reply oracle (.emplaceReq id remote obj) with
    | false => exact hsame
    | true => exact hcounts.handOver hn (hallowed hpool) id
  | lookupReq id =>
    unfold World.serve Notes.serve
    cases hfind : w.reqMap.find? fun info => info.id = id with
    | none =>
      have hreply : w.reply oracle (.lookupReq id) = none := by simp [World.reply, hfind]
      rw [hreply]
      exact hpolls none
    | some info =>
      have hreply : w.reply oracle (.lookupReq id) =
          some (info.remote, w.getChannel (.client, info.remote)) := by
        simp [World.reply, hfind]
      rw [hreply]
      cases hchannel : w.getChannel (.client, info.remote) with
      | some obj => exact hpolls (some id)
      | none =>
        -- a channel that the request was issued on is not registered any more
        refine (hpolls none).erase hfind fun obj hobj => ?_
        have hissued := hcounts.issued info (List.mem_of_find?_eq_some hfind)
        have hne : info.issuedOn ≠ obj := by
          rintro rfl
          exact getChannel_none hchannel hobj hissued
        rw [if_neg hne, add_zero]
        rfl
  | reapReq id counted =>
    obtain ⟨-, hpolled, hcounted⟩ := hallowed
    obtain ⟨obj, rfl⟩ := Option.isSome_iff_exists.mp (hcounted hpool)
    obtain ⟨-, found, hmem, hid⟩ := h.polled n (List.mem_of_getElem? hi) id hpolled
    have hsome : (w.reqMap.find? fun info => info.id = id).isSome :=
      List.find?_isSome.mpr ⟨found, hmem, by simpa using hid⟩
    obtain ⟨info, hfind⟩ := Option.isSome_iff_exists.mp hsome
    have hissued : info.issuedOn = obj := by simpa [reapsOnIssuer, hfind] using hok
    refine (hpolls none).erase hfind fun other _ => ?_
    change Function.update w.count obj (w.count obj + -1) other + _ = _
    rw [hissued, Function.update_apply]
    grind
  | unlock lock =>
    cases lock with
    | requests => exact hpolls none
    | connection => exact hsame
  | _ => exact hsame

def takesEntry : Request → Bool
  | .lookupReq _ | .reapReq _ _ => true
  | _ => false

theorem reqMap_effect (h : takesEntry request = false) (answer : Answer request) :
    ∀ info ∈ w.reqMap, info ∈ (w.effect request answer).reqMap := by
  intro info hinfo
  cases request with
  | lookupReq id | reapReq id counted => cases h
  | emplace key => rwa [World.effect, apply_ite World.reqMap, World.emplace, ite_self]
  | emplaceReq id remote obj =>
    cases answer with
    | false => exact hinfo
    | true => exact List.mem_append_left _ hinfo
  | _ => exact hinfo

theorem TransferInvariant.serve_polled (h : TransferInvariant w notes) (hi : notes[i]? = some n)
    (hallowed : allowed options request n) :
    ∀ m ∈ notes.set i (n.serve oracle request w), ∀ id, m.transfer.polled = some id →
      m.owns .requests ∧ ∃ info ∈ (w.serve oracle request).reqMap, info.id = id := by
  have hkept : ∀ m ∈ notes, ∀ id, takesEntry request = false → m.transfer.polled = some id →
      m.owns .requests ∧ ∃ info ∈ (w.serve oracle request).reqMap, info.id = id := by
    intro m hm id htakes hpolled
    obtain ⟨howns, info, hinfo, hid⟩ := h.polled m hm id hpolled
    exact ⟨howns, info, reqMap_effect htakes _ info hinfo, hid⟩
  apply forall_mem_set
  · intro id hpolled
    have hold := hkept n (List.mem_of_getElem? hi) id
    cases request with
    | getChannel lookup key => cases lookup <;> exact hold rfl hpolled
    | lookupReq found =>
      refine ⟨hallowed, ?_⟩
      cases hfind : w.reqMap.find? fun info => info.id = found with
      | none => simp [Notes.after, TransferNotes.after, World.reply, hfind] at hpolled
      | some info =>
        cases hchannel : w.getChannel (.client, info.remote) with
        | none => simp [Notes.after, TransferNotes.after, World.reply, hfind, hchannel] at hpolled
        | some obj =>
          simp only [Notes.after, TransferNotes.after, World.reply, hfind, hchannel,
            Option.map_some, Option.any_some, Option.isSome_some, if_true,
            Option.some.injEq] at hpolled
          have hid : info.id = found := by simpa using List.find?_some hfind
          refine ⟨info, ?_, hid.trans hpolled⟩
          simpa [World.effect, World.reply, hfind, hchannel] using List.mem_of_find?_eq_some hfind
    | reapReq _ _ => cases hpolled
    | lock lock =>
      obtain ⟨howns, hinfo⟩ := hold rfl hpolled
      exact ⟨by cases lock <;> simp [Notes.after, ownsAfter, howns], hinfo⟩
    | unlock lock =>
      cases lock with
      | requests => cases hpolled
      | connection =>
        obtain ⟨howns, hinfo⟩ := hold rfl hpolled
        exact ⟨by simp [Notes.after, ownsAfter, howns], hinfo⟩
    | _ => exact hold rfl hpolled
  · intro j other hne hother id hpolled
    cases htakes : takesEntry request with
    | false => exact hkept other (List.mem_of_getElem? hother) id htakes hpolled
    | true =>
      have howner : n.owns .requests := by
        cases request with
        | lookupReq _ => exact hallowed
        | reapReq _ _ => exact hallowed.1
        | _ => cases htakes
      obtain ⟨howns, -⟩ := h.polled other (List.mem_of_getElem? hother) id hpolled
      exact absurd (h.locks.eq_of_owns hother hi howns howner) hne

theorem transferInvariant_sound (hpool : options.pool = true) :
    (engine options).Sound (allowed options) reapsOnIssuer TransferInvariant where
  follows := follows_program
  start {w all} h := by
    refine ⟨h.locks.append fun lock => rfl, forall_mem_append ?_ h.polled, ?_⟩
    · exact nofun
    · rw [List.map_append]
      exact h.counts.start
  serve {w all i n request oracle} h hi hallowed hready hok :=
    ⟨h.locks.serve _ hi hallowed hready, h.serve_polled hi hallowed,
      h.serve_counts hpool hi hallowed hok⟩

/-- In every run of the channel pool in which each request is reaped on the
channel that it was issued on, the count of a registered channel is the number
of its unfinished transfers. -/
theorem transferCount_exact (options : Options) (hpool : options.pool = true)
    (actions : List (Action Call Oracle)) (s : EngineConfig)
    (hrun : (engine options).run { world := {} } actions = some s)
    (hreaps : (engine options).along reapsOnIssuer { world := {} } actions = true) :
    ∀ obj ∈ s.world.channels, s.world.count obj = s.unfinished obj ∧ 0 ≤ s.world.count obj := by
  have hkept := (transferInvariant_sound hpool).run hrun hreaps ?_
  · intro obj hobj
    have hexact := hkept.1.counts.exact obj hobj
    exact ⟨hexact, hexact ▸ Int.natCast_nonneg _⟩
  · exact ⟨ExclusiveOwners.Owned.empty, by simp, ⟨by simp, by simp, by simp, by simp⟩⟩

def issueRun : List (Action Call Oracle) :=
  .start (.connect "a" 0) :: serves 0 18 peerA ++
    .start (.transferAsync "a" 0 0) :: serves 1 8 peerA

theorem transferCount_exact_issued : ∃ s : EngineConfig,
    (engine {}).run { world := {} } issueRun = some s ∧ s.world.channels = [0] ∧
      s.world.count 0 = 1 ∧ s.world.count 0 = s.unfinished 0 :=
  ⟨_, rfl, rfl, rfl, (transferCount_exact {} rfl issueRun _ rfl rfl 0 (by decide)).1⟩

/-- The channel is destroyed and made again before the request is polled: the
new channel object, on which no transfer was issued, has the count `-1`. -/
def reconnectRun : List (Action Call Oracle) :=
  issueRun ++ .start (.disconnect "a") :: serves 2 8 peerA ++
    .start (.connect "a" 0) :: serves 3 18 peerA ++
    .start (.getTransferStatus 1) :: serves 4 5 { status := Status.failed.code }

theorem transferCount_wrongChannel : ∃ s : EngineConfig,
    (engine {}).run { world := {} } reconnectRun = some s ∧ s.world.channels = [1] ∧
      s.unfinished 1 = 0 ∧ s.world.count 1 = -1 :=
  ⟨_, rfl, rfl, rfl, rfl⟩

end Hixl.Adxl.InnerEngine
