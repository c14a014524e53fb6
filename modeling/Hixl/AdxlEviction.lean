import Hixl.AdxlTransferCounts

/-!
# Eviction and running transfers

`ProcessEviction` looks the channel up, checks that its count is not positive,
and then disconnects by name.  A transfer that has found the channel before may
increment the count in between.  Where none does, no channel is disconnected or
destroyed by an eviction while a transfer on it is unfinished.
-/

namespace Hixl.Adxl.InnerEngine

open ProgramRuns ProgramRuns.System
open InterleavedCalls (forall_mem_append forall_mem_set)

variable {options : Options} {w : World} {notes : List Notes} {n : Notes} {request : Request}
  {oracle : Oracle} {i obj : ℕ}

/-- From the lookup of `ProcessEviction` to its `DestroyChannel` no transfer
starts to count on a channel of that name. -/
def noStartWhileEvicting : Condition World Notes Oracle Request
  | w, all, _, .increment obj, _ =>
    all.all fun n => n.evict.all fun e => w.keys[obj]? ≠ some (.client, e.name)
  | _, _, _, _, _ => true

/-- The channels of the name that is evicted, but for the one that was found and
not checked yet, have no transfer. -/
def World.Clear (w : World) (e : EvictNotes) : Prop :=
  ∀ obj ∈ w.channels, w.keys[obj]? = some (.client, e.name) →
    e.checked = true ∨ obj ≠ e.obj → w.count obj = 0

structure EvictInvariant (w : World) (all : List Notes) : Prop where
  transfers : TransferInvariant w all
  unique : ∀ a ∈ w.channels, ∀ b ∈ w.channels, w.keys[a]? = w.keys[b]? → a = b
  clear : ∀ n ∈ all, ∀ e ∈ n.evict, w.Clear e

theorem count_effect {answer : Answer request} (hlt : ∀ obj ∈ w.channels, obj < w.keys.length)
    (hobj : obj ∈ (w.effect request answer).channels) :
    (obj ∈ w.channels ∧ (w.effect request answer).keys[obj]? = w.keys[obj]? ∧
      ((w.effect request answer).count obj ≤ w.count obj ∨ request = .increment obj)) ∨
    (w.effect request answer).count obj = 0 := by
  have hsame : obj ∈ w.channels → (obj ∈ w.channels ∧ w.keys[obj]? = w.keys[obj]? ∧
      (w.count obj ≤ w.count obj ∨ request = .increment obj)) ∨ w.count obj = 0 :=
    fun h => Or.inl ⟨h, rfl, Or.inl le_rfl⟩
  have hadd : ∀ target, (w.addCount target (-1)).count obj ≤ w.count obj := by
    intro target
    simp only [World.addCount, Function.update_apply]
    split_ifs with heq
    · subst heq
      omega
    · exact le_rfl
  cases request with
  | increment target =>
    refine Or.inl ⟨hobj, rfl, ?_⟩
    by_cases heq : target = obj
    · exact Or.inr (congrArg _ heq)
    · exact Or.inl (Function.update_of_ne (Ne.symm heq) _ _).le
  | decrement target => exact Or.inl ⟨hobj, rfl, Or.inl (hadd target)⟩
  | emplace key =>
    cases answer with
    | none => exact hsame hobj
    | some created =>
      rcases List.mem_append.mp hobj with hmem | hmem
      · refine Or.inl ⟨hmem, List.getElem?_append_left (hlt obj hmem), Or.inl ?_⟩
        exact (Function.update_of_ne (hlt obj hmem).ne _ _).le
      · rw [List.mem_singleton.mp hmem]
        exact Or.inr (Function.update_self ..)
  | destroy cause target =>
    obtain ⟨hmem, hstays⟩ := List.mem_filter.mp hobj
    refine Or.inl ⟨hmem, rfl, Or.inl ?_⟩
    exact (if_neg (by simpa using hstays)).le
  | reapReq id counted =>
    cases counted with
    | none => exact hsame hobj
    | some target => exact Or.inl ⟨hobj, rfl, Or.inl (hadd target)⟩
  | _ => exact hsame hobj

theorem EvictInvariant.serve_unique (h : EvictInvariant w notes) :
    ∀ a ∈ (w.serve oracle request).channels, ∀ b ∈ (w.serve oracle request).channels,
      (w.serve oracle request).keys[a]? = (w.serve oracle request).keys[b]? → a = b := by
  have hlt := h.transfers.counts.registered
  cases request with
  | emplace key =>
    rw [serve_emplace]
    split_ifs with hfound
    · exact h.unique
    · have hnone : w.getChannel key = none := by simpa using hfound
      have hnew : ∀ a ∈ w.channels, (w.keys ++ [key])[a]? ≠ (w.keys ++ [key])[w.keys.length]? := by
        intro a ha
        rw [List.getElem?_append_left (hlt a ha), List.getElem?_concat_length]
        exact getChannel_none hnone ha
      intro a ha b hb heq
      rcases List.mem_append.mp ha with ha | ha <;> rcases List.mem_append.mp hb with hb | hb
      · apply h.unique a ha b hb
        simpa only [World.emplace, List.getElem?_append_left (hlt a ha),
          List.getElem?_append_left (hlt b hb)] using heq
      · obtain rfl := List.mem_singleton.mp hb
        exact absurd heq (hnew a ha)
      · obtain rfl := List.mem_singleton.mp ha
        exact absurd heq.symm (hnew b hb)
      · rw [List.mem_singleton.mp ha, List.mem_singleton.mp hb]
  | destroy cause target =>
    exact fun a ha b hb => h.unique a (List.mem_of_mem_filter ha) b (List.mem_of_mem_filter hb)
  | _ => exact h.unique

theorem EvictInvariant.serve_clear (h : EvictInvariant w notes) (hi : notes[i]? = some n)
    (hallowed : allowed options request n)
    (hnonneg : ∀ obj ∈ (w.serve oracle request).channels, 0 ≤ (w.serve oracle request).count obj)
    (hok : noStartWhileEvicting w notes i request oracle = true) :
    ∀ m ∈ notes.set i (n.serve oracle request w), ∀ e ∈ m.evict,
      (w.serve oracle request).Clear e := by
  -- an eviction that was there before
  have hold : ∀ m ∈ notes, ∀ e ∈ m.evict, (w.serve oracle request).Clear e := by
    intro m hm e he obj hobj hkey hcase
    rcases count_effect h.transfers.counts.registered hobj with ⟨hmem, hkeys, hle | rfl⟩ | hzero
    · have hzero := h.clear m hm e he obj hmem (hkeys ▸ hkey) hcase
      exact le_antisymm (hle.trans hzero.le) (hnonneg obj hobj)
    · have hquiet := List.all_eq_true.mp hok m hm
      rw [he, Option.all_some, decide_eq_true_eq] at hquiet
      exact absurd (hkeys ▸ hkey) hquiet
    · exact hzero
  apply forall_mem_set
  · have hn := hold n (List.mem_of_getElem? hi)
    cases request with
    | getChannel lookup key =>
      cases lookup with
      | evict =>
        obtain ⟨_ | _, name⟩ := key
        · intro e he obj hobj hkey hcase
          obtain ⟨found, hfound, rfl⟩ := Option.map_eq_some_iff.mp he
          obtain ⟨hmem, hkey'⟩ := getChannel_some hfound
          have heq := h.unique obj hobj found hmem (hkey.trans hkey'.symm)
          exact absurd heq (hcase.resolve_left Bool.false_ne_true)
        · exact hn
      | _ => exact hn
    | getTransferCount lookup target =>
      cases lookup with
      | evict =>
        intro e he obj hobj hkey hcase
        obtain ⟨old, hmem, rfl⟩ := Option.map_eq_some_iff.mp he
        obtain rfl := hallowed old hmem
        by_cases heq : obj = old.obj
        · subst heq
          have hle := of_decide_eq_true (hcase.resolve_right fun h => h rfl)
          exact le_antisymm hle (hnonneg _ hobj)
        · exact hn old hmem obj hobj hkey (Or.inr heq)
      | _ => exact hn
    | destroy cause target =>
      cases cause with
      | eviction => exact nofun
      | _ => exact hn
    | evictionDone => exact nofun
    | _ => exact hn
  · exact fun j other _ hother => hold other (List.mem_of_getElem? hother)

theorem evictInvariant_sound (hpool : options.pool = true) :
    (engine options).Sound (allowed options)
      (fun w all i request oracle => reapsOnIssuer w all i request oracle &&
        noStartWhileEvicting w all i request oracle) EvictInvariant where
  follows := follows_program
  start h := ⟨(transferInvariant_sound hpool).start h.transfers, h.unique,
    forall_mem_append nofun h.clear⟩
  serve h hi hallowed hready hok := by
    rw [Bool.and_eq_true] at hok
    have htransfers := (transferInvariant_sound hpool).serve h.transfers hi hallowed hready hok.1
    refine ⟨htransfers, h.serve_unique, h.serve_clear hi hallowed (fun obj hobj => ?_) hok.2⟩
    exact (Int.natCast_nonneg _).trans_eq (htransfers.counts.exact obj hobj).symm

def evictsNow (name : String) (request : Request) : Prop :=
  request = .outside (.sendDisconnect .eviction name) ∨
    request = .destroy .eviction (.key (.client, name))

/-- Where requests are reaped on the channel that they were issued on and no
transfer starts to count between the lookup of an eviction and its destroy, an
eviction disconnects and destroys only channels without a running transfer. -/
theorem eviction_cutsNoTransfer (options : Options) (hpool : options.pool = true)
    (actions : List (Action Call Oracle)) (s : EngineConfig)
    (hrun : (engine options).run { world := {} } actions = some s)
    (hok : (engine options).along (fun w all i request oracle =>
      reapsOnIssuer w all i request oracle && noStartWhileEvicting w all i request oracle)
      { world := {} } actions = true)
    (i : ℕ) (party : Party Notes Request Answer ℕ) (hparty : s.parties[i]? = some party)
    (name : String) (request : Request) (hpending : party.pending = some request)
    (hevicts : evictsNow name request) (obj : ℕ) (hobj : obj ∈ s.world.channels)
    (hkey : s.world.keys[obj]? = some (.client, name)) : s.unfinished obj = 0 := by
  have hkept := (evictInvariant_sound hpool).run hrun hok
    ⟨⟨ExclusiveOwners.Owned.empty, by simp, ⟨by simp, by simp, by simp, by simp⟩⟩, by simp, by simp⟩
  have hallowed := hkept.allowed_pending hparty hpending
  have hchecked : ∃ e ∈ party.notes.evict, e.checked = true ∧ e.name = name := by
    rcases hevicts with rfl | rfl
    · obtain ⟨e, he, hchecked, rfl⟩ := hallowed
      exact ⟨e, he, hchecked, rfl⟩
    · obtain ⟨e, he, hchecked, htarget⟩ := hallowed
      cases htarget
      exact ⟨e, he, hchecked, rfl⟩
  obtain ⟨e, he, hchecked, rfl⟩ := hchecked
  have hmem : party.notes ∈ s.notes := List.mem_map_of_mem (List.mem_of_getElem? hparty)
  have hzero := hkept.1.clear party.notes hmem e he obj hobj hkey (Or.inl hchecked)
  have hexact := hkept.1.transfers.counts.exact obj hobj
  exact Int.natCast_eq_zero.mp (hexact.symm.trans hzero)

/-- A transfer ends before its channel is queued for eviction. -/
def evictRun : List (Action Call Oracle) :=
  .start (.connect "a" 0) :: serves 0 18 peerA ++ .start (.transferSync "a" 0 0) :: serves 1 8 {} ++
    .start (.requestDisconnect 0) :: serves 2 4 {} ++ .start .evictionTurn :: serves 3 9 {}

theorem eviction_cutsNoTransfer_idle : ∃ s : EngineConfig,
    (engine {}).run { world := {} } evictRun = some s ∧ s.world.channels = [0] ∧
      s.world.hasTransferred 0 = true ∧ s.unfinished 0 = 0 :=
  ⟨_, rfl, rfl, rfl, eviction_cutsNoTransfer {} rfl evictRun _ rfl rfl 3 _ rfl "a" _ rfl
    (Or.inr rfl) 0 (by decide) rfl⟩

/-- A transfer has found the channel before it is marked, and increments the
count after `ProcessEviction` has read it. -/
def lateStartRun : List (Action Call Oracle) :=
  .start (.connect "a" 0) :: serves 0 18 peerA ++ .start (.transferSync "a" 0 0) :: serves 1 3 {} ++
    .start (.requestDisconnect 0) :: serves 2 4 {} ++
    .start .evictionTurn :: serves 3 4 {} ++ serves 1 2 {} ++ serves 3 5 {}

theorem eviction_cutsTransfer : ∃ (s : EngineConfig) (party : Party Notes Request Answer ℕ),
    (engine {}).run { world := {} } lateStartRun = some s ∧ s.parties[3]? = some party ∧
      party.pending = some (.destroy .eviction (.key (.client, "a"))) ∧
      s.world.getChannel (.client, "a") = some 0 ∧ s.unfinished 0 = 1 :=
  ⟨_, _, rfl, rfl, rfl, rfl, rfl⟩

end Hixl.Adxl.InnerEngine
