import Hixl.AdxlEngineRules

/-!
# The limit of the channel pool

`ConnectInfoProcess` waits until fewer than `max_channel` channels are counted;
the channel is put into the map at the end of the handshake.  The limit holds as
long as no other channel is inserted between a count and the insertion after it.
-/

namespace Hixl.Adxl.InnerEngine

open ProgramRuns ProgramRuns.System
open InterleavedCalls (forall_mem_append forall_mem_set_of_forall)

def World.channelCount (w : World) : ℕ := (w.ofType .client).length + (w.ofType .server).length

/-- No channel was inserted since the call has counted. -/
def countIsCurrent : Condition World Notes Oracle Request
  | w, all, i, .emplace key, _ =>
    (w.getChannel key).isSome || all[i]?.all fun n => n.counts.readAt = some w.inserted
  | _, _, _, _, _ => true

/-- A count at which no channel was inserted since is not below the channels. -/
structure CountNotes.Valid (counts : CountNotes) (w : World) : Prop where
  readAt : ∀ inserted ∈ counts.readAt, inserted ≤ w.inserted
  clients : counts.readAt = some w.inserted → (w.ofType .client).length ≤ counts.clients
  total : counts.readAt = some w.inserted → ∀ total ∈ counts.total, w.channelCount ≤ total

structure LimitInvariant (options : Options) (w : World) (all : List Notes) : Prop where
  bound : (w.channelCount : ℤ) ≤ options.maxChannel
  registered : ∀ obj ∈ w.channels, obj < w.keys.length
  counted : ∀ n ∈ all, n.counts.Valid w

variable {options : Options} {w : World} {notes : List Notes} {n : Notes} {request : Request}
  {oracle : Oracle} {i : ℕ}

theorem ofType_destroy (w : World) (gone : ℕ → Bool) (type : ChannelType) :
    ((w.destroy gone).ofType type).length ≤ (w.ofType type).length :=
  (List.Sublist.filter _ List.filter_sublist).length_le

theorem channelCount_destroy (w : World) (gone : ℕ → Bool) :
    (w.destroy gone).channelCount ≤ w.channelCount :=
  Nat.add_le_add (ofType_destroy w gone .client) (ofType_destroy w gone .server)

theorem channelCount_emplace (hlt : ∀ obj ∈ w.channels, obj < w.keys.length) (key : Key) :
    (w.emplace key).channelCount = w.channelCount + 1 := by
  have htype : ∀ type, ((w.emplace key).ofType type).length =
      (w.ofType type).length + if key.1 = type then 1 else 0 := by
    intro type
    have hold : (w.channels.filter fun obj => ((w.keys ++ [key])[obj]?.map Prod.fst) = some type) =
        w.ofType type :=
      List.filter_congr fun obj hobj => by rw [List.getElem?_append_left (hlt obj hobj)]
    rw [World.ofType, World.emplace, List.filter_append, List.length_append, hold]
    by_cases htype : key.1 = type <;> simp [htype]
  obtain ⟨_ | _, id⟩ := key <;> simp [World.channelCount, htype] <;> omega

variable {w' : World}

theorem CountNotes.Valid.mono {counts : CountNotes} (h : counts.Valid w)
    (hclients : (w'.ofType .client).length ≤ (w.ofType .client).length)
    (hcount : w'.channelCount ≤ w.channelCount) (hinserted : w'.inserted = w.inserted) :
    counts.Valid w' where
  readAt := hinserted ▸ h.readAt
  clients hread := hclients.trans (h.clients (hinserted ▸ hread))
  total hread total ht := hcount.trans (h.total (hinserted ▸ hread) total ht)

variable {n' : Notes}

theorem LimitInvariant.shrink (h : LimitInvariant options w notes) (hi : notes[i]? = some n)
    (hclients : (w'.ofType .client).length ≤ (w.ofType .client).length)
    (hcount : w'.channelCount ≤ w.channelCount) (hinserted : w'.inserted = w.inserted)
    (hregistered : ∀ obj ∈ w'.channels, obj < w'.keys.length)
    (hn : n.counts.Valid w → n'.counts.Valid w) : LimitInvariant options w' (notes.set i n') where
  bound := (Int.ofNat_le.mpr hcount).trans h.bound
  registered := hregistered
  counted := by
    have hmono : ∀ counts : CountNotes, counts.Valid w → counts.Valid w' :=
      fun counts hvalid => hvalid.mono hclients hcount hinserted
    exact forall_mem_set_of_forall (hmono _ (hn (h.counted n (List.mem_of_getElem? hi))))
      fun other hother => hmono _ (h.counted other hother)

theorem LimitInvariant.emplace (h : LimitInvariant options w notes) (hi : notes[i]? = some n)
    (key : Key) (hroom : n.HasRoom options) (hcurrent : n.counts.readAt = some w.inserted)
    (hcounts : n'.counts = n.counts) : LimitInvariant options (w.emplace key) (notes.set i n') := by
  have hn := h.counted n (List.mem_of_getElem? hi)
  obtain ⟨total, htotal, hlt⟩ := hroom
  have hle := hn.total hcurrent total htotal
  have hcount := channelCount_emplace h.registered key
  -- a count that was made before the insertion is not current any more
  have hold : ∀ counts : CountNotes, counts.Valid w → counts.Valid (w.emplace key) := by
    intro counts hvalid
    have hpast : counts.readAt ≠ some (w.inserted + 1) :=
      fun hread => absurd (hvalid.readAt _ hread) (Nat.not_succ_le_self _)
    exact ⟨fun r hr => (hvalid.readAt r hr).trans (Nat.le_succ _), fun hread => absurd hread hpast,
      fun hread => absurd hread hpast⟩
  refine ⟨by rw [hcount]; omega, lt_length_emplace h.registered key,
    forall_mem_set_of_forall (hcounts ▸ hold _ hn) ?_⟩
  exact fun other hother => hold _ (h.counted other hother)

theorem limitInvariant_sound (hpool : options.pool = true) :
    (engine options).Sound (allowed options) countIsCurrent (LimitInvariant options) where
  follows := follows_program
  start h := by
    refine ⟨h.bound, h.registered, forall_mem_append ?_ h.counted⟩
    have hunread : ∀ r, ({} : CountNotes).readAt ≠ some r := fun _ h => by cases h
    exact ⟨fun r hr => absurd hr (hunread r), fun h => absurd h (hunread _),
      fun h => absurd h (hunread _)⟩
  serve {w all i n request oracle} h hi hallowed hready hok := by
    cases request with
    | allChannels type =>
      have hlength : List.length (w.reply oracle (.allChannels type)) = (w.ofType type).length := by
        simp only [World.reply]
        split_ifs with hperm
        · exact (List.isPerm_iff.mp hperm).length_eq
        · rfl
      refine h.shrink hi le_rfl le_rfl rfl h.registered fun hn => ?_
      cases type with
      | client => exact ⟨fun _ hread => (Option.some.inj hread).ge, fun _ => hlength.ge,
          fun _ _ ht => by cases ht⟩
      | server =>
        refine ⟨hn.readAt, hn.clients, fun hread total ht => ?_⟩
        cases ht
        exact Nat.add_le_add (hn.clients hread) hlength.ge
    | emplace key =>
      change LimitInvariant options (w.serve oracle (.emplace key)) _
      rw [serve_emplace]
      split_ifs with hfound
      · exact h.shrink hi le_rfl le_rfl rfl h.registered id
      · simp only [countIsCurrent, hfound, hi, Option.all_some, Bool.false_or,
          decide_eq_true_eq] at hok
        exact h.emplace hi key (hallowed.2 hpool) hok rfl
    | destroy cause target =>
      exact h.shrink hi (ofType_destroy w _ _) (channelCount_destroy w _) rfl
        (fun obj hobj => h.registered obj (List.mem_of_mem_filter hobj)) id
    | _ => exact h.shrink hi le_rfl le_rfl rfl h.registered id

/-- The number of channels stays within `max_channel` in every run in which no
channel is inserted between the last count of a connect and its insertion. -/
theorem channelCount_le_maxChannel (options : Options) (hpool : options.pool = true)
    (hmax : 0 < options.maxChannel) (actions : List (Action Call Oracle)) (s : EngineConfig)
    (hrun : (engine options).run { world := {} } actions = some s)
    (hcurrent : (engine options).along countIsCurrent { world := {} } actions = true) :
    (s.world.channelCount : ℤ) ≤ options.maxChannel :=
  ((limitInvariant_sound hpool).run hrun hcurrent ⟨hmax.le, by simp, by simp⟩).1.bound

def connectOne (i : ℕ) (name : String) : List (Action Call Oracle) :=
  .start (.connectRequest { channelId := name } 0) :: serves i 14 {}

theorem channelCount_le_maxChannel_two : ∃ s : EngineConfig,
    (engine {}).run { world := {} } (connectOne 0 "a" ++ connectOne 1 "b") = some s ∧
      s.world.channelCount = 2 ∧ (s.world.channelCount : ℤ) ≤ 3 :=
  ⟨_, rfl, rfl, channelCount_le_maxChannel {} rfl (by decide)
    (connectOne 0 "a" ++ connectOne 1 "b") _ rfl rfl⟩

/-- Four peers: all have counted no channel when the first is inserted. -/
def crowdRun : List (Action Call Oracle) :=
  (["a", "b", "c", "d"].map fun name => .start (.connectRequest { channelId := name } 0)) ++
    (List.range 4).flatMap (serves · 6 {}) ++ (List.range 4).flatMap (serves · 8 {})

theorem channelCount_exceeds : ∃ s : EngineConfig,
    (engine {}).run { world := {} } crowdRun = some s ∧ ({} : Options).maxChannel = 3 ∧
      s.world.channelCount = 4 ∧ s.parties.map Party.result = [some 0, some 0, some 0, some 0] :=
  ⟨_, rfl, rfl, rfl, rfl⟩

end Hixl.Adxl.InnerEngine
