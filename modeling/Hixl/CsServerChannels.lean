import Hixl.CsServerConnections
import Mathlib.Data.List.Count

/-!
# The life of a server channel

A channel that an endpoint has created is in `channels_`, in the hands of one
call, or among those passed to `Endpoint::DestroyChannel`: `owned_balance` says
that no step loses or copies a channel.

A connection that asks for one channel only never replaces an entry of
`channels_`: `request_balance` follows its request from the queue into the map.
-/

namespace Hixl

open ServerCall

open InterleavedCalls

namespace CsServer

/-- Whether `channels_` has this channel for its connection, as a number. -/
def tracks (s : CsServer) (p : ℕ × ℕ) : ℕ :=
  if s.channels.lookup p.1 = some p.2 then 1 else 0

/-- Whether `channels_` has an entry for the connection, as a number. -/
def tracksClient (s : CsServer) (c : ℕ) : ℕ :=
  if c ∈ s.channels then 1 else 0

variable {s : CsServer}

theorem tracks_eq_zero {p : ℕ × ℕ} (hnone : s.channels.lookup p.1 = none) : s.tracks p = 0 := by
  simp [tracks, hnone]

variable {c : ℕ}

theorem tracks_insert (hnew : c ∉ s.channels) (ch : ℕ) (p : ℕ × ℕ) :
    tracks { s with channels := s.channels.insert c ch } p =
      s.tracks p + if (c, ch) = p then 1 else 0 := by
  obtain ⟨c', ch'⟩ := p
  by_cases hc : c' = c
  · subst hc
    have hnone : s.channels.lookup c' = none := AList.lookup_eq_none.mpr hnew
    simp [tracks, hnone]
  · have hne : ¬(c, ch) = (c', ch') := fun heq => hc (Prod.mk.inj heq).1.symm
    simp [tracks, AList.lookup_insert_ne hc, hne]

theorem count_submitMsgs (s : CsServer) (c c' : ℕ) (msgs : List ServerMsg) (msg : ServerMsg) :
    (s.submitMsgs c' msgs).reqQueue.count (c, msg) =
      s.reqQueue.count (c, msg) + if c = c' then msgs.count msg else 0 := by
  simp only [submitMsgs, List.count_append]
  congr 1
  split_ifs with hc
  · subst hc
    exact List.count_map_of_injective _ _ (Prod.mk_right_injective c) msg
  · apply List.count_eq_zero.mpr
    intro hmem
    obtain ⟨_, _, heq⟩ := List.mem_map.mp hmem
    exact hc (Prod.mk.inj heq).1.symm

theorem count_sent_receiveMsgs (s : CsServer) (c c' : ℕ) (msgs : List ServerMsg) (msg : ServerMsg) :
    ((s.receiveMsgs c' msgs).sent c).count msg =
      (s.sent c).count msg + if c = c' then msgs.count msg else 0 := by
  simp only [receiveMsgs, Function.update_apply]
  split_ifs with hc
  · rw [hc, List.count_append]
  · rfl

end CsServer

namespace ServerCall

def held (call : ServerCall) (p : ℕ × ℕ) : ℕ :=
  if call.holds p then 1 else 0

def creating (call : ServerCall) (c : ℕ) : ℕ :=
  if call.creates c then 1 else 0

variable {call : ServerCall}

theorem held_eq_zero {p : ℕ × ℕ} (hholds : call.holds p = false) : call.held p = 0 := by
  simp [held, hholds]

end ServerCall

namespace ServerStep

open CsServer

variable {input : ServerInput} {s s' : CsServer} {call next : ServerCall}

theorem owned_balance (hstep : ServerStep input s call s' next)
    (hnew : ∀ c, call.creates c = true → c ∉ s.channels) (p : ℕ × ℕ) :
    s'.tracks p + next.held p + s'.destroyed.count p + s.created.count p =
      s.tracks p + call.held p + s.destroyed.count p + s'.created.count p := by
  cases hstep with
  | idle hworks hholds hcreates => simp only [ServerCall.held, hholds p]
  | dropped hholds hpending =>
    rw [ServerCall.held_eq_zero (hholds p)]
    rfl
  | received _ hnext | taken _ hnext =>
    obtain rfl | rfl := hnext
    all_goals rfl
  | @created c =>
    have htracks : (s.createdChannel c).tracks p = s.tracks p := rfl
    rw [htracks]
    simp only [ServerCall.held, holds, createdChannel,
      List.count_cons, beq_iff_eq, decide_eq_true_eq, Bool.false_eq_true,
      if_false]
    omega
  | @tracked c ch hconnected =>
    have htracks := tracks_insert (hnew c (by simp [ServerCall.creates])) ch p
    simp only [ServerCall.held, holds, decide_eq_true_eq, Bool.false_eq_true, if_false]
    omega
  | @discarded c ch | @destroyed c ch =>
    have htracks : (s.callDestroy c ch).tracks p = s.tracks p := rfl
    rw [htracks]
    simp only [ServerCall.held, holds, callDestroy, List.count_cons, beq_iff_eq,
      decide_eq_true_eq, Bool.false_eq_true, if_false]
    omega
  | @foundSome c ch ok hsome =>
    have htracks : s.tracks p = tracks { s with channels := s.channels.erase c } p + if (c, ch) = p
        then 1 else 0 := by
      obtain ⟨c', ch'⟩ := p
      by_cases hc : c' = c
      · subst hc
        simp [tracks, hsome]
      · have hne : ¬(c, ch) = (c', ch') := fun heq => hc (Prod.mk.inj heq).1.symm
        simp [tracks, AList.lookup_erase_ne hc, hne]
    simp only [tracks] at htracks
    simp only [tracks, htracks, ServerCall.held, holds,
      decide_eq_true_eq, Bool.false_eq_true, if_false]
    omega
  | accepted | published | disconnected | submitted | closed | foundNone | forgotten => rfl

theorem ite_one_mono {p q : Prop} [Decidable p] [Decidable q] (hpq : p → q) :
    (if p then 1 else 0) ≤ if q then 1 else 0 := by
  split_ifs with hp hq
  · exact le_refl 1
  · exact absurd (hpq hp) hq
  all_goals exact Nat.zero_le _

/-- A request is in the queue, in the hands of a worker, or answered by an
entry of `channels_`. -/
theorem request_balance (hstep : ServerStep input s call s' next) (c : ℕ) :
    s'.reqQueue.count (c, .createChannelReq) + next.creating c +
        s'.tracksClient c + (s.sent c).count .createChannelReq ≤
      s.reqQueue.count (c, .createChannelReq) + call.creating c +
        s.tracksClient c + (s'.sent c).count .createChannelReq := by
  cases hstep with
  | idle hworks hholds hcreates =>
    have hle : next.creating c ≤ call.creating c := ite_one_mono (hcreates c)
    omega
  | dropped hholds hpending =>
    have hle : done.creating c ≤ call.creating c := Nat.zero_le _
    exact Nat.add_le_add_right (Nat.add_le_add_right (Nat.add_le_add_left hle _) _) _
  | @received c' fd next hfd hnext =>
    have hcreating : next.creating c = 0 := by
      obtain rfl | rfl := hnext
      all_goals rfl
    have htracks : (s.receiveMsgs c' input.msgs).tracksClient c =
        s.tracksClient c := rfl
    have hqueue := count_submitMsgs s c c' input.msgs .createChannelReq
    rw [hcreating, htracks, count_sent_receiveMsgs]
    change (s.submitMsgs c' input.msgs).reqQueue.count _ + _ + _ + _ ≤ _
    omega
  | @taken c' msg queue next hentry hnext =>
    have htracks : tracksClient { s with reqQueue := queue } c =
        s.tracksClient c := rfl
    have hcreating : next.creating c ≤
        if (c', msg) = (c, ServerMsg.createChannelReq) then 1 else 0 := by
      obtain rfl | rfl := hnext
      · cases msg with
        | createChannelReq => simp [creating, creates]
        | destroyChannelReq | other => exact Nat.zero_le _
      · exact Nat.zero_le _
    rw [htracks, hentry]
    simp only [List.count_cons, beq_iff_eq]
    omega
  | @created | accepted | published | disconnected | closed | discarded | foundNone | destroyed
  | forgotten => exact le_refl _
  | @tracked c' ch hconnected =>
    have htracks : tracksClient { s with channels := s.channels.insert c' ch } c ≤ s.tracksClient c
        + if c' = c then 1 else 0 := by
      by_cases hc : c' = c
      · simp [tracksClient, hc]
      · have hne : c ≠ c' := fun heq => hc heq.symm
        simp [tracksClient, hc, hne]
    have hcreating : (trackChannel c' ch).creating c =
        if c' = c then 1 else 0 := by
      simp [ServerCall.creating, ServerCall.creates]
    have hnext : (respond c').creating c = 0 := rfl
    dsimp only
    omega
  | @foundSome c' ch ok hsome =>
    have htracks : tracksClient { s with channels := s.channels.erase c' } c ≤ s.tracksClient c :=
      ite_one_mono fun hmem => (AList.mem_erase.mp hmem).2
    exact Nat.add_le_add_right (Nat.add_le_add_left htracks _) _
  | @submitted c' =>
    have hqueue := count_submitMsgs s c c' [.destroyChannelReq]
      .createChannelReq
    have hnone : [ServerMsg.destroyChannelReq].count .createChannelReq = 0 := rfl
    rw [hnone, ite_self, Nat.add_zero] at hqueue
    rw [hqueue]
    exact le_refl _

end ServerStep

/-! ## Whole runs -/

open CsServer

structure ChannelLedger (s : Config CsServer ServerCall) : Prop where
  owned : ∀ p, s.shared.tracks p + s.calls.countP (·.holds p) +
    s.shared.destroyed.count p = s.shared.created.count p
  requests : ∀ c, s.shared.reqQueue.count (c, .createChannelReq) +
    s.calls.countP (·.creates c) + s.shared.tracksClient c ≤
      (s.shared.sent c).count .createChannelReq
  fresh : ∀ p ∈ s.shared.created, p.2 < s.shared.nextChannel
  distinct : (s.shared.created.map Prod.snd).Nodup
  destroyed_gone : ∀ p ∈ s.shared.destroyed, s.shared.Gone p.1
  cleaned_gone : ∀ c ∈ s.shared.cleaned, s.shared.Gone c ∧ c ∉ s.shared.channels

/-- The messages of every peer: one request for a channel at most, and never
the message of the server's own cleanup. -/
def CsServer.AsksOnce (s : CsServer) : Prop := s.Quiet ∧ ∀ c, (s.sent c).count .createChannelReq ≤ 1

namespace ServerStep

variable {input : ServerInput} {s s' : CsServer} {call next : ServerCall}

section

variable (hstep : ServerStep input s call s' next)

include hstep

theorem asksOnce (hasks : s'.AsksOnce) : s.AsksOnce := by
  constructor
  · exact hstep.quiet hasks.1
  · intro c
    exact ((hstep.sent_sublist c).count_le _).trans (hasks.2 c)

theorem created_cases : (s'.created = s.created ∧ s'.nextChannel = s.nextChannel) ∨
      ∃ c, s'.created = (c, s.nextChannel) :: s.created ∧ s'.nextChannel = s.nextChannel + 1 := by
  cases hstep with
  | @created c => exact Or.inr ⟨c, rfl, rfl⟩
  | _ => exact Or.inl ⟨rfl, rfl⟩

theorem destroyed_cases (hcall : call.Works s) :
    s'.destroyed = s.destroyed ∨ ∃ p, s'.destroyed = p :: s.destroyed ∧ s.Gone p.1 := by
  cases hstep with
  | discarded | destroyed => exact Or.inr ⟨_, rfl, hcall⟩
  | _ => exact Or.inl rfl

theorem channels_cases (hcall : call.Works s) :
    (s'.channels = s.channels ∧ s'.cleaned = s.cleaned) ∨ (∃ c ch, s.isConnected c = true ∧
      s'.channels = s.channels.insert c ch ∧ s'.cleaned = s.cleaned) ∨
    (∃ c, s.Gone c ∧ c ∉ s'.channels ∧ (∀ c', c' ∈ s'.channels → c' ∈ s.channels) ∧
      s'.cleaned = c :: s.cleaned) := by
  cases hstep with
  | tracked hconnected => exact Or.inr (Or.inl ⟨_, _, hconnected, rfl, rfl⟩)
  | foundNone hnone =>
    exact Or.inr (Or.inr ⟨_, hcall, AList.lookup_eq_none.mp hnone, fun _ h => h, rfl⟩)
  | foundSome hsome =>
    apply Or.inr
    apply Or.inr
    exact ⟨_, hcall, by simp [AList.mem_erase], fun _ h => (AList.mem_erase.mp h).2, rfl⟩
  | _ => exact Or.inl ⟨rfl, rfl⟩

end

end ServerStep

namespace ChannelLedger

variable {s : Config CsServer ServerCall}

theorem start : ChannelLedger serverStart := by
  constructor <;> simp [serverStart, tracks, tracksClient]

theorem holds_of_starts {call : ServerCall} (hstarts : call.starts = true) (p : ℕ × ℕ) (c : ℕ) :
    call.holds p = false ∧ call.creates c = false := by
  cases call with
  | acceptClient | expireHandshake | handleClientEvent | processPendingMsg | takeMsg =>
    exact ⟨rfl, rfl⟩
  | _ => simp [starts] at hstarts

theorem startCall (hledger : ChannelLedger s) {call : ServerCall} (hstarts : call.starts = true) :
    ChannelLedger { s with calls := s.calls ++ [call] } := by
  refine { hledger with owned := fun p => ?_, requests := fun c => ?_ }
  · have hnone : [call].countP (·.holds p) = 0 := by simp [holds_of_starts hstarts p 0]
    rw [List.countP_append, hnone]
    exact hledger.owned p
  · have hnone : [call].countP (·.creates c) = 0 := by simp [holds_of_starts hstarts (0, 0) c]
    rw [List.countP_append, hnone]
    exact hledger.requests c

theorem untracked (hledger : ChannelLedger s) (hasks : s.shared.AsksOnce) {call : ServerCall}
    (hmem : call ∈ s.calls) {c : ℕ} (hcreates : call.creates c = true) : c ∉ s.shared.channels := by
  intro htracked
  have hcall : 0 < s.calls.countP (·.creates c) := List.countP_pos_iff.mpr ⟨call, hmem, hcreates⟩
  have hentry : s.shared.tracksClient c = 1 := by simp [tracksClient, htracked]
  have hrequests := hledger.requests c
  have honce := hasks.2 c
  omega

variable {i : ℕ} {input : ServerInput} {call next : ServerCall} {shared : CsServer}

theorem cleaned_gone_step (hledger : ChannelLedger s) (hworks : call.Works s.shared)
    (hstep : ServerStep input s.shared call shared next) :
    ∀ c ∈ shared.cleaned, shared.Gone c ∧ c ∉ shared.channels := by
  intro c hmem
  have hprogress := hstep.progress
  obtain ⟨hchannels, hcleaned⟩ | ⟨c', ch, hconnected, hchannels, hcleaned⟩ |
    ⟨c', hgone, hnot, hsubset, hcleaned⟩ := hstep.channels_cases hworks
  · rw [hcleaned] at hmem
    rw [hchannels]
    obtain ⟨hgone, hnot⟩ := hledger.cleaned_gone c hmem
    exact ⟨hprogress.gone hgone, hnot⟩
  · rw [hcleaned] at hmem
    obtain ⟨hgone, hnot⟩ := hledger.cleaned_gone c hmem
    have hne : c ≠ c' := by
      intro heq
      obtain ⟨fd, _, hclient⟩ := isConnected_eq_true_iff.mp hconnected
      exact hgone.2 fd (heq ▸ hclient)
    constructor
    · exact hprogress.gone hgone
    · rw [hchannels, AList.mem_insert]
      exact not_or.mpr ⟨hne, hnot⟩
  · rw [hcleaned] at hmem
    obtain rfl | hmem := List.mem_cons.mp hmem
    · exact ⟨hprogress.gone hgone, hnot⟩
    · obtain ⟨hold, hnot'⟩ := hledger.cleaned_gone c hmem
      exact ⟨hprogress.gone hold, fun h => hnot' (hsubset c h)⟩

theorem step (hledger : ChannelLedger s) (hinv : ServerInvariant s)
    (hcall : s.calls[i]? = some call) (hstep : ServerStep input s.shared call shared next)
    (hasks : shared.AsksOnce) :
    ChannelLedger { shared := shared, calls := s.calls.set i next } := by
  have hmem := List.mem_of_getElem? hcall
  have hworks := hinv.works call hmem
  have hnew : ∀ c, call.creates c = true → c ∉ s.shared.channels :=
    fun c => hledger.untracked (hstep.asksOnce hasks) hmem
  constructor
  · intro p
    have hbalance := hstep.owned_balance hnew p
    have hcount := countP_set_add hcall next (·.holds p)
    have howned := hledger.owned p
    simp only [ServerCall.held] at hbalance
    dsimp only
    omega
  · intro c
    have hbalance := hstep.request_balance c
    have hcount := countP_set_add hcall next (·.creates c)
    have hrequests := hledger.requests c
    simp only [ServerCall.creating] at hbalance
    dsimp only
    omega
  · intro p hp
    have hfresh := hledger.fresh p
    obtain ⟨hcreated, hnumber⟩ | ⟨c, hcreated, hnumber⟩ := hstep.created_cases
    · rw [hcreated] at hp
      rw [hnumber]
      exact hfresh hp
    · rw [hcreated] at hp
      rw [hnumber]
      obtain rfl | hp := List.mem_cons.mp hp
      · exact Nat.lt_succ_self _
      · exact Nat.lt_succ_of_lt (hfresh hp)
  · obtain ⟨hcreated, _⟩ | ⟨c, hcreated, _⟩ := hstep.created_cases
    · rw [hcreated]
      exact hledger.distinct
    · rw [hcreated, List.map_cons]
      apply List.nodup_cons.mpr
      constructor
      · intro hold
        obtain ⟨p, hp, heq⟩ := List.mem_map.mp hold
        exact absurd heq (hledger.fresh p hp).ne
      · exact hledger.distinct
  · intro p hp
    obtain hsame | ⟨p', hdestroyed, hgone⟩ := hstep.destroyed_cases hworks
    · rw [hsame] at hp
      exact hstep.progress.gone (hledger.destroyed_gone p hp)
    · rw [hdestroyed] at hp
      obtain rfl | hp := List.mem_cons.mp hp
      · exact hstep.progress.gone hgone
      · exact hstep.progress.gone (hledger.destroyed_gone p hp)
  · exact hledger.cleaned_gone_step hworks hstep

end ChannelLedger

theorem channelLedger_run {actions : List (Action ServerCall ServerInput)}
    {s : Config CsServer ServerCall} (hrun : serverProgram.run serverStart actions = some s)
    (hasks : s.shared.AsksOnce) : ChannelLedger s := by
  have hboth : ServerInvariant s ∧ ChannelLedger s := by
    apply Program.run_invariant (fun s => s.shared.AsksOnce → ServerInvariant s ∧ ChannelLedger s)
      _ _ actions hrun _ hasks
    · intro s call hstarts hinv hasks
      obtain ⟨hserver, hledger⟩ := hinv hasks
      exact ⟨hserver.startCall hstarts, hledger.startCall hstarts⟩
    · intro s i input call next shared hcall hnext hinv hasks
      have hstep := ServerStep.of_next hnext
      obtain ⟨hserver, hledger⟩ := hinv (hstep.asksOnce hasks)
      exact ⟨hserver.step hcall hstep hasks.1, hledger.step hserver hcall hstep hasks⟩
    · intro _
      exact ⟨ServerInvariant.start, ChannelLedger.start⟩
  exact hboth.2

/-- `Endpoint::DestroyChannel` is called at most once for a channel, after
its connection has left `clients_`; when the cleanup of a connection has run
and no call has one of its channels in hand, all of them are destroyed. -/
structure ChannelLifecycle (s : Config CsServer ServerCall) : Prop where
  once : (s.shared.destroyed.map Prod.snd).Nodup
  created : s.shared.destroyed ⊆ s.shared.created
  disconnected : ∀ p ∈ s.shared.destroyed,
    ∀ fd, s.shared.clients.lookup fd ≠ some p.1
  cleaned : ∀ c ∈ s.shared.cleaned,
    (∀ call ∈ s.calls, ∀ ch, call.holds (c, ch) = false) →
    c ∉ s.shared.channels ∧ ∀ ch, (c, ch) ∈ s.shared.created → (c, ch) ∈ s.shared.destroyed

namespace ChannelLedger

variable {s : Config CsServer ServerCall}

theorem destroyed_subset (hledger : ChannelLedger s) : s.shared.destroyed ⊆ s.shared.created := by
  intro p hp
  have hdestroyed := List.count_pos_iff.mpr hp
  have howned := hledger.owned p
  apply List.count_pos_iff.mp
  omega

end ChannelLedger

theorem csServer_channel_lifecycle (actions : List (Action ServerCall ServerInput))
    (s : Config CsServer ServerCall) (hrun : serverProgram.run serverStart actions = some s)
    (hasks : s.shared.AsksOnce) : ChannelLifecycle s := by
  have hledger := channelLedger_run hrun hasks
  constructor
  · apply List.Nodup.map_on
    · intro p hp q hq heq
      exact List.inj_on_of_nodup_map hledger.distinct
        (hledger.destroyed_subset hp) (hledger.destroyed_subset hq) heq
    · apply List.nodup_iff_count_le_one.mpr
      intro p
      have hcreated : s.shared.created.count p ≤ 1 :=
        List.nodup_iff_count_le_one.mp (List.Nodup.of_map Prod.snd hledger.distinct) p
      have howned := hledger.owned p
      omega
  · exact hledger.destroyed_subset
  · intro p hp
    exact (hledger.destroyed_gone p hp).2
  · intro c hcleaned hhands
    have hnot := (hledger.cleaned_gone c hcleaned).2
    constructor
    · exact hnot
    · intro ch hcreated
      have htracks : s.shared.tracks (c, ch) = 0 := tracks_eq_zero (AList.lookup_eq_none.mpr hnot)
      have hcalls : s.calls.countP (·.holds (c, ch)) = 0 := by
        apply List.countP_eq_zero.mpr
        intro call hmem
        simp [hhands call hmem ch]
      have hcount := List.count_pos_iff.mpr hcreated
      have howned := hledger.owned (c, ch)
      apply List.count_pos_iff.mp
      omega

def lostDuringCreationRun : List (Action ServerCall ServerInput) :=
  [.start (.acceptClient 5), .run 0 {}, .run 0 {}, .start (.handleClientEvent 5), .run 1 {},
   .run 1 { msgs := [.createChannelReq] },
   .start .takeMsg, .run 2 {}, .run 2 {},
   .start (.handleClientEvent 5), .run 3 { hangup := true }, .run 3 {},
   .run 3 {}, .run 3 {}, .start .takeMsg, .run 4 {}, .run 4 {}, .run 4 {},
   .run 4 {}, .run 2 {}, .run 2 {}, .run 2 {}, .run 2 {}]

theorem csServer_channel_lifecycle_lost_client :
    ∃ s, serverProgram.run serverStart lostDuringCreationRun = some s ∧
      s.shared.created = [(0, 0)] ∧ s.shared.destroyed = [(0, 0)] ∧ ChannelLifecycle s := by
  have hasks : ∀ s, serverProgram.run serverStart lostDuringCreationRun = some s →
      s.shared.AsksOnce := by
    intro s hrun
    have hsent : s.shared.sent = Function.update (fun _ => []) 0 [.createChannelReq] := by
      cases hrun
      rfl
    constructor
    · intro c
      rw [hsent, Function.update_apply]
      split_ifs
      · decide
      · exact List.not_mem_nil
    · intro c
      rw [hsent, Function.update_apply]
      split_ifs
      · exact le_refl 1
      · exact Nat.zero_le 1
  exact ⟨_, rfl, rfl, rfl, csServer_channel_lifecycle lostDuringCreationRun _ rfl (hasks _ rfl)⟩

end Hixl
