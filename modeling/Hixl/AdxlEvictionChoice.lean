import Hixl.AdxlEngineModel

/-!
# Which channels an eviction takes

`SelectEvictionCandidates` first takes channels of the larger type until both
types have the same number left, and then takes turns.  Whatever order the map
of the manager has, it takes an initial segment of the sorted clients and one
of the servers.
-/

namespace Hixl.Adxl.InnerEngine

open SharedObjectPrograms ProgramRuns.System

section Loops

variable {n : ℕ} {clients servers : List ℕ}

theorem pickExtra_client (hn : n ≤ clients.length) (servers : List ℕ) :
    pickExtra true n clients servers = (clients.take n, clients.drop n, servers) := by
  induction n generalizing clients with
  | zero => rfl
  | succ n ih =>
    cases clients with
    | nil => simp at hn
    | cons obj clients =>
      rw [pickExtra, ih (by simpa using hn)]
      rfl

theorem pickExtra_server (hn : n ≤ servers.length) (clients : List ℕ) :
    pickExtra false n clients servers = (servers.take n, clients, servers.drop n) := by
  induction n generalizing servers with
  | zero => rfl
  | succ n ih =>
    cases servers with
    | nil => simp at hn
    | cons obj servers =>
      rw [pickExtra, ih (by simpa using hn)]
      · rfl
      · simp

/-- With as many clients as servers left, or one server more when it is the
turn of the servers, no turn is lost before both lists are empty. -/
theorem pickInTurn_perm {turn : Bool}
    (hturn : servers.length = clients.length + if turn then 0 else 1) (n : ℕ) :
    ∃ a b, (pickInTurn n turn clients servers).Perm (clients.take a ++ servers.take b) ∧
      a ≤ clients.length ∧ b ≤ servers.length ∧ a + b = min n (clients.length + servers.length) ∧
      clients.length + b ≤ servers.length + a ∧ servers.length + a ≤ clients.length + b + 1 := by
  induction n generalizing turn clients servers with
  | zero =>
    refine ⟨0, 0, .refl _, ?_⟩
    split_ifs at hturn <;> omega
  | succ n ih =>
    cases turn with
    | true =>
      cases clients with
      | nil =>
        obtain rfl : servers = [] := by simpa using hturn
        have hnil : ∀ n turn, pickInTurn n turn [] [] = [] := by
          intro n
          induction n with
          | zero => exact fun _ => rfl
          | succ n ih => rintro (_ | _) <;> exact ih _
        exact ⟨0, 0, .of_eq (hnil _ _), by simp⟩
      | cons obj clients =>
        obtain ⟨a, b, hperm, hrest⟩ := @ih clients servers false (by simpa using hturn)
        refine ⟨a + 1, b, hperm.cons obj, ?_⟩
        simp only [List.length_cons]
        omega
    | false =>
      cases servers with
      | nil => simp at hturn
      | cons obj servers =>
        obtain ⟨a, b, hperm, hrest⟩ := @ih clients servers true (by simpa using hturn)
        refine ⟨a, b + 1, ?_, ?_⟩
        · cases clients <;> exact (hperm.cons obj).trans List.perm_middle.symm
        · simp only [List.length_cons]
          omega

theorem candidates_eq (need : ℕ) (clients servers : List ℕ) :
    ∃ m k, m = min (clients.length - servers.length) need ∧
      k = min (servers.length - clients.length) need ∧
      candidates need clients servers = clients.take m ++ servers.take k ++
        pickInTurn (need - (m + k)) true (clients.drop m) (servers.drop k) := by
  refine ⟨_, _, rfl, rfl, ?_⟩
  rcases lt_or_ge servers.length clients.length with hlt | hge
  · simp [candidates, hlt, hlt.le, pickExtra_client]
  · simp [candidates, hge, hge.not_gt, pickExtra_server]

theorem candidates_perm (need : ℕ) (clients servers : List ℕ) :
    ∃ a b, (candidates need clients servers).Perm (clients.take a ++ servers.take b) ∧
      a ≤ clients.length ∧ b ≤ servers.length ∧
      a + b = min need (clients.length + servers.length) ∧
      (need ≤ servers.length - clients.length → a = 0) ∧
      (need ≤ clients.length - servers.length → b = 0) ∧
      (clients.length < servers.length + need → servers.length < clients.length + need →
        clients.length + b ≤ servers.length + a + 1 ∧
        servers.length + a ≤ clients.length + b + 1) := by
  obtain ⟨m, k, hm, hk, heq⟩ := candidates_eq need clients servers
  rw [heq]
  by_cases hfew : need ≤ m + k
  · rw [Nat.sub_eq_zero_of_le hfew]
    exact ⟨m, k, .of_eq (List.append_nil _), by omega⟩
  · have hturn : (servers.drop k).length = (clients.drop m).length + 0 := by
      simp only [List.length_drop]
      omega
    obtain ⟨a, b, hperm, hrest⟩ := @pickInTurn_perm _ _ true hturn (need - (m + k))
    simp only [List.length_drop] at hrest
    refine ⟨m + a, k + b, ?_, by omega⟩
    rw [List.take_add, List.take_add, List.perm_iff_count]
    intro obj
    have hcount := hperm.count_eq obj
    simp only [List.count_append] at hcount ⊢
    omega

end Loops

def World.mark (w : World) (objs : List ℕ) : World :=
  { w with disconnecting := fun obj => decide (obj ∈ objs) || w.disconnecting obj }

variable (options : Options) (answers : Request → Oracle)

theorem answered_mark (w : World) (objs picked : List ℕ) : (engine options).answered answers w (do
      forEach (fun obj => send (.setDisconnecting obj true)) objs
      return picked) = (picked, w.mark objs) := by
  induction objs generalizing w with
  | nil =>
    simp only [World.mark, List.not_mem_nil, decide_false, Bool.false_or]
    rfl
  | cons first objs ih =>
    refine (ih _).trans ?_
    simp only [World.mark, engine, World.effect]
    congr 2
    funext obj
    by_cases hfirst : obj = first <;> simp [hfirst]

theorem answered_selectEvictionCandidates (w : World) (need : ℕ) :
    ∃ clients servers, clients.Perm (w.ofType .client) ∧ servers.Perm (w.ofType .server) ∧
      let picked := candidates need (w.reply {} (.sortByTransferred clients)) servers
      (engine options).answered answers w (selectEvictionCandidates need) =
        (picked, w.mark picked) := by
  have hlisted : ∀ oracle type, List.Perm (w.reply oracle (.allChannels type)) (w.ofType type) := by
    intro oracle type
    simp only [World.reply]
    split_ifs with hperm
    · exact List.isPerm_iff.mp hperm
    · exact .refl _
  refine ⟨_, _, hlisted (answers (.allChannels .client)) _,
    hlisted (answers (.allChannels .server)) _, ?_⟩
  simp only [selectEvictionCandidates, send, Prog.call_bind, Prog.ret_bind, answered]
  exact answered_mark options answers w _ _

/-- What an eviction picks and the world that it leaves: each type splits into
the chosen channels and those that are left. -/
structure BalancedChoice (need : ℕ) (w : World) (picked : List ℕ) (w' : World)
    (chosen left : ChannelType → List ℕ) : Prop where
  split : ∀ type, (chosen type ++ left type).Perm (w.ofType type)
  picked_perm : picked.Perm (chosen .client ++ chosen .server)
  distinct : picked.Nodup
  count : picked.length = min need ((w.ofType .client).length + (w.ofType .server).length)
  more_clients : need ≤ (w.ofType .client).length - (w.ofType .server).length → chosen .server = []
  more_servers : need ≤ (w.ofType .server).length - (w.ofType .client).length → chosen .client = []
  balanced : (w.ofType .client).length < (w.ofType .server).length + need →
    (w.ofType .server).length < (w.ofType .client).length + need →
    (left .client).length ≤ (left .server).length + 1 ∧
      (left .server).length ≤ (left .client).length + 1
  idle_first : ∀ obj ∈ chosen .client, w.hasTransferred obj = true →
    ∀ other ∈ left .client, w.hasTransferred other = true
  marked : w' = w.mark picked

theorem nodup_ofType {w : World} (hnodup : w.channels.Nodup) :
    (w.ofType .client ++ w.ofType .server).Nodup := by
  apply (hnodup.filter _).append (hnodup.filter _)
  intro obj hclient hserver
  simp only [List.mem_filter, decide_eq_true_eq] at hclient hserver
  rw [hclient.2] at hserver
  cases hserver.2

theorem mem_second_of_drop {first second : List ℕ} {n x y : ℕ} (hx : x ∈ (first ++ second).take n)
    (hfirst : x ∉ first) (hy : y ∈ (first ++ second).drop n) : y ∈ second := by
  rw [List.take_append, List.mem_append] at hx
  rw [List.drop_append, List.mem_append] at hy
  rcases hx with hx | hx
  · exact absurd (List.mem_of_mem_take hx) hfirst
  · rcases hy with hy | hy
    · have hlt := List.length_pos_of_mem hy
      rw [List.length_drop] at hlt
      rw [Nat.sub_eq_zero_of_le (by omega)] at hx
      cases hx
    · exact List.mem_of_mem_drop hy

/-- Whatever the order of the channels, an eviction that runs alone leaves as
many clients as servers, up to one, and takes idle clients first. -/
theorem selectEvictionCandidates_balanced (need : ℕ) (w : World) (hnodup : w.channels.Nodup) :
    let result := (engine options).answered answers w (selectEvictionCandidates need)
    ∃ chosen left, BalancedChoice need w result.1 result.2 chosen left := by
  obtain ⟨clients, servers, hclients, hservers, hrun⟩ :=
    answered_selectEvictionCandidates options answers w need
  have hsorted : (w.reply {} (.sortByTransferred clients)).Perm (w.ofType .client) := by
    refine (List.perm_append_comm.trans ?_).trans hclients
    exact List.filter_append_perm w.hasTransferred clients
  rw [hrun]
  dsimp only
  obtain ⟨a, b, hperm, hshares⟩ := candidates_perm need
    (w.reply {} (.sortByTransferred clients)) servers
  have hlength := hperm.length_eq
  rw [List.length_append, List.length_take, List.length_take] at hlength
  rw [hsorted.length_eq, hservers.length_eq] at hshares hlength
  let order (type : ChannelType) : List ℕ :=
    if type = .client then w.reply {} (.sortByTransferred clients) else servers
  let share (type : ChannelType) : ℕ := if type = .client then a else b
  refine ⟨fun type => (order type).take (share type), fun type => (order type).drop (share type),
    ?_, hperm, ?_, by omega, ?_, ?_, ?_, ?_, rfl⟩
  · rintro (_ | _)
    · exact (List.Perm.of_eq (List.take_append_drop _ _)).trans hsorted
    · exact (List.Perm.of_eq (List.take_append_drop _ _)).trans hservers
  · rw [hperm.nodup_iff]
    exact ((hsorted.append hservers).nodup_iff.mpr (nodup_ofType hnodup)).sublist
      ((List.take_sublist a _).append (List.take_sublist b _))
  · intro hfew
    obtain rfl : b = 0 := by omega
    rfl
  · intro hfew
    obtain rfl : a = 0 := by omega
    rfl
  · intro hclients hservers'
    simp only [order, share, reduceCtorEq, if_true, if_false, List.length_drop,
      hsorted.length_eq, hservers.length_eq]
    omega
  · intro obj hobj htransferred other hother
    have hsecond := mem_second_of_drop hobj (by simp [htransferred]) hother
    exact (List.mem_filter.mp hsecond).2

def threeClients : World where
  keys := [(.client, "a"), (.client, "b"), (.server, "c"), (.client, "d")]
  channels := [0, 1, 2, 3]
  hasTransferred := fun obj => obj = 0

theorem selectEvictionCandidates_balanced_three :
    let result := (engine {}).answered (fun _ => {}) threeClients (selectEvictionCandidates 2)
    result.1 = [1, 3] ∧ ∃ chosen left, BalancedChoice 2 threeClients [1, 3] result.2 chosen left :=
  ⟨by decide, selectEvictionCandidates_balanced {} (fun _ => {}) 2 threeClients (by decide)⟩

end Hixl.Adxl.InnerEngine
