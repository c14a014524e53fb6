import Hixl.InterleavedCalls
import Hixl.SharedObjectPrograms

/-!
# Calls that run programs on a shared world

Each call runs a program, and any call may make its next request at any time.
The notes of a call record what it has done; no program reads them.  An
invariant of the world and of all notes is proved in two parts: the programs
make a request only where the notes allow it, and every allowed request keeps
the invariant, whoever makes it.
-/

namespace ProgramRuns

open SharedObjectPrograms

/-- A request that is not ready blocks its call.  The oracle of a step stands
for what the world does not determine. -/
structure System (Call World Notes Oracle Request : Type)
    (Answer : Request → Type) (α : Type) where
  program : Call → Prog Request Answer α
  fresh : Notes
  ready : World → Request → Bool
  reply : Oracle → World → (request : Request) → Answer request
  effect : World → (request : Request) → Answer request → World
  note : World → Notes → (request : Request) → Answer request → Notes

structure Party (Notes Request : Type) (Answer : Request → Type) (α : Type) where
  notes : Notes
  running : Prog Request Answer α

structure Config (World Notes Request : Type) (Answer : Request → Type) (α : Type) where
  world : World
  parties : List (Party Notes Request Answer α) := []

inductive Action (Call Oracle : Type) where
  | start (call : Call)
  | serve (i : ℕ) (oracle : Oracle)

variable {Call World Notes Oracle Request : Type} {Answer : Request → Type} {α : Type}

def Party.pending (party : Party Notes Request Answer α) : Option Request :=
  match party.running with
  | .ret _ => none
  | .call request _ => some request

def Party.result (party : Party Notes Request Answer α) : Option α :=
  match party.running with
  | .ret value => some value
  | .call _ _ => none

def Config.notes (s : Config World Notes Request Answer α) : List Notes := s.parties.map Party.notes

namespace System

variable (S : System Call World Notes Oracle Request Answer α)

def step (s : Config World Notes Request Answer α) :
    Action Call Oracle → Option (Config World Notes Request Answer α)
  | .start call => some { s with parties := s.parties ++ [⟨S.fresh, S.program call⟩] }
  | .serve i oracle =>
    match s.parties[i]? with
    | some ⟨notes, .call request next⟩ =>
      let answer := S.reply oracle s.world request
      if S.ready s.world request then
        some ⟨S.effect s.world request answer,
          s.parties.set i ⟨S.note s.world notes request answer, next answer⟩⟩
      else none
    | _ => none

def run (s : Config World Notes Request Answer α) :
    List (Action Call Oracle) → Option (Config World Notes Request Answer α)
  | [] => some s
  | action :: actions => (S.step s action).bind fun s => run s actions

/-- A condition on the requests of a run: on the world, the notes of all
parties, the party and what it requests. -/
abbrev Condition (World Notes Oracle Request : Type) :=
  World → List Notes → ℕ → Request → Oracle → Bool

def meets (ok : Condition World Notes Oracle Request)
    (s : Config World Notes Request Answer α) : Action Call Oracle → Bool
  | .start _ => true
  | .serve i oracle =>
    (s.parties[i]?.bind Party.pending).all fun request => ok s.world s.notes i request oracle

def along (ok : Condition World Notes Oracle Request)
    (s : Config World Notes Request Answer α) : List (Action Call Oracle) → Bool
  | [] => true
  | action :: actions => meets ok s action && (S.step s action).all fun s => along ok s actions

theorem along_true (s : Config World Notes Request Answer α) (actions : List (Action Call Oracle)) :
    S.along (fun _ _ _ _ _ => true) s actions = true := by
  induction actions generalizing s with
  | nil => rfl
  | cons action actions ih =>
    have hmeets : meets (fun _ _ _ _ _ => true) s action = true := by cases action <;> simp [meets]
    rw [along, hmeets, Bool.true_and]
    cases S.step s action with
    | none => rfl
    | some s' => exact ih s'

def contract (allowed : Request → Notes → Prop) : Contract Request Answer Notes where
  allowed := allowed
  effect request notes answer notes' := ∃ world, notes' = S.note world notes request answer

abbrev Follows {β : Type} (allowed : Request → Notes → Prop) (post : β → Notes → Prop)
    (program : Prog Request Answer β) (notes : Notes) : Prop :=
  Obeys (S.contract allowed) post program notes

structure Sound (allowed : Request → Notes → Prop) (ok : Condition World Notes Oracle Request)
    (Inv : World → List Notes → Prop) : Prop where
  follows : ∀ call, S.Follows allowed (fun _ _ => True) (S.program call) S.fresh
  start : ∀ {world all}, Inv world all → Inv world (all ++ [S.fresh])
  serve : ∀ {world all i notes request oracle}, Inv world all → all[i]? = some notes →
    allowed request notes → S.ready world request = true →
    ok world all i request oracle = true →
    Inv (S.effect world request (S.reply oracle world request))
      (all.set i (S.note world notes request (S.reply oracle world request)))

variable {S} {allowed : Request → Notes → Prop} {ok : Condition World Notes Oracle Request}
  {Inv : World → List Notes → Prop}

/-- The invariant holds and every party keeps to the rules from where it is. -/
def Kept (S : System Call World Notes Oracle Request Answer α)
    (allowed : Request → Notes → Prop) (Inv : World → List Notes → Prop)
    (s : Config World Notes Request Answer α) : Prop :=
  Inv s.world s.notes ∧
    ∀ party ∈ s.parties, S.Follows allowed (fun _ _ => True) party.running party.notes

variable {s : Config World Notes Request Answer α} {request : Request}

theorem Kept.allowed_pending (hkept : S.Kept allowed Inv s) {i : ℕ}
    {party : Party Notes Request Answer α} (hparty : s.parties[i]? = some party)
    (hpending : party.pending = some request) : allowed request party.notes := by
  have hfollows := hkept.2 party (List.mem_of_getElem? hparty)
  obtain ⟨notes, _ | ⟨first, next⟩⟩ := party
  · cases hpending
  · cases hpending
    exact hfollows.1

theorem Sound.step (hsound : S.Sound allowed ok Inv) {s' : Config World Notes Request Answer α}
    {action : Action Call Oracle} (hstep : S.step s action = some s')
    (hok : meets ok s action = true) (hkept : S.Kept allowed Inv s) : S.Kept allowed Inv s' := by
  obtain ⟨hinv, hall⟩ := hkept
  cases action with
  | start call =>
    cases hstep
    constructor
    · simpa only [Config.notes, List.map_append, List.map_cons, List.map_nil] using
        hsound.start hinv
    · exact InterleavedCalls.forall_mem_append (hsound.follows call) hall
  | serve i oracle =>
    simp only [System.step] at hstep
    split at hstep
    next notes request next hparty =>
      split_ifs at hstep with hready
      cases hstep
      have hfollows := hall _ (List.mem_of_getElem? hparty)
      have hnotes : s.notes[i]? = some notes := by simp [Config.notes, hparty]
      simp only [meets, hparty, Option.bind_some, Party.pending, Option.all_some] at hok
      constructor
      · simpa only [Config.notes, List.map_set] using hsound.serve hinv hnotes hfollows.1 hready hok
      · exact InterleavedCalls.forall_mem_set_of_forall (hfollows.2 _ _ ⟨s.world, rfl⟩) hall
    next => cases hstep

variable {world : World}

theorem Sound.run (hsound : S.Sound allowed ok Inv) {actions : List (Action Call Oracle)}
    (hrun : S.run { world } actions = some s) (hok : S.along ok { world } actions = true)
    (hinv : Inv world []) : S.Kept allowed Inv s := by
  suffices hall : ∀ s₀, S.run s₀ actions = some s → S.along ok s₀ actions = true →
      S.Kept allowed Inv s₀ → S.Kept allowed Inv s from hall _ hrun hok ⟨hinv, by simp⟩
  clear hrun hok hinv
  induction actions with
  | nil =>
    intro s₀ hrun _ hkept
    cases hrun
    exact hkept
  | cons action actions ih =>
    intro s₀ hrun hok hkept
    obtain ⟨mid, hstep, hrest⟩ := Option.bind_eq_some_iff.mp hrun
    rw [along, hstep, Option.all_some, Bool.and_eq_true] at hok
    exact ih mid hrest hok.2 (hsound.step hstep hok.1 hkept)

variable {β : Type}

theorem follows_call {post : β → Notes → Prop} {next : Answer request → Prog Request Answer β}
    {notes : Notes} (hallowed : allowed request notes) (hnext : ∀ world answer,
      S.Follows allowed post (next answer) (S.note world notes request answer)) :
    S.Follows allowed post (.call request next) notes := by
  refine ⟨hallowed, ?_⟩
  rintro answer _ ⟨world, rfl⟩
  exact hnext world answer

variable (S) in
/-- The requests of a program are answered one after the other. -/
def alone {β : Type} : List Oracle → World → Prog Request Answer β → Option (β × World)
  | _, world, .ret value => some (value, world)
  | [], _, .call _ _ => none
  | oracle :: oracles, world, .call request next =>
    if S.ready world request then
      alone oracles (S.effect world request (S.reply oracle world request))
        (next (S.reply oracle world request))
    else none

variable (S) in
/-- The requests of a program that waits for nothing are answered one after the
other, each by its own oracle. -/
def answered {β : Type} (answers : Request → Oracle) : World → Prog Request Answer β → β × World
  | world, .ret value => (value, world)
  | world, .call request next =>
    answered answers (S.effect world request (S.reply (answers request) world request))
      (next (S.reply (answers request) world request))

variable (S) in
/-- What the requests of a program do to the world, with oracles of some kind. -/
def worldContract (kind : Request → Oracle → Prop) : Contract Request Answer World where
  allowed _ _ := True
  effect request world answer world' :=
    ∃ oracle, kind request oracle ∧ answer = S.reply oracle world request ∧
      world' = S.effect world request answer

theorem answered_post {answers : Request → Oracle} {post : β → World → Prop}
    {program : Prog Request Answer β}
    (hobeys : Obeys (S.worldContract fun request oracle => oracle = answers request) post program
      world) :
    post (S.answered answers world program).1 (S.answered answers world program).2 := by
  induction program generalizing world with
  | ret value => exact hobeys
  | call request next ih => exact ih _ (hobeys.2 _ _ ⟨answers request, rfl, rfl, rfl⟩)

theorem alone_post {kind : Request → Oracle → Prop} {post : β → World → Prop}
    {oracles : List Oracle} {world' : World} {program : Prog Request Answer β} {value : β}
    (hobeys : Obeys (S.worldContract kind) post program world)
    (hkind : ∀ request, ∀ oracle ∈ oracles, kind request oracle)
    (halone : S.alone oracles world program = some (value, world')) : post value world' := by
  induction program generalizing oracles world with
  | ret result =>
    obtain ⟨rfl, rfl⟩ : result = value ∧ world = world' := by
      cases oracles <;> simpa [alone] using halone
    exact hobeys
  | call request next ih =>
    cases oracles with
    | nil => cases halone
    | cons oracle oracles =>
      rw [alone] at halone
      split_ifs at halone
      refine ih _ (hobeys.2 _ _ ⟨oracle, hkind _ _ List.mem_cons_self, rfl, rfl⟩) ?_ halone
      exact fun request _ hmem => hkind request _ (List.mem_cons_of_mem _ hmem)

end System

end ProgramRuns
