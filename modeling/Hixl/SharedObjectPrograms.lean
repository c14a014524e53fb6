import Mathlib.Tactic

/-!
# Programs over a shared object

A client of a shared object runs a program that is a tree of atomic calls to it.
A contract says which calls the client may make and how an answered call changes
what the client owns.  A program obeys the contract when it does so along every
path, whatever the object answers; if the object keeps its side, then ownership
is respected in every interleaving.
-/

namespace SharedObjectPrograms

inductive Prog (Call : Type) (Answer : Call → Type) (α : Type) : Type where
  | ret (value : α)
  | call (request : Call) (next : Answer request → Prog Call Answer α)

structure Contract (Call : Type) (Answer : Call → Type) (γ : Type) where
  allowed : Call → γ → Prop
  effect : (request : Call) → γ → Answer request → γ → Prop

variable {Call : Type} {Answer : Call → Type} {α β γ σ : Type}

namespace Prog

def bind (program : Prog Call Answer α) (next : α → Prog Call Answer β) : Prog Call Answer β :=
  match program with
  | .ret value => next value
  | .call request rest => .call request fun answer => (rest answer).bind next

instance : Monad (Prog Call Answer) where
  pure := .ret
  bind := bind

theorem ret_bind (value : α) (next : α → Prog Call Answer β) :
    (Prog.ret value >>= next) = next value :=
  rfl

theorem call_bind (request : Call) (rest : Answer request → Prog Call Answer α)
    (next : α → Prog Call Answer β) :
    (Prog.call request rest >>= next) = .call request fun answer => rest answer >>= next :=
  rfl

def advance (serve : (request : Call) → σ → Answer request × σ)
    (object : σ) : Prog Call Answer α → Prog Call Answer α × σ
  | .ret value => (.ret value, object)
  | .call request next => (next (serve request object).1, (serve request object).2)

end Prog

def Obeys (contract : Contract Call Answer γ) (post : α → γ → Prop) : Prog Call Answer α → γ → Prop
  | .ret value, ghost => post value ghost
  | .call request next, ghost =>
    contract.allowed request ghost ∧ ∀ answer ghost', contract.effect request ghost answer ghost' →
        Obeys contract post (next answer) ghost'

variable {contract : Contract Call Answer γ} {post : α → γ → Prop} {ghost : γ}

theorem obeys_call {request : Call} {next : Answer request → Prog Call Answer α} :
    Obeys contract post (.call request next) ghost ↔ contract.allowed request ghost ∧
        ∀ answer ghost', contract.effect request ghost answer ghost' →
          Obeys contract post (next answer) ghost' :=
  Iff.rfl

variable {program : Prog Call Answer α}

theorem Obeys.mono {post' : α → γ → Prop} (hobeys : Obeys contract post program ghost)
    (hpost : ∀ value ghost', post value ghost' → post' value ghost') :
    Obeys contract post' program ghost := by
  induction program generalizing ghost with
  | ret value => exact hpost value ghost hobeys
  | call request next ih =>
    constructor
    · exact hobeys.1
    · intro answer ghost' heffect
      exact ih answer (hobeys.2 answer ghost' heffect)

variable {mid : α → γ → Prop}

theorem Obeys.bind {post : β → γ → Prop} {next : α → Prog Call Answer β}
    (hprogram : Obeys contract mid program ghost)
    (hnext : ∀ value ghost', mid value ghost' → Obeys contract post (next value) ghost') :
    Obeys contract post (program >>= next) ghost := by
  induction program generalizing ghost with
  | ret value => exact hnext value ghost hprogram
  | call request rest ih =>
    constructor
    · exact hprogram.1
    · intro answer ghost' heffect
      exact ih answer (hprogram.2 answer ghost' heffect)

theorem Obeys.map {post : β → γ → Prop} {f : α → β} (hprogram : Obeys contract mid program ghost)
    (hpost : ∀ value ghost', mid value ghost' → post (f value) ghost') :
    Obeys contract post (f <$> program) ghost :=
  hprogram.bind hpost

def Preserves (contract : Contract Call Answer γ) (P : γ → Prop) (program : Prog Call Answer α) :
    Prop :=
  ∀ ghost, P ghost → Obeys contract (fun _ => P) program ghost

namespace Preserves

variable {P : γ → Prop}

theorem ret (value : α) : Preserves contract P (.ret value) := fun _ hghost => hghost

theorem bind {program : Prog Call Answer α} {next : α → Prog Call Answer β}
    (hprogram : Preserves contract P program) (hnext : ∀ value, Preserves contract P (next value)) :
    Preserves contract P (program >>= next) :=
  fun ghost hghost => (hprogram ghost hghost).bind fun value => hnext value

theorem ite {c : Prop} [Decidable c] {first second : Prog Call Answer α}
    (hfirst : Preserves contract P first) (hsecond : Preserves contract P second) :
    Preserves contract P (if c then first else second) := by
  split_ifs
  · exact hfirst
  · exact hsecond

end Preserves

/-- Serving an allowed call has the effect of the contract and keeps what is
known about the object. -/
def Keeps (contract : Contract Call Answer γ) (serve : (request : Call) → σ → Answer request × σ)
    (known : σ → γ → Prop) : Prop :=
  ∀ request object ghost, known object ghost → contract.allowed request ghost →
      ∃ ghost', contract.effect request ghost (serve request object).1 ghost' ∧
        known (serve request object).2 ghost'

theorem Obeys.advance {serve : (request : Call) → σ → Answer request × σ} {known : σ → γ → Prop}
    {object : σ} (hobeys : Obeys contract post program ghost) (hkeeps : Keeps contract serve known)
    (hknown : known object ghost) :
    ∃ ghost', Obeys contract post (program.advance serve object).1 ghost' ∧
      known (program.advance serve object).2 ghost' := by
  cases program with
  | ret value => exact ⟨ghost, hobeys, hknown⟩
  | call request next =>
    rcases hkeeps request object ghost hknown hobeys.1 with
      ⟨ghost', heffect, hknown'⟩
    exact ⟨ghost', hobeys.2 _ ghost' heffect, hknown'⟩

end SharedObjectPrograms
