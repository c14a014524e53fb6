import Mathlib.Data.List.Count
import Mathlib.Tactic

/-!
# Logs of leased resources

A client leases one resource at a time.  While it holds a lease it issues work
on the resource and may observe that the work is complete; it ends the lease by
a release, which needs all work to be observed, or by an abort.  `Leases` is the
grammar of correct logs, newest event first, together with the lease that is
held at the end.
-/

namespace LeaseLogs

inductive Event (ρ : Type*) where
  | acquired (lease : ℕ) (resource : ρ)
  | issued (lease work : ℕ)
  | observed (lease work : ℕ)
  | released (lease : ℕ) (resource : ρ)
  | aborted (lease : ℕ) (resource : ρ)

variable {ρ : Type*}

namespace Event

@[simp] def endsLease (lease : ℕ) : Event ρ → Bool
  | .released l _ | .aborted l _ => l = lease
  | _ => false

@[simp] def beginsLease (lease : ℕ) : Event ρ → Bool
  | .acquired l _ => l = lease
  | _ => false

end Event

inductive Leases : List (Event ρ) → Option (ℕ × ρ) → Prop where
  | nil : Leases [] none
  | acquired {log : List (Event ρ)} {lease : ℕ} {resource : ρ}
      (hlog : Leases log none)
      (hfresh : ∀ other, Event.acquired lease other ∉ log) :
      Leases (.acquired lease resource :: log) (some (lease, resource))
  | issued {log : List (Event ρ)} {lease : ℕ} {resource : ρ} {work : ℕ}
      (hlog : Leases log (some (lease, resource))) :
      Leases (.issued lease work :: log) (some (lease, resource))
  | observed {log : List (Event ρ)} {lease : ℕ} {resource : ρ} {work : ℕ}
      (hlog : Leases log (some (lease, resource))) :
      Leases (.observed lease work :: log) (some (lease, resource))
  | released {log : List (Event ρ)} {lease : ℕ} {resource : ρ}
      (hlog : Leases log (some (lease, resource)))
      (hwork : ∀ work, Event.issued lease work ∈ log → Event.observed lease work ∈ log) :
      Leases (.released lease resource :: log) none
  | aborted {log : List (Event ρ)} {lease : ℕ} {resource : ρ}
      (hlog : Leases log (some (lease, resource))) :
      Leases (.aborted lease resource :: log) none

namespace Leases

variable {log : List (Event ρ)} {held : Option (ℕ × ρ)} {lease : ℕ} {resource : ρ}

theorem acquired_mem (hlog : Leases log held) (hheld : held = some (lease, resource)) :
    Event.acquired lease resource ∈ log := by
  induction hlog with
  | nil | released | aborted => simp at hheld
  | acquired hlog hfresh ih =>
    cases hheld
    exact List.mem_cons_self
  | issued _ ih | observed _ ih => exact List.mem_cons_of_mem _ (ih hheld)

variable {newer : List (Event ρ)}

theorem older (hlog : Leases (newer ++ log) held) : ∃ held', Leases log held' := by
  induction newer generalizing held with
  | nil => exact ⟨held, hlog⟩
  | cons event newer ih =>
    cases hlog with
    | acquired hlog | issued hlog | observed hlog | released hlog | aborted hlog => exact ih hlog

theorem acquired_of_issued {work : ℕ} (hlog : Leases log held)
    (hissued : Event.issued lease work ∈ log) :
    ∃ resource, Event.acquired lease resource ∈ log := by
  obtain ⟨newer, older, rfl⟩ := List.append_of_mem hissued
  obtain ⟨held', htail⟩ := hlog.older
  cases htail with
  | issued hlog =>
    exact ⟨_, List.mem_append_right _ (List.mem_cons_of_mem _ (hlog.acquired_mem rfl))⟩

theorem countP_endsLease (hlog : Leases log held) (lease : ℕ) : log.countP (·.endsLease lease) +
        (if held.map Prod.fst = some lease then 1 else 0) = log.countP (·.beginsLease lease) := by
  induction hlog with
  | nil => simp
  | acquired _ _ ih | released _ _ ih | aborted _ ih =>
    simp [List.countP_cons] at ih ⊢
    omega
  | issued _ ih | observed _ ih => simpa [List.countP_cons] using ih

theorem countP_beginsLease_le (hlog : Leases log held) (lease : ℕ) :
    log.countP (·.beginsLease lease) ≤ 1 := by
  induction hlog with
  | nil => simp
  | @acquired log l resource hlog hfresh ih =>
    rw [List.countP_cons]
    by_cases hl : l = lease
    · have hnone : log.countP (·.beginsLease lease) = 0 := by
        apply List.countP_eq_zero.mpr
        intro event hmem hbegins
        cases event with
        | acquired l' other =>
          have hl' : l' = l := by
            rw [hl]
            simpa using hbegins
          rw [hl'] at hmem
          exact hfresh other hmem
        | _ => simp at hbegins
      rw [hnone]
      split_ifs
      · exact le_refl 1
      · exact Nat.zero_le 1
    · simpa [hl] using ih
  | issued _ ih | observed _ ih | released _ _ ih | aborted _ ih =>
    simpa [List.countP_cons] using ih

variable {event : Event ρ}

theorem not_held_of_ended (hlog : Leases log held) (hmem : event ∈ log)
    (hends : event.endsLease lease = true) (resource : ρ) : held ≠ some (lease, resource) := by
  intro hheld
  have hended : 0 < log.countP (·.endsLease lease) := List.countP_pos_iff.mpr ⟨event, hmem, hends⟩
  have hcount := hlog.countP_endsLease lease
  have honce := hlog.countP_beginsLease_le lease
  rw [hheld] at hcount
  simp only [Option.map_some, if_true] at hcount
  omega

/-- A release hands on the acquired resource, after all work on it has been
observed. -/
theorem of_released {older : List (Event ρ)}
    (hlog : Leases (newer ++ .released lease resource :: older) held) :
    Event.acquired lease resource ∈ older ∧ ∀ work, Event.issued lease work ∈ older →
        Event.observed lease work ∈ older := by
  obtain ⟨held', htail⟩ := hlog.older
  cases htail with
  | released hlog hwork => exact ⟨hlog.acquired_mem rfl, hwork⟩

theorem of_aborted {older : List (Event ρ)}
    (hlog : Leases (newer ++ .aborted lease resource :: older) held) :
    Event.acquired lease resource ∈ older := by
  obtain ⟨held', htail⟩ := hlog.older
  cases htail with
  | aborted hlog => exact hlog.acquired_mem rfl

theorem not_issued_after {older : List (Event ρ)} (hlog : Leases (newer ++ event :: older) held)
    (hends : event.endsLease lease = true) (work : ℕ) : Event.issued lease work ∉ newer := by
  intro hmem
  obtain ⟨newest, between, rfl⟩ := List.append_of_mem hmem
  rw [List.append_assoc, List.cons_append] at hlog
  obtain ⟨held', htail⟩ := hlog.older
  cases htail with
  | issued hlog => exact hlog.not_held_of_ended (by simp) hends _ rfl

end Leases

end LeaseLogs
