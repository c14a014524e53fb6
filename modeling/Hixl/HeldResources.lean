import Mathlib.Data.List.AList
import Mathlib.Data.Multiset.Count
import Mathlib.Tactic

/-!
# Logs of held resources

`Holds rules log held` says that the log, newest event first, leaves exactly the
resources `held` open: a resource is closed only while it is open, and every
event is allowed by the rules when it happens.

The second part reads a table as the multiset of its entries.
-/

namespace HeldResources

variable {κ : Type*}

inductive Event (κ : Type*) where
  | opened (key : κ)
  | closed (key : κ)
  deriving DecidableEq

/-- What may be opened, and closed, beside the resources that are open. -/
structure Rules (κ : Type*) where
  mayOpen : κ → Multiset κ → Prop
  mayClose : κ → Multiset κ → Prop

inductive Holds (rules : Rules κ) : List (Event κ) → Multiset κ → Prop where
  | nil : Holds rules [] 0
  | opened {log : List (Event κ)} {held : Multiset κ} {key : κ}
      (hlog : Holds rules log held) (hmay : rules.mayOpen key held) :
      Holds rules (.opened key :: log) (key ::ₘ held)
  | closed {log : List (Event κ)} {held : Multiset κ} {key : κ}
      (hlog : Holds rules log (key ::ₘ held))
      (hmay : rules.mayClose key held) :
      Holds rules (.closed key :: log) held

namespace Holds

variable {rules : Rules κ} {log : List (Event κ)} {held : Multiset κ} {key : κ} {after : Multiset κ}

theorem open_key (hlog : Holds rules log held) (hmay : rules.mayOpen key held)
    (hafter : after = key ::ₘ held) : Holds rules (.opened key :: log) after := by
  rw [hafter]
  exact hlog.opened hmay

theorem close_key (hlog : Holds rules log held) (hheld : held = key ::ₘ after)
    (hmay : rules.mayClose key after) : Holds rules (.closed key :: log) after := by
  rw [hheld] at hlog
  exact hlog.closed hmay

theorem count_opened [DecidableEq κ] (hlog : Holds rules log held) (key : κ) :
    log.count (.opened key) = log.count (.closed key) + held.count key := by
  induction hlog with
  | nil => simp
  | opened _ _ ih | closed _ _ ih =>
    simp only [List.count_cons, Multiset.count_cons, beq_iff_eq, Event.opened.injEq,
      Event.closed.injEq, reduceCtorEq, if_false, eq_comm (a := key)] at ih ⊢
    omega

end Holds

section Tables

variable {α : Type*} {β : α → Type*} [DecidableEq α] {s : AList β} {a : α}

theorem entries_insert_fresh (hfresh : s.lookup a = none) (b : β a) :
    (s.insert a b).entries = ⟨a, b⟩ :: s.entries :=
  AList.entries_insert_of_notMem (AList.lookup_eq_none.mp hfresh)

variable {b : β a}

theorem entries_perm_of_lookup (hfound : s.lookup a = some b) :
    s.entries.Perm (⟨a, b⟩ :: (s.erase a).entries) := by
  apply List.lookup_ext s.nodupKeys (s.insert a b).nodupKeys
  intro x y
  change y ∈ s.lookup x ↔ y ∈ (s.insert a b).lookup x
  by_cases hx : x = a
  · subst hx
    rw [hfound, AList.lookup_insert]
  · rw [AList.lookup_insert_ne hx]

theorem mem_entries_iff : ⟨a, b⟩ ∈ s.entries ↔ s.lookup a = some b :=
  (AList.mem_lookup_iff).symm

theorem mem_of_lookup (hfound : s.lookup a = some b) : a ∈ s :=
  AList.lookup_isSome.mp (Option.isSome_of_eq_some hfound)

theorem exists_lookup (hmem : a ∈ s) : ∃ b, s.lookup a = some b :=
  Option.isSome_iff_exists.mp (AList.lookup_isSome.mpr hmem)

variable {x : α}

theorem lookup_of_erase {y : β x} (hfound : (s.erase a).lookup x = some y) :
    x ≠ a ∧ s.lookup x = some y := by
  have hne : x ≠ a := by
    intro heq
    subst heq
    simp [AList.lookup_erase] at hfound
  rw [AList.lookup_erase_ne hne] at hfound
  exact ⟨hne, hfound⟩

theorem lookup_insert_of_none {y : β x} (hnone : s.lookup a = none) (hfound : s.lookup x = some y) :
    (s.insert a b).lookup x = some y := by
  rwa [AList.lookup_insert_ne]
  rintro rfl
  cases hnone.symm.trans hfound

section

variable {β : Type*} {s : AList fun _ : α => β} {b : β}

theorem lookup_insert_cases {y : β} (hfound : (s.insert a b).lookup x = some y) :
    (x = a ∧ y = b) ∨ (x ≠ a ∧ s.lookup x = some y) := by
  by_cases hx : x = a
  · subst hx
    rw [AList.lookup_insert, Option.some.injEq] at hfound
    exact Or.inl ⟨rfl, hfound.symm⟩
  · rw [AList.lookup_insert_ne hx] at hfound
    exact Or.inr ⟨hx, hfound⟩

variable {p : α → β → Prop} (hall : ∀ x y, s.lookup x = some y → p x y)

include hall

theorem forall_lookup_insert (hnew : p a b) (x : α) (y : β)
    (hfound : (s.insert a b).lookup x = some y) : p x y := by
  obtain ⟨rfl, rfl⟩ | ⟨-, hold⟩ := lookup_insert_cases hfound
  · exact hnew
  · exact hall x y hold

theorem forall_lookup_erase (x : α) (y : β) (hfound : (s.erase a).lookup x = some y) : p x y :=
  hall x y (lookup_of_erase hfound).2

end

/-- The sum of what the values of a table contribute. -/
def total {β M : Type*} [AddCommMonoid M] (f : β → M) (table : AList fun _ : α => β) : M :=
  (table.entries.map fun entry => f entry.2).sum

section Total

variable {β M : Type*} [AddCommMonoid M] (f : β → M)
  {table : AList fun _ : α => β} {key : α} {value : β}

theorem total_insert_fresh (hnone : table.lookup key = none) :
    total f (table.insert key value) = f value + total f table := by
  rw [total, entries_insert_fresh hnone, List.map_cons, List.sum_cons]
  rfl

theorem total_erase (hfound : table.lookup key = some value) :
    total f table = f value + total f (table.erase key) := by
  have hperm := (entries_perm_of_lookup hfound).map fun entry => f entry.2
  rw [total, hperm.sum_eq, List.map_cons, List.sum_cons]
  rfl

theorem mem_total {γ : Type*} {f : β → Multiset γ} {x : γ} : x ∈ total f table ↔
      ∃ key value, table.lookup key = some value ∧ x ∈ f value := by
  have hsum : ∀ entries : List (Σ _ : α, β), x ∈ (entries.map fun entry => f entry.2).sum ↔
        ∃ entry ∈ entries, x ∈ f entry.2 := by
    intro entries
    induction entries with
    | nil => simp
    | cons entry entries ih =>
      rw [List.map_cons, List.sum_cons, Multiset.mem_add, ih]
      simp
  rw [total, hsum]
  constructor
  · intro hentry
    obtain ⟨entry, hmem, hx⟩ := hentry
    exact ⟨entry.1, entry.2, mem_entries_iff.mp hmem, hx⟩
  · intro hvalue
    obtain ⟨key, value, hfound, hx⟩ := hvalue
    exact ⟨⟨key, value⟩, mem_entries_iff.mpr hfound, hx⟩

end Total

end Tables

end HeldResources
