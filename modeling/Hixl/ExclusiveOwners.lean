import Hixl.InterleavedCalls

/-!
# Resources with one owner

Several holders share resources of which each has at most one owner at a time:
locks, or buffers of a pool.  `Owned owns busy holders` says that a busy
resource has exactly one owner among the holders and that no other resource
has one.  Each move of a holder changes the owners by the resource that it
takes or gives back.
-/

namespace ExclusiveOwners

open InterleavedCalls

variable {ρ κ : Type*}

def Owned (owns : ρ → κ → Bool) (busy : ρ → Bool) (holders : List κ) : Prop :=
  ∀ r, holders.countP (owns r) = if busy r then 1 else 0

theorem eq_of_countP_le_one {l : List κ} {p : κ → Bool} (hle : l.countP p ≤ 1) {i j : ℕ} {a b : κ}
    (hi : l[i]? = some a) (hj : l[j]? = some b) (ha : p a = true) (hb : p b = true) : i = j := by
  induction l generalizing i j with
  | nil => simp at hi
  | cons x l ih =>
    rw [List.countP_cons] at hle
    -- with the head among the two, the tail has no such element
    have hhead : ∀ {k : ℕ} {c : κ}, p x = true → l[k]? = some c → p c = true → False := by
      intro k c hx hk hc
      rw [hx, if_pos rfl] at hle
      have hzero : l.countP p = 0 := by omega
      exact List.countP_eq_zero.mp hzero c (List.mem_of_getElem? hk) hc
    cases i with
    | zero =>
      cases j with
      | zero => rfl
      | succ j =>
        simp only [List.getElem?_cons_zero, Option.some.injEq] at hi
        exact (hhead (hi ▸ ha) hj hb).elim
    | succ i =>
      cases j with
      | zero =>
        simp only [List.getElem?_cons_zero, Option.some.injEq] at hj
        exact (hhead (hj ▸ hb) hi ha).elim
      | succ j =>
        rw [ih (by omega) hi hj]

namespace Owned

variable {owns : ρ → κ → Bool} {busy : ρ → Bool} {holders : List κ} {i : ℕ} {holder : κ}

theorem empty : Owned owns (fun _ => false) [] := by
  intro r
  rfl

section

variable (howned : Owned owns busy holders)

include howned

theorem countP_le_one (r : ρ) : holders.countP (owns r) ≤ 1 := by
  rw [howned r]
  split_ifs
  · exact le_refl 1
  · exact Nat.zero_le 1

variable {r : ρ}

theorem eq_of_owns {j : ℕ} {other : κ} (hi : holders[i]? = some holder)
    (hj : holders[j]? = some other) (howns : owns r holder = true) (hother : owns r other = true) :
    i = j :=
  eq_of_countP_le_one (howned.countP_le_one r) hi hj howns hother

theorem busy_of_owns (hmem : holder ∈ holders) (howns : owns r holder = true) : busy r = true := by
  have hpos : 0 < holders.countP (owns r) := List.countP_pos_iff.mpr ⟨holder, hmem, howns⟩
  rw [howned r] at hpos
  by_contra hidle
  rw [if_neg hidle] at hpos
  exact absurd hpos (Nat.lt_irrefl 0)

theorem append (hnone : ∀ r, owns r holder = false) : Owned owns busy (holders ++ [holder]) := by
  intro r
  rw [List.countP_append, howned r, List.countP_singleton, hnone r]
  rfl

variable {next : κ} (hi : holders[i]? = some holder)

include hi

theorem keep (hsame : ∀ r, owns r next = owns r holder) : Owned owns busy (holders.set i next) := by
  intro r
  have hadd := countP_set_add hi next (owns r)
  rw [hsame r] at hadd
  rw [← howned r]
  omega

variable [DecidableEq ρ]

theorem take {taken : ρ} (hidle : busy taken = false)
    (hnext : ∀ r, owns r next = (owns r holder || r = taken)) :
    Owned owns (Function.update busy taken true) (holders.set i next) := by
  intro r
  have hadd := countP_set_add hi next (owns r)
  have hmem := List.mem_of_getElem? hi
  rw [howned r, hnext r] at hadd
  by_cases hr : r = taken
  · subst hr
    have hnot : owns r holder = false := by
      by_contra howns
      rw [Bool.not_eq_false] at howns
      have hbusy := howned.busy_of_owns hmem howns
      simp [hidle] at hbusy
    simp only [hidle, hnot, Function.update_self] at hadd ⊢
    simpa using hadd
  · simp only [hr, decide_false, Bool.or_false, Function.update_of_ne hr] at hadd ⊢
    omega

theorem giveBack {given : ρ} (howns : owns given holder = true)
    (hnext : ∀ r, owns r next = (owns r holder && r ≠ given)) :
    Owned owns (Function.update busy given false) (holders.set i next) := by
  intro r
  have hadd := countP_set_add hi next (owns r)
  rw [howned r, hnext r] at hadd
  by_cases hr : r = given
  · subst hr
    have hbusy := howned.busy_of_owns (List.mem_of_getElem? hi) howns
    simp only [hbusy, howns, Function.update_self] at hadd ⊢
    simpa using hadd
  · simp only [hr, ne_eq, not_false_eq_true, decide_true, Bool.and_true,
      Function.update_of_ne hr] at hadd ⊢
    omega

end

end Owned

end ExclusiveOwners
