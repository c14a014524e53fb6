import Mathlib.Tactic

/-!
# Machine words and return codes

Addresses, lengths and counters of the program are unsigned machine integers.
They are modelled by natural numbers, and every operation of the program that
may wrap around is written with the operation of its width.  The lemmas below
remove the reduction when the mathematical result is representable.
-/

namespace Hixl

/-- The return codes that the modelled functions produce. -/
inductive Status where
  | success
  | paramInvalid
  | failed
  | timeout
  | notConnected
  | alreadyConnected
  | notSupported
  | resourceExhausted
  deriving DecidableEq, Repr

/-- The number of a return code.  Codes of the runtime are returned as they
are, so the functions that pass them on return numbers. -/
def Status.code : Status → ℕ
  | .success => 0
  | .paramInvalid => 103900
  | .timeout => 103901
  | .notConnected => 103902
  | .alreadyConnected => 103903
  | .notSupported => 103905
  | .resourceExhausted => 203900
  | .failed => 503900

inductive AclError where
  | streamSyncTimeout
  | other (code : ℕ) (nonzero : code ≠ 0)

/-- The code that `HIXL_CHK_ACL_RET` returns. -/
def AclError.status : AclError → ℕ
  | .streamSyncTimeout => Status.timeout.code
  | .other code _ => code

def wordMax (w : ℕ) : ℕ := 2 ^ w - 1

def wrapAdd (w a b : ℕ) : ℕ := (a + b) % 2 ^ w

def wrapSub (w a b : ℕ) : ℕ := (a + (2 ^ w - b % 2 ^ w)) % 2 ^ w

def wrapMul (w a b : ℕ) : ℕ := (a * b) % 2 ^ w

/-- The checked sum `AddOverflow` of the program: no value when the sum does
not fit into the word. -/
def checkedAdd (w a b : ℕ) : Option ℕ :=
  if a + b ≤ wordMax w then some (a + b) else none

theorem wordMax_64 : wordMax 64 = 2 ^ 64 - 1 := rfl

theorem wordMax_32 : wordMax 32 = 2 ^ 32 - 1 := rfl

variable {w a b : ℕ}

theorem wrapAdd_eq_add (hsum : a + b < 2 ^ w) : wrapAdd w a b = a + b := Nat.mod_eq_of_lt hsum

theorem wrapMul_eq_mul (hprod : a * b < 2 ^ w) : wrapMul w a b = a * b := Nat.mod_eq_of_lt hprod

theorem wrapSub_eq_sub (ha : a < 2 ^ w) (hba : b ≤ a) : wrapSub w a b = a - b := by
  have hb : b % 2 ^ w = b := Nat.mod_eq_of_lt (lt_of_le_of_lt hba ha)
  have hsum : a + (2 ^ w - b) = (a - b) + 2 ^ w := by omega
  rw [wrapSub, hb, hsum, Nat.add_mod_right]
  exact Nat.mod_eq_of_lt (by omega)

theorem checkedAdd_eq_some_iff {c : ℕ} :
    checkedAdd w a b = some c ↔ c = a + b ∧ a + b ≤ wordMax w := by
  unfold checkedAdd
  split_ifs with hfit
  · simp [hfit, eq_comm]
  · simp [hfit]

theorem checkedAdd_eq_none_iff : checkedAdd w a b = none ↔ wordMax w < a + b := by
  unfold checkedAdd
  split_ifs with hfit
  all_goals simpa using hfit

end Hixl
