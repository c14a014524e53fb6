import Mathlib.Tactic

/-!
# Runs of clear bits in a bitmap

A pool of equal blocks keeps one bit per block.  `fill` is the loop that writes
one value to consecutive bits, `scan` the linear search for the first run of
blocks of a list of disjoint runs.
-/

namespace BlockBitmaps

def fill (value : Bool) : ℕ → ℕ → List Bool → List Bool
  | _, 0, bits => bits
  | start, n + 1, bits => fill value (start + 1) n (bits.set start value)

def FreeRun (bits : List Bool) (start n : ℕ) : Prop :=
  ∀ i, start ≤ i → i < start + n → bits[i]? = some false

/-- Continue the search for `need` clear bits at bit `i` with `left` bits to
go: `free` clear bits end just before `i`, and the first of them is `start`.
The answer is the pair `(start, free)` at the end of the loop. -/
def scan (bits : List Bool) (need : ℕ) : ℕ → ℕ → ℕ → ℕ → ℕ × ℕ
  | 0, _, start, free => (start, free)
  | left + 1, i, start, free =>
    if bits.getD i true = false then
      let start := if free = 0 then i else start
      if need ≤ free + 1 then (start, free + 1)
      else scan bits need left (i + 1) start (free + 1)
    else scan bits need left (i + 1) start 0

@[simp] theorem length_fill (value : Bool) (start n : ℕ) (bits : List Bool) :
    (fill value start n bits).length = bits.length := by
  induction n generalizing start bits with
  | zero => rfl
  | succ n ih => rw [fill, ih, List.length_set]

variable {start n i : ℕ}

def InRun (run : ℕ × ℕ) (i : ℕ) : Prop := run.1 ≤ i ∧ i < run.1 + run.2

instance (run : ℕ × ℕ) (i : ℕ) : Decidable (InRun run i) := instDecidableAnd

variable {bits : List Bool}

theorem getElem?_fill (value : Bool) (hend : start + n ≤ bits.length) (i : ℕ) :
    (fill value start n bits)[i]? = if InRun (start, n) i then some value else bits[i]? := by
  induction n generalizing start bits with
  | zero => exact (if_neg (by simp only [InRun]; omega)).symm
  | succ n ih =>
    rw [fill, ih (by rw [List.length_set]; omega), List.getElem?_set]
    split_ifs
    all_goals first | rfl | (simp only [InRun] at *; omega)

/-! ## Searching a run -/

theorem FreeRun.le_length (hrun : FreeRun bits start n) (hn : 0 < n) : start + n ≤ bits.length := by
  have hlast := hrun (start + n - 1) (by omega) (by omega)
  have hlt := (List.getElem?_eq_some_iff.mp hlast).1
  omega

structure ScanInvariant
    (bits : List Bool) (need i start free : ℕ) : Prop where
  free_le : free ≤ i
  free_lt : free < need
  start_eq : 0 < free → start = i - free
  run : FreeRun bits (i - free) free
  lowest : ∀ s, FreeRun bits s need → i - free ≤ s

variable {need : ℕ}

theorem ScanInvariant.initial (bits : List Bool) (hneed : 0 < need) :
    ScanInvariant bits need 0 0 0 where
  free_le := le_refl 0
  free_lt := hneed
  start_eq := fun h => absurd h (lt_irrefl 0)
  run := fun i _ hi => absurd hi (by omega)
  lowest := fun s _ => by omega

variable {free : ℕ}

section

variable (hinv : ScanInvariant bits need i start free)

include hinv

theorem ScanInvariant.run_succ (hbit : bits[i]? = some false) :
    FreeRun bits (i - free) (free + 1) := by
  have hle := hinv.free_le
  intro j hj hlt
  by_cases hlast : j = i
  · rwa [hlast]
  · exact hinv.run j hj (by omega)

theorem ScanInvariant.clear (hbit : bits[i]? = some false) (hshort : free + 1 < need) :
    ScanInvariant bits need (i + 1) (if free = 0 then i else start) (free + 1) := by
  have hle := hinv.free_le
  have hfrom : i + 1 - (free + 1) = i - free := by omega
  constructor
  · omega
  · exact hshort
  · intro _
    by_cases hfree : free = 0
    · simp [hfree]
    · rw [if_neg hfree, hfrom]
      exact hinv.start_eq (by omega)
  · rw [hfrom]
    exact hinv.run_succ hbit
  · rw [hfrom]
    exact hinv.lowest

theorem ScanInvariant.set (hbit : bits[i]? ≠ some false) :
    ScanInvariant bits need (i + 1) start 0 := by
  have hfree := hinv.free_lt
  constructor
  · omega
  · omega
  · intro h
    omega
  · intro j hj hlt
    omega
  · intro s hs
    have hge := hinv.lowest s hs
    by_contra hlow
    exact hbit (hs i (by omega) (by omega))

theorem ScanInvariant.found (hbit : bits[i]? = some false) (hlong : need ≤ free + 1) :
    FreeRun bits (if free = 0 then i else start) need ∧ ∀ s, FreeRun bits s need →
        (if free = 0 then i else start) ≤ s := by
  have hlt := hinv.free_lt
  have hneed : need = free + 1 := by omega
  have hstart : (if free = 0 then i else start) = i - free := by
    by_cases hfree : free = 0
    · simp [hfree]
    · rw [if_neg hfree]
      exact hinv.start_eq (by omega)
  rw [hstart]
  constructor
  · rw [hneed]
    exact hinv.run_succ hbit
  · exact hinv.lowest

end

theorem scan_spec {left : ℕ} (hlen : bits.length = i + left)
    (hinv : ScanInvariant bits need i start free) : (need ≤ (scan bits need left i start free).2 →
      FreeRun bits (scan bits need left i start free).1 need ∧ ∀ s, FreeRun bits s need →
          (scan bits need left i start free).1 ≤ s) ∧
      ((scan bits need left i start free).2 < need → ∀ s, ¬ FreeRun bits s need) := by
  induction left generalizing i start free with
  | zero =>
    have hlt := hinv.free_lt
    simp only [scan]
    constructor
    · intro h
      omega
    · intro _ s hs
      have hge := hinv.lowest s hs
      have hend := hs.le_length (by omega)
      omega
  | succ left ih =>
    by_cases hclear : bits.getD i true = false
    · have hbit : bits[i]? = some false := by
        cases hget : bits[i]? with
        | none => simp [hget] at hclear
        | some bit => simpa [hget] using hclear
      by_cases hlong : need ≤ free + 1
      · simp only [scan, hclear, hlong, if_true]
        constructor
        · intro _
          exact hinv.found hbit hlong
        · intro h
          omega
      · simp only [scan, hclear, hlong, if_true, if_false]
        exact ih (by omega) (hinv.clear hbit (by omega))
    · have hbit : bits[i]? ≠ some false := by
        intro hbit
        exact hclear (by simp [List.getD_eq_getElem?_getD, hbit])
      simp only [scan, hclear]
      exact ih (by omega) (hinv.set hbit)

/-! ## The runs that are taken -/

def Apart (a b : ℕ × ℕ) : Prop := ∀ i, InRun a i → ¬ InRun b i

instance : Std.Symm Apart where
  symm _ _ hab i hb ha := hab i ha hb

structure Ledger (bits : List Bool) (runs : List (ℕ × ℕ)) : Prop where
  inside : ∀ run ∈ runs, 0 < run.2 ∧ run.1 + run.2 ≤ bits.length
  disjoint : runs.Pairwise Apart
  bits_iff : ∀ i, bits[i]? = some true ↔ ∃ run ∈ runs, InRun run i

theorem Ledger.replicate (n : ℕ) : Ledger (List.replicate n false) [] where
  inside := List.forall_mem_nil _
  disjoint := List.Pairwise.nil
  bits_iff := by
    intro i
    simp [List.getElem?_replicate]

namespace Ledger

variable {bits : List Bool} {runs : List (ℕ × ℕ)} {a b : ℕ × ℕ}

theorem eq_of_inRun (hledger : Ledger bits runs) {i : ℕ} (ha : a ∈ runs) (hb : b ∈ runs)
    (hai : InRun a i) (hbi : InRun b i) : a = b := by
  by_contra hne
  exact hledger.disjoint.forall ha hb hne i hai hbi

theorem eq_of_start_eq (hledger : Ledger bits runs) (ha : a ∈ runs) (hb : b ∈ runs)
    (hstart : a.1 = b.1) : a = b := by
  have hapos := (hledger.inside a ha).1
  have hbpos := (hledger.inside b hb).1
  have hai : InRun a a.1 := ⟨le_refl _, by omega⟩
  have hbi : InRun b a.1 := ⟨by omega, by omega⟩
  exact hledger.eq_of_inRun ha hb hai hbi

variable {start n : ℕ}

section

variable (hledger : Ledger bits runs)

include hledger

theorem take (hn : 0 < n) (hfree : FreeRun bits start n) :
    Ledger (fill true start n bits) ((start, n) :: runs) := by
  have hend := hfree.le_length hn
  constructor
  · rw [length_fill]
    exact List.forall_mem_cons.mpr ⟨⟨hn, hend⟩, hledger.inside⟩
  · refine List.pairwise_cons.mpr ⟨fun run hrun i hi hin => ?_, hledger.disjoint⟩
    have hset := (hledger.bits_iff i).mpr ⟨run, hrun, hin⟩
    simp [hfree i hi.1 hi.2] at hset
  · intro i
    rw [getElem?_fill true hend]
    split_ifs with hin
    · exact ⟨fun _ => ⟨_, List.mem_cons_self, hin⟩, fun _ => rfl⟩
    · simp [hledger.bits_iff, hin]

theorem give (hmem : (start, n) ∈ runs) :
    Ledger (fill false start n bits) (runs.filter fun run => run.1 ≠ start) := by
  have hend := (hledger.inside _ hmem).2
  have hkeep : ∀ run ∈ runs, run.1 ≠ start ↔ run ≠ (start, n) := by
    intro run hrun
    constructor
    · rintro hne rfl
      exact hne rfl
    · intro hne hstart
      exact hne (hledger.eq_of_start_eq hrun hmem hstart)
  constructor
  · intro run hrun
    rw [length_fill]
    exact hledger.inside run (List.mem_of_mem_filter hrun)
  · exact hledger.disjoint.filter _
  · intro i
    rw [getElem?_fill false hend]
    split_ifs with hin
    · refine ⟨fun h => (by cases h), ?_⟩
      rintro ⟨run, hrun, hruni⟩
      have hrun := List.mem_filter.mp hrun
      have heq := hledger.eq_of_inRun hrun.1 hmem hruni hin
      exact absurd heq ((hkeep run hrun.1).mp (by simpa using hrun.2))
    · rw [hledger.bits_iff]
      constructor
      · rintro ⟨run, hrun, hruni⟩
        have hne : run ≠ (start, n) := by
          rintro rfl
          exact hin hruni
        refine ⟨run, List.mem_filter.mpr ⟨hrun, ?_⟩, hruni⟩
        simpa using (hkeep run hrun).mpr hne
      · rintro ⟨run, hrun, hruni⟩
        exact ⟨run, List.mem_of_mem_filter hrun, hruni⟩

end

end Ledger

end BlockBitmaps
