import Mathlib.Tactic

/-!
# Pools with marks

A pool is a list of resources, each with a mark that says whether it is idle.
`take` gives out the first idle one, `release` marks one idle again.
`Conserved pool holders` says that an idle resource has no holder and a busy
one has exactly one, where `holders` counts who holds what.
-/

namespace IdlePools

variable {ρ : Type*} [DecidableEq ρ]

abbrev Pool (ρ : Type*) := List (ρ × Bool)

def take : Pool ρ → Option (ρ × Pool ρ)
  | [] => none
  | (r, true) :: rest => some (r, (r, false) :: rest)
  | (r, false) :: rest => (take rest).map fun taken => (taken.1, (r, false) :: taken.2)

def release (r : ρ) (pool : Pool ρ) : Pool ρ :=
  pool.map fun entry => if entry.1 = r then (entry.1, true) else entry

variable {pool pool' : Pool ρ} {r : ρ}

omit [DecidableEq ρ] in
theorem take_spec (htake : take pool = some (r, pool')) :
    ∃ before after, pool = before ++ (r, true) :: after ∧
      pool' = before ++ (r, false) :: after := by
  induction pool generalizing pool' with
  | nil => exact absurd htake (by simp [take])
  | cons entry rest ih =>
    obtain ⟨first, mark⟩ := entry
    cases mark with
    | true =>
      cases htake
      exact ⟨[], rest, rfl, rfl⟩
    | false =>
      obtain ⟨⟨taken, left⟩, hrest, heq⟩ := Option.map_eq_some_iff.mp htake
      cases heq
      obtain ⟨before, after, hpool, hleft⟩ := ih hrest
      refine ⟨(first, false) :: before, after, ?_, ?_⟩
      · rw [hpool]
        rfl
      · rw [hleft]
        rfl

omit [DecidableEq ρ] in
theorem names_take (htake : take pool = some (r, pool')) :
    pool'.map Prod.fst = pool.map Prod.fst := by
  obtain ⟨before, after, hpool, hpool'⟩ := take_spec htake
  rw [hpool, hpool']
  simp

theorem names_release (r : ρ) (pool : Pool ρ) :
    (release r pool).map Prod.fst = pool.map Prod.fst := by
  rw [release, List.map_map]
  apply List.map_congr_left
  intro entry _
  rw [Function.comp_apply]
  split_ifs
  · rfl
  · rfl

structure Conserved (pool : Pool ρ) (holders : ρ → ℕ) : Prop where
  nodup : (pool.map Prod.fst).Nodup
  held : ∀ entry ∈ pool, holders entry.1 = if entry.2 then 0 else 1

namespace Conserved

variable {pool pool' : Pool ρ} {holders holders' : ρ → ℕ} {r : ρ}

omit [DecidableEq ρ] in
theorem congr (hconserved : Conserved pool holders)
    (hsame : ∀ x ∈ pool.map Prod.fst, holders' x = holders x) : Conserved pool holders' where
  nodup := hconserved.nodup
  held := by
    intro entry hentry
    rw [hsame entry.1 (List.mem_map_of_mem hentry)]
    exact hconserved.held entry hentry

theorem take (hconserved : Conserved pool holders) (htake : take pool = some (r, pool'))
    (hone : ∀ x ∈ pool.map Prod.fst, holders' x = holders x + if x = r then 1 else 0) :
    Conserved pool' holders' := by
  have hnames := names_take htake
  refine ⟨hnames ▸ hconserved.nodup, ?_⟩
  intro entry hentry
  have hname : entry.1 ∈ pool.map Prod.fst := hnames ▸ List.mem_map_of_mem hentry
  obtain ⟨before, after, hpool, hpool'⟩ := take_spec htake
  have hnodup := hconserved.nodup
  rw [hpool, List.map_append, List.map_cons, List.nodup_middle, List.nodup_cons] at hnodup
  rw [hone entry.1 hname]
  have hother : entry ∈ before ++ after → holders entry.1 + (if entry.1 = r then 1 else 0) =
        if entry.2 then 0 else 1 := by
    intro hmem
    have hne : entry.1 ≠ r := by
      intro heq
      have hin : entry.1 ∈ (before ++ after).map Prod.fst := List.mem_map_of_mem hmem
      rw [heq, List.map_append] at hin
      exact hnodup.1 hin
    rw [if_neg hne, Nat.add_zero]
    apply hconserved.held
    rw [hpool]
    exact ((List.sublist_cons_self _ _).append_left _).subset hmem
  rw [hpool', List.mem_append, List.mem_cons] at hentry
  obtain hbefore | rfl | hafter := hentry
  · exact hother (List.mem_append_left _ hbefore)
  · have hidle : holders r = 0 := hconserved.held (r, true) (by rw [hpool]; simp)
    simp [hidle]
  · exact hother (List.mem_append_right _ hafter)

theorem release (hconserved : Conserved pool holders)
    (hone : ∀ x ∈ pool.map Prod.fst, holders x = holders' x + if x = r then 1 else 0) :
    Conserved (release r pool) holders' := by
  refine ⟨names_release r pool ▸ hconserved.nodup, ?_⟩
  intro entry hentry
  obtain ⟨old, hold, heq⟩ := List.mem_map.mp hentry
  have hcount := hconserved.held old hold
  have hgive := hone old.1 (List.mem_map_of_mem hold)
  split_ifs at heq with hname
  · rw [← heq]
    rw [if_pos hname] at hgive
    have hle : holders old.1 ≤ 1 := by
      rw [hcount]
      split_ifs
      · exact Nat.zero_le 1
      · exact le_refl 1
    change holders' old.1 = 0
    omega
  · rw [← heq]
    rw [if_neg hname] at hgive
    rw [← hcount, hgive, Nat.add_zero]

omit [DecidableEq ρ] in
theorem all_idle (hconserved : Conserved pool holders)
    (hnone : ∀ x ∈ pool.map Prod.fst, holders x = 0) : ∀ entry ∈ pool, entry.2 = true := by
  intro entry hentry
  have hcount := hconserved.held entry hentry
  rw [hnone entry.1 (List.mem_map_of_mem hentry)] at hcount
  by_contra hbusy
  simp [if_neg hbusy] at hcount

end Conserved

end IdlePools
