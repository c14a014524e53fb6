import Mathlib.Tactic

/-!
# Calls that interleave on a shared object

A call in progress is a value that says where it stands; one step takes it
through its next critical section.  Any call may take the next step, and a new
call may start at any time.  `input` is what the step learns from outside.

An invariant that holds at the start, and that a new call and every step keep,
holds in every configuration that is reached.
-/

namespace InterleavedCalls

structure Program (σ κ ι : Type*) where
  starts : κ → Bool
  next : ι → σ → κ → Option (σ × κ)

structure Config (σ κ : Type*) where
  shared : σ
  calls : List κ

inductive Action (κ ι : Type*) where
  | start (call : κ)
  | run (i : ℕ) (input : ι)

variable {σ κ ι : Type*}

namespace Program

def step (P : Program σ κ ι) (s : Config σ κ) : Action κ ι → Option (Config σ κ)
  | .start call =>
    if P.starts call then some { s with calls := s.calls ++ [call] }
    else none
  | .run i input =>
    match s.calls[i]? with
    | none => none
    | some call =>
      (P.next input s.shared call).map fun r => { shared := r.1, calls := s.calls.set i r.2 }

def run (P : Program σ κ ι) (s : Config σ κ) : List (Action κ ι) → Option (Config σ κ)
  | [] => some s
  | a :: actions =>
    match P.step s a with
    | none => none
    | some s => P.run s actions

variable {P : Program σ κ ι} {s s' : Config σ κ}

theorem step_start {call : κ} (hstep : P.step s (.start call) = some s') :
    P.starts call = true ∧ s' = { s with calls := s.calls ++ [call] } := by
  simp only [step] at hstep
  split_ifs at hstep with hstarts
  simp only [Option.some.injEq] at hstep
  exact ⟨hstarts, hstep.symm⟩

theorem step_run {i : ℕ} {input : ι} (hstep : P.step s (.run i input) = some s') :
    ∃ call next shared, s.calls[i]? = some call ∧ P.next input s.shared call = some (shared, next) ∧
      s' = { shared := shared, calls := s.calls.set i next } := by
  simp only [step] at hstep
  cases hcall : s.calls[i]? with
  | none => simp [hcall] at hstep
  | some call =>
    simp only [hcall, Option.map_eq_some_iff] at hstep
    obtain ⟨r, hnext, heq⟩ := hstep
    exact ⟨call, r.2, r.1, rfl, hnext, heq.symm⟩

/-- Every action of the run meets a condition in the state before it. -/
def along (P : Program σ κ ι) (ok : Config σ κ → Action κ ι → Bool)
    (s : Config σ κ) : List (Action κ ι) → Bool
  | [] => true
  | a :: actions =>
    ok s a &&
      match P.step s a with
      | none => true
      | some s => P.along ok s actions

theorem along_true (s : Config σ κ) (actions : List (Action κ ι)) :
    P.along (fun _ _ => true) s actions = true := by
  induction actions generalizing s with
  | nil => rfl
  | cons a actions ih =>
    rw [along, Bool.true_and]
    cases P.step s a with
    | none => rfl
    | some s' => exact ih s'

/-- An invariant is proved for a new call and for the step of one call, from
the condition on the run. -/
theorem run_invariant_along (Inv : Config σ κ → Prop) (ok : Config σ κ → Action κ ι → Bool)
    (hstart : ∀ s call, P.starts call = true → ok s (.start call) = true →
      Inv s → Inv { s with calls := s.calls ++ [call] })
    (hrun : ∀ s i input call next shared, s.calls[i]? = some call →
      P.next input s.shared call = some (shared, next) →
      ok s (.run i input) = true → Inv s →
      Inv { shared := shared, calls := s.calls.set i next }) (actions : List (Action κ ι))
    (hreach : P.run s actions = some s') (halong : P.along ok s actions = true) (hinv : Inv s) :
    Inv s' := by
  induction actions generalizing s with
  | nil =>
    simp only [run, Option.some.injEq] at hreach
    rwa [← hreach]
  | cons a actions ih =>
    simp only [run] at hreach
    cases hstep : P.step s a with
    | none => simp [hstep] at hreach
    | some mid =>
      simp only [hstep] at hreach
      simp only [along, hstep, Bool.and_eq_true] at halong
      obtain ⟨hok, hrest⟩ := halong
      apply ih hreach hrest
      cases a with
      | start call =>
        obtain ⟨hstarts, rfl⟩ := step_start hstep
        exact hstart s call hstarts hok hinv
      | run i input =>
        obtain ⟨call, next, shared, hcall, hnext, rfl⟩ := step_run hstep
        exact hrun s i input call next shared hcall hnext hok hinv

/-- Every state of the run meets a condition. -/
def throughout (P : Program σ κ ι) (ok : Config σ κ → Bool)
    (s : Config σ κ) (actions : List (Action κ ι)) : Bool :=
  ok s && P.along (fun s a => (P.step s a).all ok) s actions

/-- An invariant that is proved from the condition on the states before and
after a step. -/
theorem run_invariant_throughout (Inv : Config σ κ → Prop) (ok : Config σ κ → Bool)
    (hstart : ∀ s call, P.starts call = true → ok s = true → Inv s →
      Inv { s with calls := s.calls ++ [call] })
    (hrun : ∀ s i input call next shared, s.calls[i]? = some call →
      P.next input s.shared call = some (shared, next) → ok s = true →
      ok { shared := shared, calls := s.calls.set i next } = true → Inv s →
      Inv { shared := shared, calls := s.calls.set i next }) (actions : List (Action κ ι))
    (hreach : P.run s actions = some s') (hthroughout : P.throughout ok s actions = true)
    (hinv : Inv s) : Inv s' ∧ ok s' = true := by
  rw [throughout, Bool.and_eq_true] at hthroughout
  apply run_invariant_along (fun s => Inv s ∧ ok s = true)
    (fun s a => (P.step s a).all ok) _ _ actions hreach hthroughout.2
    ⟨hinv, hthroughout.1⟩
  · intro s call hstarts hok hold
    simp only [step, hstarts, if_true, Option.all_some] at hok
    exact ⟨hstart s call hstarts hold.2 hold.1, hok⟩
  · intro s i input call next shared hcall hnext hok hold
    simp only [step, hcall, hnext, Option.map_some, Option.all_some] at hok
    exact ⟨hrun s i input call next shared hcall hnext hold.2 hok hold.1, hok⟩

theorem run_invariant (Inv : Config σ κ → Prop)
    (hstart : ∀ s call, P.starts call = true → Inv s → Inv { s with calls := s.calls ++ [call] })
    (hrun : ∀ s i input call next shared, s.calls[i]? = some call →
      P.next input s.shared call = some (shared, next) → Inv s →
      Inv { shared := shared, calls := s.calls.set i next }) (actions : List (Action κ ι))
    (hreach : P.run s actions = some s') (hinv : Inv s) : Inv s' := by
  apply run_invariant_along Inv (fun _ _ => true) _ _ actions hreach (along_true s actions) hinv
  · intro s call hstarts _
    exact hstart s call hstarts
  · intro s i input call next shared hcall hnext _
    exact hrun s i input call next shared hcall hnext

end Program

/-! ## The calls after a step -/

variable {calls : List κ} {call : κ} {Q : κ → Prop}

theorem forall_mem_append (hnew : Q call) (hold : ∀ other ∈ calls, Q other) :
    ∀ other ∈ calls ++ [call], Q other :=
  List.forall_mem_append.mpr ⟨hold, List.forall_mem_singleton.mpr hnew⟩

variable {i : ℕ} {next : κ}

theorem eq_of_set_self (hcall : (calls.set i next)[i]? = some call) : call = next := by
  rw [List.getElem?_set_self'] at hcall
  obtain ⟨old, -, rfl⟩ := Option.map_eq_some_iff.mp hcall
  rfl

theorem forall_mem_set (hnext : Q next)
    (hothers : ∀ j other, j ≠ i → calls[j]? = some other → Q other) :
    ∀ call ∈ calls.set i next, Q call := by
  intro call hmem
  obtain ⟨j, hj⟩ := List.mem_iff_getElem?.mp hmem
  by_cases hji : j = i
  · subst hji
    rwa [eq_of_set_self hj]
  · rw [List.getElem?_set_ne (Ne.symm hji)] at hj
    exact hothers j call hji hj

theorem forall_mem_set_of_forall (hnext : Q next) (hold : ∀ other ∈ calls, Q other) :
    ∀ call ∈ calls.set i next, Q call :=
  forall_mem_set hnext fun _ other _ hother => hold other (List.mem_of_getElem? hother)

theorem mem_calls_set (hi : calls[i]? = some call) : next ∈ calls.set i next := by
  obtain ⟨hlt, -⟩ := List.getElem?_eq_some_iff.mp hi
  exact List.mem_set hlt next

theorem eq_or_mem_set (hi : calls[i]? = some call) {other : κ} (hmem : other ∈ calls) :
    other = call ∨ other ∈ calls.set i next := by
  obtain ⟨j, hj⟩ := List.mem_iff_getElem?.mp hmem
  by_cases hji : j = i
  · rw [hji, hi] at hj
    exact Or.inl (Option.some.inj hj).symm
  · exact Or.inr (List.mem_of_getElem? ((List.getElem?_set_ne (Ne.symm hji)).trans hj))

theorem exists_mem_set (hi : calls[i]? = some call) (hkeep : Q call → Q next)
    (hsome : ∃ other ∈ calls, Q other) : ∃ other ∈ calls.set i next, Q other := by
  obtain ⟨other, hmem, hother⟩ := hsome
  obtain rfl | hset := eq_or_mem_set hi hmem
  · exact ⟨next, mem_calls_set hi, hkeep hother⟩
  · exact ⟨other, hset, hother⟩

theorem map_set_of_eq {β : Type*} {f : κ → β} (hcall : calls[i]? = some call)
    (hsame : f next = f call) : (calls.set i next).map f = calls.map f := by
  obtain ⟨hlt, rfl⟩ := List.getElem?_eq_some_iff.mp hcall
  rw [List.map_set, hsame, ← List.getElem_map f (h := by simpa using hlt), List.set_getElem_self]

variable {R : κ → κ → Prop}

theorem pairwise_at (hsymm : ∀ a b, R a b → R b a) (hpairs : calls.Pairwise R) {j : ℕ} {a b : κ}
    (hne : i ≠ j) (hi : calls[i]? = some a) (hj : calls[j]? = some b) : R a b := by
  obtain ⟨hilt, rfl⟩ := List.getElem?_eq_some_iff.mp hi
  obtain ⟨hjlt, rfl⟩ := List.getElem?_eq_some_iff.mp hj
  rw [List.pairwise_iff_getElem] at hpairs
  cases Nat.lt_or_gt_of_ne hne with
  | inl hlt => exact hpairs i j hilt hjlt hlt
  | inr hgt => exact hsymm _ _ (hpairs j i hjlt hilt hgt)

section

variable (hold : ∀ (j k : ℕ) (a b : κ), j ≠ k → calls[j]? = some a → calls[k]? = some b → R a b)

include hold

theorem pairs_set
    (hnext : ∀ (j : ℕ) (other : κ), j ≠ i → calls[j]? = some other → R next other ∧ R other next) :
    ∀ (j k : ℕ) (a b : κ), j ≠ k → (calls.set i next)[j]? = some a →
      (calls.set i next)[k]? = some b → R a b := by
  intro j k a b hne hj hk
  by_cases hji : j = i
  · subst hji
    rw [eq_of_set_self hj]
    rw [List.getElem?_set_ne hne] at hk
    exact (hnext k b (Ne.symm hne) hk).1
  · rw [List.getElem?_set_ne (Ne.symm hji)] at hj
    by_cases hki : k = i
    · subst hki
      rw [eq_of_set_self hk]
      exact (hnext j a hji hj).2
    · rw [List.getElem?_set_ne (Ne.symm hki)] at hk
      exact hold j k a b hne hj hk

theorem pairs_append (hnew : ∀ other ∈ calls, R call other ∧ R other call) :
    ∀ (j k : ℕ) (a b : κ), j ≠ k → (calls ++ [call])[j]? = some a →
      (calls ++ [call])[k]? = some b → R a b := by
  have hcases : ∀ {j : ℕ} {a : κ}, (calls ++ [call])[j]? = some a →
      calls[j]? = some a ∨ j = calls.length ∧ a = call := by
    intro j a hj
    rw [List.getElem?_append] at hj
    split_ifs at hj with hlt
    · exact Or.inl hj
    · obtain ⟨hlt', heq⟩ := List.getElem?_eq_some_iff.mp hj
      simp only [List.length_singleton] at hlt'
      simp only [List.getElem_singleton] at heq
      exact Or.inr ⟨by omega, heq.symm⟩
  intro j k a b hne hj hk
  obtain hold_j | ⟨rfl, rfl⟩ := hcases hj
  · obtain hold_k | ⟨rfl, rfl⟩ := hcases hk
    · exact hold j k a b hne hold_j hold_k
    · exact (hnew a (List.mem_of_getElem? hold_j)).2
  · obtain hold_k | ⟨rfl, rfl⟩ := hcases hk
    · exact (hnew b (List.mem_of_getElem? hold_k)).1
    · exact absurd rfl hne

end

theorem countP_set_add (hcall : calls[i]? = some call) (next : κ) (p : κ → Bool) :
    (calls.set i next).countP p + (if p call then 1 else 0) =
      calls.countP p + (if p next then 1 else 0) := by
  obtain ⟨hlt, hget⟩ := List.getElem?_eq_some_iff.mp hcall
  have hpos : (if p call = true then 1 else 0) ≤ calls.countP p := by
    rw [← hget]
    exact List.boole_getElem_le_countP hlt
  rw [List.countP_set hlt, hget]
  omega

theorem sum_map_set_add (hcall : calls[i]? = some call) (next : κ) (g : κ → ℕ) :
    ((calls.set i next).map g).sum + g call = (calls.map g).sum + g next := by
  induction calls generalizing i with
  | nil => cases hcall
  | cons first rest ih =>
    cases i with
    | zero =>
      obtain rfl : first = call := Option.some.inj hcall
      simp only [List.set_cons_zero, List.map_cons, List.sum_cons]
      omega
    | succ i =>
      have hrest := ih (i := i) hcall
      simp only [List.set_cons_succ, List.map_cons, List.sum_cons]
      omega

end InterleavedCalls
