import Mathlib.Tactic

/-!
# Ledgers of slots

A fixed set of slots is handed out and taken back.  A slot is free, busy, or
retired, and the free slots are kept in a queue.  The ledger is balanced when
the three parts are disjoint and cover the slots; every move keeps it balanced.
When every busy slot has one owner, a move changes the owners by exactly the
slot that it moves.
-/

namespace SlotLedgers

variable {ι : Type*} [DecidableEq ι]

@[ext] structure Ledger (ι : Type*) where
  free : List ι
  busy : ι → Bool
  retired : List ι

namespace Ledger

def take (ledger : Ledger ι) (i : ι) (rest : List ι) : Ledger ι where
  free := rest
  busy := Function.update ledger.busy i true
  retired := ledger.retired

def giveBack (ledger : Ledger ι) (i : ι) : Ledger ι where
  free := ledger.free ++ [i]
  busy := Function.update ledger.busy i false
  retired := ledger.retired

def retire (ledger : Ledger ι) (i : ι) : Ledger ι where
  free := ledger.free
  busy := Function.update ledger.busy i false
  retired := ledger.retired ++ [i]

theorem take_busy (ledger : Ledger ι) (i : ι) (rest : List ι) (j : ι) :
    (ledger.take i rest).busy j = if j = i then true else ledger.busy j :=
  Function.update_apply _ _ _ _

theorem giveBack_busy (ledger : Ledger ι) (i j : ι) :
    (ledger.giveBack i).busy j = if j = i then false else ledger.busy j :=
  Function.update_apply _ _ _ _

theorem retire_busy (ledger : Ledger ι) (i j : ι) :
    (ledger.retire i).busy j = if j = i then false else ledger.busy j :=
  Function.update_apply _ _ _ _

end Ledger

structure Balanced (slots : List ι) (ledger : Ledger ι) : Prop where
  free_nodup : ledger.free.Nodup
  retired_nodup : ledger.retired.Nodup
  free_idle : ∀ i ∈ ledger.free, ledger.busy i = false
  retired_idle : ∀ i ∈ ledger.retired, ledger.busy i = false
  free_not_retired : ∀ i ∈ ledger.free, i ∉ ledger.retired
  covers : ∀ i, i ∈ slots ↔
    i ∈ ledger.free ∨ ledger.busy i = true ∨ i ∈ ledger.retired

namespace Balanced

variable {slots : List ι} {ledger ledger' : Ledger ι} {i : ι}

omit [DecidableEq ι] in
/-- The slots that are not busy are the free and the retired ones. -/
theorem iff_idle : Balanced slots ledger ↔ (ledger.free ++ ledger.retired).Nodup ∧
    (∀ i ∈ ledger.free ++ ledger.retired, ledger.busy i = false) ∧
      ∀ i, i ∈ slots ↔ i ∈ ledger.free ++ ledger.retired ∨ ledger.busy i = true := by
  rw [List.nodup_append', List.forall_mem_append]
  simp only [List.mem_append]
  constructor
  · rintro ⟨hfree, hretired, hfreeIdle, hretiredIdle, hapart, hcovers⟩
    refine ⟨⟨hfree, hretired, fun i => hapart i⟩, ⟨hfreeIdle, hretiredIdle⟩, fun i => ?_⟩
    rw [hcovers i, or_right_comm, or_assoc]
  · rintro ⟨⟨hfree, hretired, hapart⟩, ⟨hfreeIdle, hretiredIdle⟩, hcovers⟩
    refine ⟨hfree, hretired, hfreeIdle, hretiredIdle, fun i => @hapart i, fun i => ?_⟩
    rw [hcovers i, or_right_comm, or_assoc]

section

variable (hbalanced : Balanced slots ledger)

include hbalanced

omit [DecidableEq ι] in
theorem not_free_of_busy (hbusy : ledger.busy i = true) : i ∉ ledger.free := by
  intro hmem
  have hidle := hbalanced.free_idle i hmem
  simp [hbusy] at hidle

theorem take {rest : List ι} (hfree : ledger.free = i :: rest) :
    Balanced slots (ledger.take i rest) := by
  obtain ⟨hnodup, hidle, hcovers⟩ := iff_idle.mp hbalanced
  rw [hfree, List.cons_append] at hnodup hidle hcovers
  obtain ⟨hnew, hnodup⟩ := List.nodup_cons.mp hnodup
  refine iff_idle.mpr ⟨hnodup, fun j hj => ?_, fun j => ?_⟩
  · rw [Ledger.take_busy, if_neg (ne_of_mem_of_not_mem hj hnew)]
    exact hidle j (List.mem_cons_of_mem i hj)
  · rw [hcovers j, List.mem_cons, Ledger.take_busy]
    by_cases heq : j = i
    all_goals simp [Ledger.take, heq]

/-- A busy slot that is released is free or retired. -/
theorem release (hbusy : ledger.busy i = true)
    (hmoved : (ledger'.free ++ ledger'.retired).Perm (i :: (ledger.free ++ ledger.retired)))
    (hreleased : ∀ j, ledger'.busy j = if j = i then false else ledger.busy j) :
    Balanced slots ledger' := by
  obtain ⟨hnodup, hidle, hcovers⟩ := iff_idle.mp hbalanced
  have hnew : i ∉ ledger.free ++ ledger.retired := by
    intro hmem
    simp [hidle i hmem] at hbusy
  refine iff_idle.mpr ⟨hmoved.nodup_iff.mpr (List.nodup_cons.mpr ⟨hnew, hnodup⟩), fun j hj => ?_,
    fun j => ?_⟩
  · rw [hreleased j]
    split_ifs with heq
    · rfl
    · exact hidle j ((List.mem_cons.mp (hmoved.mem_iff.mp hj)).resolve_left heq)
  · rw [hcovers j, hmoved.mem_iff, List.mem_cons, hreleased j]
    by_cases heq : j = i
    · simp [heq, hbusy]
    · simp [heq]

theorem giveBack (hbusy : ledger.busy i = true) : Balanced slots (ledger.giveBack i) :=
  hbalanced.release hbusy ((List.perm_append_singleton _ _).append_right _)
    (ledger.giveBack_busy i)

theorem retire (hbusy : ledger.busy i = true) : Balanced slots (ledger.retire i) :=
  hbalanced.release hbusy (((List.perm_append_singleton _ _).append_left _).trans List.perm_middle)
    (ledger.retire_busy i)

end

omit [DecidableEq ι] in
theorem count_eq (hslots : slots.Nodup) (hbalanced : Balanced slots ledger) :
    ledger.free.length + (slots.filter ledger.busy).length +
      ledger.retired.length = slots.length := by
  obtain ⟨hnodup, hidle, hcovers⟩ := iff_idle.mp hbalanced
  have hall : (ledger.free ++ ledger.retired ++ slots.filter ledger.busy).Nodup := by
    refine hnodup.append (hslots.filter _) fun i hmem hbusy => ?_
    simp [hidle i hmem] at hbusy
  have hperm : (ledger.free ++ ledger.retired ++ slots.filter ledger.busy).Perm slots := by
    rw [List.perm_ext_iff_of_nodup hall hslots]
    intro i
    rw [List.mem_append, List.mem_filter, hcovers i]
    tauto
  have hlength := hperm.length_eq
  rw [List.length_append, List.length_append] at hlength
  omega

end Balanced

/-- Every busy slot has exactly one owner, and only busy slots have one. -/
structure Owned (ledger : Ledger ι) (owners : List ι) : Prop where
  nodup : owners.Nodup
  busy_iff : ∀ i, i ∈ owners ↔ ledger.busy i = true

namespace Owned

variable {slots owners : List ι} {ledger : Ledger ι} {i : ι}

theorem take (howned : Owned ledger owners) (hbalanced : Balanced slots ledger) {rest : List ι}
    (hfree : ledger.free = i :: rest) : Owned (ledger.take i rest) (i :: owners) := by
  have hidle : ledger.busy i = false := by
    apply hbalanced.free_idle
    rw [hfree]
    exact List.mem_cons_self
  have hfresh : i ∉ owners := by
    rw [howned.busy_iff, hidle]
    exact Bool.false_ne_true
  constructor
  · exact List.nodup_cons.mpr ⟨hfresh, howned.nodup⟩
  · intro j
    rw [List.mem_cons, howned.busy_iff, Ledger.take_busy]
    split_ifs with heq <;> simp [heq]

theorem drop (howned : Owned ledger owners) {ledger' : Ledger ι}
    (hbusy : ∀ j, ledger'.busy j = if j = i then false else ledger.busy j) :
    Owned ledger' (owners.erase i) := by
  constructor
  · exact howned.nodup.erase i
  · intro j
    rw [howned.nodup.mem_erase_iff, howned.busy_iff, hbusy]
    split_ifs with heq <;> simp [heq]

omit [DecidableEq ι] in
theorem perm {owners' : List ι} (howned : Owned ledger owners)
    (hperm : owners.Perm owners') : Owned ledger owners' := by
  constructor
  · exact hperm.nodup_iff.mp howned.nodup
  · intro i
    rw [← hperm.mem_iff]
    exact howned.busy_iff i

end Owned

end SlotLedgers
