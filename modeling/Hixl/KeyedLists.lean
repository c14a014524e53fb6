import Mathlib.Data.List.TakeWhile
import Mathlib.Tactic

/-!
# Ordered containers as sorted lists

An ordered container keeps its items sorted by a key.  `below` and `atLeast`
are the two sides of the iterator that a lower-bound search returns: the items
before it, and the items from it to the end.
-/

namespace KeyedLists

variable {α κ : Type*} [LinearOrder κ]

def Sorted (key : α → κ) (l : List α) : Prop := l.Pairwise fun a b => key a < key b

def below (key : α → κ) (k : κ) (l : List α) : List α := l.takeWhile fun a => key a < k

def atLeast (key : α → κ) (k : κ) (l : List α) : List α := l.dropWhile fun a => key a < k

def find (key : α → κ) (k : κ) (l : List α) : Option α := l.find? fun a => key a = k

def insert (key : α → κ) (a : α) (l : List α) : List α :=
  below key (key a) l ++ a :: atLeast key (key a) l

def erase (key : α → κ) (k : κ) (l : List α) : List α := l.filter fun a => key a ≠ k

variable {key : α → κ}

theorem below_append_atLeast (key : α → κ) (k : κ) (l : List α) :
    below key k l ++ atLeast key k l = l :=
  List.takeWhile_append_dropWhile

variable {k : κ} {l : List α} {a : α}

theorem key_lt_of_mem_below (ha : a ∈ below key k l) : key a < k := by
  simpa using List.mem_takeWhile_imp ha

theorem mem_of_mem_below (ha : a ∈ below key k l) : a ∈ l := (List.takeWhile_sublist _).subset ha

theorem mem_of_mem_atLeast (ha : a ∈ atLeast key k l) : a ∈ l :=
  (List.dropWhile_sublist _).subset ha

/-- When the predicate can only turn from true to false along the list, it is
false on everything that `dropWhile` keeps. -/
theorem eq_false_of_mem_dropWhile {p : α → Bool}
    (hmono : l.Pairwise fun a b => p b = true → p a = true) (ha : a ∈ l.dropWhile p) :
    p a = false := by
  induction l with
  | nil => cases ha
  | cons b l ih =>
    have hcons := List.pairwise_cons.mp hmono
    rw [List.dropWhile_cons] at ha
    split_ifs at ha with hb
    · exact ih hcons.2 ha
    · rcases List.mem_cons.mp ha with rfl | hal
      · simpa using hb
      · by_contra hpa
        exact hb (hcons.1 a hal (by simpa using hpa))

theorem Sorted.le_key_of_mem_atLeast (hsorted : Sorted key l) (ha : a ∈ atLeast key k l) :
    k ≤ key a := by
  have hmono : l.Pairwise fun a b => decide (key b < k) = true → decide (key a < k) = true := by
    refine hsorted.imp ?_
    intro b c hbc hc
    simp only [decide_eq_true_eq] at hc ⊢
    exact lt_trans hbc hc
  simpa using eq_false_of_mem_dropWhile hmono ha

theorem below_atLeast_of_split {before after : List α} (hbefore : ∀ a ∈ before, key a < k)
    (hafter : ∀ a ∈ after, k ≤ key a) :
    below key k (before ++ after) = before ∧ atLeast key k (before ++ after) = after := by
  have hall : ∀ a ∈ before, decide (key a < k) = true := by
    intro a ha
    simpa using hbefore a ha
  have hnone : (after.takeWhile fun a => key a < k) = [] := by
    cases after with
    | nil => rfl
    | cons a after =>
      simpa using hafter a List.mem_cons_self
  have hbelow : below key k (before ++ after) = before := by
    unfold below
    rw [List.takeWhile_append_of_pos hall, hnone, List.append_nil]
  refine ⟨hbelow, ?_⟩
  have hboth := below_append_atLeast key k (before ++ after)
  rw [hbelow] at hboth
  exact List.append_cancel_left hboth

theorem find_eq_none_iff : find key k l = none ↔ ∀ a ∈ l, key a ≠ k := by
  simp [find]

theorem mem_insert {b : α} : b ∈ insert key a l ↔ b = a ∨ b ∈ l := by
  have hsplit : b ∈ l ↔ b ∈ below key (key a) l ∨ b ∈ atLeast key (key a) l := by
    rw [← List.mem_append, below_append_atLeast]
  rw [hsplit, insert, List.mem_append, List.mem_cons]
  tauto

theorem Sorted.insert (hsorted : Sorted key l) (hfresh : find key (key a) l = none) :
    Sorted key (insert key a l) := by
  have hbefore : Sorted key (below key (key a) l) := hsorted.sublist (List.takeWhile_sublist _)
  have hafter : Sorted key (atLeast key (key a) l) := hsorted.sublist (List.dropWhile_sublist _)
  have hgt : ∀ b ∈ atLeast key (key a) l, key a < key b := by
    intro b hb
    have hne : key b ≠ key a := find_eq_none_iff.mp hfresh b (mem_of_mem_atLeast hb)
    exact lt_of_le_of_ne (hsorted.le_key_of_mem_atLeast hb) hne.symm
  refine List.pairwise_append.mpr ⟨hbefore, List.pairwise_cons.mpr ⟨hgt, hafter⟩, ?_⟩
  intro b hb
  have hba : key b < key a := key_lt_of_mem_below hb
  exact List.forall_mem_cons.mpr ⟨hba, fun c hc => lt_trans hba (hgt c hc)⟩

theorem Sorted.erase (hsorted : Sorted key l) (k : κ) : Sorted key (erase key k l) :=
  hsorted.sublist List.filter_sublist

theorem mem_erase : a ∈ erase key k l ↔ a ∈ l ∧ key a ≠ k := by
  simp [erase]

end KeyedLists
