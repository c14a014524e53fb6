import Mathlib.Tactic

/-!
# Windows of a ring

A ring of `depth` cells holds a queue in the cells from `head` up to, but not
including, `tail`, counted around the end of the ring.  The queue grows when
entries are written behind the tail and the tail advances, and it shrinks when
the head advances towards the tail.  One cell always stays free, so that an
empty and a full ring are not confused.
-/

namespace RingWindows

variable {α : Type*}

/-- The cell `i` places behind `head`. -/
def slot (depth head i : ℕ) : ℕ := (head + i) % depth

/-- The number of cells from `head` up to `tail`. -/
def span (depth head tail : ℕ) : ℕ := (tail + depth - head) % depth

def InWindow (depth head tail cell : ℕ) : Prop :=
  ∃ i, i < span depth head tail ∧ cell = slot depth head i

def contents (cells : ℕ → α) (depth head tail : ℕ) : List α :=
  (List.range (span depth head tail)).map fun i => cells (slot depth head i)

variable {depth head tail : ℕ}

theorem slot_lt (hdepth : 0 < depth) (i : ℕ) : slot depth head i < depth := Nat.mod_lt _ hdepth

variable {i : ℕ}

theorem slot_eq_ite (hhead : head < depth) (hi : i ≤ depth) : slot depth head i =
      if head + i < depth then head + i else head + i - depth := by
  unfold slot
  split_ifs with hlt
  · exact Nat.mod_eq_of_lt hlt
  · rw [Nat.mod_eq_sub_mod (by omega)]
    exact Nat.mod_eq_of_lt (by omega)

theorem span_lt (hdepth : 0 < depth) : span depth head tail < depth := Nat.mod_lt _ hdepth

theorem slot_slot (i j : ℕ) : slot depth (slot depth head i) j = slot depth head (i + j) := by
  unfold slot
  rw [Nat.mod_add_mod, add_assoc]

variable {j : ℕ}

theorem slot_injective (hhead : head < depth) (hi : i < depth) (hj : j < depth)
    (heq : slot depth head i = slot depth head j) : i = j := by
  rw [slot_eq_ite hhead hi.le, slot_eq_ite hhead hj.le] at heq
  split_ifs at heq <;> omega

theorem contents_length (cells : ℕ → α) (depth head tail : ℕ) :
    (contents cells depth head tail).length = span depth head tail := by
  simp [contents]

section

variable (hhead : head < depth) (htail : tail < depth)

include hhead htail

theorem span_eq_ite :
    span depth head tail = if head ≤ tail then tail - head else tail + depth - head := by
  unfold span
  split_ifs with hle
  · have hsum : tail + depth - head = (tail - head) + depth := by omega
    rw [hsum, Nat.add_mod_right]
    exact Nat.mod_eq_of_lt (by omega)
  · exact Nat.mod_eq_of_lt (by omega)

theorem slot_span : slot depth head (span depth head tail) = tail := by
  have hspan : span depth head tail ≤ depth := (span_lt (by omega)).le
  rw [slot_eq_ite hhead hspan, span_eq_ite hhead htail]
  split_ifs <;> omega

variable {k : ℕ}

theorem span_advance (hk : k ≤ span depth head tail) :
    span depth (slot depth head k) tail = span depth head tail - k := by
  have hdepth : 0 < depth := by omega
  have hkd : k ≤ depth := le_trans hk (span_lt hdepth).le
  rw [span_eq_ite (slot_lt hdepth k) htail]
  rw [slot_eq_ite hhead hkd]
  rw [span_eq_ite hhead htail] at hk ⊢
  split_ifs at hk ⊢ <;> omega

theorem contents_advance (cells : ℕ → α) (hk : k ≤ span depth head tail) :
    contents cells depth (slot depth head k) tail = (contents cells depth head tail).drop k := by
  apply List.ext_getElem
  · rw [List.length_drop, contents_length, contents_length, span_advance hhead htail hk]
  · intro i hleft hright
    simp only [contents, List.getElem_map, List.getElem_range, List.getElem_drop, slot_slot]

theorem slot_tail (j : ℕ) : slot depth tail j = slot depth head (span depth head tail + j) := by
  rw [← slot_slot, slot_span hhead htail]

theorem not_inWindow_behind_tail (hj : span depth head tail + j < depth) :
    ¬InWindow depth head tail (slot depth tail j) := by
  rintro ⟨i, hi, heq⟩
  rw [slot_tail hhead htail] at heq
  have hindex := slot_injective hhead hj (by omega) heq
  omega

theorem span_extend {n : ℕ} (hn : span depth head tail + n < depth) :
    span depth head (slot depth tail n) = span depth head tail + n := by
  have hdepth : 0 < depth := by omega
  rw [span_eq_ite hhead (slot_lt hdepth n), slot_eq_ite htail (by omega)]
  rw [span_eq_ite hhead htail] at hn ⊢
  split_ifs at hn ⊢ <;> omega

theorem contents_extend {cells cells' : ℕ → α} {batch : List α}
    (hroom : span depth head tail + batch.length < depth)
    (hkept : ∀ cell, InWindow depth head tail cell → cells' cell = cells cell)
    (hwritten : ∀ j (hj : j < batch.length), cells' (slot depth tail j) = batch[j]) :
    contents cells' depth head (slot depth tail batch.length) =
      contents cells depth head tail ++ batch := by
  apply List.ext_getElem
  · rw [List.length_append, contents_length, contents_length, span_extend hhead htail hroom]
  · intro i hleft hright
    rw [contents_length, span_extend hhead htail hroom] at hleft
    simp only [contents, List.getElem_map, List.getElem_range]
    by_cases hi : i < span depth head tail
    · rw [List.getElem_append_left (by simpa using hi)]
      simp only [List.getElem_map, List.getElem_range]
      exact hkept _ ⟨i, hi, rfl⟩
    · rw [List.getElem_append_right (by simpa using hi)]
      simp only [List.length_map, List.length_range]
      have hsplit : i = span depth head tail + (i - span depth head tail) := by omega
      have hcell : slot depth head i =
          slot depth tail (i - span depth head tail) := by
        rw [slot_tail hhead htail, ← hsplit]
      rw [hcell]
      exact hwritten _ (by omega)

end

end RingWindows
