import Mathlib.Tactic

/-!
# Words in a byte memory

A memory is a function from addresses to bytes.  Words are little endian.  What
a writer stores at one place is still there after stores at later places, and a
reader that only looks at some bytes cannot tell apart two memories that agree
on them.
-/

namespace ByteMemory

variable {mem mem' : ℕ → UInt8} {offset : ℕ} {bytes : List UInt8}

def word (mem : ℕ → UInt8) (offset : ℕ) : ℕ → ℕ
  | 0 => 0
  | k + 1 => (mem offset).toNat + 256 * word mem (offset + 1) k

def bytesOf : ℕ → ℕ → List UInt8
  | 0, _ => []
  | k + 1, n => UInt8.ofNat n :: bytesOf k (n / 256)

def store (mem : ℕ → UInt8) (offset : ℕ) (bytes : List UInt8) : ℕ → UInt8 := fun i =>
  if offset ≤ i then (bytes[i - offset]?).getD (mem i) else mem i

/-- Records are stored one after the other from an offset on. -/
def storeAll {α : Type} (size : α → ℕ) (bytes : α → List UInt8) :
    List α → ℕ → (ℕ → UInt8) → ℕ × (ℕ → UInt8)
  | [], offset, mem => (offset, mem)
  | a :: rest, offset, mem =>
    storeAll size bytes rest (offset + size a) (store mem offset (bytes a))

def Holds (mem : ℕ → UInt8) (offset : ℕ) (bytes : List UInt8) : Prop :=
  ∀ i b, bytes[i]? = some b → mem (offset + i) = b

@[simp] theorem length_bytesOf (k n : ℕ) : (bytesOf k n).length = k := by
  induction k generalizing n with
  | zero => rfl
  | succ k ih => rw [bytesOf, List.length_cons, ih]

theorem word_congr {k : ℕ} (hagree : ∀ i, offset ≤ i → i < offset + k → mem i = mem' i) :
    word mem offset k = word mem' offset k := by
  induction k generalizing offset with
  | zero => rfl
  | succ k ih =>
    rw [word, word, hagree offset le_rfl (by omega),
      ih fun i hle hlt => hagree i (by omega) (by omega)]

namespace Holds

theorem cons {b : UInt8} (hholds : Holds mem offset (b :: bytes)) :
    mem offset = b ∧ Holds mem (offset + 1) bytes := by
  refine ⟨hholds 0 b rfl, fun i c hc => ?_⟩
  rw [Nat.add_right_comm, Nat.add_assoc]
  exact hholds (i + 1) c hc

theorem append {more : List UInt8} (hholds : Holds mem offset (bytes ++ more)) :
    Holds mem offset bytes ∧ Holds mem (offset + bytes.length) more := by
  refine ⟨fun i b hb => ?_, fun i b hb => ?_⟩
  · obtain ⟨hlt, -⟩ := List.getElem?_eq_some_iff.mp hb
    exact hholds i b (by rwa [List.getElem?_append_left hlt])
  · rw [Nat.add_assoc]
    exact hholds _ b (by rwa [List.getElem?_append_right (by omega), Nat.add_sub_cancel_left])

theorem congr (hholds : Holds mem offset bytes)
    (hagree : ∀ i, offset ≤ i → i < offset + bytes.length → mem' i = mem i) :
    Holds mem' offset bytes := by
  intro i b hb
  obtain ⟨hlt, -⟩ := List.getElem?_eq_some_iff.mp hb
  rw [hagree _ (by omega) (by omega)]
  exact hholds i b hb

theorem word_eq {k n : ℕ} (hholds : Holds mem offset (bytesOf k n)) (hlt : n < 256 ^ k) :
    word mem offset k = n := by
  induction k generalizing offset n with
  | zero => exact (Nat.lt_one_iff.mp hlt).symm
  | succ k ih =>
    obtain ⟨hfirst, hrest⟩ := hholds.cons
    have hsmall : n / 256 < 256 ^ k := Nat.div_lt_of_lt_mul (by rwa [← Nat.pow_succ'])
    rw [word, hfirst, ih hrest hsmall]
    exact Nat.mod_add_div n 256

end Holds

theorem holds_store : Holds (store mem offset bytes) offset bytes := by
  intro i b hb
  simp [store, hb]

theorem store_of_lt {i : ℕ} (hlt : i < offset) : store mem offset bytes i = mem i :=
  if_neg (by omega)

section Records

variable {α : Type} {size : α → ℕ} {record : α → List UInt8} {l : List α}

/-- The records stand one after the other. -/
def HoldsAll (size : α → ℕ) (record : α → List UInt8) (mem : ℕ → UInt8) : List α → ℕ → Prop
  | [], _ => True
  | a :: rest, offset =>
    Holds mem offset (record a) ∧ HoldsAll size record mem rest (offset + size a)

variable (hsize : ∀ a, (record a).length = size a)

include hsize

theorem HoldsAll.congr (hholds : HoldsAll size record mem l offset)
    (hagree : ∀ i, offset ≤ i → i < offset + (l.map size).sum → mem' i = mem i) :
    HoldsAll size record mem' l offset := by
  induction l generalizing offset with
  | nil => trivial
  | cons a rest ih =>
    rw [List.map_cons, List.sum_cons] at hagree
    refine ⟨hholds.1.congr fun i hle hlt => hagree i hle ?_,
      ih hholds.2 fun i hle hlt => hagree i (by omega) (by omega)⟩
    rw [hsize] at hlt
    omega

theorem storeAll_spec (l : List α) (offset : ℕ) (mem : ℕ → UInt8) :
    (storeAll size record l offset mem).1 = offset + (l.map size).sum ∧
      HoldsAll size record (storeAll size record l offset mem).2 l offset ∧
      ∀ i < offset, (storeAll size record l offset mem).2 i = mem i := by
  induction l generalizing offset mem with
  | nil => exact ⟨rfl, trivial, fun _ _ => rfl⟩
  | cons a rest ih =>
    obtain ⟨hoffset, hholds, hbelow⟩ := ih (offset + size a) (store mem offset (record a))
    refine ⟨hoffset.trans (Nat.add_assoc _ _ _), ⟨?_, hholds⟩, fun i hlt => ?_⟩
    · exact holds_store.congr fun i _ hlt => hbelow i (hsize a ▸ hlt)
    · exact (hbelow i (by omega)).trans (store_of_lt hlt)

end Records

end ByteMemory
