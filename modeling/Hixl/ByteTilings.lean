import Mathlib.Tactic

/-!
# Tilings of byte ranges

A list of pieces is laid along a lane: every piece starts where the one before
it ended.  A piece can stand in several lanes at once, for example in the
source and in the destination of a copy; its offset from the start is then the
same in all of them.
-/

namespace ByteTilings

variable {α β : Type*}

/-- The pieces lie one after the other on the lane, from `base` on. -/
def Follows (len lane : α → ℕ) : ℕ → List α → Prop
  | _, [] => True
  | base, piece :: rest => lane piece = base ∧ Follows len lane (base + len piece) rest

def total (len : α → ℕ) (pieces : List α) : ℕ := (pieces.map len).sum

/-- The pieces cut the `size` bytes from `base` on, in order, without gap or
overlap. -/
structure Tiles (len lane : α → ℕ) (base size : ℕ) (pieces : List α) :
    Prop where
  follows : Follows len lane base pieces
  total_eq : total len pieces = size

variable {len lane lane' : α → ℕ}

@[simp] theorem total_nil : total len ([] : List α) = 0 := rfl

@[simp] theorem total_cons (piece : α) (rest : List α) :
    total len (piece :: rest) = len piece + total len rest := by
  simp [total]

@[simp] theorem total_append (left right : List α) :
    total len (left ++ right) = total len left + total len right := by
  simp [total]

@[simp] theorem follows_cons (base : ℕ) (piece : α) (rest : List α) :
    Follows len lane base (piece :: rest) ↔
      lane piece = base ∧ Follows len lane (base + len piece) rest :=
  Iff.rfl

variable {base : ℕ} {left right : List α}

theorem follows_append : Follows len lane base (left ++ right) ↔ Follows len lane base left ∧
        Follows len lane (base + total len left) right := by
  induction left generalizing base with
  | nil => simp [Follows]
  | cons piece left ih =>
    rw [List.cons_append, follows_cons, follows_cons, ih, total_cons, add_assoc, and_assoc]

variable {pieces : List α} {piece : α}

section

variable (hfollows : Follows len lane base pieces)

include hfollows

theorem Follows.bounds (hpiece : piece ∈ pieces) :
    base ≤ lane piece ∧ lane piece + len piece ≤ base + total len pieces := by
  induction pieces generalizing base with
  | nil => cases hpiece
  | cons first rest ih =>
    rw [total_cons]
    rcases List.mem_cons.mp hpiece with rfl | hrest
    · have hlane := hfollows.1
      omega
    · have hbounds := ih hfollows.2 hrest
      omega

theorem Follows.exists_piece {byte : ℕ} (hlow : base ≤ byte)
    (hhigh : byte < base + total len pieces) :
    ∃ piece ∈ pieces, lane piece ≤ byte ∧ byte < lane piece + len piece := by
  induction pieces generalizing base with
  | nil =>
    rw [total_nil] at hhigh
    omega
  | cons first rest ih =>
    rw [follows_cons] at hfollows
    rw [total_cons] at hhigh
    by_cases hfirst : byte < base + len first
    · exact ⟨first, List.mem_cons_self, by omega, by omega⟩
    · obtain ⟨piece, hpiece, hbounds⟩ := ih hfollows.2 (by omega) (by omega)
      exact ⟨piece, List.mem_cons_of_mem _ hpiece, hbounds⟩

theorem Follows.same_offset {base' : ℕ} (hfollows' : Follows len lane' base' pieces)
    (hpiece : piece ∈ pieces) : lane piece + base' = lane' piece + base := by
  induction pieces generalizing base base' with
  | nil => cases hpiece
  | cons first rest ih =>
    rcases List.mem_cons.mp hpiece with rfl | hrest
    · rw [hfollows.1, hfollows'.1, add_comm]
    · have hoffset := ih hfollows.2 hfollows'.2 hrest
      omega

theorem Follows.shift (base' : ℕ) :
    Follows len (fun piece => base' + (lane piece - base)) base' pieces := by
  have hshift : ∀ (start : ℕ) (pieces : List α), base ≤ start → Follows len lane start pieces →
        Follows len (fun piece => base' + (lane piece - base)) (base' + (start - base)) pieces := by
    intro start pieces
    induction pieces generalizing start with
    | nil => exact fun _ _ => trivial
    | cons piece rest ih =>
      intro hstart hfollows
      rw [follows_cons] at hfollows ⊢
      have hrest := ih (start + len piece) (by omega) hfollows.2
      have hplace : base' + (start + len piece - base) =
          base' + (start - base) + len piece := by omega
      rw [hplace] at hrest
      exact ⟨by rw [hfollows.1], hrest⟩
  have hstart := hshift base pieces le_rfl hfollows
  rwa [Nat.sub_self, Nat.add_zero] at hstart

end

variable {size : ℕ}

theorem Tiles.append {size' : ℕ} (hleft : Tiles len lane base size left)
    (hright : Tiles len lane (base + size) size' right) :
    Tiles len lane base (size + size') (left ++ right) := by
  refine ⟨follows_append.mpr ⟨hleft.follows, ?_⟩, ?_⟩
  · rw [hleft.total_eq]
    exact hright.follows
  · rw [total_append, hleft.total_eq, hright.total_eq]

theorem Tiles.exists_last (htiles : Tiles len lane base size pieces) (hne : pieces ≠ []) :
    ∃ piece ∈ pieces, lane piece + len piece = base + size := by
  refine ⟨pieces.getLast hne, List.getLast_mem hne, ?_⟩
  have hfollows := htiles.follows
  have htotal := htiles.total_eq
  rw [← List.dropLast_concat_getLast hne] at hfollows htotal
  rw [follows_append, follows_cons] at hfollows
  rw [total_append, total_cons, total_nil] at htotal
  omega

theorem Tiles.singleton (hlane : lane piece = base) : Tiles len lane base (len piece) [piece] :=
  ⟨⟨hlane, trivial⟩, by simp⟩

theorem Follows.flatMap_slices (hfollows : Follows len lane base pieces) (l : List β) :
    (pieces.flatMap fun piece => (l.drop (lane piece)).take (len piece)) =
      (l.drop base).take (total len pieces) := by
  induction pieces generalizing base with
  | nil => simp
  | cons piece rest ih =>
    rw [List.flatMap_cons, ih hfollows.2, hfollows.1, total_cons, List.take_add, List.drop_drop]

theorem Tiles.of_forall₂ {len' lane' : β → ℕ} {pieces' : List β} (hsame : List.Forall₂
      (fun piece piece' => len' piece' = len piece ∧
        lane' piece' = lane piece) pieces pieces') (htiles : Tiles len lane base size pieces) :
    Tiles len' lane' base size pieces' := by
  induction hsame generalizing base size with
  | nil => exact ⟨trivial, htiles.total_eq⟩
  | cons hpiece hrest ih =>
    have hfollows := htiles.follows
    have htotal := htiles.total_eq
    have htail := ih ⟨hfollows.2, rfl⟩
    constructor
    · rw [follows_cons, hpiece.1, hpiece.2]
      exact ⟨hfollows.1, htail.follows⟩
    · rwa [total_cons, hpiece.1, htail.total_eq]

end ByteTilings
