import Mathlib.Data.List.GetD
import Hixl.ByteTilings

/-!
# Copies through staging areas

A copy is a list of slices; each moves its bytes in order from one place to
another, with addresses modulo the size `m` of the address space.  Three copies
in a row carry a byte along a route into one staging area, into another, and
out.  When the slices lie one after the other in both, every byte has one route.
-/

namespace StagedCopies

open ByteTilings

variable {α β γ δ : Type*}

section Routes

variable [DecidableEq α] [DecidableEq β] [DecidableEq γ] [DecidableEq δ]

def routes (first : Finset (α × β)) (second : Finset (β × γ))
    (third : Finset (γ × δ)) : Finset (α × β × γ × δ) :=
  ((first ×ˢ second ×ˢ third).filter fun r =>
    r.1.2 = r.2.1.1 ∧ r.2.1.2 = r.2.2.1).image fun r => (r.1.1, r.1.2, r.2.2.1, r.2.2.2)

def moved (first : Finset (α × β)) (second : Finset (β × γ))
    (third : Finset (γ × δ)) : Multiset (α × δ) :=
  (routes first second third).val.map fun r => (r.1, r.2.2.2)

theorem mem_routes {first : Finset (α × β)} {second : Finset (β × γ)}
    {third : Finset (γ × δ)} {a : α} {b : β} {c : γ} {d : δ} :
    (a, b, c, d) ∈ routes first second third ↔
      (a, b) ∈ first ∧ (b, c) ∈ second ∧ (c, d) ∈ third := by
  simp only [routes, Finset.mem_image, Finset.mem_filter, Finset.mem_product,
    Prod.mk.injEq, Prod.exists]
  constructor
  · rintro ⟨a, b, b', c, c', d, ⟨⟨hfirst, hsecond, hthird⟩, rfl, rfl⟩, rfl, rfl, rfl, rfl⟩
    exact ⟨hfirst, hsecond, hthird⟩
  · rintro ⟨hfirst, hsecond, hthird⟩
    exact ⟨a, b, b, c, c, d, ⟨⟨hfirst, hsecond, hthird⟩, rfl, rfl⟩, rfl, rfl, rfl, rfl⟩

variable {b : ℕ → β} {c : ℕ → γ} {n : ℕ} {f : ℕ → α} {g : ℕ → δ}

section

variable (hb : Set.InjOn b (Finset.range n)) (hc : Set.InjOn c (Finset.range n))

include hb hc

/-- Stages whose places are numbered alike, with different places for different
numbers in both staging areas. -/
theorem routes_of_lanes :
    routes ((Finset.range n).image fun i => (f i, b i)) ((Finset.range n).image fun i => (b i, c i))
        ((Finset.range n).image fun i => (c i, g i)) =
      (Finset.range n).image fun i => (f i, b i, c i, g i) := by
  ext ⟨x, y, z, w⟩
  rw [mem_routes]
  simp only [Finset.mem_image, Prod.mk.injEq]
  constructor
  · rintro ⟨⟨i, hi, rfl, rfl⟩, ⟨j, hj, hij, rfl⟩, ⟨k, hk, hjk, rfl⟩⟩
    have hsame : j = i := hb (Finset.mem_coe.mpr hj) (Finset.mem_coe.mpr hi) hij
    have hsame' : k = j := hc (Finset.mem_coe.mpr hk) (Finset.mem_coe.mpr hj) hjk
    subst hsame' hsame
    exact ⟨_, hi, rfl, rfl, rfl, rfl⟩
  · rintro ⟨i, hi, rfl, rfl, rfl, rfl⟩
    exact ⟨⟨i, hi, rfl, rfl⟩, ⟨i, hi, rfl, rfl⟩, ⟨i, hi, rfl, rfl⟩⟩

theorem moved_of_lanes :
    moved ((Finset.range n).image fun i => (f i, b i)) ((Finset.range n).image fun i => (b i, c i))
        ((Finset.range n).image fun i => (c i, g i)) =
      (Multiset.range n).map fun i => (f i, g i) := by
  have hinj : Set.InjOn (fun i => (f i, b i, c i, g i)) (Finset.range n) := by
    intro i hi j hj heq
    exact hb hi hj (Prod.mk.inj (Prod.mk.inj heq).2).1
  rw [moved, routes_of_lanes hb hc, Finset.image_val_of_injOn hinj, Multiset.map_map]
  rfl

end

end Routes

/-! ## Slices -/

structure Slice where
  src : ℕ
  dst : ℕ
  size : ℕ
  deriving DecidableEq, Repr

def lane (m : ℕ) (addr len : α → ℕ) (pieces : List α) : List ℕ :=
  pieces.flatMap fun piece => (List.range (len piece)).map fun k => (addr piece + k) % m

def Slice.moves (m : ℕ) (s : Slice) : List (ℕ × ℕ) :=
  (List.range s.size).map fun k => ((s.src + k) % m, (s.dst + k) % m)

def stage (m : ℕ) (slices : List Slice) : Finset (ℕ × ℕ) :=
  (slices.flatMap (Slice.moves m)).toFinset

theorem moves_cut (m src dst cut rest : ℕ) : Slice.moves m ⟨src, dst, cut + rest⟩ =
      Slice.moves m ⟨src, dst, cut⟩ ++ Slice.moves m ⟨(src + cut) % m, (dst + cut) % m, rest⟩ := by
  simp only [Slice.moves, List.range_add, List.map_append, List.map_map]
  congr 1
  apply List.map_congr_left
  intro k _
  simp only [Function.comp_apply, Nat.mod_add_mod, Nat.add_assoc]

variable {m : ℕ} {slices : List Slice}

theorem mem_stage_iff {move : ℕ × ℕ} : move ∈ stage m slices ↔ ∃ s ∈ slices, move ∈ s.moves m := by
  rw [stage, List.mem_toFinset, List.mem_flatMap]

theorem stage_congr {slices' : List Slice} (hsame : ∀ s, s ∈ slices ↔ s ∈ slices') :
    stage m slices = stage m slices' := by
  ext move
  simp only [mem_stage_iff, hsame]

theorem flatMap_moves (m : ℕ) (src dst len : α → ℕ) (pieces : List α) : (pieces.flatMap fun piece =>
        Slice.moves m ⟨src piece, dst piece, len piece⟩) =
      (List.range (total len pieces)).map fun i =>
        ((lane m src len pieces).getD i 0, (lane m dst len pieces).getD i 0) := by
  have hzip : (pieces.flatMap fun piece => Slice.moves m ⟨src piece, dst piece, len piece⟩) =
      (lane m src len pieces).zip (lane m dst len pieces) := by
    induction pieces with
    | nil => rfl
    | cons piece rest ih =>
      simp only [lane, List.flatMap_cons] at ih ⊢
      rw [List.zip_append (by simp), ← ih, List.zip_map', Slice.moves]
  have hlength : ∀ addr : α → ℕ, (lane m addr len pieces).length = total len pieces := by
    simp [lane, total, List.length_flatMap]
  rw [hzip]
  refine List.ext_getElem (by simp [hlength]) fun i hi hi' => ?_
  rw [List.length_map, List.length_range] at hi'
  simp [hlength, hi']

variable {base : ℕ} {addr len : α → ℕ} {pieces : List α}

section

variable (hfollows : Follows len addr base pieces) (hfits : base + total len pieces ≤ m)

include hfollows hfits

theorem lane_of_follows :
    lane m addr len pieces = (List.range (total len pieces)).map fun i => base + i := by
  induction pieces generalizing base with
  | nil => rfl
  | cons piece rest ih =>
    rw [total_cons] at hfits
    have hrest := ih hfollows.2 (by omega)
    unfold lane at hrest ⊢
    rw [List.flatMap_cons, hrest, total_cons, List.range_add, List.map_append, List.map_map]
    congr 1
    · apply List.map_congr_left
      intro k hk
      have hlt : k < len piece := List.mem_range.mp hk
      rw [hfollows.1]
      exact Nat.mod_eq_of_lt (by omega)
    · apply List.map_congr_left
      intro k _
      rw [Function.comp_apply, Nat.add_assoc]

theorem getD_lane_of_follows {i : ℕ} (hi : i < total len pieces) :
    (lane m addr len pieces).getD i 0 = base + i := by
  rw [lane_of_follows hfollows hfits]
  simp [List.getD, hi]

end

theorem stage_map (m : ℕ) (src dst len : α → ℕ) (pieces : List α) :
    stage m (pieces.map fun piece => ⟨src piece, dst piece, len piece⟩) =
      (Finset.range (total len pieces)).image fun i =>
        ((lane m src len pieces).getD i 0, (lane m dst len pieces).getD i 0) := by
  rw [stage, List.flatMap_map, flatMap_moves]
  ext x
  simp

theorem moved_of_follows {base' : ℕ} {src first second dst : α → ℕ}
    (hfirst : Follows len first base pieces) (hsecond : Follows len second base' pieces)
    (hfits : base + total len pieces ≤ m) (hfits' : base' + total len pieces ≤ m) :
    moved (stage m (pieces.map fun p => ⟨src p, first p, len p⟩))
        (stage m [⟨base, base', total len pieces⟩])
        (stage m (pieces.map fun p => ⟨second p, dst p, len p⟩)) =
      (pieces.flatMap fun p => Slice.moves m ⟨src p, dst p, len p⟩ : List (ℕ × ℕ)) := by
  set n := total len pieces with hn
  have hmiddle : stage m [⟨base, base', n⟩] =
      (Finset.range n).image fun i => (base + i, base' + i) := by
    ext x
    simp only [stage, Slice.moves, List.flatMap_cons, List.flatMap_nil,
      List.append_nil, List.mem_toFinset, List.mem_map, List.mem_range,
      Finset.mem_image, Finset.mem_range]
    refine exists_congr fun i => and_congr_right fun hi => ?_
    rw [Nat.mod_eq_of_lt (by omega), Nat.mod_eq_of_lt (by omega)]
  have hin : stage m (pieces.map fun p => ⟨src p, first p, len p⟩) = (Finset.range n).image fun i =>
        ((lane m src len pieces).getD i 0, base + i) := by
    rw [stage_map, ← hn]
    apply Finset.image_congr
    intro i hi
    have hlt : i < n := Finset.mem_range.mp (Finset.mem_coe.mp hi)
    simp only [getD_lane_of_follows hfirst hfits hlt]
  have hout : stage m (pieces.map fun p => ⟨second p, dst p, len p⟩) =
      (Finset.range n).image fun i => (base' + i, (lane m dst len pieces).getD i 0) := by
    rw [stage_map, ← hn]
    apply Finset.image_congr
    intro i hi
    have hlt : i < n := Finset.mem_range.mp (Finset.mem_coe.mp hi)
    simp only [getD_lane_of_follows hsecond hfits' hlt]
  have hinj : ∀ start : ℕ,
      Set.InjOn (fun i => start + i) (Finset.range n : Finset ℕ) :=
    fun start i _ j _ heq => Nat.add_left_cancel heq
  rw [hin, hmiddle, hout, moved_of_lanes (hinj base) (hinj base'), flatMap_moves, ← hn]
  rfl

end StagedCopies
