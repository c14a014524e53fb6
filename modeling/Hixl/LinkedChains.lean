import Mathlib.Tactic

/-!
# Doubly linked chains

Nodes carry a link to their predecessor and to their successor.  A list of
nodes is linked when the links of every node name its neighbours in the list;
the ends are linked to what stands before and behind.  Linking a new node
behind a node and unlinking the successor of a node keep the chain linked.
-/

namespace LinkedChains

variable {π : Type*}

structure Links (π : Type*) where
  prev : π → Option π
  next : π → Option π

def Linked (links : Links π) : Option π → List π → Option π → Prop
  | _, [], _ => True
  | before, node :: rest, after =>
    links.prev node = before ∧ links.next node = rest.head?.or after ∧
      Linked links (some node) rest after

def walk (next : π → Option π) : ℕ → Option π → List π
  | 0, _ => []
  | _ + 1, none => []
  | fuel + 1, some node => node :: walk next fuel (next node)

variable {links links' : Links π} {before after : Option π} {xs ys : List π} {node other : π}

theorem linked_append :
    Linked links before (xs ++ ys) after ↔ Linked links before xs (ys.head?.or after) ∧
        Linked links (xs.getLast?.or before) ys after := by
  induction xs generalizing before with
  | nil => simp [Linked]
  | cons first rest ih =>
    rw [List.cons_append, Linked, Linked, ih, List.head?_append,
      List.getLast?_cons, Option.or_assoc]
    have hlast : ((some (rest.getLast?.getD first)).or before) =
        rest.getLast?.or (some first) := by
      cases rest.getLast? <;> rfl
    rw [hlast]
    tauto

theorem Linked.congr (hlinked : Linked links before xs after)
    (hsame : ∀ p ∈ xs, links'.prev p = links.prev p ∧ links'.next p = links.next p) :
    Linked links' before xs after := by
  induction xs generalizing before with
  | nil => exact trivial
  | cons first rest ih =>
    rcases hlinked with ⟨hprev, hnext, hrest⟩
    rcases hsame first List.mem_cons_self with ⟨hprev', hnext'⟩
    exact ⟨hprev'.trans hprev, hnext'.trans hnext,
      ih hrest fun p hp => hsame p (List.mem_cons_of_mem _ hp)⟩

theorem Linked.congr_tail (hlinked : Linked links before xs after) (hnodup : xs.Nodup)
    {before' : Option π} (hfirst : ∀ p, xs.head? = some p → links'.prev p = before')
    (hprev : ∀ p ∈ xs, xs.head? ≠ some p → links'.prev p = links.prev p)
    (hnext : ∀ p ∈ xs, links'.next p = links.next p) : Linked links' before' xs after := by
  cases xs with
  | nil => exact trivial
  | cons first rest =>
    rcases hlinked with ⟨_, hnext₀, hrest⟩
    refine ⟨hfirst first rfl, (hnext first List.mem_cons_self).trans hnext₀, hrest.congr ?_⟩
    intro p hp
    have hne : first ≠ p := by
      rintro rfl
      exact (List.nodup_cons.mp hnodup).1 hp
    exact ⟨hprev p (List.mem_cons_of_mem _ hp) (by simpa using hne),
      hnext p (List.mem_cons_of_mem _ hp)⟩

theorem Linked.prev_eq (hlinked : Linked links before (xs ++ node :: ys) after) :
    links.prev node = xs.getLast?.or before :=
  (linked_append.mp hlinked).2.1

theorem Linked.next_eq (hlinked : Linked links before (xs ++ node :: ys) after) :
    links.next node = ys.head?.or after :=
  (linked_append.mp hlinked).2.2.1

/-! ## Linking and unlinking -/

/-- How the links change around `node` and `other`; what stands behind them has
a new predecessor. -/
structure Relinked (links links' : Links π) (node other : π) (behind : Option π) (last : π) :
    Prop where
  prev_after : ∀ p, behind = some p → links'.prev p = some last
  next_rest : ∀ p, p ≠ node → p ≠ other → links'.next p = links.next p
  prev_rest : ∀ p, p ≠ other → behind ≠ some p → links'.prev p = links.prev p

/-- The chains on both sides of the change stay linked. -/
theorem Relinked.outer {front : Option π} {last : π}
    (hchange : Relinked links links' node other ys.head? last) (hnodup : (xs ++ node :: ys).Nodup)
    (hfresh : other ∉ xs ++ node :: ys) (hleft : Linked links before xs (some node))
    (hright : Linked links front ys none) : Linked links' before xs (some node) ∧
      links'.prev node = links.prev node ∧ Linked links' (some last) ys none := by
  have hother : ∀ p ∈ xs ++ node :: ys, p ≠ other := fun p hp => ne_of_mem_of_not_mem hp hfresh
  have hhead : ∀ p ∉ ys, ys.head? ≠ some p := fun p hp hsame => hp (List.mem_of_mem_head? hsame)
  obtain ⟨hnode, hys⟩ := List.nodup_cons.mp hnodup.of_append_right
  refine ⟨hleft.congr ?_, ?_, hright.congr_tail hys hchange.prev_after ?_ ?_⟩
  · intro p hp
    have hne := hother p (List.mem_append_left _ hp)
    obtain ⟨hp', hnot⟩ := not_or.mp (mt List.mem_cons.mpr (List.disjoint_of_nodup_append hnodup hp))
    exact ⟨hchange.prev_rest p hne (hhead p hnot), hchange.next_rest p hp' hne⟩
  · exact hchange.prev_rest node (hother node (by simp)) (hhead node hnode)
  · exact fun p hp hne => hchange.prev_rest p (hother p (by simp [hp])) hne
  · intro p hp
    exact hchange.next_rest p (ne_of_mem_of_not_mem hp hnode) (hother p (by simp [hp]))

/-- How the links change when `other` is linked in behind `node`. -/
structure LinkedIn (links links' : Links π) (node other : π) : Prop
    extends Relinked links links' node other (links.next node) other where
  next_node : links'.next node = some other
  next_other : links'.next other = links.next node
  prev_other : links'.prev other = some node

theorem Linked.linkIn (hlinked : Linked links before (xs ++ node :: ys) none)
    (hnodup : (xs ++ node :: ys).Nodup) (hfresh : other ∉ xs ++ node :: ys)
    (hchange : LinkedIn links links' node other) :
    Linked links' before (xs ++ node :: other :: ys) none := by
  obtain ⟨hleft, hprev, hnext, hright⟩ := linked_append.mp hlinked
  rw [Option.or_none] at hnext
  have houter := hchange.toRelinked
  rw [hnext] at houter
  obtain ⟨hleft', hnode, hright'⟩ := houter.outer hnodup hfresh hleft hright
  refine linked_append.mpr
    ⟨hleft', hnode.trans hprev, hchange.next_node, hchange.prev_other, ?_, hright'⟩
  rw [hchange.next_other, hnext, Option.or_none]

/-- How the links of the remaining nodes change when `other` is unlinked behind
`node`. -/
structure LinkedOut (links links' : Links π) (node other : π) : Prop
    extends Relinked links links' node other (links.next other) node where
  next_node : links'.next node = links.next other

theorem Linked.linkOut (hlinked : Linked links before (xs ++ node :: other :: ys) none)
    (hnodup : (xs ++ node :: other :: ys).Nodup) (hchange : LinkedOut links links' node other) :
    Linked links' before (xs ++ node :: ys) none := by
  obtain ⟨hleft, hprev, -, -, hnext, hright⟩ := linked_append.mp hlinked
  rw [Option.or_none] at hnext
  have houter := hchange.toRelinked
  rw [hnext] at houter
  have hperm : (xs ++ node :: other :: ys).Perm (other :: (xs ++ node :: ys)) :=
    ((List.Perm.swap _ _ _).append_left _).trans List.perm_middle
  obtain ⟨hfresh, hrest⟩ := List.nodup_cons.mp (hperm.nodup_iff.mp hnodup)
  obtain ⟨hleft', hnode, hright'⟩ := houter.outer hrest hfresh hleft hright
  refine linked_append.mpr ⟨hleft', hnode.trans hprev, ?_, hright'⟩
  rw [hchange.next_node, hnext, Option.or_none]

theorem Linked.walk_eq (hlinked : Linked links before xs none) {fuel : ℕ}
    (hfuel : xs.length ≤ fuel) : walk links.next fuel xs.head? = xs := by
  induction xs generalizing before fuel with
  | nil => cases fuel <;> rfl
  | cons first rest ih =>
    cases fuel with
    | zero => cases hfuel
    | succ fuel =>
      rcases hlinked with ⟨_, hnext, hrest⟩
      rw [Option.or_none] at hnext
      rw [List.head?_cons, walk, hnext, ih hrest (Nat.le_of_succ_le_succ hfuel)]

end LinkedChains
