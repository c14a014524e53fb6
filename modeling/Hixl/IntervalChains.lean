import Mathlib.Tactic

/-!
# Chains of adjacent intervals

A list of items is laid out over a linear order by two end maps `lo` and `hi`.
A chain of adjacent items covers everything between the start of its first and
the end of its last item.  In a list whose items are laid out in order without
overlap, such a chain is a contiguous block of the list, so that a scan that
only looks at list neighbours finds it.
-/

namespace IntervalChains

variable {α β : Type*} [LinearOrder β]

def Covers (lo hi : α → β) (a : α) (x : β) : Prop := lo a ≤ x ∧ x < hi a

def Laid (lo hi : α → β) (l : List α) : Prop := l.Pairwise fun a b => hi a ≤ lo b

def Linked (lo hi : α → β) (l : List α) : Prop := l.IsChain fun a b => hi a = lo b

variable {lo hi : α → β} {a b : α} {l : List α} {x : β}

theorem Linked.exists_covers (hne : l ≠ []) (hlinked : Linked lo hi l) (hlo : lo (l.head hne) ≤ x)
    (hhi : x < hi (l.getLast hne)) : ∃ a ∈ l, Covers lo hi a x := by
  induction l with
  | nil => exact absurd rfl hne
  | cons a l ih =>
    cases l with
    | nil => exact ⟨a, List.mem_cons_self, hlo, hhi⟩
    | cons c l =>
      have hlink := List.isChain_cons_cons.mp hlinked
      by_cases hx : x < hi a
      · exact ⟨a, List.mem_cons_self, hlo, hx⟩
      · have hc : lo c ≤ x := by
          rw [← hlink.1]
          exact not_lt.mp hx
        obtain ⟨b, hb, hcovers⟩ := ih (List.cons_ne_nil c l) hlink.2 hc hhi
        exact ⟨b, List.mem_cons_of_mem _ hb, hcovers⟩

theorem Laid.eq_of_covers (hlaid : Laid lo hi l) (ha : a ∈ l) (hb : b ∈ l) (hax : Covers lo hi a x)
    (hbx : Covers lo hi b x) : a = b := by
  induction l with
  | nil => exact absurd ha (List.not_mem_nil)
  | cons c l ih =>
    have hcons := List.pairwise_cons.mp hlaid
    rcases List.mem_cons.mp ha with rfl | hal
    · rcases List.mem_cons.mp hb with rfl | hbl
      · rfl
      · exact absurd (lt_of_lt_of_le hax.2 (hcons.1 b hbl)) (not_lt.mpr hbx.1)
    · rcases List.mem_cons.mp hb with rfl | hbl
      · exact absurd (lt_of_lt_of_le hbx.2 (hcons.1 a hal)) (not_lt.mpr hax.1)
      · exact ih hcons.2 hal hbl

/-- A chain of adjacent items taken from a list laid out without overlap is a
contiguous block of that list. -/
theorem Linked.isInfix_of_laid {chain : List α} (hlaid : Laid lo hi l)
    (hproper : ∀ a ∈ l, lo a < hi a) (hlinked : Linked lo hi chain) (hsub : ∀ a ∈ chain, a ∈ l) :
    chain <:+: l := by
  induction chain with
  | nil => exact List.nil_infix
  | cons a chain ih =>
    have ha : a ∈ l := hsub a List.mem_cons_self
    cases chain with
    | nil =>
      obtain ⟨before, after, rfl⟩ := List.append_of_mem ha
      exact ⟨before, after, by simp⟩
    | cons b chain =>
      have hlink := List.isChain_cons_cons.mp hlinked
      obtain ⟨before, after, hl⟩ := ih hlink.2 (fun d hd => hsub d (List.mem_cons_of_mem _ hd))
      have hproperA := hproper a ha
      have hsplit : l = before ++ (b :: (chain ++ after)) := by
        rw [← hl]
        simp
      have hb : b ∈ l := hsub b (by simp)
      rw [hsplit] at ha
      rcases List.mem_append.mp ha with hbefore | hafter
      · obtain ⟨left, right, rfl⟩ := List.append_of_mem hbefore
        cases right with
        | nil => exact ⟨left, after, by rw [hsplit]; simp⟩
        | cons c right =>
          have hlaid' := hlaid
          rw [hsplit] at hlaid'
          unfold Laid at hlaid'
          simp only [List.append_assoc, List.cons_append,
            List.pairwise_append, List.pairwise_cons] at hlaid'
          have hac : hi a ≤ lo c := hlaid'.2.1.1 c (by simp)
          have hcb : hi c ≤ lo b := hlaid'.2.1.2.1 b (by simp)
          have hc : lo c < hi c := hproper c (by rw [hsplit]; simp)
          rw [← hlink.1] at hcb
          exact absurd (lt_of_le_of_lt hac hc) (not_lt.mpr hcb)
      · have hlaid' := hlaid
        rw [hsplit] at hlaid'
        have htail := (List.pairwise_append.mp hlaid').2.1
        rcases List.mem_cons.mp hafter with rfl | hafter
        · exact absurd hlink.1 (ne_of_gt hproperA)
        · have hba := (List.pairwise_cons.mp htail).1 a hafter
          have hproperB := hproper b hb
          rw [hlink.1] at hproperA
          exact absurd (lt_of_lt_of_le hproperB hba) (not_lt.mpr hproperA.le)

end IntervalChains
