import Hixl.EngineStatusModel

/-!
# The index of requests

The list and the table of the index always hold the same requests: the list
is a permutation of the nodes to which the entries of the table point.  The
functions that look requests up drop entries of dead clients on their way;
`Looked` says what they return and what they leave.
-/

namespace Hixl

open HeldResources

namespace RequestIndex

variable {x : RequestIndex} {req : ℕ} {owner : ReqOwner}

def node (entry : Σ _ : ℕ, ReqOwner) : ℕ × ℕ := (entry.2.orderIt, entry.1)

def Consistent (x : RequestIndex) : Prop := x.orderedReqs.Perm (x.reqToClient.entries.map node)

namespace Consistent

theorem empty : Consistent {} := List.Perm.refl _

theorem mem_ordered (hx : x.Consistent) {node req : ℕ} : (node, req) ∈ x.orderedReqs ↔
      ∃ owner, x.reqToClient.lookup req = some owner ∧ owner.orderIt = node := by
  rw [hx.mem_iff, List.mem_map]
  constructor
  · intro hentry
    obtain ⟨entry, hmem, heq⟩ := hentry
    cases heq
    exact ⟨entry.2, mem_entries_iff.mp hmem, rfl⟩
  · intro howner
    obtain ⟨owner, hlookup, rfl⟩ := howner
    exact ⟨⟨req, owner⟩, mem_entries_iff.mpr hlookup, rfl⟩

theorem nodup_reqs (hx : x.Consistent) : (x.orderedReqs.map Prod.snd).Nodup := by
  have hperm := hx.map Prod.snd
  rw [List.map_map] at hperm
  exact hperm.nodup_iff.mpr x.reqToClient.nodupKeys

theorem eraseTransferReq (hx : x.Consistent) (req : ℕ) : (x.eraseTransferReq req).Consistent := by
  unfold RequestIndex.eraseTransferReq
  cases hlookup : x.reqToClient.lookup req with
  | none => exact hx
  | some owner =>
    have hentries := (entries_perm_of_lookup hlookup).map node
    have hperm := (hx.trans hentries).erase (owner.orderIt, req)
    rwa [List.map_cons, node, List.erase_cons_head] at hperm

end Consistent

theorem lookup_eraseTransferReq (req other : ℕ) :
    (x.eraseTransferReq req).reqToClient.lookup other =
      if other = req then none else x.reqToClient.lookup other := by
  unfold eraseTransferReq
  cases hlookup : x.reqToClient.lookup req with
  | none =>
    split_ifs with hsame
    · rwa [hsame]
    · rfl
  | some owner =>
    split_ifs with hsame
    · rw [hsame]
      exact AList.lookup_erase _ _
    · exact AList.lookup_erase_ne hsame

theorem ordered_eraseTransferReq (req : ℕ) :
    (x.eraseTransferReq req).orderedReqs.Sublist x.orderedReqs := by
  unfold eraseTransferReq
  cases x.reqToClient.lookup req with
  | none => exact List.Sublist.refl _
  | some owner => exact List.erase_sublist

theorem lookup_registerTransferReq {info : TransferReqInfo} (hreq : info.req ≠ 0) (other : ℕ) :
    (x.registerTransferReq info).reqToClient.lookup other =
      if other = info.req then some ⟨info.client, info.userData, info.id⟩
      else x.reqToClient.lookup other := by
  rw [registerTransferReq, if_neg hreq]
  split_ifs with hsame
  · rw [hsame]
    exact AList.lookup_insert _
  · have hold := lookup_eraseTransferReq (x := x) info.req other
    rw [if_neg hsame] at hold
    exact (AList.lookup_insert_ne hsame).trans hold

theorem Consistent.registerTransferReq (hx : x.Consistent) (info : TransferReqInfo) :
    (x.registerTransferReq info).Consistent := by
  unfold RequestIndex.registerTransferReq
  split_ifs
  · exact hx
  · have hfresh : (x.eraseTransferReq info.req).reqToClient.lookup info.req = none := by
      rw [lookup_eraseTransferReq, if_pos rfl]
    have hentries := entries_insert_fresh hfresh
      (⟨info.client, info.userData, info.id⟩ : ReqOwner)
    have hperm := (hx.eraseTransferReq info.req).cons (info.id, info.req)
    unfold Consistent
    rw [hentries, List.map_cons]
    exact (List.perm_append_singleton _ _).trans hperm

/-! ## Looking requests up -/

/-- The entry of the table that a registration makes. -/
def owns (x : RequestIndex) (info : TransferReqInfo) : Prop :=
  x.reqToClient.lookup info.req = some ⟨info.client, info.userData, info.id⟩

/-- What is left of an index from which entries of some clients have been
dropped. -/
structure Cleans (dead : ℕ → Prop) (x x' : RequestIndex) : Prop where
  kept : ∀ req owner, x'.reqToClient.lookup req = some owner →
    x.reqToClient.lookup req = some owner
  dropped : ∀ req owner, x.reqToClient.lookup req = some owner →
    x'.reqToClient.lookup req = some owner ∨ dead owner.client
  ordered : x'.orderedReqs.Sublist x.orderedReqs
  consistent : x.Consistent → x'.Consistent

namespace Cleans

variable {dead : ℕ → Prop} {x' x'' : RequestIndex}

theorem refl (x : RequestIndex) : Cleans dead x x where
  kept := fun _ _ hlookup => hlookup
  dropped := fun _ _ hlookup => Or.inl hlookup
  ordered := List.Sublist.refl _
  consistent := fun hx => hx

theorem trans (hfirst : Cleans dead x x') (hsecond : Cleans dead x' x'') : Cleans dead x x'' where
  kept := fun req owner hlookup => hfirst.kept req owner (hsecond.kept req owner hlookup)
  dropped := by
    intro req owner hlookup
    cases hfirst.dropped req owner hlookup with
    | inl hkept => exact hsecond.dropped req owner hkept
    | inr hdead => exact Or.inr hdead
  ordered := hsecond.ordered.trans hfirst.ordered
  consistent := fun hx => hsecond.consistent (hfirst.consistent hx)

theorem erase (hdead : ∀ owner, x.reqToClient.lookup req = some owner → dead owner.client) :
    Cleans dead x (x.eraseTransferReq req) where
  kept := by
    intro other owner hlookup
    rw [lookup_eraseTransferReq] at hlookup
    split_ifs at hlookup
    exact hlookup
  dropped := by
    intro other owner hlookup
    rw [lookup_eraseTransferReq]
    split_ifs with hsame
    · exact Or.inr (hdead owner (hsame ▸ hlookup))
    · exact Or.inl hlookup
  ordered := ordered_eraseTransferReq req
  consistent := fun hx => hx.eraseTransferReq req

end Cleans

/-- A look-up returns entries of the table in their order and drops entries of
dead clients. -/
structure Looked (alive : ℕ → Bool) (x : RequestIndex)
    (infos : List TransferReqInfo) (x' : RequestIndex) : Prop where
  cleans : Cleans (fun client => alive client = false) x x'
  found : ∀ info ∈ infos, x.owns info
  reqs : (infos.map TransferReqInfo.req).Sublist
    (x.orderedReqs.map Prod.snd)
  ids : (infos.map TransferReqInfo.id).Sublist (x.orderedReqs.map Prod.fst)

theorem getClientByReq_looked (hx : x.Consistent) (alive : ℕ → Bool) (req : ℕ) :
    Looked alive x (x.getClientByReq alive req).1.toList (x.getClientByReq alive req).2 := by
  unfold getClientByReq
  cases hlookup : x.reqToClient.lookup req with
  | none => exact ⟨Cleans.refl x, by simp, List.nil_sublist _, List.nil_sublist _⟩
  | some owner =>
    dsimp only
    split_ifs with halive
    · have hmem := hx.mem_ordered.mpr ⟨owner, hlookup, rfl⟩
      refine ⟨Cleans.refl x, ?_, ?_, ?_⟩
      · intro info hinfo
        obtain rfl := List.mem_singleton.mp hinfo
        exact hlookup
      all_goals exact List.singleton_sublist.mpr (List.mem_map.mpr ⟨_, hmem, rfl⟩)
    · refine ⟨Cleans.erase ?_, by simp, List.nil_sublist _, List.nil_sublist _⟩
      intro found hfound
      rw [hlookup, Option.some.injEq] at hfound
      rw [← hfound]
      exact Bool.eq_false_iff.mpr halive

/-- The loop over the nodes: an entry still points to the node at which the
loop meets it. -/
theorem collectReqs_looked (alive : ℕ → Bool) (nodes : List (ℕ × ℕ))
    (hnodes : ∀ node req owner, (node, req) ∈ nodes →
      x.reqToClient.lookup req = some owner → owner.orderIt = node) :
    Cleans (fun client => alive client = false) x (collectReqs alive x nodes).2 ∧
      (∀ info ∈ (collectReqs alive x nodes).1, x.owns info) ∧
      ((collectReqs alive x nodes).1.map TransferReqInfo.req).Sublist (nodes.map Prod.snd) ∧
      ((collectReqs alive x nodes).1.map TransferReqInfo.id).Sublist (nodes.map Prod.fst) := by
  induction nodes generalizing x with
  | nil => exact ⟨Cleans.refl x, by simp [collectReqs], List.nil_sublist _, List.nil_sublist _⟩
  | cons first rest ih =>
    obtain ⟨node, req⟩ := first
    have hrest : ∀ node req owner, (node, req) ∈ rest →
        x.reqToClient.lookup req = some owner → owner.orderIt = node :=
      fun node req owner hmem => hnodes node req owner (List.mem_cons_of_mem _ hmem)
    rw [collectReqs]
    cases hlookup : x.reqToClient.lookup req with
    | none =>
      -- a node without an entry is erased alone
      have hfirst : Cleans (fun client => alive client = false) x
          { x with orderedReqs := x.orderedReqs.erase (node, req) } := by
        refine ⟨fun _ _ h => h, fun _ _ h => Or.inl h, List.erase_sublist, fun hx => ?_⟩
        have habsent : (node, req) ∉ x.orderedReqs := by
          intro hmem
          obtain ⟨owner, hsome, -⟩ := hx.mem_ordered.mp hmem
          simp [hlookup] at hsome
        rwa [List.erase_of_not_mem habsent]
      obtain ⟨hcleans, hfound, hreqs, hids⟩ := ih
        (x := { x with orderedReqs := x.orderedReqs.erase (node, req) })
        hrest
      exact ⟨hfirst.trans hcleans, hfound, hreqs.cons _, hids.cons _⟩
    | some owner =>
      have hnode := hnodes node req owner List.mem_cons_self hlookup
      dsimp only
      split_ifs with halive
      · obtain ⟨hcleans, hfound, hreqs, hids⟩ := ih hrest
        refine ⟨hcleans, ?_, hreqs.cons_cons _, ?_⟩
        · intro info hinfo
          rw [List.mem_cons] at hinfo
          cases hinfo with
          | inl heq => rwa [heq]
          | inr hmem => exact hfound info hmem
        · rw [List.map_cons, List.map_cons, hnode]
          exact hids.cons_cons _
      · have hfirst : Cleans (fun client => alive client = false) x (x.eraseTransferReq req) := by
          apply Cleans.erase
          intro found hfound
          rw [hlookup, Option.some.injEq] at hfound
          rw [← hfound]
          exact Bool.eq_false_iff.mpr halive
        have herase : x.eraseTransferReq req =
            { orderedReqs := x.orderedReqs.erase (node, req)
              reqToClient := x.reqToClient.erase req } := by
          rw [eraseTransferReq, hlookup]
          dsimp only
          rw [hnode]
        rw [herase] at hfirst
        obtain ⟨hcleans, hfound, hreqs, hids⟩ := ih
          (x := { orderedReqs := x.orderedReqs.erase (node, req)
                  reqToClient := x.reqToClient.erase req })
          (fun node req owner hmem hsome => hrest node req owner hmem (hfirst.kept req owner hsome))
        exact ⟨hfirst.trans hcleans, fun info hinfo => hfirst.kept _ _ (hfound info hinfo),
          hreqs.cons _, hids.cons _⟩

theorem getOrderedReqs_looked (hx : x.Consistent) (alive : ℕ → Bool) :
    Looked alive x (x.getOrderedReqs alive).1 (x.getOrderedReqs alive).2 := by
  have hnodes : ∀ node req owner, (node, req) ∈ x.orderedReqs →
      x.reqToClient.lookup req = some owner → owner.orderIt = node := by
    intro node req owner hmem hlookup
    obtain ⟨found, hfound, hnode⟩ := hx.mem_ordered.mp hmem
    rw [hlookup, Option.some.injEq] at hfound
    rwa [hfound]
  obtain ⟨hcleans, hfound, hreqs, hids⟩ := collectReqs_looked alive x.orderedReqs hnodes
  exact ⟨hcleans, hfound, hreqs, hids⟩

theorem foldl_erase_cleans {dead : ℕ → Prop} (entries : List (Σ _ : ℕ, ReqOwner))
    (hdead : ∀ entry ∈ entries, ∀ owner,
      x.reqToClient.lookup entry.1 = some owner → dead owner.client) :
    Cleans dead x (entries.foldl (fun x entry => x.eraseTransferReq entry.1) x) := by
  induction entries generalizing x with
  | nil => exact Cleans.refl x
  | cons entry rest ih =>
    have hfirst : Cleans dead x (x.eraseTransferReq entry.1) :=
      Cleans.erase (hdead entry List.mem_cons_self)
    apply hfirst.trans
    apply ih
    intro other hother owner hlookup
    exact hdead other (List.mem_cons_of_mem _ hother) owner (hfirst.kept other.1 owner hlookup)

theorem eraseReqIndexByClient_cleans (alive : ℕ → Bool) (client : ℕ) :
    Cleans (fun c => alive c = false ∨ c = client) x (x.eraseReqIndexByClient alive client) := by
  apply foldl_erase_cleans
  intro entry hentry owner hlookup
  obtain ⟨hmem, hcond⟩ := List.mem_filter.mp hentry
  have hown : x.reqToClient.lookup entry.1 = some entry.2 := mem_entries_iff.mp hmem
  rw [hlookup, Option.some.injEq] at hown
  rw [← hown] at hcond
  simpa using hcond

end RequestIndex

end Hixl
