import Hixl.HeldResources
import Mathlib.Data.Finset.Basic

/-!
# Requests that are named by one of their handles

A request consists of sub-transfers.  A server gives out a handle for each,
which is live until the sub-transfer is settled and may then be given out again.
A request is entered under the handle of one of its sub-transfers, and reported
and removed as a whole.

`Orderly` is the invariant of such a table: a new name cannot meet an old one as
long as the sub-transfers that name requests are not settled.
-/

namespace NamedRequests

open HeldResources

/-- The live handles after the server has given out some more: a handle that
is live is not given out. -/
def issue (live : Finset ℕ) : List ℕ → Option (Finset ℕ)
  | [] => some live
  | handle :: rest =>
    if handle ∈ live then none else issue (insert handle live) rest

theorem issue_spec {live live' : Finset ℕ} {handles : List ℕ}
    (hissue : issue live handles = some live') :
    handles.Nodup ∧ (∀ handle ∈ handles, handle ∉ live) ∧
      (∀ handle ∈ handles, handle ∈ live') ∧ live ⊆ live' := by
  induction handles generalizing live with
  | nil =>
    cases hissue
    simp
  | cons handle rest ih =>
    rw [issue] at hissue
    split_ifs at hissue with hlive
    obtain ⟨hnodup, hfresh, hissued, hsub⟩ := ih hissue
    have hhead : handle ∈ live' := hsub (Finset.mem_insert_self _ _)
    refine ⟨List.nodup_cons.mpr ⟨fun hmem => ?_, hnodup⟩,
      List.forall_mem_cons.mpr ⟨hlive, fun other hmem hold => ?_⟩,
      List.forall_mem_cons.mpr ⟨hhead, hissued⟩,
      fun other hother => hsub (Finset.mem_insert_of_mem hother)⟩
    · exact hfresh handle hmem (Finset.mem_insert_self _ _)
    · exact hfresh other hmem (Finset.mem_insert_of_mem hold)

section Backed

variable {ε : Type*} (pending : ε → Option ℕ)

def unsettled (subs : List ε) : Multiset ℕ := (subs.filterMap pending : List ℕ)

structure Backed (table : AList fun _ : ℕ => List ε) (live : Finset ℕ) :
    Prop where
  nodup : (total (unsettled pending) table).Nodup
  held : ∀ handle ∈ total (unsettled pending) table, handle ∈ live

def namesHeld (table : AList fun _ : ℕ => List ε) : Bool :=
  table.entries.all fun entry => entry.1 ∈ entry.2.filterMap pending

variable {pending} {table : AList fun _ : ℕ => List ε}
  {live live' : Finset ℕ} {name : ℕ} {subs subs' : List ε}

namespace Backed

theorem empty (live : Finset ℕ) : Backed pending (∅ : AList fun _ : ℕ => List ε) live where
  nodup := Multiset.nodup_zero
  held := fun _ hmem => absurd hmem (Multiset.notMem_zero _)

section

variable (hbacked : Backed pending table live)

include hbacked

theorem mono (hsub : live ⊆ live') : Backed pending table live' where
  nodup := hbacked.nodup
  held := fun handle hmem => hsub (hbacked.held handle hmem)

theorem fresh_name (hnames : namesHeld pending table = true) (hname : name ∉ live) :
    table.lookup name = none := by
  cases hfound : table.lookup name with
  | none => rfl
  | some subs =>
    have hpending : name ∈ subs.filterMap pending := by
      have hentry := List.all_eq_true.mp hnames ⟨name, subs⟩
        (mem_entries_iff.mpr hfound)
      exact of_decide_eq_true hentry
    have hmem : name ∈ total (unsettled pending) table :=
      mem_total.mpr ⟨name, subs, hfound, Multiset.mem_coe.mpr hpending⟩
    exact absurd (hbacked.held name hmem) hname

theorem insert_fresh (hnone : table.lookup name = none)
    (hissue : issue live (subs.filterMap pending) = some live') :
    Backed pending (table.insert name subs) live' := by
  obtain ⟨hnodup, hfresh, hissued, hsub⟩ := issue_spec hissue
  have htotal : total (unsettled pending) (table.insert name subs) =
      unsettled pending subs + total (unsettled pending) table :=
    total_insert_fresh (unsettled pending) hnone
  constructor
  · rw [htotal, Multiset.nodup_add]
    refine ⟨Multiset.coe_nodup.mpr hnodup, hbacked.nodup, ?_⟩
    rw [Multiset.disjoint_left]
    intro handle hnew hold
    exact hfresh handle (Multiset.mem_coe.mp hnew) (hbacked.held handle hold)
  · intro handle hmem
    rw [htotal, Multiset.mem_add] at hmem
    cases hmem with
    | inl hnew => exact hissued handle (Multiset.mem_coe.mp hnew)
    | inr hold => exact hsub (hbacked.held handle hold)

/-- What goes out of the table may be released. -/
theorem shrink {table' : AList fun _ : ℕ => List ε} {released : Multiset ℕ}
    (hparts : total (unsettled pending) table = total (unsettled pending) table' + released)
    (hkept : ∀ handle ∈ live, handle ∉ released → handle ∈ live') :
    Backed pending table' live' := by
  obtain ⟨hnodup, hheld⟩ := hbacked
  rw [hparts] at hnodup hheld
  obtain ⟨hnodup, -, hapart⟩ := Multiset.nodup_add.mp hnodup
  refine ⟨hnodup, fun handle hmem => hkept handle ?_ (Multiset.disjoint_left.mp hapart hmem)⟩
  exact hheld handle (Multiset.mem_add.mpr (Or.inl hmem))

theorem settle (hfound : table.lookup name = some subs) {released : Multiset ℕ}
    (hsplit : unsettled pending subs = unsettled pending subs' + released)
    (hkept : ∀ handle ∈ live, handle ∉ released → handle ∈ live') :
    Backed pending (table.insert name subs') live' := by
  refine hbacked.shrink ?_ hkept
  have hnew : total (unsettled pending) (table.insert name subs') = unsettled pending subs' +
        total (unsettled pending) (table.erase name) := by
    rfl
  rw [total_erase _ hfound, hsplit, hnew]
  abel

theorem erase (hfound : table.lookup name = some subs)
    (hkept : ∀ handle ∈ live, handle ∉ unsettled pending subs → handle ∈ live') :
    Backed pending (table.erase name) live' :=
  hbacked.shrink ((total_erase _ hfound).trans (add_comm _ _)) hkept

end

end Backed

end Backed

/-! ## The requests of the callers -/

structure Transfer (η : Type*) where
  name : ℕ
  handles : List η
  reported : Bool := false

variable {ε η : Type*}

def report (name : ℕ) (log : List (Transfer η)) : List (Transfer η) :=
  log.map fun transfer =>
    if transfer.name = name then { transfer with reported := true }
    else transfer

variable {name : ℕ}

theorem mem_report {log : List (Transfer η)} {transfer : Transfer η}
    (hmem : transfer ∈ report name log) (hopen : transfer.reported = false) :
    transfer ∈ log ∧ transfer.name ≠ name := by
  obtain ⟨old, hold, heq⟩ := List.mem_map.mp hmem
  split_ifs at heq with hname
  · rw [← heq] at hopen
    cases hopen
  · rw [← heq]
    exact ⟨hold, hname⟩

/-- Requests that are not reported have different names, and each has an entry
of its own. -/
structure Apart
    (handle : ε → η) (table : AList fun _ : ℕ => List ε)
    (log : List (Transfer η)) : Prop where
  names : log.Pairwise fun a b => a.reported = false → b.reported = false → a.name ≠ b.name
  entries : ∀ transfer ∈ log, transfer.reported = false →
    ∃ subs, table.lookup transfer.name = some subs ∧ subs.map handle = transfer.handles

namespace Apart

variable {handle : ε → η} {table : AList fun _ : ℕ => List ε}
  {log : List (Transfer η)} {name : ℕ} {subs subs' : List ε}

theorem empty : Apart handle (∅ : AList fun _ : ℕ => List ε) [] where
  names := List.Pairwise.nil
  entries := by simp

section

variable (hapart : Apart handle table log)

include hapart

theorem name_ne (hnone : table.lookup name = none) {transfer : Transfer η} (hmem : transfer ∈ log)
    (hopen : transfer.reported = false) : transfer.name ≠ name := by
  intro heq
  obtain ⟨subs, hfound, -⟩ := hapart.entries transfer hmem hopen
  rw [heq, hnone] at hfound
  cases hfound

theorem submit (hnone : table.lookup name = none) : Apart handle (table.insert name subs)
      ({ name := name, handles := subs.map handle } :: log) := by
  constructor
  · rw [List.pairwise_cons]
    refine ⟨?_, hapart.names⟩
    intro other hmem _ hopen
    exact (hapart.name_ne hnone hmem hopen).symm
  · intro transfer hmem hopen
    rw [List.mem_cons] at hmem
    cases hmem with
    | inl heq =>
      rw [heq]
      exact ⟨subs, AList.lookup_insert _, rfl⟩
    | inr hold =>
      obtain ⟨found, hfound, hhandles⟩ := hapart.entries transfer hold hopen
      have hne := hapart.name_ne hnone hold hopen
      exact ⟨found, (AList.lookup_insert_ne hne).trans hfound, hhandles⟩

theorem settle (hfound : table.lookup name = some subs)
    (hsame : subs'.map handle = subs.map handle) : Apart handle (table.insert name subs') log where
  names := hapart.names
  entries := by
    intro transfer hmem hopen
    obtain ⟨found, hlookup, hhandles⟩ := hapart.entries transfer hmem hopen
    by_cases hname : transfer.name = name
    · rw [hname, hfound, Option.some.injEq] at hlookup
      rw [hname]
      refine ⟨subs', AList.lookup_insert _, ?_⟩
      rw [hsame, hlookup, hhandles]
    · exact ⟨found, (AList.lookup_insert_ne hname).trans hlookup, hhandles⟩

theorem pairwise_report : (report name log).Pairwise fun a b =>
      a.reported = false → b.reported = false → a.name ≠ b.name := by
  rw [report, List.pairwise_map]
  apply hapart.names.imp
  intro a b hne hopenA hopenB
  split_ifs at hopenA hopenB ⊢ with hA hB
  exact hne hopenA hopenB

theorem close : Apart handle (table.erase name) (report name log) where
  names := hapart.pairwise_report
  entries := by
    intro transfer hmem hopen
    obtain ⟨hold, hname⟩ := mem_report hmem hopen
    obtain ⟨found, hfound, hhandles⟩ := hapart.entries transfer hold hopen
    exact ⟨found, (AList.lookup_erase_ne hname).trans hfound, hhandles⟩

theorem missing : Apart handle table (report name log) where
  names := hapart.pairwise_report
  entries := by
    intro transfer hmem hopen
    obtain ⟨hold, -⟩ := mem_report hmem hopen
    exact hapart.entries transfer hold hopen

end

end Apart

theorem mem_unsettled {pending : ε → Option ℕ} {subs : List ε} :
    name ∈ unsettled pending subs ↔ ∃ sub ∈ subs, pending sub = some name := by
  rw [unsettled, Multiset.mem_coe, List.mem_filterMap]

theorem unsettled_cons (pending : ε → Option ℕ) (sub : ε) (subs : List ε) :
    unsettled pending (sub :: subs) = unsettled pending [sub] + unsettled pending subs := by
  rw [unsettled, unsettled, unsettled, Multiset.coe_add, ← List.filterMap_append]
  rfl

/-- The sub-transfers keep their handles; those that are settled meanwhile may
be released. -/
structure SettledSubs
    (pending : ε → Option ℕ) (handle : ε → η) (live live' : Finset ℕ)
    (subs subs' : List ε) : Prop where
  same : subs'.map handle = subs.map handle
  released : ∃ released,
    unsettled pending subs = unsettled pending subs' + released ∧
      ∀ name ∈ live, name ∉ released → name ∈ live'

namespace SettledSubs

variable {pending : ε → Option ℕ} {handle : ε → η}
  {live mid live' : Finset ℕ} {subs subs' : List ε} {sub sub' : ε}

theorem nil : SettledSubs pending handle live live [] [] where
  same := rfl
  released := ⟨0, rfl, fun _ hmem _ => hmem⟩

theorem cons (hrest : SettledSubs pending handle mid live' subs subs')
    (hhandle : handle sub' = handle sub) (settled : Multiset ℕ)
    (hsplit : unsettled pending [sub] = unsettled pending [sub'] + settled)
    (hkept : ∀ name ∈ live, name ∉ settled → name ∈ mid) :
    SettledSubs pending handle live live' (sub :: subs) (sub' :: subs') := by
  obtain ⟨hsame, released, hreleased, hlive⟩ := hrest
  constructor
  · rw [List.map_cons, List.map_cons, hhandle, hsame]
  · refine ⟨settled + released, ?_, ?_⟩
    · rw [unsettled_cons, unsettled_cons pending sub', hsplit, hreleased]
      abel
    · intro name hmem hnot
      rw [Multiset.mem_add, not_or] at hnot
      exact hlive name (hkept name hmem hnot.1) hnot.2

theorem keep (hrest : SettledSubs pending handle live live' subs subs') (sub : ε) :
    SettledSubs pending handle live live' (sub :: subs) (sub :: subs') :=
  hrest.cons rfl 0 (add_zero _).symm (fun _ hmem _ => hmem)

theorem kept (hsettled : SettledSubs pending handle live live' subs subs') {name : ℕ}
    (hmem : name ∈ live) (hnot : name ∉ unsettled pending subs) : name ∈ live' := by
  obtain ⟨released, hsplit, hlive⟩ := hsettled.released
  apply hlive name hmem
  intro hreleased
  rw [hsplit] at hnot
  exact hnot (Multiset.mem_add.mpr (Or.inr hreleased))

end SettledSubs

structure Orderly
    (pending : ε → Option ℕ) (handle : ε → η)
    (table : AList fun _ : ℕ => List ε) (live : Finset ℕ)
    (log : List (Transfer η)) : Prop where
  backed : Backed pending table live
  apart : Apart handle table log

namespace Orderly

variable {pending : ε → Option ℕ} {handle : ε → η}
  {table : AList fun _ : ℕ => List ε} {live live' : Finset ℕ}
  {log : List (Transfer η)} {name : ℕ} {subs subs' : List ε}

theorem empty (live : Finset ℕ) :
    Orderly pending handle (∅ : AList fun _ : ℕ => List ε) live [] where
  backed := Backed.empty live
  apart := Apart.empty

section

variable (horderly : Orderly pending handle table live log)

include horderly

theorem lose {handles : List ℕ} (hissue : issue live handles = some live') :
    Orderly pending handle table live' log where
  backed := horderly.backed.mono (issue_spec hissue).2.2.2
  apart := horderly.apart

theorem submit (hnames : namesHeld pending table = true)
    (hissue : issue live (subs.filterMap pending) = some live')
    (hname : name ∈ subs.filterMap pending) : Orderly pending handle (table.insert name subs) live'
      ({ name := name, handles := subs.map handle } :: log) := by
  have hfresh : name ∉ live := (issue_spec hissue).2.1 name hname
  have hnone := horderly.backed.fresh_name hnames hfresh
  exact ⟨horderly.backed.insert_fresh hnone hissue, horderly.apart.submit hnone⟩

theorem settle (hfound : table.lookup name = some subs)
    (hsettled : SettledSubs pending handle live live' subs subs') :
    Orderly pending handle (table.insert name subs') live' log := by
  obtain ⟨hsame, released, hsplit, hkept⟩ := hsettled
  exact ⟨horderly.backed.settle hfound hsplit hkept, horderly.apart.settle hfound hsame⟩

theorem close (hfound : table.lookup name = some subs)
    (hkept : ∀ handle ∈ live, handle ∉ unsettled pending subs → handle ∈ live') :
    Orderly pending handle (table.erase name) live' (report name log) where
  backed := horderly.backed.erase hfound hkept
  apart := horderly.apart.close

theorem missing : Orderly pending handle table live (report name log) where
  backed := horderly.backed
  apart := horderly.apart.missing

end

end Orderly

end NamedRequests
