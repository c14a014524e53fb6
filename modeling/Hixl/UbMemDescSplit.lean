import Hixl.ByteTilings
import Hixl.UbMemLaunchModel

/-!
# Splitting operations into descriptors

An operation longer than the length field of a queue entry is split into
descriptors of maximal length and a rest.  The descriptors of an operation lie
one behind the other both in its source and in its destination.
-/

namespace Hixl

open ByteTilings

/-- The descriptors copy the bytes of the operation, in order and exactly
once. -/
structure SplitOf (isGet : Bool) (op : HixlOneSideOpDesc)
    (descs : List UbMemAicpuTransferDesc) : Prop where
  source : Tiles UbMemAicpuTransferDesc.length UbMemAicpuTransferDesc.srcAddr
    (opSource isGet op) op.len descs
  destination : Tiles UbMemAicpuTransferDesc.length
    UbMemAicpuTransferDesc.dstAddr (opDestination isGet op) op.len descs
  fits : ∀ desc ∈ descs,
    0 < desc.length ∧ desc.length ≤ maxSdmaTransferBytes
  source_lt : opSource isGet op + op.len < 2 ^ 64
  destination_lt : opDestination isGet op + op.len < 2 ^ 64

theorem splitLoop_spec {fuel srcAddr dstAddr len : ℕ} (hfuel : len ≤ fuel) :
    Tiles UbMemAicpuTransferDesc.length UbMemAicpuTransferDesc.srcAddr
        srcAddr len (splitLoop fuel srcAddr dstAddr len) ∧
      Tiles UbMemAicpuTransferDesc.length UbMemAicpuTransferDesc.dstAddr
        dstAddr len (splitLoop fuel srcAddr dstAddr len) ∧
      ∀ desc ∈ splitLoop fuel srcAddr dstAddr len,
        0 < desc.length ∧ desc.length ≤ maxSdmaTransferBytes := by
  induction fuel generalizing srcAddr dstAddr len with
  | zero =>
    have hzero : len = 0 := by omega
    rw [hzero]
    exact ⟨⟨trivial, rfl⟩, ⟨trivial, rfl⟩, by simp [splitLoop]⟩
  | succ fuel ih =>
    unfold splitLoop
    split_ifs with hmore
    · have hblock : 0 < min len maxSdmaTransferBytes := by
        unfold maxSdmaTransferBytes
        omega
      generalize hsize : min len maxSdmaTransferBytes = blockSize at hblock ⊢
      rcases @ih (srcAddr + blockSize) (dstAddr + blockSize)
        (len - blockSize) (by omega) with ⟨hsource, hdestination, hfits⟩
      have htotal : blockSize + (len - blockSize) = len := by omega
      refine ⟨⟨⟨rfl, hsource.follows⟩, ?_⟩, ⟨⟨rfl, hdestination.follows⟩, ?_⟩, ?_⟩
      · rwa [total_cons, hsource.total_eq]
      · rwa [total_cons, hdestination.total_eq]
      · intro desc hdesc
        rcases List.mem_cons.mp hdesc with rfl | hlater
        · change 0 < blockSize ∧ blockSize ≤ maxSdmaTransferBytes
          omega
        · exact hfits desc hlater
    · have hzero : len = 0 := by omega
      rw [hzero]
      exact ⟨⟨trivial, rfl⟩, ⟨trivial, rfl⟩, by simp⟩

variable {isGet : Bool} {dst descs : List UbMemAicpuTransferDesc}

theorem appendSplitDescs_eq_success {op : HixlOneSideOpDesc}
    (happend : appendSplitDescs (opSource isGet op) (opDestination isGet op)
      op.len dst = (.success, descs)) : ∃ group, SplitOf isGet op group ∧ descs = dst ++ group := by
  unfold appendSplitDescs at happend
  split_ifs at happend with hvalid hword
  · rcases happend with ⟨⟩
    rw [wordMax_64] at hword
    rcases @splitLoop_spec op.len (opSource isGet op)
      (opDestination isGet op) op.len (le_refl _) with
      ⟨hsource, hdestination, hfits⟩
    exact ⟨_, ⟨hsource, hdestination, hfits, by omega, by omega⟩, rfl⟩
  all_goals cases happend

variable {ops : List HixlOneSideOpDesc}

theorem buildLoop_eq_success (hbuild : buildLoop isGet dst ops = (.success, descs)) :
    ∃ groups, List.Forall₂ (SplitOf isGet) ops groups ∧ descs = dst ++ groups.flatten := by
  induction ops generalizing dst with
  | nil =>
    rcases hbuild with ⟨⟩
    exact ⟨[], .nil, by simp⟩
  | cons op rest ih =>
    unfold buildLoop at hbuild
    generalize happend : appendSplitDescs (opSource isGet op)
      (opDestination isGet op) op.len dst = appended at hbuild
    rcases appended with ⟨status, dst'⟩
    cases status with
    | success =>
      rcases appendSplitDescs_eq_success happend with ⟨group, hgroup, rfl⟩
      rcases ih hbuild with ⟨groups, hgroups, rfl⟩
      exact ⟨group :: groups, .cons hgroup hgroups, by simp⟩
    | _ => cases hbuild

theorem prepareAicpuDescBuf_eq_ok (hprepare : prepareAicpuDescBuf isGet ops = .ok descs) :
    descs.length < 2 ^ 32 ∧ ∃ groups, List.Forall₂ (SplitOf isGet) ops groups ∧
        descs = groups.flatten := by
  unfold prepareAicpuDescBuf buildUbMemTransferDescs at hprepare
  by_cases hempty : ops.length = 0
  · rw [if_pos hempty] at hprepare
    cases hprepare
  · rw [if_neg hempty] at hprepare
    generalize hbuild : buildLoop isGet [] ops = built at hprepare
    rcases built with ⟨status, built⟩
    cases status with
    | success =>
      dsimp only at hprepare
      split_ifs at hprepare with hcount
      rcases hprepare with ⟨⟩
      rw [wordMax_32] at hcount
      rcases buildLoop_eq_success hbuild with ⟨groups, hgroups, rfl⟩
      exact ⟨by omega, groups, hgroups, by simp⟩
    | _ => cases hprepare

theorem forall₂_splitOf_fits {groups : List (List UbMemAicpuTransferDesc)}
    (hgroups : List.Forall₂ (SplitOf isGet) ops groups) :
    ∀ desc ∈ groups.flatten, 0 < desc.length ∧ desc.length ≤ maxSdmaTransferBytes := by
  induction hgroups with
  | nil => simp
  | cons hgroup hrest ih =>
    intro desc hdesc
    rcases List.mem_append.mp hdesc with hfirst | hlater
    · exact hgroup.fits desc hfirst
    · exact ih desc hlater

end Hixl
