import Hixl.ByteTilings
import Hixl.UbMemRemoteModel
import Mathlib.Data.List.Forall2
import Mathlib.Data.List.Induction

/-!
# Exactness of the remote translation

The entries of the rebuilt index are runs of consecutive sorted ranges that tile
both address spaces at once.  So a lookup finds an entry exactly when some live
range holds the byte, and answers with the address that the range gives to it,
merged or not.  The loop over one operation consumes it from left to right and
cuts it at the borders of the entries.
-/

namespace Hixl

open ByteTilings

namespace IndexEntry

def Holds (entry : IndexEntry) (byte : ℕ) : Prop :=
  entry.peerAddr ≤ byte ∧ byte < entry.peerAddr + entry.info.len

instance (entry : IndexEntry) (byte : ℕ) : Decidable (entry.Holds byte) :=
  inferInstanceAs (Decidable (_ ∧ _))

def target (entry : IndexEntry) (byte : ℕ) : ℕ := entry.info.vaAddr + (byte - entry.peerAddr)

structure Fits (entry : IndexEntry) : Prop where
  peer : entry.peerAddr + entry.info.len ≤ wordMax 64
  mapped : entry.info.vaAddr + entry.info.len ≤ wordMax 64

end IndexEntry

namespace RemoteRange

def Holds (range : RemoteRange) (byte : ℕ) : Prop :=
  range.vaAddr ≤ byte ∧ byte < range.vaAddr + range.len

def target (range : RemoteRange) (byte : ℕ) : ℕ := range.localVa + (byte - range.vaAddr)

end RemoteRange

def unmergedIndex (ranges : List RemoteRange) : UbMemRemoteIndex :=
  (sortedRanges ranges).map RemoteRange.entry

def lookup (index : UbMemRemoteIndex) (byte : ℕ) : Option IndexEntry :=
  index.reverse.find? fun entry => entry.Holds byte

theorem lookup_append (left right : UbMemRemoteIndex) (byte : ℕ) : lookup (left ++ right) byte =
      (lookup right byte).or (lookup left byte) := by
  unfold lookup
  rw [List.reverse_append, List.find?_append]

variable {index : UbMemRemoteIndex} {byte : ℕ} {entry : IndexEntry}

theorem lookup_holds (hlookup : lookup index byte = some entry) :
    entry ∈ index ∧ entry.Holds byte := by
  have hmem := List.mem_of_find?_eq_some hlookup
  have hholds := List.find?_some hlookup
  exact ⟨List.mem_reverse.mp hmem, by simpa using hholds⟩

theorem lookup_eq_none_iff : lookup index byte = none ↔ ∀ entry ∈ index, ¬entry.Holds byte := by
  simp [lookup]

structure WellFormedIndex (index : UbMemRemoteIndex) : Prop where
  sorted : index.Pairwise fun a b => a.peerAddr ≤ b.peerAddr
  fits : ∀ entry ∈ index, entry.Fits

theorem probeDown_eq {entries : List IndexEntry} (hbelow : ∀ entry ∈ entries, entry.peerAddr ≤ byte)
    (hfits : ∀ entry ∈ entries, entry.Fits) :
    probeDown byte entries = (entries.find? fun entry => entry.Holds byte).map fun entry =>
        (entry.target byte, entry.info.len - (byte - entry.peerAddr)) := by
  induction entries with
  | nil => rfl
  | cons entry rest ih =>
    have hle : entry.peerAddr ≤ byte := hbelow entry List.mem_cons_self
    have hmapped := (hfits entry List.mem_cons_self).mapped
    rw [wordMax_64] at hmapped
    rw [probeDown, List.find?_cons]
    by_cases hholds : entry.Holds byte
    · have hlt := hholds.2
      have hprobe : ¬(byte - entry.peerAddr ≥ entry.info.len ∨
          entry.info.vaAddr > wordMax 64 - (byte - entry.peerAddr)) := by
        rw [wordMax_64]
        omega
      simp [hprobe, hholds, IndexEntry.target]
    · have hprobe : byte - entry.peerAddr ≥ entry.info.len := by
        unfold IndexEntry.Holds at hholds
        omega
      simp only [hprobe, true_or, if_true, hholds, decide_false]
      exact ih (fun other hother => hbelow other (List.mem_cons_of_mem _ hother))
        (fun other hother => hfits other (List.mem_cons_of_mem _ hother))

theorem WellFormedIndex.findMappedAddrPrefix_eq (hwell : WellFormedIndex index) (byte : ℕ) :
    findMappedAddrPrefix byte index = (lookup index byte).map fun entry =>
        (entry.target byte, entry.info.len - (byte - entry.peerAddr)) := by
  set low := index.takeWhile fun entry => entry.peerAddr ≤ byte with hlow
  set high := index.dropWhile fun entry => entry.peerAddr ≤ byte with hhigh
  have hsplit : low ++ high = index := List.takeWhile_append_dropWhile
  have hmono : index.Pairwise fun a b =>
      decide (b.peerAddr ≤ byte) = true →
        decide (a.peerAddr ≤ byte) = true := by
    refine hwell.sorted.imp ?_
    intro a b hab hb
    simp only [decide_eq_true_eq] at hb ⊢
    exact le_trans hab hb
  have hhighNone : lookup high byte = none := by
    rw [lookup_eq_none_iff]
    intro entry hentry hholds
    have hgt := KeyedLists.eq_false_of_mem_dropWhile hmono hentry
    simp only [decide_eq_false_iff_not] at hgt
    exact hgt hholds.1
  have hlowBelow : ∀ entry ∈ low.reverse, entry.peerAddr ≤ byte := by
    intro entry hentry
    have htake := List.mem_takeWhile_imp (List.mem_reverse.mp hentry)
    simpa using htake
  have hlowFits : ∀ entry ∈ low.reverse, entry.Fits := by
    intro entry hentry
    refine hwell.fits entry ?_
    rw [← hsplit]
    exact List.mem_append_left _ (List.mem_reverse.mp hentry)
  have hlookup : lookup index byte = lookup low byte := by
    rw [← hsplit, lookup_append, hhighNone, Option.none_or]
  rw [hlookup]
  exact probeDown_eq hlowBelow hlowFits

/-! ## The entries of the rebuilt index -/

/-- The entry is the union of a run of ranges that tile it in the address
space of the peer and, with the same offsets, in the local one. -/
structure EntryOf (run : List RemoteRange) (entry : IndexEntry) : Prop where
  nonempty : run ≠ []
  peer : Tiles RemoteRange.len RemoteRange.vaAddr entry.peerAddr
    entry.info.len run
  mapped : Tiles RemoteRange.len RemoteRange.localVa entry.info.vaAddr
    entry.info.len run

inductive Grouped : List RemoteRange → UbMemRemoteIndex → Prop
  | nil : Grouped [] []
  | snoc {ranges run index entry} :
      Grouped ranges index → EntryOf run entry → Grouped (ranges ++ run) (index ++ [entry])

theorem entryOf_singleton (range : RemoteRange) : EntryOf [range] range.entry where
  nonempty := List.cons_ne_nil _ _
  peer := Tiles.singleton rfl
  mapped := Tiles.singleton rfl

variable {run : List RemoteRange}

theorem EntryOf.fits (hentry : EntryOf run entry) : entry.Fits := by
  obtain ⟨last, -, hpeer⟩ := hentry.peer.exists_last hentry.nonempty
  obtain ⟨last', -, hmapped⟩ := hentry.mapped.exists_last hentry.nonempty
  exact ⟨hpeer ▸ last.peer_fits, hmapped ▸ last'.local_fits⟩

theorem EntryOf.key_mem (hentry : EntryOf run entry) :
    ∃ range ∈ run, range.vaAddr = entry.peerAddr := by
  cases run with
  | nil => exact absurd rfl hentry.nonempty
  | cons first rest => exact ⟨first, List.mem_cons_self, hentry.peer.follows.1⟩

variable {range : RemoteRange}

theorem EntryOf.extend (hentry : EntryOf run entry)
    (hpeer : wrapAdd 64 entry.peerAddr entry.info.len = range.vaAddr)
    (hlocal : wrapAdd 64 entry.info.vaAddr entry.info.len = range.localVa) :
    EntryOf (run ++ [range]) { entry with info :=
        { entry.info with
          len := wrapAdd 64 entry.info.len range.len } } := by
  have hpeerFits := hentry.fits.peer
  have hmappedFits := hentry.fits.mapped
  have hrangeFits := range.peer_fits
  rw [wordMax_64] at hpeerFits hmappedFits hrangeFits
  rw [wrapAdd_eq_add (by omega)] at hpeer hlocal
  have hlen : wrapAdd 64 entry.info.len range.len =
      entry.info.len + range.len := wrapAdd_eq_add (by omega)
  refine ⟨by simp, ?_, ?_⟩
  · simp only [hlen]
    exact hentry.peer.append (Tiles.singleton hpeer.symm)
  · simp only [hlen]
    exact hentry.mapped.append (Tiles.singleton hlocal.symm)

variable {ranges : List RemoteRange}

theorem Grouped.key_mem (hgrouped : Grouped ranges index) (hmem : entry ∈ index) :
    ∃ range ∈ ranges, range.vaAddr = entry.peerAddr := by
  induction hgrouped with
  | nil => cases hmem
  | snoc hgrouped hentry ih =>
    rcases List.mem_append.mp hmem with hindex | hlast
    · obtain ⟨range, hrange, hkey⟩ := ih hindex
      exact ⟨range, List.mem_append_left _ hrange, hkey⟩
    · rw [List.mem_singleton.mp hlast]
      obtain ⟨range, hrange, hkey⟩ := hentry.key_mem
      exact ⟨range, List.mem_append_right _ hrange, hkey⟩

theorem Grouped.wellFormed (hgrouped : Grouped ranges index)
    (hsorted : ranges.Pairwise fun a b => a.vaAddr ≤ b.vaAddr) : WellFormedIndex index := by
  induction hgrouped with
  | nil => exact ⟨List.Pairwise.nil, by simp⟩
  | snoc hgrouped hentry ih =>
    obtain ⟨hleft, -, hcross⟩ := List.pairwise_append.mp hsorted
    have hwell := ih hleft
    refine ⟨List.pairwise_append.mpr ⟨hwell.sorted, List.pairwise_singleton _ _, ?_⟩, ?_⟩
    · intro a ha b hb
      obtain ⟨range, hrange, hkey⟩ := hgrouped.key_mem ha
      obtain ⟨range', hrange', hkey'⟩ := hentry.key_mem
      rw [List.mem_singleton.mp hb, ← hkey, ← hkey']
      exact hcross range hrange range' hrange'
    · intro other hother
      rcases List.mem_append.mp hother with hindex | hlast
      · exact hwell.fits other hindex
      · rw [List.mem_singleton.mp hlast]
        exact hentry.fits

theorem emplace_eq_append (hle : ∀ other ∈ index, other.peerAddr ≤ entry.peerAddr) :
    index.emplace entry = index ++ [entry] := by
  have hall : ∀ other ∈ index,
      decide (other.peerAddr ≤ entry.peerAddr) = true := by
    intro other hother
    simpa using hle other hother
  unfold UbMemRemoteIndex.emplace
  rw [List.takeWhile_eq_self_iff.mpr hall, List.dropWhile_eq_nil_iff.mpr hall]

theorem Grouped.addToIndex (hgrouped : Grouped ranges index)
    (hlast : ∀ other ∈ ranges, other.vaAddr ≤ range.vaAddr) :
    Grouped (ranges ++ [range]) (addToIndex index range.entry) := by
  have hle : ∀ other ∈ index, other.peerAddr ≤ range.entry.peerAddr := by
    intro other hother
    obtain ⟨source, hsource, hkey⟩ := hgrouped.key_mem hother
    rw [← hkey]
    exact hlast source hsource
  have hemplace : Grouped (ranges ++ [range]) (index.emplace range.entry) := by
    rw [emplace_eq_append hle]
    exact hgrouped.snoc (entryOf_singleton range)
  unfold Hixl.addToIndex
  cases hgrouped with
  | nil => exact hemplace
  | snoc hgrouped hentry =>
    rw [List.getLast?_concat]
    dsimp only
    split_ifs with hmerge
    · simp only [Bool.and_eq_true, decide_eq_true_eq] at hmerge
      rw [List.dropLast_concat, List.append_assoc]
      exact hgrouped.snoc (hentry.extend hmerge.1.1 hmerge.1.2)
    · exact hemplace

theorem grouped_foldl {done rest : List RemoteRange} (hgrouped : Grouped done index)
    (hsorted : (done ++ rest).Pairwise fun a b => a.vaAddr ≤ b.vaAddr) :
    Grouped (done ++ rest) ((rest.map RemoteRange.entry).foldl addToIndex index) := by
  induction rest generalizing done index with
  | nil => simpa using hgrouped
  | cons range rest ih =>
    have hlast : ∀ other ∈ done, other.vaAddr ≤ range.vaAddr := by
      intro other hother
      exact (List.pairwise_append.mp hsorted).2.2 other hother range List.mem_cons_self
    have hstep := hgrouped.addToIndex hlast
    rw [List.append_cons] at hsorted ⊢
    exact ih hstep hsorted

theorem sortedRanges_sorted (ranges : List RemoteRange) :
    (sortedRanges ranges).Pairwise fun a b => a.vaAddr ≤ b.vaAddr := by
  have hpairwise : (sortedRanges ranges).Pairwise fun a b =>
      decide (a.vaAddr ≤ b.vaAddr) = true := by
    refine List.pairwise_mergeSort ?_ ?_ ranges
    · intro a b c hab hbc
      simp only [decide_eq_true_eq] at hab hbc ⊢
      exact le_trans hab hbc
    · intro a b
      simpa using le_total a.vaAddr b.vaAddr
  exact hpairwise.imp fun hab => by simpa using hab

theorem mem_sortedRanges : range ∈ sortedRanges ranges ↔ range ∈ ranges :=
  (List.mergeSort_perm ranges _).mem_iff

theorem grouped_rebuild (ranges : List RemoteRange) :
    Grouped (sortedRanges ranges) (rebuildTranslationIndex ranges) := by
  have hsorted : (sortedRanges ranges).map RemoteRange.entry =
      (ranges.map RemoteRange.entry).mergeSort fun lhs rhs => lhs.peerAddr ≤ rhs.peerAddr := by
    apply List.map_mergeSort
    intro lhs _ rhs _
    rfl
  rw [rebuildTranslationIndex, buildIndex, ← hsorted]
  exact grouped_foldl Grouped.nil (sortedRanges_sorted ranges)

variable {mapped : ℕ}

theorem EntryOf.maps_iff (hentry : EntryOf run entry) :
    (entry.Holds byte ∧ entry.target byte = mapped) ↔
      ∃ range ∈ run, range.Holds byte ∧ range.target byte = mapped := by
  have htotal := hentry.peer.total_eq
  have htarget : ∀ range ∈ run, range.Holds byte →
      entry.Holds byte ∧ range.target byte = entry.target byte := by
    intro range hrange hholds
    have hbounds := hentry.peer.follows.bounds hrange
    have hoffset := hentry.peer.follows.same_offset hentry.mapped.follows hrange
    unfold RemoteRange.Holds at hholds
    unfold IndexEntry.Holds RemoteRange.target IndexEntry.target
    omega
  constructor
  · rintro ⟨hholds, rfl⟩
    obtain ⟨range, hrange, hrangeHolds⟩ :=
      hentry.peer.follows.exists_piece hholds.1 (by
        rw [htotal]
        exact hholds.2)
    exact ⟨range, hrange, hrangeHolds, (htarget range hrange hrangeHolds).2⟩
  · rintro ⟨range, hrange, hholds, rfl⟩
    have hboth := htarget range hrange hholds
    exact ⟨hboth.1, hboth.2.symm⟩

theorem Grouped.maps_iff (hgrouped : Grouped ranges index) :
    (∃ entry ∈ index, entry.Holds byte ∧ entry.target byte = mapped) ↔
      ∃ range ∈ ranges, range.Holds byte ∧ range.target byte = mapped := by
  induction hgrouped with
  | nil => simp
  | snoc hgrouped hentry ih =>
    simp only [List.mem_append, List.mem_singleton, or_and_right,
      exists_or, exists_eq_left, ih, hentry.maps_iff]

theorem EntryOf.lookup_target (hentry : EntryOf run entry) (byte : ℕ) :
    (lookup [entry] byte).map (fun found => found.target byte) =
      (lookup (run.map RemoteRange.entry) byte).map fun found => found.target byte := by
  cases hrun : lookup (run.map RemoteRange.entry) byte with
  | none =>
    have hnone : lookup [entry] byte = none := by
      rw [lookup_eq_none_iff] at hrun ⊢
      intro other hother hholds
      rw [List.mem_singleton.mp hother] at hholds
      obtain ⟨range, hrange, hrangeHolds, -⟩ := hentry.maps_iff.mp ⟨hholds, rfl⟩
      exact hrun range.entry (List.mem_map_of_mem hrange) hrangeHolds
    rw [hnone]
  | some found =>
    obtain ⟨hmem, hholds⟩ := lookup_holds hrun
    obtain ⟨range, hrange, rfl⟩ := List.mem_map.mp hmem
    have hmaps := hentry.maps_iff.mpr
      ⟨range, hrange, hholds, rfl⟩
    have hfound : lookup [entry] byte = some entry := by simp [lookup, hmaps.1]
    rw [hfound, Option.map_some, Option.map_some, hmaps.2]
    rfl

theorem Grouped.lookup_target (hgrouped : Grouped ranges index) (byte : ℕ) :
    (lookup index byte).map (fun found => found.target byte) =
      (lookup (ranges.map RemoteRange.entry) byte).map fun found => found.target byte := by
  induction hgrouped with
  | nil => rfl
  | snoc hgrouped hentry ih =>
    rw [List.map_append, lookup_append, lookup_append, Option.map_or,
      Option.map_or, hentry.lookup_target, ih]

theorem grouped_unmerged (ranges : List RemoteRange) :
    Grouped ranges (ranges.map RemoteRange.entry) := by
  induction ranges using List.reverseRecOn with
  | nil => exact Grouped.nil
  | append_singleton ranges range ih =>
    rw [List.map_append]
    exact ih.snoc (entryOf_singleton range)

/-! ## The loop over one operation -/

/-- The piece lies in the entry, and each of its bytes is sent to the mapped
address of the remote byte at the same offset of the operation. -/
def PieceIn (op : HixlOneSideOpDesc) (entry : IndexEntry) (piece : HixlOneSideOpDesc) : Prop :=
  ∀ j, j < piece.len → entry.Holds (op.remoteBuf + (piece.localBuf - op.localBuf) + j) ∧
      piece.remoteBuf + j = entry.target (op.remoteBuf + (piece.localBuf - op.localBuf) + j)

section TranslateOp

variable {index : UbMemRemoteIndex} {op : HixlOneSideOpDesc} {offset : ℕ}

theorem translateOp_step (hwell : WellFormedIndex index) (fuel : ℕ) (hoffset : offset < op.len)
    {entry : IndexEntry} (hlookup : lookup index (op.remoteBuf + offset) = some entry) :
    ∃ piece : HixlOneSideOpDesc, piece.localBuf = op.localBuf + offset ∧ 0 < piece.len ∧
        offset + piece.len ≤ op.len ∧ PieceIn op entry piece ∧
        translateOp index op (fuel + 1) offset =
          ((translateOp index op fuel (offset + piece.len)).1,
            piece :: (translateOp index op fuel (offset + piece.len)).2) := by
  obtain ⟨-, hholds⟩ := lookup_holds hlookup
  have hfind := hwell.findMappedAddrPrefix_eq (op.remoteBuf + offset)
  rw [hlookup, Option.map_some] at hfind
  refine ⟨⟨entry.target (op.remoteBuf + offset), op.localBuf + offset,
    min (op.len - offset) (entry.info.len -
      (op.remoteBuf + offset - entry.peerAddr))⟩, rfl, ?_, ?_, ?_, ?_⟩
  · have hbounds := hholds
    unfold IndexEntry.Holds at hbounds
    simp only
    omega
  · simp only
    omega
  · intro j hj
    simp only at hj
    unfold IndexEntry.Holds at hholds
    unfold IndexEntry.Holds IndexEntry.target
    simp only
    omega
  · rw [translateOp, if_pos hoffset, hfind]

variable {fuel : ℕ}

theorem translateOp_success_iff (hwell : WellFormedIndex index) (hfuel : op.len ≤ offset + fuel) :
    (translateOp index op fuel offset).1 = .success ↔ ∀ k, offset ≤ k → k < op.len →
        ∃ entry ∈ index, entry.Holds (op.remoteBuf + k) := by
  induction fuel generalizing offset with
  | zero =>
    have hdone : ¬offset < op.len := by omega
    simp only [translateOp, hdone, if_false, true_iff]
    intro k hk hlt
    omega
  | succ fuel ih =>
    by_cases hoffset : offset < op.len
    · cases hlookup : lookup index (op.remoteBuf + offset) with
      | none =>
        have hfind := hwell.findMappedAddrPrefix_eq
          (op.remoteBuf + offset)
        rw [hlookup, Option.map_none] at hfind
        rw [lookup_eq_none_iff] at hlookup
        rw [translateOp, if_pos hoffset, hfind]
        constructor
        · intro hsuccess
          cases hsuccess
        · intro hall
          obtain ⟨entry, hentry, hholds⟩ := hall offset (le_refl _) hoffset
          exact absurd hholds (hlookup entry hentry)
      | some entry =>
        obtain ⟨piece, hlocal, hpos, hle, hpiece, hstep⟩ :=
          translateOp_step hwell fuel hoffset hlookup
        rw [hstep, ih (by omega)]
        constructor
        · intro hall k hk hlt
          by_cases hin : k < offset + piece.len
          · refine ⟨entry, (lookup_holds hlookup).1, ?_⟩
            have hbyte := (hpiece (k - offset) (by omega)).1
            rw [hlocal] at hbyte
            have hk' : op.remoteBuf + (op.localBuf + offset - op.localBuf) + (k - offset) =
                  op.remoteBuf + k := by omega
            rwa [hk'] at hbyte
          · exact hall k (by omega) hlt
        · intro hall k hk hlt
          exact hall k (by omega) hlt
    · simp only [translateOp, hoffset, if_false, true_iff]
      intro k hk hlt
      omega

theorem translateOp_tiles (hwell : WellFormedIndex index) (hoffset : offset ≤ op.len)
    (hsuccess : (translateOp index op fuel offset).1 = .success) :
    Tiles HixlOneSideOpDesc.len HixlOneSideOpDesc.localBuf (op.localBuf + offset) (op.len - offset)
        (translateOp index op fuel offset).2 ∧ ∀ piece ∈ (translateOp index op fuel offset).2,
        0 < piece.len ∧ ∃ entry ∈ index, PieceIn op entry piece := by
  induction fuel generalizing offset with
  | zero =>
    by_cases hlt : offset < op.len
    · simp [translateOp, hlt] at hsuccess
    · have hzero : op.len - offset = 0 := by omega
      simp only [translateOp, hlt, if_false, hzero]
      exact ⟨⟨trivial, rfl⟩, by simp⟩
  | succ fuel ih =>
    by_cases hlt : offset < op.len
    · cases hlookup : lookup index (op.remoteBuf + offset) with
      | none =>
        have hfind := hwell.findMappedAddrPrefix_eq
          (op.remoteBuf + offset)
        rw [hlookup, Option.map_none] at hfind
        simp [translateOp, if_pos hlt, hfind] at hsuccess
      | some entry =>
        obtain ⟨piece, hlocal, hpos, hle, hpiece, hstep⟩ := translateOp_step hwell fuel hlt hlookup
        rw [hstep] at hsuccess ⊢
        obtain ⟨htiles, hpieces⟩ := ih hle hsuccess
        refine ⟨?_, ?_⟩
        · have hsize : op.len - offset = piece.len + (op.len - (offset + piece.len)) := by omega
          rw [hsize]
          rw [← add_assoc] at htiles
          exact (Tiles.singleton hlocal).append htiles
        · intro other hother
          rcases List.mem_cons.mp hother with rfl | hrest
          · exact ⟨hpos, entry, (lookup_holds hlookup).1, hpiece⟩
          · exact hpieces other hrest
    · have hzero : op.len - offset = 0 := by omega
      simp only [translateOp, hlt, if_false, hzero]
      exact ⟨⟨trivial, rfl⟩, by simp⟩

end TranslateOp

/-! ## Exactness over lists of operations -/

/-- The operation is not empty, neither of its ranges overflows, and each of
its remote bytes lies in a live range. -/
structure Translatable (ranges : List RemoteRange)
    (op : HixlOneSideOpDesc) : Prop where
  len_pos : 0 < op.len
  remote_fits : op.remoteBuf + op.len ≤ 2 ^ 64 - 1
  local_fits : op.localBuf + op.len ≤ 2 ^ 64 - 1
  covered : ∀ k, k < op.len →
    ∃ range ∈ ranges, range.Holds (op.remoteBuf + k)

/-- The pieces tile the local bytes of the operation in order.  Each lies in
one entry of the index, and each of its bytes is sent to the local address that
a live range gives to the remote byte at the same offset. -/
structure TranslatesTo (ranges : List RemoteRange)
    (index : UbMemRemoteIndex) (op : HixlOneSideOpDesc)
    (pieces : List HixlOneSideOpDesc) : Prop where
  tiles : Tiles HixlOneSideOpDesc.len HixlOneSideOpDesc.localBuf
    op.localBuf op.len pieces
  nonempty : ∀ piece ∈ pieces, 0 < piece.len
  inEntry : ∀ piece ∈ pieces, ∃ entry ∈ index, PieceIn op entry piece
  mapped : ∀ piece ∈ pieces, ∀ j, j < piece.len →
    ∃ range ∈ ranges, range.Holds (op.remoteBuf + (piece.localBuf - op.localBuf) + j) ∧
        piece.remoteBuf + j = range.target (op.remoteBuf + (piece.localBuf - op.localBuf) + j)

/-- Translation through the index succeeds exactly on translatable operations
and then cuts each of them into pieces for its bytes. -/
def TranslatesExactly (ranges : List RemoteRange) (index : UbMemRemoteIndex) : Prop :=
  ∀ ops : List HixlOneSideOpDesc, ((translateRemoteOpDescs index ops).1 = .success ↔
        ∀ op ∈ ops, Translatable ranges op) ∧
      ((translateRemoteOpDescs index ops).1 = .success →
        ∃ groups, List.Forall₂ (TranslatesTo ranges index) ops groups ∧
          (translateRemoteOpDescs index ops).2 = groups.flatten)

theorem translateRemoteOpDescs_cons {op : HixlOneSideOpDesc} {rest : List HixlOneSideOpDesc} :
    ((translateRemoteOpDescs index (op :: rest)).1 = .success ↔
        (0 < op.len ∧ op.remoteBuf + op.len ≤ 2 ^ 64 - 1 ∧ op.localBuf + op.len ≤ 2 ^ 64 - 1 ∧
            (translateOp index op op.len 0).1 = .success) ∧
          (translateRemoteOpDescs index rest).1 = .success) ∧
      ((translateRemoteOpDescs index (op :: rest)).1 = .success →
        (translateRemoteOpDescs index (op :: rest)).2 = (translateOp index op op.len 0).2 ++
            (translateRemoteOpDescs index rest).2) := by
  rw [translateRemoteOpDescs, wordMax_64]
  by_cases hlen : op.len = 0
  · simp [hlen]
  · rw [if_neg hlen]
    by_cases hfits : op.remoteBuf + op.len ≤ 2 ^ 64 - 1 ∧ op.localBuf + op.len ≤ 2 ^ 64 - 1
    · rw [if_neg (not_not.mpr hfits)]
      have hpos : 0 < op.len := by omega
      rcases hop : translateOp index op op.len 0 with ⟨status, pieces⟩
      cases status with
      | success =>
        rw [and_iff_right (⟨hpos, hfits.1, hfits.2, rfl⟩ :
          0 < op.len ∧ _ ∧ _ ∧ Status.success = .success)]
        exact ⟨Iff.rfl, fun _ => rfl⟩
      | _ => simp
    · rw [if_pos hfits]
      refine ⟨⟨fun hfail => absurd hfail (by simp), ?_⟩, fun hfail => absurd hfail (by simp)⟩
      rintro ⟨⟨-, hremote, hlocal, -⟩, -⟩
      exact absurd ⟨hremote, hlocal⟩ hfits

theorem translatesExactly_of_grouped {sorted : List RemoteRange} (hgrouped : Grouped sorted index)
    (hsorted : sorted.Pairwise fun a b => a.vaAddr ≤ b.vaAddr)
    (hmem : ∀ range, range ∈ sorted ↔ range ∈ ranges) : TranslatesExactly ranges index := by
  have hwell := hgrouped.wellFormed hsorted
  have hmaps : ∀ byte mapped, (∃ entry ∈ index, entry.Holds byte ∧ entry.target byte = mapped) ↔
        ∃ range ∈ ranges, range.Holds byte ∧ range.target byte = mapped := by
    intro byte mapped
    rw [hgrouped.maps_iff]
    simp only [hmem]
  have hholds : ∀ byte, (∃ entry ∈ index, entry.Holds byte) ↔
      ∃ range ∈ ranges, range.Holds byte := by
    intro byte
    constructor
    · rintro ⟨entry, hentry, hbyte⟩
      obtain ⟨range, hrange, hrangeHolds, -⟩ := (hmaps byte _).mp ⟨entry, hentry, hbyte, rfl⟩
      exact ⟨range, hrange, hrangeHolds⟩
    · rintro ⟨range, hrange, hbyte⟩
      obtain ⟨entry, hentry, hentryHolds, -⟩ := (hmaps byte _).mpr ⟨range, hrange, hbyte, rfl⟩
      exact ⟨entry, hentry, hentryHolds⟩
  intro ops
  induction ops with
  | nil =>
    refine ⟨by simp [translateRemoteOpDescs], fun _ => ?_⟩
    exact ⟨[], List.Forall₂.nil, rfl⟩
  | cons op rest ih =>
    obtain ⟨hiff, hout⟩ := @translateRemoteOpDescs_cons index op rest
    have hop : (translateOp index op op.len 0).1 = .success ↔ ∀ k, k < op.len →
          ∃ range ∈ ranges, range.Holds (op.remoteBuf + k) := by
      rw [translateOp_success_iff hwell (by omega)]
      simp only [hholds, Nat.zero_le, true_implies]
    refine ⟨?_, ?_⟩
    · rw [hiff, ih.1, List.forall_mem_cons, hop]
      refine and_congr_left fun _ => ⟨?_, ?_⟩
      all_goals
        rintro ⟨hlen, hremote, hlocal, hcovered⟩
        exact ⟨hlen, hremote, hlocal, hcovered⟩
    · intro hsuccess
      obtain ⟨⟨-, -, -, hopSuccess⟩, hrest⟩ := hiff.mp hsuccess
      obtain ⟨groups, hgroups, hflatten⟩ := ih.2 hrest
      obtain ⟨htiles, hpieces⟩ := translateOp_tiles hwell (Nat.zero_le _) hopSuccess
      refine ⟨(translateOp index op op.len 0).2 :: groups,
        List.Forall₂.cons ⟨by simpa using htiles, fun piece hpiece => (hpieces piece hpiece).1,
          fun piece hpiece => (hpieces piece hpiece).2, ?_⟩ hgroups, ?_⟩
      · intro piece hpiece j hj
        obtain ⟨entry, hentry, hin⟩ := (hpieces piece hpiece).2
        obtain ⟨hbyte, htarget⟩ := hin j hj
        obtain ⟨range, hrange, hrangeHolds, hrangeTarget⟩ :=
          (hmaps _ _).mp ⟨entry, hentry, hbyte, rfl⟩
        exact ⟨range, hrange, hrangeHolds, by rw [htarget, hrangeTarget]⟩
      · rw [hout hsuccess, hflatten, List.flatten_cons]

theorem translatesExactly_rebuild (ranges : List RemoteRange) :
    TranslatesExactly ranges (rebuildTranslationIndex ranges) :=
  translatesExactly_of_grouped (grouped_rebuild ranges) (sortedRanges_sorted ranges)
    fun _ => mem_sortedRanges

/-- Translation through the merged index is exact.  The merged and the
unmerged index succeed on the same operations, relate the same bytes to the
same local addresses, and answer every lookup with the same address. -/
theorem translateRemoteOpDescs_exact (ranges : List RemoteRange) :
    TranslatesExactly ranges (rebuildTranslationIndex ranges) ∧
      TranslatesExactly ranges (unmergedIndex ranges) ∧
      (∀ byte mapped, (∃ entry ∈ rebuildTranslationIndex ranges,
            entry.Holds byte ∧ entry.target byte = mapped) ↔
          ∃ range ∈ ranges, range.Holds byte ∧ range.target byte = mapped) ∧
      ∀ byte, (findMappedAddrPrefix byte (rebuildTranslationIndex ranges)).map Prod.fst =
          (findMappedAddrPrefix byte (unmergedIndex ranges)).map Prod.fst := by
  have hsorted := sortedRanges_sorted ranges
  have hmem : ∀ range, range ∈ sortedRanges ranges ↔ range ∈ ranges := fun range => mem_sortedRanges
  have hmerged := grouped_rebuild ranges
  have hunmerged := grouped_unmerged (sortedRanges ranges)
  refine ⟨translatesExactly_rebuild ranges,
    translatesExactly_of_grouped hunmerged hsorted hmem, ?_, ?_⟩
  · intro byte mapped
    rw [hmerged.maps_iff]
    simp only [hmem]
  · intro byte
    have hlookup := hmerged.lookup_target byte
    rw [(hmerged.wellFormed hsorted).findMappedAddrPrefix_eq byte]
    rw [unmergedIndex]
    rw [(hunmerged.wellFormed hsorted).findMappedAddrPrefix_eq byte]
    simpa [Option.map_map, Function.comp_def] using hlookup

def sixteenByteRange (vaAddr : ℕ) (hends : vaAddr ≤ 4112) : RemoteRange where
  vaAddr := vaAddr
  len := 16
  localVa := vaAddr + 4096
  imported := true
  peer_fits := by
    rw [wordMax_64]
    omega
  local_fits := by
    rw [wordMax_64]
    omega

/-- An operation whose remote bytes are all imported is refused when its local
range leaves the address space, and one over two adjacent ranges makes one
piece that lies in neither of them. -/
theorem translateRemoteOpDescs_local_overflow :
    let ranges := [sixteenByteRange 4096 (by decide), sixteenByteRange 4112 (by decide)]
    let op : HixlOneSideOpDesc := ⟨4096, 2 ^ 64 - 1, 2⟩
    (0 < op.len ∧ op.remoteBuf + op.len ≤ 2 ^ 64 - 1 ∧ (∀ k, k < op.len →
        ∃ range ∈ ranges, range.Holds (op.remoteBuf + k)) ∧
      (translateRemoteOpDescs (rebuildTranslationIndex ranges) [op]).1 = .paramInvalid) ∧
    translateRemoteOpDescs (rebuildTranslationIndex ranges) [⟨4104, 64, 16⟩] =
        (.success, [⟨8200, 64, 16⟩]) ∧
      ∀ range ∈ ranges, ¬(range.Holds 4104 ∧ range.Holds 4119) := by
  intro ranges op
  have hindex : rebuildTranslationIndex ranges = [⟨4096, ⟨8192, 32, true⟩⟩] := by
    rw [rebuildTranslationIndex, buildIndex, List.mergeSort_of_pairwise (by decide)]
    decide
  rw [hindex]
  refine ⟨⟨by decide, by decide, ?_, by decide⟩, by decide, ?_⟩
  · intro k hk
    refine ⟨_, List.mem_cons_self, ?_⟩
    change 4096 ≤ 4096 + k ∧ 4096 + k < 4096 + 16
    have hk' : k < 2 := hk
    omega
  · simp [ranges, sixteenByteRange, RemoteRange.Holds]

end Hixl
