import Hixl.CsClientModel

/-!
# Completion flags of the host path

An outstanding read of a flag goes to the entry of its own transfer, or to one
that nobody uses any more.  The second happens only after a failure, and then
the latch refuses every later transfer: as long as an index can be handed out,
a free entry has no read on its way to it.

`FlagCore` holds at every point inside a call, `FlagInvariant` between calls.
-/

namespace Hixl

/-- What must have happened before the event: an index is handed out only when
all reads into its entry have landed, and a transfer is reported complete only
when its own read has landed. -/
def HostEvent.Justified (older : List HostEvent) : HostEvent → Prop
  | .handed _ index => ∀ transfer, .flagPosted transfer index ∈ older →
      .landed transfer ∈ older
  | .completed transfer => .landed transfer ∈ older
  | _ => True

def JustifiedLog (log : List HostEvent) : Prop :=
  ∀ newer event older, log = newer ++ event :: older → event.Justified older

theorem JustifiedLog.cons {log : List HostEvent} (hlog : JustifiedLog log) {event : HostEvent}
    (hevent : event.Justified log) : JustifiedLog (event :: log) := by
  intro newer other older heq
  cases newer with
  | nil =>
    obtain ⟨rfl, rfl⟩ := List.cons.inj heq
    exact hevent
  | cons first newer => exact hlog newer other older (List.cons.inj heq).2

namespace HostClient

def freeIndices (s : HostClient) : List ℕ := (List.range s.topIndex).map s.availableIndices

structure FlagCore (s : HostClient) : Prop where
  free_nodup : s.freeIndices.Nodup
  free_lt : ∀ index ∈ s.freeIndices, index < flagQueueSize
  free_dead : ∀ index ∈ s.freeIndices, s.liveHandles index = none
  handle_live : ∀ handle ∈ s.handles, handle.flagIndex < flagQueueSize ∧
    s.liveHandles handle.flagIndex = some handle.id
  landed_of_flag : ∀ {index transfer},
    s.liveHandles index = some transfer →
    s.flagQueue index = flagDoneValue → .landed transfer ∈ s.hostLog
  reads_own : ∀ {transfer index other}, (transfer, index) ∈ s.outstanding →
    s.liveHandles index = some other → other = transfer
  reads_posted : ∀ {transfer index}, (transfer, index) ∈ s.outstanding →
    .flagPosted transfer index ∈ s.hostLog ∧ .landed transfer ∉ s.hostLog
  reads_left : ∀ {transfer index}, .flagPosted transfer index ∈ s.hostLog →
    .landed transfer ∈ s.hostLog ∨ (transfer, index) ∈ s.outstanding
  posted_lt : ∀ {transfer index}, .flagPosted transfer index ∈ s.hostLog →
    transfer < s.nextTransfer
  landed_lt : ∀ {transfer}, .landed transfer ∈ s.hostLog →
    transfer < s.nextTransfer
  justified : JustifiedLog s.hostLog

structure FlagInvariant (s : HostClient) : Prop extends FlagCore s where
  reads_live : s.transferFailureLatched = false →
    ∀ {transfer index}, (transfer, index) ∈ s.outstanding → s.liveHandles index = some transfer
  flags_reset : s.transferFailureLatched = false →
    ∀ index, s.liveHandles index = none → s.flagQueue index = flagResetValue

variable {s : HostClient} {index transfer : ℕ} {handle : CompleteHandleInfo} {status : Status}

structure Spare (index : ℕ) (s : HostClient) : Prop where
  lt : index < flagQueueSize
  not_free : index ∉ s.freeIndices
  dead : s.liveHandles index = none

def dropHandle (handle : CompleteHandleInfo) (s : HostClient) : HostClient :=
  { s with
    liveHandles := Function.update s.liveHandles handle.flagIndex none
    handles := s.handles.filter fun other => other.id ≠ handle.id }

theorem dropHandle_live (hlive : (s.dropHandle handle).liveHandles index = some transfer) :
    index ≠ handle.flagIndex ∧ s.liveHandles index = some transfer := by
  simp only [dropHandle, Function.update_apply] at hlive
  split_ifs at hlive with hindex
  exact ⟨hindex, hlive⟩

namespace FlagCore

variable (hcore : s.FlagCore)

include hcore

theorem room (hlt : index < flagQueueSize) (hnot : index ∉ s.freeIndices) :
    s.topIndex < flagQueueSize := by
  have hnodup : (index :: s.freeIndices).Nodup := List.nodup_cons.mpr ⟨hnot, hcore.free_nodup⟩
  have hsubset : index :: s.freeIndices ⊆ List.range flagQueueSize :=
    List.forall_mem_cons.mpr ⟨List.mem_range.mpr hlt,
      fun i hi => List.mem_range.mpr (hcore.free_lt i hi)⟩
  have hlength := (hnodup.subperm hsubset).length_le
  rw [List.length_cons, List.length_range, freeIndices, List.length_map,
    List.length_range] at hlength
  omega

/-- Events that are not about the reads of flags only have to be justified. -/
theorem logged {log : List HostEvent}
    (hposted : ∀ transfer index, .flagPosted transfer index ∈ log ↔
      .flagPosted transfer index ∈ s.hostLog)
    (hlanded : ∀ transfer, .landed transfer ∈ log ↔ .landed transfer ∈ s.hostLog)
    (hlog : JustifiedLog log) : FlagCore { s with hostLog := log } :=
  { hcore with
    landed_of_flag := fun hlive hflag => (hlanded _).mpr (hcore.landed_of_flag hlive hflag)
    reads_posted := fun hread =>
      (hcore.reads_posted hread).imp (hposted _ _).mpr (mt (hlanded _).mp)
    reads_left := fun h => (hcore.reads_left ((hposted _ _).mp h)).imp_left (hlanded _).mpr
    posted_lt := fun h => hcore.posted_lt ((hposted _ _).mp h)
    landed_lt := fun h => hcore.landed_lt ((hlanded _).mp h)
    justified := hlog }

/-! ## Giving an index back -/

theorem releaseFlagIndex_eq (hspare : s.Spare index) : s.releaseFlagIndex index =
      { s with
        availableIndices := Function.update s.availableIndices s.topIndex index
        flagQueue := Function.update s.flagQueue index flagResetValue
        topIndex := s.topIndex + 1 } := by
  have hroom := hcore.room hspare.lt hspare.not_free
  simp [releaseFlagIndex, hroom]

theorem releaseFlagIndex (hspare : s.Spare index) : (s.releaseFlagIndex index).FlagCore := by
  rw [hcore.releaseFlagIndex_eq hspare]
  have hpush : (List.range (s.topIndex + 1)).map (Function.update s.availableIndices s.topIndex
      index) = s.freeIndices ++ [index] := by
    rw [List.range_succ, List.map_append, List.map_singleton, Function.update_self]
    congr 1
    apply List.map_congr_left
    intro i hi
    exact Function.update_of_ne (List.mem_range.mp hi).ne _ _
  refine { hcore with free_nodup := ?_, free_lt := ?_, free_dead := ?_, landed_of_flag := ?_ }
  · rw [freeIndices, hpush]
    exact List.Nodup.append hcore.free_nodup (List.nodup_singleton index)
      (List.disjoint_singleton.mpr hspare.not_free)
  · rw [freeIndices, hpush]
    exact List.forall_mem_append.mpr ⟨hcore.free_lt, List.forall_mem_singleton.mpr hspare.lt⟩
  · rw [freeIndices, hpush]
    exact List.forall_mem_append.mpr ⟨hcore.free_dead, List.forall_mem_singleton.mpr hspare.dead⟩
  · intro i transfer hlive hflag
    have hne : i ≠ index := by
      rintro rfl
      cases hspare.dead.symm.trans hlive
    exact hcore.landed_of_flag hlive ((Function.update_of_ne hne _ _).symm.trans hflag)

section

variable (hmem : handle ∈ s.handles)

include hmem

theorem dropHandle : (s.dropHandle handle).FlagCore := by
  obtain ⟨hlt, hlive⟩ := hcore.handle_live handle hmem
  refine { hcore with
    free_dead := ?_
    handle_live := ?_
    landed_of_flag := fun hlive' => hcore.landed_of_flag (dropHandle_live hlive').2
    reads_own := fun hread hlive' => hcore.reads_own hread (dropHandle_live hlive').2 }
  · intro index hfree
    simp only [HostClient.dropHandle, Function.update_apply, hcore.free_dead index hfree, ite_self]
  · intro other hother
    obtain ⟨hother, hid⟩ := List.mem_filter.mp hother
    obtain ⟨hlt', hlive'⟩ := hcore.handle_live other hother
    have hne : other.flagIndex ≠ handle.flagIndex := by
      intro heq
      rw [heq, hlive] at hlive'
      simp [Option.some.inj hlive'] at hid
    exact ⟨hlt', (Function.update_of_ne hne _ _).trans hlive'⟩

theorem dropHandle_spare : (s.dropHandle handle).Spare handle.flagIndex := by
  obtain ⟨hlt, hlive⟩ := hcore.handle_live handle hmem
  refine ⟨hlt, fun hfree => ?_, Function.update_self _ _ _⟩
  cases hlive.symm.trans (hcore.free_dead handle.flagIndex hfree)

theorem releaseCompleteHandle_eq :
    s.releaseCompleteHandle handle = (s.dropHandle handle).releaseFlagIndex handle.flagIndex := by
  have hspare := hcore.dropHandle_spare hmem
  have hroom : s.topIndex < flagQueueSize := (hcore.dropHandle hmem).room hspare.lt hspare.not_free
  simp [HostClient.releaseCompleteHandle, HostClient.releaseFlagIndex, HostClient.dropHandle, hroom]

theorem releaseCompleteHandle : (s.releaseCompleteHandle handle).FlagCore := by
  rw [hcore.releaseCompleteHandle_eq hmem]
  exact (hcore.dropHandle hmem).releaseFlagIndex (hcore.dropHandle_spare hmem)

end

end FlagCore

theorem flagLands_handles (s : HostClient) (transfer : ℕ) :
    (s.flagLands transfer).handles = s.handles := by
  unfold flagLands
  split <;> rfl

inductive StatusResult (s : HostClient) :
    (Status × Option HixlCompleteStatus) × HostClient → Prop where
  | notCopied : StatusResult s ((.failed, none), s)
  | waiting : StatusResult s ((.success, some .waiting), s)
  | completed {s' : HostClient} (hinv : s'.FlagInvariant) :
      StatusResult s ((.success, some .completed), s')

structure Handed (transfer index : ℕ) (s : HostClient) : Prop
    extends FlagInvariant s where
  spare : s.Spare index
  open_client : s.transferFailureLatched = false
  number : s.nextTransfer = transfer + 1
  unposted : ∀ other, .flagPosted transfer other ∉ s.hostLog
  unlanded : .landed transfer ∉ s.hostLog

namespace FlagInvariant

variable (hinv : s.FlagInvariant)

include hinv

theorem releaseFlagIndex (hspare : s.Spare index) : (s.releaseFlagIndex index).FlagInvariant := by
  refine ⟨hinv.toFlagCore.releaseFlagIndex hspare, ?_, ?_⟩
  · rw [hinv.toFlagCore.releaseFlagIndex_eq hspare]
    exact hinv.reads_live
  · rw [hinv.toFlagCore.releaseFlagIndex_eq hspare]
    intro hlatched i hdead
    by_cases hi : i = index
    · rw [hi]
      exact Function.update_self _ _ _
    · exact (Function.update_of_ne hi _ _).trans (hinv.flags_reset hlatched i hdead)

theorem flagLands (transfer : ℕ) : (s.flagLands transfer).FlagInvariant := by
  unfold HostClient.flagLands
  cases hfind : s.outstanding.find? fun entry => entry.1 = transfer with
  | none => exact hinv
  | some entry =>
    obtain ⟨owner, index⟩ := entry
    have hread := List.mem_of_find?_eq_some hfind
    have howner : owner = transfer := by simpa using List.find?_some hfind
    subst howner
    have hleft : ∀ {transfer' index'}, (transfer', index') ∈
        s.outstanding.filter (fun entry => entry.1 ≠ owner) →
        transfer' ≠ owner ∧ (transfer', index') ∈ s.outstanding := by
      intro transfer' index' hmem
      obtain ⟨hmem, hne⟩ := List.mem_filter.mp hmem
      exact ⟨by simpa using hne, hmem⟩
    refine { hinv with
      landed_of_flag := ?_
      reads_own := fun hmem => hinv.reads_own (hleft hmem).2
      reads_posted := ?_
      reads_left := ?_
      posted_lt := fun hposted => hinv.posted_lt (by simpa using hposted)
      landed_lt := ?_
      justified := hinv.justified.cons trivial
      reads_live := fun hlatched {_ _} hmem => hinv.reads_live hlatched (hleft hmem).2
      flags_reset := ?_ }
    · intro i other hlive hflag
      simp only [Function.update_apply] at hflag
      split_ifs at hflag with hi
      · rw [hi] at hlive
        rw [hinv.reads_own hread hlive]
        exact List.mem_cons_self
      · exact List.mem_cons_of_mem _ (hinv.landed_of_flag hlive hflag)
    · intro transfer' index' hmem
      obtain ⟨hne, hmem⟩ := hleft hmem
      obtain ⟨hposted, hnot⟩ := hinv.reads_posted hmem
      exact ⟨List.mem_cons_of_mem _ hposted, by simp [hne, hnot]⟩
    · intro transfer' index' hposted
      by_cases hne : transfer' = owner
      · rw [hne]
        exact Or.inl List.mem_cons_self
      · exact (hinv.reads_left (by simpa using hposted)).imp (List.mem_cons_of_mem _)
          fun hmem => List.mem_filter.mpr ⟨hmem, by simpa using hne⟩
    · intro transfer' hlanded
      obtain heq | hlanded := List.mem_cons.mp hlanded
      · rw [HostEvent.landed.inj heq]
        exact hinv.posted_lt (hinv.reads_posted hread).1
      · exact hinv.landed_lt hlanded
    · intro hlatched i hdead
      have hne : i ≠ index := by
        rintro rfl
        cases hdead.symm.trans (hinv.reads_live hlatched hread)
      exact (Function.update_of_ne hne _ _).trans (hinv.flags_reset hlatched i hdead)

theorem complete (hmem : handle ∈ s.handles)
    (hflag : s.flagQueue handle.flagIndex = flagDoneValue) : (releaseCompleteHandle handle
      { s with hostLog := .completed handle.id :: s.hostLog }).FlagInvariant := by
  obtain ⟨_, hlive⟩ := hinv.handle_live handle hmem
  have hlanded := hinv.landed_of_flag hlive hflag
  have hcore : FlagCore { s with hostLog := .completed handle.id :: s.hostLog } :=
    hinv.logged (by simp) (by simp) (hinv.justified.cons hlanded)
  rw [hcore.releaseCompleteHandle_eq hmem]
  have hdropped : (dropHandle handle
      { s with hostLog := .completed handle.id :: s.hostLog }).FlagCore :=
    hcore.dropHandle hmem
  have hspare := hcore.dropHandle_spare hmem
  refine ⟨hdropped.releaseFlagIndex hspare, ?_, ?_⟩
  · rw [hdropped.releaseFlagIndex_eq hspare]
    intro hlatched transfer index hread
    have hlive' := hinv.reads_live hlatched hread
    have hne : index ≠ handle.flagIndex := by
      rintro rfl
      rw [Option.some.inj (hlive.symm.trans hlive')] at hlanded
      exact (hinv.reads_posted hread).2 hlanded
    exact (Function.update_of_ne hne _ _).trans hlive'
  · rw [hdropped.releaseFlagIndex_eq hspare]
    intro hlatched index hdead
    by_cases hindex : index = handle.flagIndex
    · rw [hindex]
      exact Function.update_self _ _ _
    · have hdead' : s.liveHandles index = none :=
        (Function.update_of_ne hindex _ _).symm.trans hdead
      exact (Function.update_of_ne hindex _ _).trans (hinv.flags_reset hlatched index hdead')

theorem checkStatusLocked (hmem : handle ∈ s.handles) (copied : Bool) :
    StatusResult s (s.checkStatusLocked copied handle) := by
  unfold HostClient.checkStatusLocked checkStatusHost
  have hrange : ¬handle.flagIndex ≥ flagQueueSize :=
    Nat.not_le_of_lt (hinv.handle_live handle hmem).1
  split_ifs with hcopied hflag
  · exact StatusResult.notCopied
  · exact StatusResult.completed (hinv.complete hmem hflag)
  · exact StatusResult.waiting

theorem checkStatus (id : ℕ) (copied : Bool) : (s.checkStatus id copied).2.FlagInvariant := by
  unfold HostClient.checkStatus
  cases hfind : s.handles.find? fun handle => handle.id = id with
  | none => exact hinv
  | some handle =>
    have hresult := hinv.checkStatusLocked (List.mem_of_find?_eq_some hfind) copied
    dsimp only
    generalize s.checkStatusLocked copied handle = result at hresult
    cases hresult with
    | notCopied | waiting => exact hinv
    | completed hcompleted => exact hcompleted

/-! ## Submitting a transfer -/

theorem recordPosted (isGet : Bool) (posted : List HixlOneSideOpDesc) :
    (s.recordAll (posted.map fun desc => .posted isGet desc)).FlagInvariant := by
  have hjustified : JustifiedLog (s.recordAll
      (posted.map fun desc => .posted isGet desc)).hostLog := by
    simp only [recordAll, ← List.map_reverse]
    induction posted.reverse with
    | nil => exact hinv.justified
    | cons desc rest ih => exact ih.cons trivial
  exact { hinv with
    toFlagCore := hinv.logged (by simp) (by simp) hjustified }

theorem acquireFlagIndex (hopen : s.transferFailureLatched = false) :
    s.acquireFlagIndex = none ∨ ∃ index s', s.acquireFlagIndex = some (index, s') ∧
        s'.Handed s.nextTransfer index := by
  unfold HostClient.acquireFlagIndex
  split_ifs with htop
  · exact Or.inl rfl
  refine Or.inr ⟨_, _, rfl, ?_⟩
  have hpop : s.freeIndices = (List.range (s.topIndex - 1)).map s.availableIndices ++
      [s.availableIndices (s.topIndex - 1)] := by
    have htop : s.topIndex = s.topIndex - 1 + 1 := by omega
    unfold freeIndices
    rw [htop, List.range_succ, List.map_append, Nat.add_sub_cancel]
    rfl
  have hnodup := hinv.free_nodup
  have hlt := hinv.free_lt
  have hfree := hinv.free_dead
  rw [hpop] at hnodup hlt hfree
  obtain ⟨hlt, htop_lt⟩ := List.forall_mem_append.mp hlt
  obtain ⟨hfree, htop_dead⟩ := List.forall_mem_append.mp hfree
  have hdead := List.forall_mem_singleton.mp htop_dead
  have hcore : FlagCore { s with
      hostLog := .handed s.nextTransfer (s.availableIndices (s.topIndex - 1)) :: s.hostLog } :=
    hinv.logged (by simp) (by simp) (hinv.justified.cons fun transfer hposted => by
      obtain hlanded | hread := hinv.reads_left hposted
      · exact hlanded
      · cases hdead.symm.trans (hinv.reads_live hopen hread))
  refine ⟨{ hcore with
      free_nodup := (List.nodup_append.mp hnodup).1
      free_lt := hlt
      free_dead := hfree
      posted_lt := fun hposted => Nat.lt_succ_of_lt (hcore.posted_lt hposted)
      landed_lt := fun hlanded => Nat.lt_succ_of_lt (hcore.landed_lt hlanded)
      reads_live := hinv.reads_live
      flags_reset := hinv.flags_reset },
    ⟨htop_lt _ (List.mem_singleton.mpr rfl), fun hmem => ?_, hdead⟩, hopen, rfl, ?_, ?_⟩
  · exact (List.nodup_append.mp hnodup).2.2 _ hmem _ (List.mem_singleton.mpr rfl) rfl
  · exact fun other hposted => absurd (hcore.posted_lt hposted) (Nat.lt_irrefl _)
  · exact fun hlanded => absurd (hcore.landed_lt hlanded) (Nat.lt_irrefl _)

end FlagInvariant

theorem Handed.flagPosted (hhanded : s.Handed transfer index) : FlagCore
      { s with
        outstanding := (transfer, index) :: s.outstanding
        hostLog := .flagPosted transfer index :: s.hostLog } := by
  refine { hhanded.toFlagCore with
    landed_of_flag := fun hlive hflag => List.mem_cons_of_mem _ (hhanded.landed_of_flag hlive hflag)
    reads_own := ?_
    reads_posted := ?_
    reads_left := ?_
    posted_lt := ?_
    landed_lt := fun hlanded => hhanded.landed_lt (by simpa using hlanded)
    justified := hhanded.justified.cons trivial }
  · intro other i owner hread hlive
    obtain heq | hread := List.mem_cons.mp hread
    · obtain ⟨_, rfl⟩ := Prod.mk.inj heq
      cases hhanded.spare.dead.symm.trans hlive
    · exact hhanded.reads_own hread hlive
  · intro other i hread
    obtain heq | hread := List.mem_cons.mp hread
    · cases heq
      simpa using hhanded.unlanded
    · obtain ⟨hposted, hnot⟩ := hhanded.reads_posted hread
      simpa using ⟨Or.inr hposted, hnot⟩
  · intro other i hposted
    obtain heq | hposted := List.mem_cons.mp hposted
    · obtain ⟨rfl, rfl⟩ := HostEvent.flagPosted.inj heq
      exact Or.inr List.mem_cons_self
    · exact (hhanded.reads_left hposted).imp (List.mem_cons_of_mem _) (List.mem_cons_of_mem _)
  · intro other i hposted
    obtain heq | hposted := List.mem_cons.mp hposted
    · obtain ⟨rfl, _⟩ := HostEvent.flagPosted.inj heq
      exact hhanded.number ▸ Nat.lt_succ_self _
    · exact hhanded.posted_lt hposted

theorem Handed.newHandle (hhanded : s.Handed transfer index) : FlagInvariant
      { s with
        outstanding := (transfer, index) :: s.outstanding
        hostLog := .flagPosted transfer index :: s.hostLog
        handles := ⟨transfer, index⟩ :: s.handles
        liveHandles := Function.update s.liveHandles index
          (some transfer) } := by
  have hcore := hhanded.flagPosted
  have hother : ∀ {i owner}, s.liveHandles i = some owner → i ≠ index := by
    rintro i owner hlive rfl
    cases hhanded.spare.dead.symm.trans hlive
  have hreset := hhanded.flags_reset hhanded.open_client index hhanded.spare.dead
  have hread_live : ∀ {owner i}, (owner, i) ∈ s.outstanding →
      s.liveHandles i = some owner := hhanded.reads_live hhanded.open_client
  refine { hcore with
    free_dead := ?_
    handle_live := ?_
    landed_of_flag := ?_
    reads_own := ?_
    reads_live := ?_
    flags_reset := ?_ }
  · intro i hfree
    have hne : i ≠ index := ne_of_mem_of_not_mem hfree hhanded.spare.not_free
    exact (Function.update_of_ne hne _ _).trans (hcore.free_dead i hfree)
  · refine List.forall_mem_cons.mpr ⟨⟨hhanded.spare.lt, Function.update_self _ _ _⟩, ?_⟩
    intro handle hmem
    obtain ⟨hlt, hlive⟩ := hhanded.handle_live handle hmem
    exact ⟨hlt, (Function.update_of_ne (hother hlive) _ _).trans hlive⟩
  · intro i owner hlive hflag
    simp only [Function.update_apply] at hlive
    split_ifs at hlive with hi
    · rw [hi] at hflag
      exact absurd (hreset.symm.trans hflag) (by decide)
    · exact hcore.landed_of_flag hlive hflag
  · intro owner i other hread hlive
    simp only [Function.update_apply] at hlive
    split_ifs at hlive with hi
    · obtain heq | hread := List.mem_cons.mp hread
      · rw [← Option.some.inj hlive, (Prod.mk.inj heq).1]
      · exact absurd hi (hother (hread_live hread))
    · exact hcore.reads_own hread hlive
  · intro _ owner i hread
    obtain heq | hread := List.mem_cons.mp hread
    · cases heq
      exact Function.update_self _ _ _
    · have hlive := hread_live hread
      exact (Function.update_of_ne (hother hlive) _ _).trans hlive
  · intro _ i hdead
    simp only [Function.update_apply] at hdead
    split_ifs at hdead with hi
    exact hhanded.flags_reset hhanded.open_client i hdead

def Settles (status : Status) (s : HostClient) : Prop :=
  s.FlagCore ∧ (s.FlagInvariant ∨ status = .failed ∨ status = .timeout)

def SubmitOutcome (result : Except Status CompleteHandleInfo × HostClient) : Prop :=
  (∃ status s', result = (.error status, s') ∧ Settles status s') ∨
  ∃ handle s', result = (.ok handle, s') ∧ s'.FlagInvariant ∧ handle ∈ s'.handles

theorem FlagInvariant.settles (hinv : s.FlagInvariant) (status : Status) : Settles status s :=
  ⟨hinv.toFlagCore, Or.inl hinv⟩

theorem Handed.postFlag (hhanded : s.Handed transfer index) (answers : HostAnswers) :
    SubmitOutcome (s.postFlag transfer index answers) := by
  have hrelease := hhanded.toFlagInvariant.releaseFlagIndex hhanded.spare
  unfold HostClient.postFlag
  cases transferWithRetry answers.flagAttempts with
  | success =>
    split_ifs with halloc
    · refine Or.inl ⟨_, _, rfl, ?_, Or.inr (Or.inl rfl)⟩
      exact hhanded.flagPosted.releaseFlagIndex
        ⟨hhanded.spare.lt, hhanded.spare.not_free, hhanded.spare.dead⟩
    · exact Or.inr ⟨_, _, rfl, hhanded.newHandle, List.mem_cons_self⟩
  | _ => exact Or.inl ⟨_, _, rfl, hrelease.settles _⟩

section

variable (hinv : s.FlagInvariant)

include hinv

theorem FlagInvariant.batchTransferHostAsync (hopen : s.transferFailureLatched = false)
    (request : HostRequest) (answers : HostAnswers) :
    SubmitOutcome (s.batchTransferHostAsync request answers) := by
  unfold HostClient.batchTransferHostAsync
  split_ifs with hempty
  · exact Or.inl ⟨_, _, rfl, hinv.settles _⟩
  · have hposted : (s.postTransfer request answers).2.FlagInvariant :=
      hinv.recordPosted request.isGet _
    have hopen' : (s.postTransfer request answers).2.transferFailureLatched = false := hopen
    generalize s.postTransfer request answers = result at hposted hopen'
    obtain ⟨status, s'⟩ := result
    cases status with
    | success =>
      obtain hnone | ⟨index, acquired, hsome, hhanded⟩ := hposted.acquireFlagIndex hopen'
      · simp only [hnone]
        exact Or.inl ⟨_, _, rfl, hposted.settles _⟩
      · simp only [hsome]
        exact hhanded.postFlag answers
    | _ => exact Or.inl ⟨_, _, rfl, hposted.settles _⟩

theorem FlagInvariant.landAll (transfers : List ℕ) :
    (transfers.foldl (fun s transfer => s.flagLands transfer) s).FlagInvariant ∧
    (transfers.foldl (fun s transfer => s.flagLands transfer) s).handles = s.handles := by
  induction transfers generalizing s with
  | nil => exact ⟨hinv, rfl⟩
  | cons transfer rest ih =>
    obtain ⟨hrest, hhandles⟩ := ih (hinv.flagLands transfer)
    exact ⟨hrest, hhandles.trans (flagLands_handles s transfer)⟩

theorem FlagInvariant.hostSyncLoop (hmem : handle ∈ s.handles) (polls : List HostPoll) :
    let out := hostSyncLoop handle polls s
    Settles out.1 out.2 ∧ (out.1 = .success ∨ out.1 = .failed ∨ out.1 = .timeout) := by
  induction polls generalizing s with
  | nil =>
    exact ⟨⟨hinv.toFlagCore.releaseCompleteHandle hmem, Or.inr (Or.inr rfl)⟩, Or.inr (Or.inr rfl)⟩
  | cons poll rest ih =>
    obtain ⟨hlanded, hhandles⟩ := hinv.landAll poll.landed
    rw [← hhandles] at hmem
    simp only [hostSyncLoop]
    generalize poll.landed.foldl (fun s transfer => s.flagLands transfer) s = landed at hlanded hmem
    have hresult := hlanded.checkStatusLocked hmem poll.copied
    generalize landed.checkStatusLocked poll.copied handle = result at hresult
    cases hresult with
    | notCopied =>
      have hcore := hlanded.toFlagCore.releaseCompleteHandle hmem
      exact ⟨⟨hcore, Or.inr (Or.inl rfl)⟩, Or.inr (Or.inl rfl)⟩
    | waiting => exact ih hlanded hmem
    | completed hcompleted => exact ⟨hcompleted.settles _, Or.inl rfl⟩

end

/-! ## Whole runs -/

theorem latchIfNeeded_latched (status : Status) (s : HostClient)
    (hstatus : status = .failed ∨ status = .timeout) :
    (s.latchIfNeeded status).transferFailureLatched = true := by
  have hcode : status.code ≠ Status.success.code ∧
      shouldLatchTransferFailure status.code = true := by
    obtain rfl | rfl := hstatus <;> decide
  simp only [latchIfNeeded, TransferLatch.latchTransferFailureIfNeeded, if_pos hcode]
  exact s.toTransferLatch.latched_of_latch status.code

theorem latchIfNeeded_open (hopen : (s.latchIfNeeded status).transferFailureLatched = false) :
    s.transferFailureLatched = false := by
  rw [← Bool.not_eq_true]
  intro hlatched
  have hstill := TransferLatch.latched_of_latchIfNeeded hlatched status.code
  exact absurd (hstill.symm.trans hopen) (by simp)

theorem Settles.latchIfNeeded (hsettles : Settles status s) :
    (s.latchIfNeeded status).FlagInvariant := by
  obtain ⟨hcore, hinv | hstatus⟩ := hsettles
  · exact { hcore with
      reads_live := fun hopen => hinv.reads_live (latchIfNeeded_open hopen)
      flags_reset := fun hopen => hinv.flags_reset (latchIfNeeded_open hopen) }
  · have hlatched := latchIfNeeded_latched status s hstatus
    exact { hcore with
      reads_live := fun hopen => by simp [hlatched] at hopen
      flags_reset := fun hopen => by simp [hlatched] at hopen }

theorem refuseTransfer_open {answers : HostAnswers} (hadmitted : s.refuseTransfer answers = none) :
    s.transferFailureLatched = false := by
  unfold refuseTransfer at hadmitted
  split_ifs at hadmitted with hlatched
  simpa using hlatched

namespace FlagInvariant

section

variable (hinv : s.FlagInvariant)

include hinv

theorem batchTransferAsync (request : HostRequest) (answers : HostAnswers) :
    (s.batchTransferAsync request answers).2.FlagInvariant := by
  unfold HostClient.batchTransferAsync
  cases hrefuse : s.refuseTransfer answers with
  | some status => exact hinv
  | none =>
    obtain ⟨status, s', heq, hsettles⟩ | ⟨handle, s', heq, hlive, _⟩ :=
      hinv.batchTransferHostAsync (refuseTransfer_open hrefuse) request answers
    · rw [heq]
      exact hsettles.latchIfNeeded
    · rwa [heq]

theorem batchTransferSync (request : HostRequest) (answers : HostAnswers) (polls : List HostPoll) :
    (s.batchTransferSync request answers polls).2.FlagInvariant := by
  unfold HostClient.batchTransferSync batchTransferHostSync
  cases hrefuse : s.refuseTransfer answers with
  | some status => exact hinv
  | none =>
    obtain ⟨status, s', heq, hsettles⟩ | ⟨handle, s', heq, hlive, hmem⟩ :=
      hinv.batchTransferHostAsync (refuseTransfer_open hrefuse) request answers
    · rw [heq]
      exact hsettles.latchIfNeeded
    · rw [heq]
      exact (hlive.hostSyncLoop hmem polls).1.latchIfNeeded

theorem step (action : HostAction) : (s.step action).FlagInvariant := by
  cases action with
  | batchTransferAsync request answers => exact hinv.batchTransferAsync request answers
  | batchTransferSync request answers polls => exact hinv.batchTransferSync request answers polls
  | checkStatus id copied => exact hinv.checkStatus id copied
  | flagLands transfer => exact hinv.flagLands transfer

theorem run (actions : List HostAction) : (s.run actions).FlagInvariant := by
  induction actions generalizing s with
  | nil => exact hinv
  | cons action actions ih => exact ih (hinv.step action)

end

theorem start (configurableTransferSupported : Bool) (config : TransferConfig) :
    (start configurableTransferSupported config).FlagInvariant := by
  have hfree : freeIndices (HostClient.start configurableTransferSupported
      config) = List.range flagQueueSize := List.map_id _
  exact
    { free_nodup := hfree ▸ List.nodup_range
      free_lt := fun index hmem => List.mem_range.mp (hfree ▸ hmem)
      free_dead := fun _ _ => rfl
      handle_live := List.forall_mem_nil _
      landed_of_flag := nofun
      reads_own := fun hread => absurd hread List.not_mem_nil
      reads_posted := fun hread => absurd hread List.not_mem_nil
      reads_left := fun hposted => absurd hposted List.not_mem_nil
      posted_lt := fun hposted => absurd hposted List.not_mem_nil
      landed_lt := fun hlanded => absurd hlanded List.not_mem_nil
      justified := fun newer event older heq => by simp [HostClient.start] at heq
      reads_live := fun _ {_ _} hread => absurd hread List.not_mem_nil
      flags_reset := fun _ _ _ => rfl }

end FlagInvariant

end HostClient

/-- A transfer is reported complete only after its own read has landed; free
indices are distinct and belong to no live handle; an index is handed out only
when every earlier read into its entry has landed.  The newest event of the
log comes first. -/
structure HostFlagsSound (s : HostClient) : Prop where
  completed : ∀ newer older transfer,
    s.hostLog = newer ++ .completed transfer :: older →
    .landed transfer ∈ older
  free_nodup : s.freeIndices.Nodup
  free_disjoint : ∀ index ∈ s.freeIndices, s.liveHandles index = none
  handed : ∀ newer older transfer index,
    s.hostLog = newer ++ .handed transfer index :: older →
    ∀ other, .flagPosted other index ∈ older → .landed other ∈ older

theorem hostClient_flags_sound (configurableTransferSupported : Bool) (config : TransferConfig)
    (actions : List HostAction) :
    HostFlagsSound ((HostClient.start configurableTransferSupported config).run actions) := by
  have hinv := (HostClient.FlagInvariant.start configurableTransferSupported
    config).run actions
  constructor
  · intro newer older transfer hlog
    exact hinv.justified newer (.completed transfer) older hlog
  · exact hinv.free_nodup
  · exact hinv.free_dead
  · intro newer older transfer index hlog
    exact hinv.justified newer (.handed transfer index) older hlog

/-- Unless a failure is latched, after which transfers are refused, the flag of
every index that can be handed out is reset and no read is on its way to it. -/
theorem hostClient_free_flags_reset (configurableTransferSupported : Bool) (config : TransferConfig)
    (actions : List HostAction) :
    let s := (HostClient.start configurableTransferSupported config).run actions
    s.transferFailureLatched = true ∨ ∀ index ∈ s.freeIndices,
      s.flagQueue index = flagResetValue ∧ ∀ transfer, (transfer, index) ∉ s.outstanding := by
  intro s
  have hinv := (HostClient.FlagInvariant.start configurableTransferSupported config).run actions
  rw [or_iff_not_imp_left, Bool.not_eq_true]
  intro hopen index hfree
  have hdead := hinv.free_dead index hfree
  refine ⟨hinv.flags_reset hopen index hdead, fun transfer hread => ?_⟩
  cases hdead.symm.trans (hinv.reads_live hopen hread)

end Hixl
