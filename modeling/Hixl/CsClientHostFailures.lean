import Hixl.CsClientHostFlags

/-!
# Failed transfers of the host path

A failure after the first post is accounted for when it sets the latch.  The
latch is set by `FAILED` and `TIMEOUT` only: a transfer that finds no free index,
or whose later post is answered by an invalid parameter or an unsupported
operation, leaves posted operations behind without setting it.
-/

namespace Hixl

def HostEvent.isPost : HostEvent → Bool
  | .posted _ _ | .flagPosted _ _ => true
  | _ => false

namespace HostClient

def posts (s : HostClient) : ℕ := s.hostLog.countP HostEvent.isPost

end HostClient

/-- The call that failed is latched, or it has posted nothing. -/
def FailureAccounted (before after : HostClient) : Prop :=
  after.transferFailureLatched = true ∨ after.posts = before.posts

/-- The answer does not turn into `PARAM_INVALID` or `UNSUPPORTED`. -/
def HcclResult.latches : HcclResult → Bool
  | .para | .notSupport => false
  | _ => true

/-- The answer that decides an operation: the last one to its posts, or that of
the fence that failed before the next post. -/
def decidingAnswer : List PostAttempt → HcclResult
  | [] => .timeout
  | attempt :: rest =>
    if attempt.post = .again then
      if attempt.fence = .success then decidingAnswer rest else attempt.fence
    else attempt.post

/-- The answers to the posts of a chunk, then the one to its fence. -/
def chunkAnswers (answers : HostAnswers) (batchSize listNum chunkIdx : ℕ) : List HcclResult :=
  (List.range' (chunkIdx * batchSize) (min batchSize (listNum - chunkIdx * batchSize))).map
    (fun i => decidingAnswer (answers.attempts i)) ++ [answers.fence chunkIdx]

def firstFailure (results : List HcclResult) : HcclResult :=
  (results.find? (· ≠ .success)).getD .success

theorem firstFailure_cons (result : HcclResult) (results : List HcclResult) :
    firstFailure (result :: results) =
      if result = .success then firstFailure results else result := by
  unfold firstFailure
  split_ifs with hresult <;> simp [hresult]

theorem firstFailure_append (results more : List HcclResult) :
    firstFailure (results ++ more) =
      if firstFailure results = .success then firstFailure more else firstFailure results := by
  induction results with
  | nil => rfl
  | cons result results ih =>
    rw [List.cons_append, firstFailure_cons, firstFailure_cons]
    split_ifs with hresult hrest
    · rw [ih, if_pos hrest]
    · rw [ih, if_neg hrest]
    · rfl

@[simp]
theorem convertHcommErrorToStatus_success {result : HcclResult} :
    convertHcommErrorToStatus result = .success ↔ result = .success := by
  cases result <;> decide

/-- A failure is latched unless its answer is one of those two. -/
theorem convertHcommErrorToStatus_latches {result : HcclResult} (hfailed : result ≠ .success) :
    (convertHcommErrorToStatus result = .failed ∨ convertHcommErrorToStatus result = .timeout) ↔
      result.latches = true := by
  cases result with
  | success => exact absurd rfl hfailed
  | _ => decide

theorem transferWithRetry_eq (attempts : List PostAttempt) :
    transferWithRetry attempts = convertHcommErrorToStatus (decidingAnswer attempts) := by
  induction attempts with
  | nil => rfl
  | cons attempt rest ih =>
    rcases attempt with ⟨post, fence⟩
    cases post with
    | again =>
      simp only [transferWithRetry, decidingAnswer, if_true]
      split_ifs
      · exact ih
      · rfl
    | _ => rfl

/-! ## The posts of a transfer -/

theorem postOps_cons (attempts : ℕ → List PostAttempt) (i : ℕ) (desc : HixlOneSideOpDesc)
    (rest : List HixlOneSideOpDesc) : postOps attempts i (desc :: rest) =
      if transferWithRetry (attempts i) = .success then
        ((postOps attempts (i + 1) rest).1, desc :: (postOps attempts (i + 1) rest).2)
      else (transferWithRetry (attempts i), []) := by
  simp only [postOps]
  cases transferWithRetry (attempts i) with
  | success => rfl
  | _ => simp

theorem postOps_status (attempts : ℕ → List PostAttempt) (i : ℕ)
    (descs : List HixlOneSideOpDesc) : (postOps attempts i descs).1 = convertHcommErrorToStatus
      (firstFailure ((List.range' i descs.length).map fun i => decidingAnswer (attempts i))) := by
  induction descs generalizing i with
  | nil => rfl
  | cons desc rest ih =>
    rw [postOps_cons, List.length_cons, List.range'_succ, List.map_cons, firstFailure_cons,
      transferWithRetry_eq]
    simp only [convertHcommErrorToStatus_success]
    split_ifs
    · exact ih (i + 1)
    · rfl

theorem batchTransferTask_eq (answers : HostAnswers) (chunkIdx offset : ℕ)
    (descs : List HixlOneSideOpDesc) : batchTransferTask answers chunkIdx offset descs =
      if (postOps answers.attempts offset descs).1 = .success then
        (convertHcommErrorToStatus (answers.fence chunkIdx),
          (postOps answers.attempts offset descs).2)
      else postOps answers.attempts offset descs := by
  unfold batchTransferTask
  generalize postOps answers.attempts offset descs = result
  obtain ⟨status, posted⟩ := result
  cases status with
  | success => rfl
  | _ => simp

theorem batchTransferTasks_succ (answers : HostAnswers) (batchSize : ℕ)
    (descs : List HixlOneSideOpDesc) (left chunkIdx : ℕ) :
    batchTransferTasks answers batchSize descs (left + 1) chunkIdx =
      let first := batchTransferTask answers chunkIdx (chunkIdx * batchSize)
        ((descs.drop (chunkIdx * batchSize)).take
          (min batchSize (descs.length - chunkIdx * batchSize)))
      let rest := batchTransferTasks answers batchSize descs left
        (chunkIdx + 1)
      if first.1 = .success then (rest.1, first.2 ++ rest.2) else first := by
  simp only [batchTransferTasks]
  generalize batchTransferTask answers chunkIdx (chunkIdx * batchSize) _ = result
  obtain ⟨status, posted⟩ := result
  cases status with
  | success => rfl
  | _ => simp

variable (answers : HostAnswers) (batchSize : ℕ) (descs : List HixlOneSideOpDesc)

theorem batchTransferTasks_status (left chunkIdx : ℕ) :
    (batchTransferTasks answers batchSize descs left chunkIdx).1 =
      convertHcommErrorToStatus (firstFailure ((List.range' chunkIdx left).flatMap
        (chunkAnswers answers batchSize descs.length))) := by
  induction left generalizing chunkIdx with
  | zero => rfl
  | succ left ih =>
    have hlength : ((descs.drop (chunkIdx * batchSize)).take (min batchSize
        (descs.length - chunkIdx * batchSize))).length =
          min batchSize (descs.length - chunkIdx * batchSize) := by
      rw [List.length_take, List.length_drop]
      omega
    have hposts := postOps_status answers.attempts (chunkIdx * batchSize)
      ((descs.drop (chunkIdx * batchSize)).take (min batchSize
        (descs.length - chunkIdx * batchSize)))
    rw [hlength] at hposts
    have hfirst : (batchTransferTask answers chunkIdx (chunkIdx * batchSize)
        ((descs.drop (chunkIdx * batchSize)).take (min batchSize
          (descs.length - chunkIdx * batchSize)))).1 = convertHcommErrorToStatus
            (firstFailure (chunkAnswers answers batchSize descs.length chunkIdx)) := by
      unfold chunkAnswers
      rw [batchTransferTask_eq, hposts, firstFailure_append]
      simp only [convertHcommErrorToStatus_success]
      split_ifs
      · rw [firstFailure_cons]
        split_ifs with hfence
        · exact congrArg convertHcommErrorToStatus hfence
        · rfl
      · exact hposts
    rw [batchTransferTasks_succ, List.range'_succ, List.flatMap_cons, firstFailure_append]
    simp only [hfirst, convertHcommErrorToStatus_success]
    split_ifs
    · exact ih (chunkIdx + 1)
    · exact hfirst

/-- Nothing is posted only if the first operation fails. -/
theorem batchTransferTasks_posted (left : ℕ) (hbatch : batchSize ≠ 0) (hdescs : descs ≠ []) :
    ((batchTransferTasks answers batchSize descs (left + 1) 0).2 = [] ↔
      decidingAnswer (answers.attempts 0) ≠ .success) ∧
    ((batchTransferTasks answers batchSize descs (left + 1) 0).1 = .success →
      decidingAnswer (answers.attempts 0) = .success) := by
  have hsize : min batchSize descs.length ≠ 0 := by
    have hlength := List.length_pos_iff.mpr hdescs
    omega
  rcases List.exists_cons_of_ne_nil hdescs with ⟨desc, rest, rfl⟩
  rcases Nat.exists_eq_succ_of_ne_zero hsize with ⟨size, hsize⟩
  rw [batchTransferTasks_succ, Nat.zero_mul, Nat.sub_zero, List.drop_zero, hsize,
    List.take_succ_cons, batchTransferTask_eq, postOps_cons, transferWithRetry_eq]
  simp only [convertHcommErrorToStatus_success]
  by_cases hfirst : decidingAnswer (answers.attempts 0) = .success
  · simp only [if_pos hfirst]
    refine ⟨?_, fun _ => hfirst⟩
    split_ifs <;> simp [hfirst]
  · simp [hfirst]

/-! ## One call -/

namespace HostClient

variable {s : HostClient}

theorem posts_recordAll (s : HostClient) (isGet : Bool) (posted : List HixlOneSideOpDesc) :
    (s.recordAll (posted.map fun desc => .posted isGet desc)).posts = posted.length + s.posts := by
  have hall : (posted.map fun desc =>
      HostEvent.posted isGet desc).countP HostEvent.isPost =
        posted.length := by
    rw [List.countP_map]
    exact List.countP_eq_length.mpr fun _ _ => rfl
  simp only [posts, recordAll, List.countP_append, List.countP_reverse, hall]

theorem transferBatchSize_ne_zero (s : HostClient) : s.transferBatchSize ≠ 0 := by
  unfold transferBatchSize
  split_ifs
  · exact Nat.one_le_iff_ne_zero.mp s.config.in_range.1
  · decide

/-- The answers to the posts and fences of a transfer, in the order of its calls. -/
def postAnswers (s : HostClient) (request : HostRequest) (answers : HostAnswers) :
    List HcclResult :=
  let listNum := request.descs.length
  (List.range' 0 (listNum / s.transferBatchSize +
    if listNum % s.transferBatchSize ≠ 0 then 1 else 0)).flatMap
      (chunkAnswers answers s.transferBatchSize listNum)

/-- The first post fails, or the first failure of the posts and fences is one
that is latched.  If there is none, an index is free and the read of the flag
does not fail in another way. -/
def PostsAccounted (s : HostClient) (request : HostRequest) (answers : HostAnswers) : Prop :=
  decidingAnswer (answers.attempts 0) ≠ .success ∨
    (firstFailure (s.postAnswers request answers)).latches = true ∧
      (firstFailure (s.postAnswers request answers) = .success →
        s.topIndex ≠ 0 ∧ (decidingAnswer answers.flagAttempts).latches = true)

/-- The call is refused before its first post, or its posts are accounted for. -/
def CallAccounted (s : HostClient) (request : HostRequest) (answers : HostAnswers) : Prop :=
  s.transferFailureLatched = true ∨ answers.validate ≠ .success ∨ s.endpointPresent = false ∨
    request.descs = [] ∨ s.PostsAccounted request answers

variable {request : HostRequest} {answers : HostAnswers}

theorem postTransfer_status (s : HostClient) (request : HostRequest) (answers : HostAnswers) :
    (s.postTransfer request answers).1 =
      convertHcommErrorToStatus (firstFailure (s.postAnswers request answers)) :=
  batchTransferTasks_status answers s.transferBatchSize request.descs _ 0

theorem postTransfer_posts (s : HostClient) (answers : HostAnswers) (hdescs : request.descs ≠ []) :
    ((s.postTransfer request answers).2.posts = s.posts ↔
      decidingAnswer (answers.attempts 0) ≠ .success) ∧
    ((s.postTransfer request answers).1 = .success →
      decidingAnswer (answers.attempts 0) = .success) := by
  have hbatch := s.transferBatchSize_ne_zero
  have hchunks : request.descs.length / s.transferBatchSize +
      (if request.descs.length % s.transferBatchSize ≠ 0 then 1 else 0) ≠ 0 := by
    split_ifs with hmod
    · exact Nat.succ_ne_zero _
    · rw [Nat.add_zero, Nat.div_ne_zero_iff]
      refine ⟨hbatch, Nat.le_of_dvd (List.length_pos_iff.mpr hdescs) ?_⟩
      exact Nat.dvd_of_mod_eq_zero (not_not.mp hmod)
  rcases Nat.exists_eq_succ_of_ne_zero hchunks with ⟨left, hleft⟩
  have hposted := batchTransferTasks_posted answers s.transferBatchSize request.descs left hbatch
    hdescs
  simp only [postTransfer, hleft]
  rwa [posts_recordAll, Nat.add_eq_right, List.length_eq_zero_iff]

theorem postTransfer_posts_le (s : HostClient) (request : HostRequest) (answers : HostAnswers) :
    s.posts ≤ (s.postTransfer request answers).2.posts := by
  simp only [postTransfer]
  rw [posts_recordAll]
  exact Nat.le_add_left _ _

def SubmitAccounted (before : HostClient)
    (result : Except Status CompleteHandleInfo × HostClient) : Prop :=
  ∀ status, result.1 = .error status →
    status = .failed ∨ status = .timeout ∨ result.2.posts = before.posts

/-- With operations posted, the read of the flag decides. -/
theorem postFlag_accounted {before : HostClient} (hposts : before.posts < s.posts)
    (transfer index : ℕ) : SubmitAccounted before (s.postFlag transfer index answers) ↔
      (decidingAnswer answers.flagAttempts).latches = true := by
  have hrelease : ¬(s.releaseFlagIndex index).posts = before.posts := by
    unfold releaseFlagIndex
    split_ifs
    · exact hposts.ne'
    · exact hposts.ne'
  unfold SubmitAccounted postFlag
  rw [transferWithRetry_eq]
  by_cases hflag : decidingAnswer answers.flagAttempts = .success
  · rw [hflag]
    refine iff_of_true (fun status herror => ?_) rfl
    dsimp only [convertHcommErrorToStatus] at herror ⊢
    split_ifs at herror with halloc
    exact Or.inl (Except.error.inj herror).symm
  · have hstatus := convertHcommErrorToStatus_success.not.mpr hflag
    rw [← convertHcommErrorToStatus_latches hflag]
    generalize convertHcommErrorToStatus (decidingAnswer answers.flagAttempts) = status at hstatus
    cases status with
    | success => exact absurd rfl hstatus
    | _ => simp [hrelease]

theorem batchTransferHostAsync_accounted (hdescs : request.descs ≠ []) :
    SubmitAccounted s (s.batchTransferHostAsync request answers) ↔
      s.PostsAccounted request answers := by
  obtain ⟨hposts, hfirst⟩ := s.postTransfer_posts answers hdescs
  have hle := s.postTransfer_posts_le request answers
  have htop : (s.postTransfer request answers).2.topIndex = s.topIndex := rfl
  unfold batchTransferHostAsync PostsAccounted
  rw [if_neg (List.length_eq_zero_iff.not.mpr hdescs), ← hposts,
    ← convertHcommErrorToStatus_success, ← s.postTransfer_status]
  rw [← not_iff_not, not_not] at hposts
  by_cases hstatus : (s.postTransfer request answers).1 = .success
  · have hmore := hposts.mpr (hfirst hstatus)
    have hlatches : (firstFailure (s.postAnswers request answers)).latches = true := by
      rw [postTransfer_status, convertHcommErrorToStatus_success] at hstatus
      rw [hstatus]
      rfl
    simp only [hmore, hlatches, hstatus, true_and, false_or, forall_const]
    generalize s.postTransfer request answers = result at hstatus hmore hle htop ⊢
    obtain ⟨posted, s'⟩ := result
    dsimp only at hstatus hmore hle htop
    subst hstatus
    rw [← htop]
    by_cases hfree : s'.topIndex = 0
    · simp [acquireFlagIndex, hfree, SubmitAccounted, hmore]
    · have hacquired : ∃ index acquired, s'.acquireFlagIndex = some (index, acquired) ∧
          acquired.posts = s'.posts := ⟨_, _, if_neg hfree, rfl⟩
      obtain ⟨index, acquired, hacquired, hsame⟩ := hacquired
      simp only [hacquired, hfree, ne_eq, not_false_eq_true, true_and]
      exact postFlag_accounted (by omega) _ _
  · have hfailure := hstatus
    rw [postTransfer_status, convertHcommErrorToStatus_success] at hfailure
    rw [← convertHcommErrorToStatus_latches hfailure, ← s.postTransfer_status]
    generalize s.postTransfer request answers = result at hstatus ⊢
    obtain ⟨posted, s'⟩ := result
    cases posted with
    | success => exact absurd rfl hstatus
    | _ => simp [SubmitAccounted]

theorem postFlag_error {status : Status} {transfer index : ℕ}
    (herror : (s.postFlag transfer index answers).1 = .error status) : status ≠ .success ∧
      (s.postFlag transfer index answers).2.toTransferLatch = s.toTransferLatch := by
  have hrelease : ∀ s : HostClient,
      (s.releaseFlagIndex index).toTransferLatch = s.toTransferLatch := by
    intro s
    unfold releaseFlagIndex
    split_ifs <;> rfl
  unfold postFlag at herror ⊢
  generalize transferWithRetry answers.flagAttempts = read at herror ⊢
  cases read with
  | success =>
    dsimp only at herror ⊢
    split_ifs at herror ⊢
    cases herror
    exact ⟨by decide, hrelease _⟩
  | _ =>
    cases herror
    exact ⟨by decide, hrelease s⟩

theorem batchTransferHostAsync_error {status : Status}
    (herror : (s.batchTransferHostAsync request answers).1 = .error status) :
    status ≠ .success ∧
      (s.batchTransferHostAsync request answers).2.toTransferLatch = s.toTransferLatch := by
  have hlatch : (s.postTransfer request answers).2.toTransferLatch = s.toTransferLatch := rfl
  unfold batchTransferHostAsync at herror ⊢
  split_ifs at herror ⊢
  · cases herror
    exact ⟨by decide, rfl⟩
  · generalize s.postTransfer request answers = result at herror hlatch ⊢
    obtain ⟨posted, s'⟩ := result
    dsimp only at hlatch
    rw [← hlatch]
    cases posted with
    | success =>
      dsimp only [acquireFlagIndex] at herror ⊢
      split_ifs at herror ⊢
      · cases herror
        exact ⟨by decide, rfl⟩
      · exact postFlag_error herror
    | _ =>
      cases herror
      exact ⟨by decide, rfl⟩

theorem latchIfNeeded_accounted {before : HostClient} {status : Status}
    (hopen : s.transferFailureLatched = false) :
    FailureAccounted before (s.latchIfNeeded status) ↔
      status = .failed ∨ status = .timeout ∨ s.posts = before.posts := by
  rw [← or_assoc]
  constructor
  · rintro (hlatched | hposts)
    · cases status with
      | failed => exact Or.inl (Or.inl rfl)
      | timeout => exact Or.inl (Or.inr rfl)
      | _ => exact absurd (hlatched.symm.trans hopen) (by decide)
    · exact Or.inr hposts
  · rintro (hstatus | hposts)
    · exact Or.inl (latchIfNeeded_latched status s hstatus)
    · exact Or.inr hposts

/-- A call that is not refused submits its operations. -/
theorem callAccounted_iff (hadmitted : s.refuseTransfer answers = none) :
    s.CallAccounted request answers ↔
      SubmitAccounted s (s.batchTransferHostAsync request answers) := by
  unfold refuseTransfer at hadmitted
  split_ifs at hadmitted with _ hvalidate hendpoint
  by_cases hdescs : request.descs = []
  · refine iff_of_true (by simp [CallAccounted, hdescs]) fun status _ => ?_
    simp [batchTransferHostAsync, hdescs]
  · rw [batchTransferHostAsync_accounted hdescs]
    simp_all [CallAccounted]

theorem refuseTransfer_accounted {status : Status}
    (hrefuse : s.refuseTransfer answers = some status) : s.CallAccounted request answers := by
  unfold refuseTransfer at hrefuse
  split_ifs at hrefuse with hlatched hvalidate hendpoint
  · exact Or.inl hlatched
  · exact Or.inr (Or.inl hvalidate)
  · exact Or.inr (Or.inr (Or.inl (by simpa using hendpoint)))

theorem batchTransferAsync_accounted (s : HostClient) (request : HostRequest)
    (answers : HostAnswers) :
    (∀ status, (s.batchTransferAsync request answers).1 = .error status →
      FailureAccounted s (s.batchTransferAsync request answers).2) ↔
        s.CallAccounted request answers := by
  unfold batchTransferAsync
  cases hrefuse : s.refuseTransfer answers with
  | some refused => exact iff_of_true (fun _ _ => Or.inr rfl) (refuseTransfer_accounted hrefuse)
  | none =>
    have hopen := refuseTransfer_open hrefuse
    have herror := @batchTransferHostAsync_error s request answers
    rw [callAccounted_iff hrefuse]
    generalize s.batchTransferHostAsync request answers = result at herror ⊢
    obtain ⟨_ | handle, s'⟩ := result
    · rename_i ret
      have hsame := (herror rfl).2
      dsimp only at hsame
      rw [← hsame] at hopen
      simp only [SubmitAccounted, Except.error.injEq, forall_eq']
      exact latchIfNeeded_accounted hopen
    · simp [SubmitAccounted]

theorem FlagInvariant.batchTransferSync_accounted (hinv : s.FlagInvariant)
    (request : HostRequest) (answers : HostAnswers) (polls : List HostPoll) :
    ((s.batchTransferSync request answers polls).1 ≠ .success →
      FailureAccounted s (s.batchTransferSync request answers polls).2) ↔
        s.CallAccounted request answers := by
  unfold HostClient.batchTransferSync batchTransferHostSync
  cases hrefuse : s.refuseTransfer answers with
  | some refused => exact iff_of_true (fun _ => Or.inr rfl) (refuseTransfer_accounted hrefuse)
  | none =>
    have hopen := refuseTransfer_open hrefuse
    have herror := @batchTransferHostAsync_error s request answers
    rw [callAccounted_iff hrefuse]
    obtain ⟨ret, s', heq, _⟩ | ⟨handle, s', heq, hlive, hmem⟩ :=
      hinv.batchTransferHostAsync hopen request answers
    · rw [heq] at herror
      obtain ⟨hne, hsame⟩ := herror rfl
      dsimp only at hsame
      rw [← hsame] at hopen
      simp only [heq, hne, SubmitAccounted, Except.error.injEq, forall_eq', ne_eq,
        not_false_eq_true, forall_const]
      exact latchIfNeeded_accounted hopen
    · simp only [heq]
      refine iff_of_true (fun hfailed => ?_) (by simp [SubmitAccounted])
      obtain hsuccess | hstatus := (hlive.hostSyncLoop hmem polls).2
      · exact absurd hsuccess hfailed
      · exact Or.inl (latchIfNeeded_latched _ _ hstatus)

end HostClient

/-- In any state that is reached, the failures of a call are accounted for
exactly when its answers account for them. -/
theorem hostClient_failures_accounted (configurableTransferSupported : Bool)
    (config : TransferConfig) (actions : List HostAction) (s : HostClient)
    (hs : s = (HostClient.start configurableTransferSupported config).run actions)
    (request : HostRequest) (answers : HostAnswers) :
    ((∀ status, (s.batchTransferAsync request answers).1 = .error status →
      FailureAccounted s (s.batchTransferAsync request answers).2) ↔
        s.CallAccounted request answers) ∧
    ∀ polls, ((s.batchTransferSync request answers polls).1 ≠ .success →
      FailureAccounted s (s.batchTransferSync request answers polls).2) ↔
        s.CallAccounted request answers := by
  have hinv : s.FlagInvariant := by
    rw [hs]
    exact (HostClient.FlagInvariant.start configurableTransferSupported config).run actions
  exact ⟨s.batchTransferAsync_accounted request answers,
    hinv.batchTransferSync_accounted request answers⟩

/-! ## Failures that are not accounted for -/

def defaultTransferConfig : TransferConfig := ⟨defaultMaxTransferCountPerBatch, default_in_range⟩

def writeRequest (count : ℕ) : HostRequest where
  isGet := false
  descs := List.replicate count ⟨4096, 8192, 8⟩

theorem hostClient_failures_accounted_flag_timeout :
    ∃ s : HostClient, s = (HostClient.start false defaultTransferConfig).run [] ∧
      (s.batchTransferAsync (writeRequest 2) { flagAttempts := [] }).1 = .error .timeout ∧
      FailureAccounted s (s.batchTransferAsync (writeRequest 2) { flagAttempts := [] }).2 := by
  refine ⟨_, rfl, rfl, ?_⟩
  have haccounted := (hostClient_failures_accounted false defaultTransferConfig [] _ rfl
    (writeRequest 2) { flagAttempts := [] }).1
  apply haccounted.mpr _ _ rfl
  exact Or.inr (Or.inr (Or.inr (Or.inr (Or.inr ⟨by decide, fun _ => ⟨by decide, by decide⟩⟩))))

namespace HostClient

structure Ready (s : HostClient) : Prop where
  fixed_batch : s.configurableTransferSupported = false
  open_client : s.transferFailureLatched = false
  endpoint : s.endpointPresent = true

variable {s : HostClient}

theorem Ready.postTransfer (hready : s.Ready) : s.postTransfer (writeRequest 1) {} =
      (.success, s.recordAll [.posted false ⟨4096, 8192, 8⟩]) := by
  have hbatch : s.transferBatchSize = 128 := by
    simp [transferBatchSize, hready.fixed_batch, maxKernelBatchSize]
  simp only [HostClient.postTransfer, hbatch]
  rfl

theorem Ready.write (hready : s.Ready) (hfree : s.topIndex ≠ 0) :
    (s.batchTransferAsync (writeRequest 1) {}).2.Ready ∧
      (s.batchTransferAsync (writeRequest 1) {}).2.topIndex = s.topIndex - 1 := by
  have hrefuse : s.refuseTransfer {} = none := by
    simp [refuseTransfer, hready.open_client, hready.endpoint]
  have hlength : ¬(writeRequest 1).descs.length = 0 := by decide
  obtain ⟨index, acquired, hacquired, hready', htop⟩ : ∃ index acquired,
      (s.recordAll [.posted false ⟨4096, 8192, 8⟩]).acquireFlagIndex = some (index, acquired) ∧
        acquired.Ready ∧ acquired.topIndex = s.topIndex - 1 := by
    refine ⟨_, _, if_neg hfree, ?_, rfl⟩
    exact ⟨hready.fixed_batch, hready.open_client, hready.endpoint⟩
  simp only [batchTransferAsync, hrefuse, batchTransferHostAsync, hlength,
    if_false, hready.postTransfer, hacquired]
  exact ⟨⟨hready'.fixed_batch, hready'.open_client, hready'.endpoint⟩, htop⟩

theorem Ready.exhausted (hready : s.Ready) (hempty : s.topIndex = 0) :
    (s.batchTransferAsync (writeRequest 1) {}).1 = .error .resourceExhausted ∧
      ¬FailureAccounted s (s.batchTransferAsync (writeRequest 1) {}).2 := by
  have hrefuse : s.refuseTransfer {} = none := by
    simp [refuseTransfer, hready.open_client, hready.endpoint]
  have hlength : ¬(writeRequest 1).descs.length = 0 := by decide
  have hnone : (s.recordAll [.posted false ⟨4096, 8192, 8⟩]).acquireFlagIndex = none :=
    if_pos hempty
  simp only [batchTransferAsync, hrefuse, batchTransferHostAsync, hlength,
    if_false, hready.postTransfer, hnone]
  refine ⟨trivial, ?_⟩
  rintro (hlatched | hposts)
  · exact absurd (hready.open_client.symm.trans hlatched) (by decide)
  · have hmore := posts_recordAll s false [⟨4096, 8192, 8⟩]
    have hsum : 1 + s.posts = s.posts := hmore.symm.trans hposts
    omega

theorem ready_after_writes {count : ℕ} (hcount : count ≤ flagQueueSize)
    (hs : s = (start false defaultTransferConfig).run (List.replicate count
      (.batchTransferAsync (writeRequest 1) {}))) :
    s.Ready ∧ s.topIndex = flagQueueSize - count := by
  induction count generalizing s with
  | zero =>
    subst hs
    exact ⟨⟨rfl, rfl, rfl⟩, rfl⟩
  | succ count ih =>
    obtain ⟨hready, htop⟩ := ih (by omega) rfl
    obtain ⟨hready', htop'⟩ := hready.write (by omega)
    rw [List.replicate_succ', run, List.foldl_append] at hs
    subst hs
    exact ⟨hready', htop'.trans (by omega)⟩

end HostClient

def refusesSecond : HostAnswers where
  attempts := fun i => [⟨if i = 1 then .para else .success, .success⟩]

/-- After 4096 unfinished transfers the next one is posted and then fails for
want of a flag index; a transfer of two operations whose second one is refused
leaves the first one behind.  The latch is not set. -/
theorem hostClient_failures_unaccounted :
    (∃ s : HostClient, s = (HostClient.start false defaultTransferConfig).run
          (List.replicate flagQueueSize (.batchTransferAsync (writeRequest 1) {})) ∧
      (s.batchTransferAsync (writeRequest 1) {}).1 = .error .resourceExhausted ∧
      ¬FailureAccounted s (s.batchTransferAsync (writeRequest 1) {}).2) ∧
    ∃ s : HostClient, s = HostClient.start false defaultTransferConfig ∧
      (s.batchTransferAsync (writeRequest 2) refusesSecond).1 = .error .paramInvalid ∧
      ¬FailureAccounted s (s.batchTransferAsync (writeRequest 2) refusesSecond).2 := by
  constructor
  · obtain ⟨hready, htop⟩ := HostClient.ready_after_writes le_rfl rfl
    exact ⟨_, rfl, hready.exhausted htop⟩
  · refine ⟨_, rfl, rfl, ?_⟩
    rintro (hlatched | hposts)
    · exact absurd hlatched (by decide)
    · exact absurd hposts (by decide)

end Hixl
