import Hixl.BufferClientSets
import Hixl.BufferClientTask

/-!
# A transfer that succeeds has moved its data

The buffers in the set of a request are those of its requests that are sent and
not yet handled, and the one of a request that is about to be sent or could not
be sent.  So when `CheckReqFinishStatus` finds the set empty, everything was
sent and handled.  This needs that no request is answered twice: a second answer
may take the buffer of a later request of the same transfer out of the set.
-/

namespace Hixl.Adxl

open ClientCall

open InterleavedCalls IdlePools StagedCopies

namespace ClientState

def sentCalls (s : ClientState) (reqId : ℕ) : List SendCall :=
  (s.sent.filter fun entry => entry.req.reqId = reqId).map SentEntry.call

/-- The number of requests with a buffer whose response has not been
handled. -/
def unhandled (s : ClientState) (reqId buffer : ℕ) : ℕ :=
  s.sent.countP fun entry => entry.req.reqId = reqId &&
    entry.req.bufferAddr = buffer && entry.copied.isNone

def NoneSent (s : ClientState) (reqId : ℕ) : Prop := ∀ entry ∈ s.sent, entry.req.reqId ≠ reqId

def AllHandled (s : ClientState) (reqId : ℕ) : Prop :=
  ∀ entry ∈ s.sent, entry.req.reqId = reqId → entry.copied ≠ none

/-- The set of a request has the buffers of the responses that are missing, and
one that is not yet used. -/
def Balanced (s : ClientState) (reqId : ℕ) (unsent : Option ℕ) : Prop :=
  ∀ b, s.buffers.count (reqId, b) = s.unhandled reqId b + unsent.elim 0 fun buffer => owner buffer b

def Awaits (s : ClientState) (index : ℕ) (bufferResp : BufferResp) : Prop :=
  ∃ entry, s.sent[index]? = some entry ∧ entry.copied = none ∧ bufferResp = handleCtrlMsg entry.req

end ClientState

structure Sending (bufferSize : ℕ) (s : ClientState) (info : TransferInfo)
    (todo : List SendCall) (unsent : Option ℕ) : Prop where
  plan : s.sentCalls info.reqId ++ todo =
    doTransferTask bufferSize [] 0 info.ops
  balance : s.Balanced info.reqId unsent

structure Complete (bufferSize : ℕ) (s : ClientState) (info : TransferInfo) :
    Prop where
  sent : s.sentCalls info.reqId = doTransferTask bufferSize [] 0 info.ops
  handled : s.AllHandled info.reqId

/-- `FlushBatch` is not called from `TransferLargeData`. -/
def SendCall.Suits (state : TaskState) : SendCall → Prop
  | .flushBatch _ => state.large = none
  | .largeData _ _ _ => True

def ClientCall.Sound (bufferSize : ℕ) (s : ClientState) : ClientCall → Prop
  | .emplace info => s.NoneSent info.reqId ∧ info.timer.start ≤ s.now
  | .startTask info =>
    Sending bufferSize s info (doTransferTask bufferSize [] 0 info.ops)
      none ∧ info.timer.start ≤ s.now
  | .loop frame leftTimeout =>
    frame.Timed s.now ∧ Sending bufferSize s frame.info (frame.state.plan bufferSize) none ∧
      (frame.state.large = none ∨ ∀ start, s.now ≤ start →
        Timer.Within ⟨start, leftTimeout⟩ frame.info.timer)
  | .getBuffer frame timer call =>
    frame.Timed s.now ∧ Sending bufferSize s frame.info (call :: frame.state.plan bufferSize) none ∧
      call.Suits frame.state ∧ timer.Within frame.info.timer
  | .insert frame call _ =>
    frame.Timed s.now ∧ Sending bufferSize s frame.info (call :: frame.state.plan bufferSize) none ∧
      call.Suits frame.state
  | .copy frame call buffer | .send frame call buffer =>
    frame.Timed s.now ∧ Sending bufferSize s frame.info (call :: frame.state.plan bufferSize)
        (some buffer) ∧
      call.Suits frame.state
  | .sent frame call =>
    frame.Timed s.now ∧ Sending bufferSize s frame.info (frame.state.plan bufferSize) none ∧
      call.Suits frame.state
  | .taskDone info stuck =>
    info.timer.start ≤ s.now ∧ s.Balanced info.reqId stuck ∧ (stuck = none →
        s.sentCalls info.reqId = doTransferTask bufferSize [] 0 info.ops ∨
          info.timer.inTime s.now = false)
  | .checkFinish info _ stuck =>
    s.Balanced info.reqId stuck ∧ (stuck = none →
      s.sentCalls info.reqId = doTransferTask bufferSize [] 0 info.ops)
  | .guard info ret | .guardRelease info ret _ _ | .returned info ret =>
    ret = .success → Complete bufferSize s info
  | .answer index => ∀ entry, s.sent[index]? = some entry → entry.copied = none
  | .resp index bufferResp => s.Awaits index bufferResp
  | .respRelease index bufferResp copied
  | .respErase index bufferResp copied =>
    s.Awaits index bufferResp ∧ ∃ env,
      handleBufferRespCopy bufferSize env bufferResp = (.success, copied)
  | .transfer _ _ _ | .rejected | .respDone _ => True

/-! ## What other calls see of a step -/

structure Forward (s s' : ClientState) (reqId : ℕ) : Prop where
  now : s.now ≤ s'.now
  calls : s'.sentCalls reqId = s.sentCalls reqId
  balance : ∀ b, s'.buffers.count (reqId, b) + s.unhandled reqId b =
    s.buffers.count (reqId, b) + s'.unhandled reqId b
  handled : s.AllHandled reqId → s'.AllHandled reqId
  fresh : s.NoneSent reqId → s'.NoneSent reqId

structure Kept (s s' : ClientState) (index : ℕ) : Prop where
  entry : ∀ entry, s.sent[index]? = some entry →
    s'.sent[index]? = some entry
  new : ∀ entry, s'.sent[index]? = some entry →
    s.sent[index]? = some entry ∨ entry.copied = none

section Frame

variable {bufferSize : ℕ} {s s' : ClientState} {reqId : ℕ} {unsent : Option ℕ}

theorem Forward.balanced (hforward : Forward s s' reqId) (hbalanced : s.Balanced reqId unsent) :
    s'.Balanced reqId unsent := by
  intro b
  have hstep := hforward.balance b
  have hold := hbalanced b
  omega

variable {info : TransferInfo}

theorem Forward.sending {todo : List SendCall} (hforward : Forward s s' info.reqId)
    (hsending : Sending bufferSize s info todo unsent) :
    Sending bufferSize s' info todo unsent where
  plan := by
    rw [hforward.calls]
    exact hsending.plan
  balance := hforward.balanced hsending.balance

theorem Forward.complete (hforward : Forward s s' info.reqId)
    (hcomplete : Complete bufferSize s info) : Complete bufferSize s' info where
  sent := hforward.calls.trans hcomplete.sent
  handled := hforward.handled hcomplete.handled

variable {index : ℕ}

theorem Kept.awaits {bufferResp : BufferResp} (hkept : Kept s s' index)
    (hawaits : s.Awaits index bufferResp) : s'.Awaits index bufferResp := by
  obtain ⟨entry, hentry, hrest⟩ := hawaits
  exact ⟨entry, hkept.entry entry hentry, hrest⟩

theorem ClientCall.Sound.keep {call : ClientCall} (hsound : call.Sound bufferSize s)
    (hforward : ∀ info, call.info = some info → Forward s s' info.reqId)
    (hkept : ∀ index, call.answering = some index → Kept s s' index) :
    call.Sound bufferSize s' := by
  cases call with
  | transfer | rejected | respDone => trivial
  | emplace info =>
    have hf := hforward info rfl
    exact ⟨hf.fresh hsound.1, hsound.2.trans hf.now⟩
  | startTask info =>
    have hf := hforward info rfl
    exact ⟨hf.sending hsound.1, hsound.2.trans hf.now⟩
  | loop frame leftTimeout =>
    have hf := hforward frame.info rfl
    obtain ⟨htimed, hsending, htimer⟩ := hsound
    refine ⟨htimed.later hf.now, hf.sending hsending, ?_⟩
    exact htimer.imp_right fun hw start hstart => hw start (hf.now.trans hstart)
  | getBuffer frame timer call =>
    have hf := hforward frame.info rfl
    obtain ⟨htimed, hsending, hrest⟩ := hsound
    exact ⟨htimed.later hf.now, hf.sending hsending, hrest⟩
  | insert frame call buffer | copy frame call buffer
  | send frame call buffer | sent frame call =>
    have hf := hforward frame.info rfl
    obtain ⟨htimed, hsending, hsuits⟩ := hsound
    exact ⟨htimed.later hf.now, hf.sending hsending, hsuits⟩
  | taskDone info stuck =>
    have hf := hforward info rfl
    obtain ⟨hstart, hbalance, hdone⟩ := hsound
    refine ⟨hstart.trans hf.now, hf.balanced hbalance, ?_⟩
    intro hstuck
    rw [hf.calls]
    exact (hdone hstuck).imp_right (Timer.late_mono hf.now)
  | checkFinish info timer stuck =>
    have hf := hforward info rfl
    refine ⟨hf.balanced hsound.1, ?_⟩
    intro hstuck
    rw [hf.calls]
    exact hsound.2 hstuck
  | guard info ret | guardRelease info ret freed left | returned info ret =>
    exact fun hret => (hforward info rfl).complete (hsound hret)
  | answer index =>
    intro entry hentry
    cases (hkept index rfl).new entry hentry with
    | inl hold => exact hsound entry hold
    | inr hnew => exact hnew
  | resp index bufferResp => exact (hkept index rfl).awaits hsound
  | respRelease index bufferResp copied
  | respErase index bufferResp copied => exact ⟨(hkept index rfl).awaits hsound.1, hsound.2⟩

theorem Forward.of_counts (hnow : s.now ≤ s'.now) (hsent : s'.sent = s.sent)
    (hcount : ∀ b, s'.buffers.count (reqId, b) = s.buffers.count (reqId, b)) :
    Forward s s' reqId where
  now := hnow
  calls := by rw [ClientState.sentCalls, hsent, ClientState.sentCalls]
  balance := by
    intro b
    rw [hcount, ClientState.unhandled, ClientState.unhandled, hsent]
  handled := by
    intro hall entry hentry
    exact hall entry (hsent ▸ hentry)
  fresh := by
    intro hnone entry hentry
    exact hnone entry (hsent ▸ hentry)

theorem Kept.of_same (hsent : s'.sent = s.sent) (index : ℕ) : Kept s s' index where
  entry := by
    intro entry hentry
    rwa [hsent]
  new := by
    intro entry hentry
    exact Or.inl (hsent ▸ hentry)

variable {entry : SentEntry}

theorem unhandled_send (hnew : entry.copied = none) (now reqId b : ℕ) :
    ClientState.unhandled { s with now, sent := s.sent ++ [entry] } reqId b = s.unhandled reqId b +
        if entry.req.reqId = reqId ∧ entry.req.bufferAddr = b then 1
        else 0 := by
  simp only [ClientState.unhandled, List.countP_append,
    List.countP_singleton, hnew, Option.isNone_none, Bool.and_true,
    Bool.and_eq_true, decide_eq_true_eq]

variable {now : ℕ}

theorem Forward.of_send (hnow : s.now ≤ now) (hnew : entry.copied = none)
    (hother : entry.req.reqId ≠ reqId) :
    Forward s { s with now, sent := s.sent ++ [entry] } reqId where
  now := hnow
  calls := by simp [ClientState.sentCalls, hother]
  balance := by
    intro b
    rw [unhandled_send hnew, if_neg fun hsame => hother hsame.1, Nat.add_zero]
  handled := by
    intro hall
    refine forall_mem_append ?_ hall
    intro heq
    exact absurd heq hother
  fresh := fun hnone => forall_mem_append hother hnone

theorem Kept.of_send (hnew : entry.copied = none) (index : ℕ) :
    Kept s { s with now, sent := s.sent ++ [entry] } index where
  entry := by
    intro old hold
    obtain ⟨hlt, -⟩ := List.getElem?_eq_some_iff.mp hold
    rwa [List.getElem?_append_left hlt]
  new := by
    intro other hother
    rw [List.getElem?_append] at hother
    split_ifs at hother with hlt
    · exact Or.inl hother
    · have hmem := List.mem_of_getElem? hother
      rw [List.mem_singleton.mp hmem]
      exact Or.inr hnew

theorem markHandled_eq {sent : List SentEntry} (hentry : sent[index]? = some entry)
    (copied : List Slice) : markHandled sent index copied =
      sent.set index { entry with copied := some copied } := by
  rw [markHandled, List.modify_eq_set_getElem?, hentry]
  rfl

theorem sentCalls_eq (s : ClientState) (reqId : ℕ) : s.sentCalls reqId =
      ((s.sent.map fun entry => (entry.req.reqId, entry.call)).filter
        fun pair => pair.1 = reqId).map Prod.snd := by
  rw [List.filter_map, List.map_map]
  rfl

theorem Forward.of_handled {copied : List Slice} (hentry : s.sent[index]? = some entry)
    (hcopied : entry.copied = none) (hmem : (entry.req.reqId, entry.req.bufferAddr) ∈ s.buffers)
    (reqId : ℕ) (locked : Bool) : Forward s
      { s with
        buffers := s.buffers.erase (entry.req.reqId, entry.req.bufferAddr)
        sent := s.sent.set index { entry with copied := some copied }
        locked } reqId where
  now := le_rfl
  calls := by
    have hsame : (s.sent.set index { entry with copied := some copied }).map
        (fun entry => (entry.req.reqId, entry.call)) =
        s.sent.map fun entry => (entry.req.reqId, entry.call) :=
      map_set_of_eq hentry rfl
    rw [sentCalls_eq, sentCalls_eq, hsame]
  balance := by
    intro b
    have hset := countP_set_add hentry
      { entry with copied := some copied }
      fun entry => entry.req.reqId = reqId && entry.req.bufferAddr = b && entry.copied.isNone
    have herase := (List.perm_cons_erase hmem).count_eq (reqId, b)
    rw [List.count_cons] at herase
    simp only [hcopied, Option.isNone_none, Option.isNone_some, Bool.and_true,
      Bool.and_false, Bool.false_eq_true, if_false, Bool.and_eq_true,
      decide_eq_true_eq] at hset
    simp only [beq_iff_eq, Prod.mk.injEq] at herase
    simp only [ClientState.unhandled]
    omega
  handled := by
    intro hall
    exact forall_mem_set_of_forall (fun _ => nofun) hall
  fresh := by
    intro hnone
    exact forall_mem_set_of_forall (hnone entry (List.mem_of_getElem? hentry)) hnone

end Frame

/-! ## The steps of one transfer -/

section Steps

variable {bufferSize : ℕ} {s : ClientState} {info : TransferInfo} {now : ℕ}

theorem taskDone_late {todo : List SendCall} {now' : ℕ} (hstart : info.timer.start ≤ s.now)
    (hnow : s.now ≤ now') (hlate : info.timer.inTime now = false) (hle : now ≤ now')
    (hsending : Sending bufferSize s info todo none) :
    (ClientCall.taskDone info none).Sound bufferSize { s with now := now' } :=
  ⟨hstart.trans hnow, hsending.balance, fun _ => Or.inr (Timer.late_mono hle hlate)⟩

variable {frame : TaskFrame} {leftTimeout : ℕ}

theorem nextLarge_sound (hpos : 0 < bufferSize) {leftSize addr remoteAddr : ℕ} (hnow : s.now ≤ now)
    (hlarge : frame.state.large = some (leftSize, addr, remoteAddr))
    (hsound : (ClientCall.loop frame leftTimeout).Sound bufferSize s) :
    (nextLarge bufferSize frame now leftTimeout leftSize addr
      remoteAddr).Sound bufferSize { s with now } := by
  obtain ⟨htimed, hsending, htimer⟩ := hsound
  have hplan : frame.state.plan bufferSize =
      transferLargeData bufferSize leftSize leftSize addr remoteAddr ++
        doTransferTask bufferSize frame.state.currentBatch
          frame.state.currentBatchSize frame.state.ops := by
    rw [TaskState.plan, hlarge]
    rfl
  have hwithin := htimer.resolve_left (by rw [hlarge]; exact nofun)
  have htimed' := htimed.later hnow
  rw [hplan] at hsending
  rw [nextLarge]
  split_ifs with hzero
  · rw [hzero] at hsending
    exact ⟨htimed'.setState _, { hsending with }, Or.inl rfl⟩
  · rw [transferLargeData_round hpos hzero] at hsending
    exact ⟨htimed'.setState _, { hsending with }, trivial, hwithin now hnow⟩

variable {now₂ now₃ : ℕ}

theorem TaskFrame.Timed.enter (htimed : frame.Timed now) (hin : frame.task.inTime now = true)
    (hle₂ : now ≤ now₂) (hle₃ : now₂ ≤ now₃) (state : TaskState) :
    TaskFrame.Timed { frame with call := ⟨now₂, frame.task.leftTimeout now⟩, state } now₃ where
  infoStart := htimed.infoStart.trans (hle₂.trans hle₃)
  taskStart := htimed.taskStart.trans (hle₂.trans hle₃)
  callStart := hle₃
  task := htimed.task
  call := (Timer.within_of_left hin htimed.taskStart hle₂).trans htimed.task

theorem nextTask_sound (hnow : s.now ≤ now) (hle₂ : now ≤ now₂) (hle₃ : now₂ ≤ now₃)
    (hlarge : frame.state.large = none)
    (hsound : (ClientCall.loop frame leftTimeout).Sound bufferSize s) :
    (nextTask bufferSize frame now now₂ now₃).Sound bufferSize
      { s with now := now₃ } := by
  obtain ⟨htimed, hsending, -⟩ := hsound
  have hplan : frame.state.plan bufferSize = doTransferTask bufferSize frame.state.currentBatch
        frame.state.currentBatchSize frame.state.ops := by
    rw [TaskState.plan, hlarge]
    rfl
  have hle := hle₂.trans hle₃
  have htimed' := htimed.later hnow
  have hlate : (!frame.task.inTime now) = true →
      (ClientCall.taskDone frame.info none).Sound bufferSize { s with now := now₃ } := by
    intro hout
    exact taskDone_late htimed.infoStart (hnow.trans hle)
      (htimed.task now (Bool.not_eq_true' _ |>.mp hout)) hle hsending
  have hget : ¬ (!frame.task.inTime now) = true →
      (∀ state, TaskFrame.Timed
        { frame with call := ⟨now₂, frame.task.leftTimeout now⟩, state } now₃) ∧
      ∀ start, now ≤ start →
        Timer.Within ⟨start, frame.task.leftTimeout now⟩ frame.info.timer := by
    intro hin
    rw [Bool.not_eq_true', Bool.not_eq_false] at hin
    refine ⟨htimed'.enter hin hle₂ hle₃, fun start hstart => ?_⟩
    exact (Timer.within_of_left hin htimed'.taskStart hstart).trans htimed.task
  rw [hplan] at hsending
  rw [nextTask.eq_def]
  split
  · next hops =>
      rw [hops, doTransferTask] at hsending
      split_ifs with hempty hin
      · rw [if_pos hempty] at hsending
        refine ⟨htimed.infoStart.trans (hnow.trans hle), hsending.balance, ?_⟩
        intro _
        have hdone := hsending.plan
        rw [List.append_nil] at hdone
        exact Or.inl hdone
      · exact hlate hin
      · rw [if_neg hempty] at hsending
        obtain ⟨henter, hwithin⟩ := hget hin
        exact ⟨henter _, { hsending with }, rfl, hwithin now₃ hle⟩
  · next op rest hops =>
      rw [hops, doTransferTask] at hsending
      split_ifs with hin hbig hfull
      · exact hlate hin
      · rw [if_pos hbig] at hsending
        obtain ⟨henter, hwithin⟩ := hget hin
        refine ⟨henter _, { hsending with }, Or.inr ?_⟩
        exact fun start hstart => hwithin start (hle.trans hstart)
      · rw [if_neg hbig, if_pos hfull] at hsending
        obtain ⟨henter, hwithin⟩ := hget hin
        exact ⟨henter _, { hsending with }, rfl, hwithin now₃ hle⟩
      · rw [if_neg hbig, if_neg hfull] at hsending
        refine ⟨(htimed'.later hle).setState _, ⟨?_, hsending.balance⟩, Or.inl hlarge⟩
        simp only [hlarge]
        exact hsending.plan

variable {reqId : ℕ}

theorem sentCalls_of_noneSent (hnone : s.NoneSent reqId) : s.sentCalls reqId = [] := by
  rw [ClientState.sentCalls, List.map_eq_nil_iff, List.filter_eq_nil_iff]
  intro entry hentry heq
  exact hnone entry hentry (of_decide_eq_true heq)

theorem unhandled_of_noneSent (hnone : s.NoneSent reqId) (b : ℕ) : s.unhandled reqId b = 0 := by
  rw [ClientState.unhandled, List.countP_eq_zero]
  intro entry hentry
  simp [hnone entry hentry]

theorem complete_of_empty {stuck : Option ℕ} (hempty : ∀ b, s.buffers.count (info.reqId, b) = 0)
    (hbalance : s.Balanced info.reqId stuck)
    (hsent : stuck = none → s.sentCalls info.reqId = doTransferTask bufferSize [] 0 info.ops) :
    Complete bufferSize s info := by
  have hunhandled : ∀ b, s.unhandled info.reqId b = 0 := by
    intro b
    have := hbalance b
    rw [hempty b] at this
    omega
  have hstuck : stuck = none := by
    cases stuck with
    | none => rfl
    | some buffer =>
      have hone := hbalance buffer
      rw [hempty buffer, Option.elim_some, owner, if_pos rfl] at hone
      omega
  refine ⟨hsent hstuck, ?_⟩
  intro entry hentry heq hcopied
  have hnone := hunhandled entry.req.bufferAddr
  rw [ClientState.unhandled, List.countP_eq_zero] at hnone
  apply hnone entry hentry
  simp [heq, hcopied]

variable {s' : ClientState} {call next : ClientCall}

section

variable (input : ClientInput)

include input

theorem nextStart_sound (hpos : 0 < bufferSize)
    (hbelow : ∀ entry ∈ s.sent, entry.req.reqId < s.nextReqId)
    (hfresh : ∀ info, call = .emplace info → ∀ b, s.buffers.count (info.reqId, b) = 0)
    (hsound : call.Sound bufferSize s)
    (hnext : call.nextStart bufferSize input s = some (s', next)) : next.Sound bufferSize s' := by
  cases call with
  | transfer type ops millis =>
    simp only [nextStart] at hnext
    split_ifs at hnext
    all_goals cases hnext
    · trivial
    · exact ⟨fun entry hentry => Nat.ne_of_lt (hbelow entry hentry), le_rfl⟩
  | emplace info =>
    simp only [nextStart] at hnext
    split_ifs at hnext
    cases hnext
    obtain ⟨hnone, hstart⟩ := hsound
    refine ⟨⟨?_, ?_⟩, hstart⟩
    · change s.sentCalls info.reqId ++ _ = _
      rw [sentCalls_of_noneSent hnone, List.nil_append]
    · intro b
      exact (hfresh info rfl b).trans (unhandled_of_noneSent hnone b).symm
  | startTask info =>
    obtain ⟨hsending, hstart⟩ := hsound
    simp only [nextStart] at hnext
    split_ifs at hnext with hout
    all_goals cases hnext
    · exact fun hret => absurd hret (by decide)
    · have hin : info.timer.inTime (s.now + input.delay) = true := by simpa using hout
      have hstart' := hstart.trans (Nat.le_add_right s.now input.delay)
      have hwithin := Timer.within_of_left hin hstart'
        (Nat.le_add_right _ input.delay₂)
      exact ⟨⟨hstart'.trans (Nat.le_add_right _ _), le_rfl, le_rfl, hwithin,
        hwithin⟩, { hsending with }, Or.inl rfl⟩
  | loop frame leftTimeout =>
    simp only [nextStart] at hnext
    split at hnext
    · next leftSize addr remoteAddr hlarge =>
        cases hnext
        exact nextLarge_sound hpos (Nat.le_add_right _ _) hlarge hsound
    · next hlarge =>
        cases hnext
        exact nextTask_sound (Nat.le_add_right _ _) (Nat.le_add_right _ _)
          (Nat.le_add_right _ _) hlarge hsound
  | _ => exact absurd hnext (by simp [nextStart])

theorem nextSend_sound (hfresh : ∀ frame send buffer, call = .insert frame send buffer →
      s.locked = false → (frame.info.reqId, buffer) ∉ s.buffers) (hsound : call.Sound bufferSize s)
    (hnext : call.nextSend input s = some (s', next)) : next.Sound bufferSize s' := by
  have hlater : s.now ≤ s.now + input.delay := Nat.le_add_right _ _
  cases call with
  | getBuffer frame timer call =>
    obtain ⟨htimed, hsending, hsuits, htimer⟩ := hsound
    simp only [nextSend] at hnext
    split at hnext
    · cases hnext
      exact ⟨htimed, { hsending with }, hsuits⟩
    · cases hnext
      split_ifs with hin
      · exact ⟨htimed.later hlater, { hsending with }, hsuits, htimer⟩
      · exact taskDone_late htimed.infoStart hlater
          (htimer _ (Bool.eq_false_of_not_eq_true hin)) le_rfl hsending
  | insert frame call buffer =>
    obtain ⟨htimed, hsending, hsuits⟩ := hsound
    simp only [nextSend] at hnext
    split_ifs at hnext with hlocked
    cases hnext
    have hnew := hfresh frame call buffer rfl
      (Bool.eq_false_of_not_eq_true hlocked)
    refine ⟨htimed, ⟨hsending.plan, ?_⟩, hsuits⟩
    intro b
    have hold := hsending.balance b
    change (s.buffers.insert (frame.info.reqId, buffer)).count
      (frame.info.reqId, b) = s.unhandled frame.info.reqId b + owner buffer b
    rw [List.insert_of_not_mem hnew, List.count_cons, hold, owner]
    simp
  | copy frame call buffer =>
    obtain ⟨htimed, hsending, hsuits⟩ := hsound
    cases hnext
    split_ifs
    · exact ⟨htimed.later hlater, { hsending with }, hsuits⟩
    · exact ⟨htimed.infoStart.trans hlater, hsending.balance,
        fun hstuck => absurd hstuck (Option.some_ne_none buffer)⟩
  | send frame call buffer =>
    obtain ⟨htimed, hsending, hsuits⟩ := hsound
    simp only [nextSend] at hnext
    split_ifs at hnext
    all_goals cases hnext
    · refine ⟨htimed.later hlater, ⟨?_, ?_⟩, hsuits⟩
      · rw [← hsending.plan]
        simp [ClientState.sentCalls, SendCall.bufferReq]
      · intro b
        rw [unhandled_send rfl]
        refine (hsending.balance b).trans ?_
        simp [SendCall.bufferReq, owner]
    · exact ⟨htimed.infoStart.trans hlater, hsending.balance,
        fun hstuck => absurd hstuck (Option.some_ne_none buffer)⟩
  | sent frame call =>
    obtain ⟨htimed, hsending, hsuits⟩ := hsound
    cases call with
    | flushBatch ops =>
      cases hnext
      exact ⟨htimed, hsending, Or.inl hsuits⟩
    | largeData addr remoteAddr count =>
      cases hnext
      have htimed' := htimed.later hlater
      split_ifs with hin
      · refine ⟨htimed', { hsending with }, Or.inr ?_⟩
        intro start hstart
        exact (Timer.within_of_left hin htimed'.callStart hstart).trans htimed.call
      · exact taskDone_late htimed.infoStart hlater
          (htimed.call _ (Bool.eq_false_of_not_eq_true hin)) le_rfl
          hsending
  | _ => exact absurd hnext (by simp [nextSend])

theorem nextFinish_sound
    (hkey : ∀ info, call.info = some info → call.entered = true → info.reqId ∈ s.reqIds)
    (hsound : call.Sound bufferSize s) (hnext : call.nextFinish input s = some (s', next)) :
    next.Sound bufferSize s' := by
  have hlater : s.now ≤ s.now + input.delay := Nat.le_add_right _ _
  cases call with
  | taskDone info stuck =>
    obtain ⟨hstart, hbalance, hdone⟩ := hsound
    simp only [nextFinish] at hnext
    split_ifs at hnext with hout
    all_goals cases hnext
    · exact fun hret => absurd hret (by decide)
    · refine ⟨hbalance, ?_⟩
      intro hstuck
      -- The limit of `Transfer` is not exceeded now, so it was not before.
      refine (hdone hstuck).resolve_right ?_
      intro hlate
      apply hout
      rw [Timer.late_mono hlater hlate]
      rfl
  | checkFinish info timer stuck =>
    obtain ⟨hbalance, hdone⟩ := hsound
    have hmem := hkey info rfl rfl
    simp only [nextFinish] at hnext
    split_ifs at hnext with hlocked hempty hin
    all_goals cases hnext
    · intro _
      refine complete_of_empty ?_ hbalance hdone
      intro b
      simp only [hmem, not_true, decide_false, Bool.false_or,
        List.isEmpty_iff, ClientState.bufferSet, List.map_eq_nil_iff,
        List.filter_eq_nil_iff] at hempty
      rw [List.count_eq_zero]
      intro hin
      exact hempty _ hin (decide_eq_true rfl)
    · exact ⟨hbalance, hdone⟩
    · exact fun hret => absurd hret (by decide)
  | guard info ret =>
    simp only [nextFinish] at hnext
    split_ifs at hnext
    cases hnext
    exact fun hret => { hsound hret with }
  | guardRelease info ret freed left =>
    cases left with
    | nil | cons =>
      cases hnext
      exact fun hret => { hsound hret with }
  | _ => exact absurd hnext (by simp [nextFinish])

theorem nextResp_sound (hsound : call.Sound bufferSize s)
    (hnext : call.nextResp bufferSize input s = some (s', next)) : next.Sound bufferSize s' := by
  cases call with
  | answer index =>
    simp only [nextResp] at hnext
    split at hnext
    · cases hnext
    · next entry hentry =>
        cases hnext
        split_ifs
        · trivial
        · exact ⟨entry, hentry, hsound entry hentry, rfl⟩
  | resp index bufferResp =>
    simp only [nextResp] at hnext
    split_ifs at hnext with hlocked hkey hmem hcopied
    all_goals cases hnext
    · trivial
    · exact ⟨hsound, input.copy, Prod.ext (not_not.mp hcopied) rfl⟩
    all_goals trivial
  | respRelease index bufferResp copied =>
    cases hnext
    exact hsound
  | respErase index bufferResp copied =>
    cases hnext
    trivial
  | _ => exact absurd hnext (by simp [nextResp])

end

end Steps

/-! ## Whole runs -/

def AnsweredOnce (s : Config ClientState ClientCall) : Prop :=
  (s.calls.filterMap ClientCall.answering).Nodup

instance (s : Config ClientState ClientCall) : Decidable (AnsweredOnce s) :=
  inferInstanceAs (Decidable (List.Nodup _))

/-- A request is the one of its call, and what was copied for it are its
slices. -/
def SentEntry.Made (entry : SentEntry) : Prop :=
  ∃ type timeout, entry.req = entry.call.bufferReq type entry.req.reqId
      timeout entry.req.bufferAddr ∧
    ∀ copied, entry.copied = some copied → isReadTransferType type = true →
      ∀ block ∈ entry.call.blocks entry.req.bufferAddr,
        ⟨block.buffer, block.src, block.len⟩ ∈ copied

def ClientCall.Typed (s : ClientState) (call : ClientCall) : Prop :=
  ∀ info, call.info = some info → ∀ entry ∈ s.sent,
    entry.req.reqId = info.reqId → entry.req.transferType = some info.type

structure SoundInvariant (bufferSize : ℕ)
    (s : Config ClientState ClientCall) : Prop where
  calls : ∀ call ∈ s.calls, call.Sound bufferSize s.shared
  typed : ∀ call ∈ s.calls, call.Typed s.shared
  made : ∀ entry ∈ s.shared.sent, entry.Made
  below : ∀ entry ∈ s.shared.sent, entry.req.reqId < s.shared.nextReqId
  answered : ∀ index entry, s.shared.sent[index]? = some entry →
    entry.copied ≠ none → some index ∈ s.calls.map ClientCall.answering

variable {s : Config ClientState ClientCall} {i : ℕ}

theorem AnsweredOnce.apart (honce : AnsweredOnce s) {j index : ℕ} {a b : ClientCall} (hne : i ≠ j)
    (hi : s.calls[i]? = some a) (hj : s.calls[j]? = some b) (ha : a.answering = some index) :
    b.answering ≠ some index := by
  rw [AnsweredOnce, List.Nodup, List.pairwise_filterMap] at honce
  have hpair := pairwise_at
    (fun x y hxy c hc d hd => (hxy d hd c hc).symm) honce hne hi hj
  intro hb
  exact hpair index ha index hb rfl

namespace SoundInvariant

variable {bufferSize : ℕ} {s : Config ClientState ClientCall} {i : ℕ}
  {input : ClientInput} {call next : ClientCall} {shared : ClientState}

theorem startCall (hinv : SoundInvariant bufferSize s) (hstarts : call.starts = true)
    (honce : AnsweredOnce { s with calls := s.calls ++ [call] }) :
    SoundInvariant bufferSize { s with calls := s.calls ++ [call] } := by
  have hnew : call.Sound bufferSize s.shared ∧ call.info = none := by
    cases call with
    | transfer => exact ⟨trivial, rfl⟩
    | answer index =>
      refine ⟨?_, rfl⟩
      intro entry hentry
      by_contra hcopied
      -- The request has been answered before, by another call.
      have hmem := hinv.answered index entry hentry hcopied
      obtain ⟨other, hother, hanswer⟩ := List.mem_map.mp hmem
      obtain ⟨j, hj⟩ := List.mem_iff_getElem?.mp hother
      obtain ⟨hlt, -⟩ := List.getElem?_eq_some_iff.mp hj
      refine honce.apart (i := j) (j := s.calls.length) (Nat.ne_of_lt hlt)
        ?_ ?_ hanswer rfl (b := .answer index)
      · rwa [List.getElem?_append_left hlt]
      · simp
    | _ => exact absurd hstarts nofun
  refine ⟨forall_mem_append hnew.1 hinv.calls,
    forall_mem_append ?_ hinv.typed, hinv.made, hinv.below, ?_⟩
  · intro info hinfo
    exact absurd (hnew.2.symm.trans hinfo) nofun
  · intro index entry hentry hcopied
    rw [List.map_append]
    exact List.mem_append_left _ (hinv.answered index entry hentry hcopied)

theorem own (hpos : 0 < bufferSize) (hinv : SoundInvariant bufferSize s)
    (hset : SetInvariant s) (hcall : s.calls[i]? = some call)
    (hnext : call.next bufferSize input s.shared = some (shared, next)) :
    next.Sound bufferSize shared := by
  have hmem := List.mem_of_getElem? hcall
  have hsound := hinv.calls call hmem
  have hkeyed := hset.keys.keyed call hmem
  cases call with
  | transfer | emplace | startTask | loop =>
    refine nextStart_sound input hpos hinv.below ?_ hsound hnext
    rintro info heq b
    rw [List.count_eq_zero]
    intro hin
    rw [heq] at hkeyed
    exact absurd ((hkeyed info rfl).2.mp (hset.keyed _ hin)) nofun
  | getBuffer | insert | copy | send | sent =>
    refine nextSend_sound input ?_ hsound hnext
    rintro frame send buffer heq hfree hin
    rw [heq] at hcall
    exact hset.taken_not_in_sets hcall hfree (List.mem_map_of_mem hin)
  | taskDone | checkFinish | guard | guardRelease =>
    refine nextFinish_sound input ?_ hsound hnext
    exact fun info hinfo hentered => (hkeyed info hinfo).2.mpr hentered
  | answer | resp | respRelease | respErase => exact nextResp_sound input hsound hnext
  | rejected | returned | respDone => exact absurd hnext nofun

variable {index : ℕ}

theorem answered_set (hcall : s.calls[i]? = some call)
    (hanswering : next.answering = call.answering) (hmem : some index ∈ s.calls.map answering) :
    some index ∈ (s.calls.set i next).map answering := by
  rwa [map_set_of_eq hcall hanswering]

section

variable (hinv : SoundInvariant bufferSize s)

include hinv

theorem stepSame (hcall : s.calls[i]? = some call) (hown : next.Sound bufferSize shared)
    (hsent : shared.sent = s.shared.sent) (hcounter : s.shared.nextReqId ≤ shared.nextReqId)
    (htyped : next.Typed s.shared) (hanswering : next.answering = call.answering)
    (hothers : ∀ j other, j ≠ i → s.calls[j]? = some other → ∀ info, other.info = some info →
        Forward s.shared shared info.reqId) :
    SoundInvariant bufferSize { shared := shared, calls := s.calls.set i next } where
  calls := by
    refine forall_mem_set hown ?_
    intro j other hne hother
    exact (hinv.calls other (List.mem_of_getElem? hother)).keep
      (hothers j other hne hother) (fun index _ => Kept.of_same hsent index)
  typed := by
    rw [show ClientCall.Typed shared = ClientCall.Typed s.shared by
      unfold ClientCall.Typed
      rw [hsent]]
    exact forall_mem_set_of_forall htyped hinv.typed
  made := by
    rw [hsent]
    exact hinv.made
  below := by
    rw [hsent]
    exact fun entry hentry => (hinv.below entry hentry).trans_le hcounter
  answered := by
    rw [hsent]
    exact fun index entry hentry hcopied => answered_set hcall hanswering
      (hinv.answered index entry hentry hcopied)

theorem stepSend (hset : SetInvariant s) (hcall : s.calls[i]? = some call) {info : TransferInfo}
    (hinfo : call.info = some info) (hinfo' : next.info = some info)
    (hanswering : next.answering = call.answering) {entry : SentEntry} (hmade : entry.Made)
    (hnew : entry.copied = none) (hid : entry.req.reqId = info.reqId)
    (htype : entry.req.transferType = some info.type) {now : ℕ} (hnow : s.shared.now ≤ now)
    (hown : next.Sound bufferSize { s.shared with now, sent := s.shared.sent ++ [entry] }) :
    SoundInvariant bufferSize
      { shared := { s.shared with now, sent := s.shared.sent ++ [entry] }
        calls := s.calls.set i next } := by
  have hmem := List.mem_of_getElem? hcall
  have hothers : ∀ j other, j ≠ i → s.calls[j]? = some other →
      ∀ x, other.info = some x → entry.req.reqId ≠ x.reqId := by
    intro j other hne hother x hx
    rw [hid]
    exact hset.keys.apart i j call other (Ne.symm hne) hcall hother info x hinfo hx
  refine ⟨?_, ?_, forall_mem_append hmade hinv.made, ?_, ?_⟩
  · refine forall_mem_set hown ?_
    intro j other hne hother
    exact (hinv.calls other (List.mem_of_getElem? hother)).keep
      (fun x hx => Forward.of_send hnow hnew (hothers j other hne hother x hx))
      (fun index _ => Kept.of_send hnew index)
  · refine forall_mem_set ?_ ?_
    · intro x hx
      obtain rfl := Option.some.inj (hinfo'.symm.trans hx)
      exact forall_mem_append (fun _ => htype) (hinv.typed call hmem info hinfo)
    · intro j other hne hother x hx
      refine forall_mem_append ?_ (hinv.typed other (List.mem_of_getElem? hother) x hx)
      exact fun heq => absurd heq (hothers j other hne hother x hx)
  · refine forall_mem_append ?_ hinv.below
    rw [hid]
    exact (hset.keys.keyed call hmem info hinfo).1
  · intro index other hother hcopied
    apply answered_set hcall hanswering
    obtain hold | hnone := (Kept.of_send (s := s.shared) hnew index).new other hother
    · exact hinv.answered index other hold hcopied
    · exact absurd hnone hcopied

theorem stepHandled (hset : SetInvariant s) (honce : AnsweredOnce s) {bufferResp : BufferResp}
    {copied : List Slice} (hcall : s.calls[i]? = some (.respErase index bufferResp copied)) :
    SoundInvariant bufferSize
      { shared :=
          { s.shared with
            buffers := s.shared.buffers.erase
              (bufferResp.reqId, bufferResp.bufferAddr)
            sent := markHandled s.shared.sent index copied
            locked := false }
        calls := s.calls.set i (.respDone index) } := by
  have hmem := List.mem_of_getElem? hcall
  obtain ⟨⟨entry, hentry, hwaits, rfl⟩, env, hcopy⟩ := hinv.calls _ hmem
  have hsent := List.mem_of_getElem? hentry
  have hin : (entry.req.reqId, entry.req.bufferAddr) ∈ s.shared.buffers := hset.lock.fits _ hmem
  rw [markHandled_eq hentry]
  refine ⟨?_, ?_, ?_, ?_, ?_⟩
  · refine forall_mem_set trivial ?_
    intro j other hne hother
    refine (hinv.calls other (List.mem_of_getElem? hother)).keep
      (fun info _ => Forward.of_handled hentry hwaits hin info.reqId false) ?_
    intro k hk
    have hother_ne : index ≠ k := by
      rintro rfl
      exact honce.apart hne hother hcall hk rfl
    refine ⟨?_, ?_⟩
    · intro e he
      rwa [List.getElem?_set_ne hother_ne]
    · intro e he
      rw [List.getElem?_set_ne hother_ne] at he
      exact Or.inl he
  · have hkeep : ∀ other ∈ s.calls, ∀ info, other.info = some info → ∀ e ∈ s.shared.sent.set index
          { entry with copied := some copied },
        e.req.reqId = info.reqId → e.req.transferType = some info.type := by
      intro other hother info hinfo
      exact forall_mem_set_of_forall (hinv.typed other hother info hinfo entry hsent)
        (hinv.typed other hother info hinfo)
    exact forall_mem_set_of_forall (fun info hinfo => absurd hinfo nofun) hkeep
  · refine forall_mem_set_of_forall ?_ hinv.made
    obtain ⟨type, timeout, hreq, -⟩ := hinv.made entry hsent
    refine ⟨type, timeout, hreq, ?_⟩
    intro slices hslices hread block hblock
    cases hslices
    rw [hreq] at hcopy
    have hall := respCopy_slices hread (congrArg Prod.fst hcopy) block hblock
    rwa [hcopy] at hall
  · exact forall_mem_set_of_forall (hinv.below entry hsent) hinv.below
  · intro k e he hdone
    have hsame : (ClientCall.respDone index).answering =
        (ClientCall.respErase index (handleCtrlMsg entry.req) copied).answering := rfl
    apply answered_set hcall hsame
    by_cases hk : index = k
    · rw [← hk]
      exact List.mem_map_of_mem hmem
    · change (s.shared.sent.set index _)[k]? = some e at he
      rw [List.getElem?_set_ne hk] at he
      exact hinv.answered k e he hdone

end

variable {reqId r : ℕ}

theorem forward_insert {buffer : ℕ} (hne : r ≠ reqId) (s : ClientState) (reqIds : List ℕ) :
    Forward s { s with reqIds, buffers := s.buffers.insert (reqId, buffer) } r := by
  refine Forward.of_counts le_rfl rfl ?_
  intro b
  by_cases hin : (reqId, buffer) ∈ s.buffers
  · rw [List.insert_of_mem hin]
  · rw [List.insert_of_not_mem hin, List.count_cons_of_ne]
    intro heq
    exact hne (Prod.mk.inj heq).1.symm

theorem step (hpos : 0 < bufferSize) (hinv : SoundInvariant bufferSize s) (hset : SetInvariant s)
    (honce : AnsweredOnce s) (hcall : s.calls[i]? = some call)
    (hnext : call.next bufferSize input s.shared = some (shared, next)) :
    SoundInvariant bufferSize { shared := shared, calls := s.calls.set i next } := by
  have hown := hinv.own hpos hset hcall hnext
  have htyped := hinv.typed call (List.mem_of_getElem? hcall)
  have hothers : ∀ info, call.info = some info → ∀ j other, j ≠ i →
      s.calls[j]? = some other → ∀ x, other.info = some x → x.reqId ≠ info.reqId :=
    fun info hinfo j other hne hother x hx =>
      hset.keys.apart j i other call hne hother hcall x info hx hinfo
  cases next_cases bufferSize input hnext with
  | quiet hnow hshared hinfo _ hanswering =>
    have hsent : shared.sent = s.shared.sent := by rw [hshared]
    have hbuffers : shared.buffers = s.shared.buffers := by rw [hshared]
    have hcounter : shared.nextReqId = s.shared.nextReqId := by rw [hshared]
    refine hinv.stepSame hcall hown hsent hcounter.ge ?_ hanswering ?_
    · exact fun info heq => htyped info (hinfo ▸ heq)
    · intro j other _ _ info _
      exact Forward.of_counts hnow hsent fun b => by rw [hbuffers]
  | begin type ops millis timer now hnow =>
    refine hinv.stepSame hcall hown rfl (Nat.le_succ _) ?_ rfl ?_
    · intro info heq entry hentry hid
      cases heq
      exact absurd hid (Nat.ne_of_lt (hinv.below entry hentry))
    · intro j other _ _ info _
      exact Forward.of_counts hnow rfl fun _ => rfl
  | emplace | take | lock | free | respLock | respFree =>
    refine hinv.stepSame hcall hown rfl le_rfl htyped rfl ?_
    intro j other _ _ info _
    exact Forward.of_counts le_rfl rfl fun _ => rfl
  | insert frame send buffer =>
    refine hinv.stepSame hcall hown rfl le_rfl htyped rfl ?_
    intro j other hne hother info hinfo
    exact forward_insert (hothers frame.info rfl j other hne hother info hinfo) _ _
  | send frame send buffer now timeout hnow =>
    have hmade : SentEntry.Made ⟨send.bufferReq frame.info.type frame.info.reqId timeout buffer,
          send, none⟩ :=
      ⟨frame.info.type, timeout, rfl, fun _ hcopied => absurd hcopied (Option.some_ne_none _).symm⟩
    refine hinv.stepSend hset hcall rfl ?_ ?_ hmade rfl rfl rfl hnow hown
    all_goals rfl
  | erase info ret freed =>
    refine hinv.stepSame hcall hown rfl le_rfl htyped rfl ?_
    intro j other hne hother x hx
    refine Forward.of_counts le_rfl rfl ?_
    intro b
    exact List.count_filter (decide_eq_true (hothers info rfl j other hne hother x hx))
  | respErase index bufferResp copied => exact hinv.stepHandled hset honce hcall

theorem start (bufferSize : ℕ) (pool : PoolAddrs) :
    SoundInvariant bufferSize (clientStart pool) where
  calls := List.forall_mem_nil _
  typed := List.forall_mem_nil _
  made := List.forall_mem_nil _
  below := List.forall_mem_nil _
  answered := fun _ _ hentry => absurd hentry nofun

end SoundInvariant

variable {call next : ClientCall}

theorem SetStep.answering {s s' : ClientState} (hstep : SetStep s call s' next) :
    next.answering = call.answering := by
  cases hstep with
  | quiet _ _ _ _ hanswering => exact hanswering
  | _ => rfl

theorem AnsweredOnce.of_step {shared : ClientState} (hcall : s.calls[i]? = some call)
    (hstep : SetStep s.shared call shared next)
    (honce : AnsweredOnce { shared := shared, calls := s.calls.set i next }) : AnsweredOnce s := by
  have hsame := map_set_of_eq hcall hstep.answering
  have hindices : (s.calls.set i next).filterMap answering =
      s.calls.filterMap answering := by
    have hid : ∀ calls : List ClientCall, calls.filterMap answering =
          (calls.map answering).filterMap id := by
      intro calls
      rw [List.filterMap_map]
      rfl
    rw [hid, hid, hsame]
  rwa [AnsweredOnce, ← hindices]

theorem SoundInvariant.run {bufferSize : ℕ} (hpos : 0 < bufferSize) {pool : PoolAddrs}
    (actions : List (Action ClientCall ClientInput))
    (hreach : (clientProgram bufferSize).run (clientStart pool) actions = some s)
    (honce : AnsweredOnce s) : SoundInvariant bufferSize s := by
  -- An earlier state has no more answers than the last one.
  have hboth : SetInvariant s ∧ (AnsweredOnce s → SoundInvariant bufferSize s) := by
    refine Program.run_invariant (fun s => SetInvariant s ∧
      (AnsweredOnce s → SoundInvariant bufferSize s)) ?_ ?_ actions hreach
      ⟨SetInvariant.start pool, fun _ => start bufferSize pool⟩
    · rintro s call hstarts ⟨hset, hinv⟩
      refine ⟨hset.startCall hstarts, fun honce => ?_⟩
      refine (hinv ?_).startCall hstarts honce
      rw [AnsweredOnce, List.filterMap_append] at honce
      exact (List.nodup_append.mp honce).1
    · rintro s i input call next shared hcall hnext ⟨hset, hinv⟩
      have hstep := next_cases bufferSize input hnext
      refine ⟨hset.step hcall hstep, fun honce => ?_⟩
      have honce' := AnsweredOnce.of_step hcall hstep honce
      exact (hinv honce').step hpos hset honce' hcall hnext
  exact hboth.2 honce

/-- In every run, a transfer that succeeds has sent all its requests and every
one has been answered, and for a read every slice has been copied to its local
address, provided that no request is answered twice.  A transfer that returns
leaves no entry in the map, and a buffer that is not idle then belongs to
another request.  No buffer is in two sets. -/
theorem bufferTransfer_sound (bufferSize : ℕ) (hpos : 0 < bufferSize) (pool : PoolAddrs)
    (actions : List (Action ClientCall ClientInput)) (s : Config ClientState ClientCall)
    (hreach : (clientProgram bufferSize).run (clientStart pool) actions = some s) :
    (AnsweredOnce s → ∀ info, .returned info .success ∈ s.calls → s.shared.sentCalls info.reqId =
          doTransferTask bufferSize [] 0 info.ops ∧
        ∀ entry ∈ s.shared.sent, entry.req.reqId = info.reqId →
          ∃ copied, entry.copied = some copied ∧ (isReadTransferType info.type = true →
              ∀ block ∈ entry.call.blocks entry.req.bufferAddr,
                ⟨block.buffer, block.src, block.len⟩ ∈ copied)) ∧
      (∀ info ret, .returned info ret ∈ s.calls → info.reqId ∉ s.shared.reqIds ∧
          ∀ buffer, (buffer, false) ∈ s.shared.pool →
            ∃ r, r ≠ info.reqId ∧ ((r, buffer) ∈ s.shared.buffers ∨
              ∃ other ∈ s.calls, other.taken = some (r, buffer))) ∧
      ∀ r r' buffer, (r, buffer) ∈ s.shared.buffers → (r', buffer) ∈ s.shared.buffers → r = r' := by
  have hset := SetInvariant.run actions hreach
  refine ⟨?_, ?_, ?_⟩
  · intro honce info hreturned
    have hinv := SoundInvariant.run hpos actions hreach honce
    have hcomplete := hinv.calls _ hreturned rfl
    refine ⟨hcomplete.sent, ?_⟩
    intro entry hentry hid
    obtain ⟨copied, hcopied⟩ := Option.ne_none_iff_exists'.mp (hcomplete.handled entry hentry hid)
    refine ⟨copied, hcopied, ?_⟩
    intro hread
    obtain ⟨type, timeout, hreq, hmade⟩ := hinv.made entry hentry
    have htype : type = info.type := by
      have hentryType := hinv.typed _ hreturned info rfl entry hentry hid
      rw [hreq] at hentryType
      exact Option.some.inj hentryType
    exact hmade copied hcopied (htype ▸ hread)
  · intro info ret hreturned
    refine ⟨?_, fun buffer hbusy => hset.busy_of_others hreturned hbusy⟩
    intro hin
    exact absurd ((hset.keys.keyed _ hreturned info rfl).2.mp hin) nofun
  · intro r r' buffer hr hr'
    have heq := List.inj_on_of_nodup_map hset.nodup hr hr' rfl
    exact (Prod.mk.inj heq).1

def oneBuffer : PoolAddrs where
  addrs := [4096]
  nodup := List.nodup_singleton 4096
  nonzero := by decide

def calmInput : ClientInput where
  copy := calmCopy

def runCall (i steps : ℕ) : List (Action ClientCall ClientInput) :=
  List.replicate steps (.run i calmInput)

def answerRun (i index : ℕ) : List (Action ClientCall ClientInput) :=
  .start (.answer index) :: runCall i 4

/-- A read of eight bytes through one buffer of four: the first request is
answered, the buffer is taken again for the second one, and then comes the
answer to the request `index`. -/
def twoRoundsRun (index : ℕ) : List (Action ClientCall ClientInput) :=
  .start (.transfer .readRH2H [⟨100, 500, 8⟩] 1500) :: runCall 0 11 ++
    answerRun 1 0 ++ runCall 0 7 ++ answerRun 2 index ++ runCall 0 4

theorem bufferTransfer_sound_twoRounds :
    ∃ s info, (clientProgram 4).run (clientStart oneBuffer) (twoRoundsRun 1) = some s ∧
      .returned info .success ∈ s.calls ∧
      s.shared.sentCalls info.reqId = doTransferTask 4 [] 0 info.ops ∧
      ∀ entry ∈ s.shared.sent, entry.req.reqId = info.reqId → ∃ copied, entry.copied = some copied ∧
          (isReadTransferType info.type = true → ∀ block ∈ entry.call.blocks entry.req.bufferAddr,
              ⟨block.buffer, block.src, block.len⟩ ∈ copied) :=
  ⟨_, _, rfl, List.mem_cons_self,
    (bufferTransfer_sound 4 (by decide) oneBuffer (twoRoundsRun 1) _ rfl).1
      (by decide) _ List.mem_cons_self⟩

/-- The peer answers the first request twice.  The second answer takes the
buffer of the second request out of the set, and the transfer succeeds while
half of its data is missing. -/
theorem bufferTransfer_answeredTwice :
    ∃ s info, (clientProgram 4).run (clientStart oneBuffer) (twoRoundsRun 0) = some s ∧
      .returned info .success ∈ s.calls ∧
      ∃ entry ∈ s.shared.sent, entry.req.reqId = info.reqId ∧ entry.copied = none :=
  ⟨_, _, rfl, List.mem_cons_self, _, List.mem_cons_of_mem _ List.mem_cons_self, rfl, rfl⟩

end Hixl.Adxl
