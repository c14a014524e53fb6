import Hixl.ControlMsgModel

/-!
# Notifies

`SendNotify` draws an id, sends the message within a time budget and waits for
its ack.  The acks of all channels are kept in one table under their ids.  The
first part follows one call against the clock, the second the table under any
calls and any acks.
-/

namespace Hixl.Adxl

/-! ## The time that a call takes -/

def kNoNeedRetry : ℕ := 1

def kMicrosPerMillis : ℕ := 1000

/-- `broken`: `err_no` is `EPIPE` or `EBADF`.  Times are in nanoseconds. -/
structure SendOutcome where
  status : Status
  broken : Bool := false
  took : ℕ

def SendOutcome.code (sent : SendOutcome) : ℕ :=
  if sent.status = .success then Status.success.code
  else if sent.broken then kNoNeedRetry
  else if sent.status = .timeout then Status.timeout.code
  else Status.failed.code

/-- The time before `Write` reads the clock, and what `Send` does with a
timeout in milliseconds. -/
structure WriteTrace where
  delay : ℕ := 0
  send : ℕ → SendOutcome

structure NotifyTrace where
  found : Bool := true
  hasConnection : Bool := true
  /-- The length of the message, if it can be serialized. -/
  msgLen : Option ℕ
  startDelay : ℕ := 0
  header : WriteTrace
  msgType : WriteTrace
  body : WriteTrace
  acked : Bool
  waited : ℕ := 0

/-- The milliseconds that `Write` gives to `Send`. -/
def remainingMs (timeout elapsed : ℕ) : ℕ :=
  min ((timeout - elapsed - 1) / kMicrosPerMillis + 1) (2 ^ 32 - 1)

/-- The code and the time after it. -/
def write (len timeout start clock : ℕ) (trace : WriteTrace) : ℕ × ℕ :=
  if len = 0 then (Status.success.code, clock)
  else
    let now := clock + trace.delay
    let elapsed := (now - start) / 1000
    if timeout ≤ elapsed then (Status.timeout.code, now)
    else
      let sent := trace.send (remainingMs timeout elapsed)
      (sent.code, now + sent.took)

namespace NotifyTrace

/-- The three writes share one budget, which `Write` counts in microseconds. -/
def sendMsgByProtocol (msgLen timeout start : ℕ) (t : NotifyTrace) : ℕ × ℕ :=
  let header := write kProtocolHeaderSize timeout start start t.header
  if header.1 ≠ 0 then header
  else
    let msgType := write kControlMsgTypeSize timeout start header.2 t.msgType
    if msgType.1 ≠ 0 then msgType
    else write msgLen timeout start msgType.2 t.body

def sendControlMsg (timeout : ℕ) (t : NotifyTrace) : ℕ × ℕ :=
  if !t.hasConnection then (Status.failed.code, t.startDelay)
  else
    match t.msgLen with
    | none => (Status.paramInvalid.code, t.startDelay)
    | some msgLen => t.sendMsgByProtocol msgLen timeout t.startDelay

/-- The code and the time since the call started. -/
def sendNotify (timeoutInMillis : ℕ) (t : NotifyTrace) : ℕ × ℕ :=
  if !t.found then (kNotConnected, 0)
  else
    let sent := t.sendControlMsg timeoutInMillis
    if sent.1 ≠ 0 then sent
    else if t.acked then (Status.success.code, sent.2 + t.waited)
    else (Status.timeout.code, sent.2 + timeoutInMillis * 1000000 + t.waited)

end NotifyTrace

/-- `Send` succeeds or waits the time it is given. -/
def WriteTrace.Patient (trace : WriteTrace) : Prop :=
  ∀ ms, (trace.send ms).status = .success ∨ ms * 1000000 ≤ (trace.send ms).took

variable {timeout : ℕ}

theorem SendOutcome.code_eq_zero_iff {sent : SendOutcome} :
    sent.code = 0 ↔ sent.status = .success := by
  unfold SendOutcome.code
  split_ifs with h <;> simp [h, Status.code, kNoNeedRetry]

theorem SendOutcome.code_eq_timeout_iff {sent : SendOutcome} :
    sent.code = Status.timeout.code ↔ sent.status = .timeout ∧ ¬ sent.broken := by
  unfold SendOutcome.code
  split_ifs with h hbroken htimeout <;> simp [*, Status.code, kNoNeedRetry]

/-- A write that times out has used the budget up. -/
theorem write_timeout (len : ℕ) {start clock : ℕ} {trace : WriteTrace} (hpatient : trace.Patient)
    (hint : timeout < 2 ^ 31) (hstart : start ≤ clock) :
    clock ≤ (write len timeout start clock trace).2 ∧
      ((write len timeout start clock trace).1 = Status.timeout.code →
        start + timeout * 1000 ≤ (write len timeout start clock trace).2) := by
  simp only [write]
  split_ifs with hlen hspent
  · exact ⟨le_rfl, by rintro ⟨⟩⟩
  · constructor <;> omega
  · refine ⟨by omega, fun hcode => ?_⟩
    -- the milliseconds given to `Send` cover the rest of the budget
    obtain ⟨htimeout, -⟩ := SendOutcome.code_eq_timeout_iff.mp hcode
    have hwaited := (hpatient _).resolve_left (by rw [htimeout]; decide)
    unfold remainingMs kMicrosPerMillis at hwaited ⊢
    omega

variable {t : NotifyTrace} (hheader : t.header.Patient) (hmsgType : t.msgType.Patient)
  (hbody : t.body.Patient) (hint : timeout < 2 ^ 31)

include hheader hmsgType hbody hint

theorem sendMsgByProtocol_timeout {msgLen start : ℕ}
    (hcode : (t.sendMsgByProtocol msgLen timeout start).1 = Status.timeout.code) :
    start + timeout * 1000 ≤ (t.sendMsgByProtocol msgLen timeout start).2 := by
  simp only [NotifyTrace.sendMsgByProtocol] at hcode ⊢
  have hfirst := write_timeout kProtocolHeaderSize hheader hint (le_refl start)
  have hsecond := write_timeout kControlMsgTypeSize hmsgType hint hfirst.1
  split_ifs at hcode ⊢
  · exact hfirst.2 hcode
  · exact hsecond.2 hcode
  · exact (write_timeout msgLen hbody hint (hfirst.1.trans hsecond.1)).2 hcode

theorem sendNotify_timeout_micros (hcode : (t.sendNotify timeout).1 = Status.timeout.code) :
    timeout * 1000 ≤ (t.sendNotify timeout).2 := by
  simp only [NotifyTrace.sendNotify] at hcode ⊢
  split_ifs at hcode ⊢ with hfound hsent
  · cases hcode
  · unfold NotifyTrace.sendControlMsg at hcode ⊢
    split_ifs at hcode ⊢
    · cases hcode
    · cases hlen : t.msgLen with
      | none =>
        rw [hlen] at hcode
        cases hcode
      | some msgLen =>
        rw [hlen] at hcode
        exact (Nat.le_add_left _ _).trans
          (sendMsgByProtocol_timeout hheader hmsgType hbody hint hcode)
  · cases hcode
  · dsimp only
    omega

omit hheader hmsgType hbody hint

/-- The writes come to an end, or the one that gives up does so when the timeout
in milliseconds is over. -/
def InTime (timeout start : ℕ) : ℕ → List (ℕ × WriteTrace) → Prop
  | _, [] => True
  | clock, (0, _) :: rest => InTime timeout start clock rest
  | clock, (_ + 1, trace) :: rest =>
    let now := clock + trace.delay
    let elapsed := (now - start) / 1000
    if timeout ≤ elapsed then timeout * 1000000 ≤ now
    else
      let sent := trace.send (remainingMs timeout elapsed)
      if sent.status = .success then InTime timeout start (now + sent.took) rest
      else sent.status = .timeout → ¬ sent.broken → timeout * 1000000 ≤ now + sent.took

/-- The result of a call honours the timeout. -/
def Honours (timeout : ℕ) (result : ℕ × ℕ) : Prop :=
  result.1 = Status.timeout.code → timeout * 1000000 ≤ result.2

theorem honours_write_iff (len : ℕ) {start clock : ℕ} {trace : WriteTrace}
    (rest : List (ℕ × WriteTrace)) (next : ℕ → ℕ × ℕ)
    (hnext : ∀ clock, Honours timeout (next clock) ↔ InTime timeout start clock rest) :
    Honours timeout (if (write len timeout start clock trace).1 ≠ 0 then
        write len timeout start clock trace
      else next (write len timeout start clock trace).2) ↔
      InTime timeout start clock ((len, trace) :: rest) := by
  cases len with
  | zero => exact hnext clock
  | succ len =>
    simp only [write, InTime, Nat.add_one_ne_zero, if_false]
    by_cases hspent : timeout ≤ (clock + trace.delay - start) / 1000
    · simp only [hspent, if_true]
      rw [if_pos (show Status.timeout.code ≠ 0 by decide)]
      exact ⟨fun h => h rfl, fun h _ => h⟩
    simp only [hspent, if_false]
    generalize trace.send (remainingMs timeout ((clock + trace.delay - start) / 1000)) = sent
    by_cases hsent : sent.status = .success
    · rw [if_neg (not_not.mpr (SendOutcome.code_eq_zero_iff.mpr hsent)), if_pos hsent]
      exact hnext _
    · rw [if_pos (mt SendOutcome.code_eq_zero_iff.mp hsent), if_neg hsent, Honours,
        SendOutcome.code_eq_timeout_iff, and_imp]

theorem honours_sendMsgByProtocol_iff (msgLen start : ℕ) (t : NotifyTrace) :
    Honours timeout (t.sendMsgByProtocol msgLen timeout start) ↔
      InTime timeout start start [(kProtocolHeaderSize, t.header),
        (kControlMsgTypeSize, t.msgType), (msgLen, t.body)] := by
  refine honours_write_iff _ _ _ fun clock =>
    honours_write_iff _ _ (write msgLen timeout start · t.body) fun clock =>
      Iff.trans ?_ (honours_write_iff msgLen [] (fun clock => (0, clock))
        fun _ => iff_of_true (by rintro ⟨⟩) trivial)
  split_ifs with hcode
  · rfl
  · exact iff_of_true (fun h => absurd (h ▸ by decide) hcode) (by rintro ⟨⟩)

/-- A call honours its timeout exactly if its writes come to an end or the one
that gives up does so late enough.  A patient connection makes sure of the
timeout in microseconds only. -/
theorem sendNotify_timeout (timeout : ℕ) (t : NotifyTrace) :
    (Honours timeout (t.sendNotify timeout) ↔ (t.found → t.hasConnection → ∀ len ∈ t.msgLen,
      InTime timeout t.startDelay t.startDelay [(kProtocolHeaderSize, t.header),
        (kControlMsgTypeSize, t.msgType), (len, t.body)])) ∧
    (t.header.Patient → t.msgType.Patient → t.body.Patient → timeout < 2 ^ 31 →
      (t.sendNotify timeout).1 = Status.timeout.code →
        timeout * 1000 ≤ (t.sendNotify timeout).2) := by
  refine ⟨?_, sendNotify_timeout_micros⟩
  obtain ⟨found, hasConnection, msgLen, startDelay, header, msgType, body, acked, waited⟩ := t
  cases found
  · exact iff_of_true (by rintro ⟨⟩) (by simp)
  cases hasConnection
  · exact iff_of_true (by rintro ⟨⟩) (by simp)
  cases msgLen with
  | none => exact iff_of_true (by rintro ⟨⟩) (by simp)
  | some msgLen =>
    simp only [forall_const, Option.mem_some_iff, forall_eq']
    rw [← honours_sendMsgByProtocol_iff msgLen startDelay
      ⟨true, true, some msgLen, startDelay, header, msgType, body, acked, waited⟩]
    simp only [NotifyTrace.sendNotify, NotifyTrace.sendControlMsg, Bool.not_true,
      Bool.false_eq_true, if_false]
    split_ifs with hsent hacked
    · rfl
    · exact iff_of_true (by rintro ⟨⟩) fun h => absurd (h ▸ by decide) hsent
    · exact iff_of_true (fun _ => by dsimp only; omega) fun h => absurd (h ▸ by decide) hsent

/-- No ack comes, and every `Send` does the same. -/
def unanswered (write : WriteTrace) : NotifyTrace where
  msgLen := some 64
  header := write
  msgType := write
  body := write
  acked := false

def promptWrite : WriteTrace where
  send _ := { status := .success, took := 0 }

def stalledWrite : WriteTrace where
  send ms := { status := .timeout, took := ms * 1000000 }

theorem sendNotify_timeout_unanswered :
    Honours 3 ((unanswered promptWrite).sendNotify 3) ∧
      (unanswered promptWrite).sendNotify 3 = (Status.timeout.code, 3000000) :=
  ⟨(sendNotify_timeout 3 (unanswered promptWrite)).1.mpr fun _ _ _ h => by cases h; trivial, rfl⟩

/-- With a timeout of one second the call gives up after one millisecond. -/
theorem sendNotify_gives_up_early :
    stalledWrite.Patient ∧
      (unanswered stalledWrite).sendNotify 1000 = (Status.timeout.code, 1000000) :=
  ⟨fun _ => Or.inr le_rfl, rfl⟩

/-! ## The table of acks -/

inductive NotifyCall where
  | drawn (remote : ℕ)
  | waiting (remote : ℕ)
  | returned (remote : ℕ) (ret : Status)
  deriving DecidableEq, Repr

inductive NotifyEvent where
  | sent (remote id : ℕ)
  | acked (peer id : ℕ)
  deriving DecidableEq, Repr

/-- The calls stand under their ids, whose counter has 64 bits and does not wrap.
The latest event is the first. -/
structure NotifyState where
  nextNotifyId : ℕ := 1
  notifyAckReady : Finset ℕ := ∅
  calls : ℕ → Option NotifyCall := fun _ => none
  log : List NotifyEvent := []

inductive NotifyAction where
  | draw (remote : ℕ)
  | send (id : ℕ) (ret : Status)
  | ack (peer id : ℕ)
  | wake (id : ℕ) (expired : Bool)

namespace NotifyState

def step (s : NotifyState) : NotifyAction → NotifyState
  | .draw remote =>
    { s with
      nextNotifyId := s.nextNotifyId + 1
      calls := Function.update s.calls s.nextNotifyId (some (.drawn remote)) }
  | .send id ret =>
    match s.calls id with
    | some (.drawn remote) =>
      if ret = .success then
        { s with
          calls := Function.update s.calls id (some (.waiting remote))
          log := .sent remote id :: s.log }
      else { s with calls := Function.update s.calls id (some (.returned remote ret)) }
    | _ => s
  | .ack peer id =>
    { s with
      notifyAckReady := insert id s.notifyAckReady
      log := .acked peer id :: s.log }
  | .wake id expired =>
    match s.calls id with
    | some (.waiting remote) =>
      if id ∈ s.notifyAckReady then
        { s with
          notifyAckReady := s.notifyAckReady.erase id
          calls := Function.update s.calls id (some (.returned remote .success)) }
      else if expired then
        { s with
          notifyAckReady := s.notifyAckReady.erase id
          calls := Function.update s.calls id (some (.returned remote .timeout)) }
      else s
    | _ => s

/-- An ack of the call has arrived on the channel of its remote after the
message was sent. -/
def Answered (log : List NotifyEvent) (remote id : ℕ) : Prop :=
  ∃ later earlier, log = later ++ .acked remote id :: earlier ∧ .sent remote id ∈ earlier

structure AcksMatched (s : NotifyState) : Prop where
  fresh : ∀ id, s.nextNotifyId ≤ id → s.calls id = none
  sent : ∀ id remote, s.calls id = some (.waiting remote) → .sent remote id ∈ s.log
  ready : ∀ id ∈ s.notifyAckReady,
    ∃ remote, s.calls id = some (.waiting remote) ∧ Answered s.log remote id
  success : ∀ id remote, s.calls id = some (.returned remote .success) → Answered s.log remote id

/-- Every ack comes on the channel of a call that waits for it. -/
def AcksInTime : NotifyState → List NotifyAction → Prop
  | _, [] => True
  | s, .ack peer id :: rest =>
    s.calls id = some (.waiting peer) ∧ AcksInTime (s.step (.ack peer id)) rest
  | s, a :: rest => AcksInTime (s.step a) rest

variable {s : NotifyState} {log : List NotifyEvent} {id remote : ℕ}

theorem Answered.cons (hanswered : Answered log remote id) (event : NotifyEvent) :
    Answered (event :: log) remote id := by
  obtain ⟨later, earlier, rfl, hsent⟩ := hanswered
  exact ⟨event :: later, earlier, rfl, hsent⟩

namespace AcksMatched

variable (hmatched : s.AcksMatched)

include hmatched

theorem draw (remote : ℕ) : (s.step (.draw remote)).AcksMatched := by
  obtain ⟨hfresh, hsent, hready, hsuccess⟩ := hmatched
  simp only [step]
  constructor <;> grind [Function.update_apply]

theorem send (id : ℕ) (ret : Status) : (s.step (.send id ret)).AcksMatched := by
  obtain ⟨hfresh, hsent, hready, hsuccess⟩ := hmatched
  simp only [step]
  split
  · split_ifs with hret
    · constructor <;> grind [Function.update_apply, Answered.cons]
    · constructor <;> grind [Function.update_apply]
  · exact ⟨hfresh, hsent, hready, hsuccess⟩

theorem ack (hcall : s.calls id = some (.waiting remote)) :
    (s.step (.ack remote id)).AcksMatched := by
  have hanswered : Answered (.acked remote id :: s.log) remote id :=
    ⟨[], s.log, rfl, hmatched.sent id remote hcall⟩
  obtain ⟨hfresh, hsent, hready, hsuccess⟩ := hmatched
  simp only [step]
  constructor <;> grind [Answered.cons]

theorem wake (id : ℕ) (expired : Bool) : (s.step (.wake id expired)).AcksMatched := by
  obtain ⟨hfresh, hsent, hready, hsuccess⟩ := hmatched
  simp only [step]
  split
  · split_ifs with hid
    · constructor <;> grind [Function.update_apply]
    · constructor <;> grind [Function.update_apply]
    · exact ⟨hfresh, hsent, hready, hsuccess⟩
  · exact ⟨hfresh, hsent, hready, hsuccess⟩

theorem run (actions : List NotifyAction) (htime : s.AcksInTime actions) :
    (actions.foldl step s).AcksMatched := by
  induction actions generalizing s with
  | nil => exact hmatched
  | cons a rest ih =>
    cases a with
    | draw remote => exact ih (hmatched.draw remote) htime
    | send id ret => exact ih (hmatched.send id ret) htime
    | wake id expired => exact ih (hmatched.wake id expired) htime
    | ack peer id => exact ih (hmatched.ack htime.1) htime.2

end AcksMatched

/-- If every ack comes on the channel of a call that waits for it, a call
succeeds only after an ack of its remote, and the table is empty when no call
is in progress. -/
theorem notifyAcks_matched (actions : List NotifyAction) (htime : AcksInTime {} actions) :
    (∀ id remote, (actions.foldl step {}).calls id = some (.returned remote .success) →
      Answered (actions.foldl step {}).log remote id) ∧
      ((∀ id remote, (actions.foldl step {}).calls id ≠ some (.drawn remote) ∧
          (actions.foldl step {}).calls id ≠ some (.waiting remote)) →
        (actions.foldl step {}).notifyAckReady = ∅) := by
  have hstart : AcksMatched {} := by
    constructor
    · intro _ _
      rfl
    · rintro _ _ ⟨⟩
    · intro id hid
      exact absurd hid (Finset.notMem_empty id)
    · rintro _ _ ⟨⟩
  have hmatched := hstart.run actions htime
  refine ⟨hmatched.success, fun hidle => ?_⟩
  rw [Finset.eq_empty_iff_forall_notMem]
  intro id hid
  obtain ⟨remote, hwaiting, -⟩ := hmatched.ready id hid
  exact (hidle id remote).2 hwaiting

theorem notifyAcks_matched_once :
    Answered (([.draw 7, .send 1 .success, .ack 7 1, .wake 1 false] : List NotifyAction).foldl
      step {}).log 7 1 :=
  (notifyAcks_matched [.draw 7, .send 1 .success, .ack 7 1, .wake 1 false]
    ⟨rfl, trivial⟩).1 1 7 rfl

/-- Peer 8 acks the call to remote 7, and remote 7 acks a call that has timed
out. -/
theorem notifyAcks_forged_and_late :
    (([.draw 7, .send 1 .success, .ack 8 1, .wake 1 false] : List NotifyAction).foldl
      step {}).calls 1 = some (.returned 7 .success) ∧
    (([.draw 7, .send 1 .success, .wake 1 true, .ack 7 1] : List NotifyAction).foldl
      step {}).notifyAckReady = {1} := by
  constructor <;> rfl

end NotifyState

end Hixl.Adxl
