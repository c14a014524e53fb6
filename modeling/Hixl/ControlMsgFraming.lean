import Hixl.ControlMsgModel
import Hixl.FramedStreams

/-!
# Control messages do not depend on the reads

`controlHeaded` says what a control message is on the byte stream itself.  A
channel holds the unconsumed bytes of the stream: in `WAITING_FOR_BODY` those of
an accepted header, and then the received bytes of the buffer.  Each iteration
of `ProcessReceivedData` takes the decision of the framing on these bytes.
-/

namespace Hixl.Adxl

open FramedStreams

def acceptHeader (bytes : List UInt8) : Except Status ℕ :=
  match validateProtocolHeader bytes with
  | .success => .ok (protocolBodySize bytes)
  | status => .error status

def readBody (bytes : List UInt8) (size : ℕ) : Except Status CtrlMsg :=
  if size < kControlMsgTypeSize then .error .failed
  else .ok (ctrlMsgOf bytes size)

variable {bytes : List UInt8}

section

variable (hlen : kProtocolHeaderSize ≤ bytes.length) (more : List UInt8)

include hlen more

theorem protocolBodySize_append : protocolBodySize (bytes ++ more) = protocolBodySize bytes := by
  unfold kProtocolHeaderSize at hlen
  rw [protocolBodySize, List.drop_append_of_le_length (by omega),
    List.take_append_of_le_length (by rw [List.length_drop]; omega),
    protocolBodySize]

theorem validateProtocolHeader_append : validateProtocolHeader (bytes ++ more) =
      validateProtocolHeader bytes := by
  have hmagic : protocolMagic (bytes ++ more) = protocolMagic bytes := by
    unfold kProtocolHeaderSize at hlen
    rw [protocolMagic, List.take_append_of_le_length (by omega), protocolMagic]
  rw [validateProtocolHeader, hmagic, protocolBodySize_append hlen, validateProtocolHeader]

theorem acceptHeader_append : acceptHeader (bytes ++ more) = acceptHeader bytes := by
  rw [acceptHeader, validateProtocolHeader_append hlen, protocolBodySize_append hlen, acceptHeader]

end

theorem readBody_append {size : ℕ} (hlen : size ≤ bytes.length) (more : List UInt8) :
    readBody (bytes ++ more) size = readBody bytes size := by
  unfold readBody
  split_ifs with hshort
  · rfl
  · unfold kControlMsgTypeSize at hshort
    simp only [ctrlMsgOf, kCtrlMsgTypeSize]
    rw [List.take_append_of_le_length (by omega), List.drop_append_of_le_length (by omega),
      List.take_append_of_le_length (by rw [List.length_drop]; omega)]

def controlHeaded : Headed UInt8 CtrlMsg Status where
  headerSize := kProtocolHeaderSize
  headerSize_pos := by decide
  accept := acceptHeader
  accept_append := acceptHeader_append
  body := readBody
  body_append := readBody_append

def nextControlMsg (bytes : List UInt8) : Next CtrlMsg Status := controlHeaded.next bytes

def controlFraming : Framing UInt8 CtrlMsg Status := controlHeaded.framing

theorem acceptHeader_ok (hvalid : validateProtocolHeader bytes = .success) :
    acceptHeader bytes = .ok (protocolBodySize bytes) := by
  rw [acceptHeader, hvalid]

theorem acceptHeader_error {status : Status} (hvalid : validateProtocolHeader bytes = status)
    (hbad : status ≠ .success) : acceptHeader bytes = .error status := by
  rw [acceptHeader, hvalid]
  cases status with
  | success => exact absurd rfl hbad
  | _ => rfl

namespace RecvChannel

def window (c : RecvChannel) : RecvWindow UInt8 where
  buffer := c.recvBuffer
  count := c.bytesReceived
  expected := if c.recvState = .waitingForBody then some c.expectedBodySize else none

def maxBufferSize : ℕ := kProtocolHeaderSize + kMaxControlMsgBodySizeInBytes + kRecvChunkSize

/-- The channel holds `bytes` of the stream, from the start of a message. -/
structure Holds (c : RecvChannel) (bytes : List UInt8) : Prop
    extends c.window.Holds controlHeaded bytes where
  buffer_le : c.recvBuffer.length ≤ maxBufferSize

theorem Holds.start : Holds {} [] :=
  ⟨⟨le_rfl, fun _ => rfl, nofun⟩, Nat.zero_le _⟩

variable {c : RecvChannel}

theorem dropFront_spec {count : ℕ} (hle : c.bytesReceived ≤ c.recvBuffer.length)
    (hmax : c.recvBuffer.length ≤ maxBufferSize) (hcount : count ≤ c.bytesReceived) :
    ∃ next, c.dropFront count = some next ∧ next.bytesReceived ≤ next.recvBuffer.length ∧
      next.recvBuffer.length ≤ maxBufferSize ∧
      next.window.received = c.window.received.drop count := by
  unfold dropFront shiftRecvBuffer
  split_ifs with hlt hok
  · have hfits : count + (c.bytesReceived - count) ≤ c.recvBuffer.length := by omega
    refine ⟨_, rfl, ?_, ?_, (take_moveToFront hfits).trans List.drop_take.symm⟩
    · rw [length_moveToFront hfits]
      exact (Nat.sub_le _ _).trans hle
    · rwa [length_moveToFront hfits]
  · have hsecurec : maxBufferSize ≤ kSecurecMemMaxLen := by decide
    simp only [memmoveOk, Bool.and_eq_true, decide_eq_true_eq] at hok
    omega
  · refine ⟨_, rfl, Nat.zero_le _, hmax, ?_⟩
    have hempty : c.bytesReceived - count = 0 := by omega
    simp [RecvWindow.received, window, List.drop_take, hempty]

/-! ## An iteration of the loop -/

/-- The iteration takes the decision of the framing on the held bytes and runs
the handler of the message. -/
inductive Follows (env : ControlEnv) (bytes : List UInt8)
    (s : ControlState) : LoopStep → Prop where
  | more {next : RecvChannel}
      (hnext : nextControlMsg bytes = .more) (hholds : next.Holds bytes) :
      Follows env bytes s (.exit .success next s)
  | bad {status : Status} {next : RecvChannel}
      (hnext : nextControlMsg bytes = .bad status)
      (hstatus : status ≠ .success) :
      Follows env bytes s (.exit status next s)
  | fails {msg : CtrlMsg} {n : ℕ} {status : Status} {s' : ControlState}
      {next : RecvChannel} (hnext : nextControlMsg bytes = .frame msg n)
      (hhandle : env.handleMsg msg s = (status, s'))
      (hstatus : status ≠ .success) :
      Follows env bytes s (.exit status next s')
  | last {msg : CtrlMsg} {s' : ControlState} {next : RecvChannel}
      (hnext : nextControlMsg bytes = .frame msg bytes.length)
      (hhandle : env.handleMsg msg s = (.success, s'))
      (hholds : next.Holds []) :
      Follows env bytes s (.exit .success next s')
  | again {msg : CtrlMsg} {n : ℕ} {s' : ControlState} {next : RecvChannel}
      (hnext : nextControlMsg bytes = .frame msg n)
      (hhandle : env.handleMsg msg s = (.success, s'))
      (hholds : next.Holds (bytes.drop n)) :
      Follows env bytes s (.again next s')

variable {bytes : List UInt8} (hholds : c.Holds bytes) (env : ControlEnv) (s : ControlState)

include hholds

theorem bodyStep_follows (hstate : c.recvState = .waitingForBody) :
    Follows env bytes s (c.bodyStep env s) := by
  have hbody : c.window.expected = some c.expectedBodySize := if_pos hstate
  have hnext : nextControlMsg bytes = _ := hholds.next_of_body hbody
  simp only [window, controlHeaded, readBody] at hnext
  unfold bodyStep
  by_cases hshort : c.bytesReceived < c.expectedBodySize
  · simp only [hshort, if_true] at hnext ⊢
    exact Follows.more hnext hholds
  · simp only [hshort, if_false] at hnext ⊢
    unfold handleControlMessage
    by_cases htype : c.expectedBodySize < kControlMsgTypeSize
    · rw [if_pos htype] at hnext ⊢
      exact Follows.bad hnext (by decide)
    · rw [if_neg htype] at hnext ⊢
      rcases hhandle : env.handleMsg (ctrlMsgOf c.recvBuffer c.expectedBodySize) s with ⟨status, s'⟩
      obtain ⟨next, hdrop, hle, hmax, hreceived⟩ :=
        dropFront_spec hholds.count_le hholds.buffer_le (Nat.not_lt.mp hshort)
      have hrest : Holds { next with recvState := .waitingForHeader }
          (bytes.drop (kProtocolHeaderSize + c.expectedBodySize)) :=
        ⟨hholds.consumed hbody hle hreceived rfl, hmax⟩
      by_cases hstatus : status = .success
      · subst hstatus
        simp only [hdrop]
        split_ifs with hmore
        · exact Follows.again hnext hhandle hrest
        · have hall : bytes.length = kProtocolHeaderSize + c.expectedBodySize := by
            rw [hholds.length_eq hbody]
            change kProtocolHeaderSize + c.bytesReceived = _
            omega
          rw [← hall] at hnext hrest
          rw [List.drop_length] at hrest
          exact Follows.last hnext hhandle hrest
      · have hfails : Follows env bytes s (.exit status resetRecvState s') :=
          .fails hnext hhandle hstatus
        cases status with
        | success => exact absurd rfl hstatus
        | _ => exact hfails

theorem loopStep_follows : Follows env bytes s (c.loopStep env s) := by
  unfold loopStep
  cases hstate : c.recvState with
  | waitingForBody => exact bodyStep_follows hholds env s hstate
  | waitingForHeader =>
    have hheader : c.window.expected = none := if_neg (by simp [hstate])
    dsimp only
    split_ifs with hshort
    · exact Follows.more (hholds.next_of_short hheader hshort) hholds
    · have hfull : kProtocolHeaderSize ≤ c.bytesReceived := Nat.not_lt.mp hshort
      by_cases hvalid : validateProtocolHeader c.recvBuffer = .success
      · obtain ⟨body, hdrop, hle, hmax, hreceived⟩ := dropFront_spec (c := { c with
          expectedBodySize := protocolBodySize c.recvBuffer
          recvState := .waitingForBody }) hholds.count_le hholds.buffer_le hfull
        obtain ⟨-, hbodyState, hsize⟩ := dropFront_eq_some hdrop
        simp only [hvalid]
        rw [hdrop]
        refine bodyStep_follows ⟨?_, hmax⟩ env s hbodyState
        exact hholds.accepted hheader hfull (acceptHeader_ok hvalid) hle hreceived
          ((if_pos hbodyState).trans (congrArg some hsize))
      · have hbad : nextControlMsg bytes = .bad (validateProtocolHeader c.recvBuffer) :=
          hholds.next_of_rejected hheader hfull (acceptHeader_error rfl hvalid)
        have hfollows : Follows env bytes s (.exit _ resetRecvState s) := .bad hbad hvalid
        cases hstatus : validateProtocolHeader c.recvBuffer with
        | success => exact absurd hstatus hvalid
        | _ => rwa [hstatus] at hfollows

/-! ## The loop, a read and a whole stream -/

end RecvChannel

def ControlEnv.handler (env : ControlEnv) (s : ControlState)
    (msg : CtrlMsg) : ControlState × Option Status :=
  let result := env.handleMsg msg s
  (result.2, if result.1 = .success then none else some result.1)

namespace ControlEnv

variable {env : ControlEnv} {s s' : ControlState} {msg : CtrlMsg}

theorem handler_success (hhandle : env.handleMsg msg s = (.success, s')) :
    env.handler s msg = (s', none) := by
  simp [handler, hhandle]

theorem handler_fails {status : Status} (hhandle : env.handleMsg msg s = (status, s'))
    (hstatus : status ≠ .success) : env.handler s msg = (s', some status) := by
  simp [handler, hhandle, hstatus]

end ControlEnv

namespace RecvChannel

theorem decode_nil : decode controlFraming [] = ⟨[], none, []⟩ := by
  apply decode_more
  rfl

variable {bytes : List UInt8}

theorem handled_frame {msg : CtrlMsg} {n : ℕ} (hnext : controlFraming.next bytes = .frame msg n)
    (env : ControlEnv) (s : ControlState) : (decode controlFraming bytes).handled env.handler s =
      match env.handler s msg with
      | (s', some status) => (s', some status)
      | (s', none) => (decode controlFraming (bytes.drop n)).handled env.handler s' := by
  rw [decode_frame hnext]
  simp only [Decoded.handled, handleAll]
  rcases env.handler s msg with ⟨s', error⟩
  cases error with
  | some status => rfl
  | none => rfl

variable {c : RecvChannel}

theorem processReceivedData_decode (hholds : c.Holds bytes) (env : ControlEnv) (s : ControlState) :
    ∃ next, c.processReceivedData env s =
        (((decode controlFraming bytes).handled env.handler s).2.getD .success, next,
          ((decode controlFraming bytes).handled env.handler s).1) ∧
      ((decode controlFraming bytes).handled env.handler s).2 ≠ some .success ∧
      (((decode controlFraming bytes).handled env.handler s).2 = none →
        next.Holds (decode controlFraming bytes).rest) := by
  -- on the number of held bytes; each frame is one iteration
  induction hlen : bytes.length using Nat.strong_induction_on generalizing bytes c s with
  | h k ih =>
    have hfollows := loopStep_follows hholds env s
    generalize hstep : c.loopStep env s = step at hfollows
    cases hfollows with
    | more hnext hrest =>
      rw [decode_more hnext]
      exact ⟨_, processReceivedData_exit hstep, by simp [Decoded.handled, handleAll],
        fun _ => hrest⟩
    | bad hnext hstatus =>
      rw [decode_bad hnext]
      exact ⟨_, processReceivedData_exit hstep, by simpa [Decoded.handled, handleAll] using hstatus,
        fun h => absurd h (by simp [Decoded.handled, handleAll])⟩
    | fails hnext hhandle hstatus =>
      rw [handled_frame hnext, ControlEnv.handler_fails hhandle hstatus]
      exact ⟨_, processReceivedData_exit hstep, by simpa using hstatus, fun h => absurd h (by simp)⟩
    | last hnext hhandle hrest =>
      rw [handled_frame hnext, ControlEnv.handler_success hhandle,
        congrArg Decoded.rest (decode_frame hnext), List.drop_length, decode_nil]
      exact ⟨_, processReceivedData_exit hstep, by simp [Decoded.handled, handleAll],
        fun _ => hrest⟩
    | again hnext hhandle hrest =>
      have hn := controlFraming.frame_length hnext
      rw [handled_frame hnext, ControlEnv.handler_success hhandle,
        congrArg Decoded.rest (decode_frame hnext), processReceivedData_again hstep]
      exact ih _ (by rw [List.length_drop]; omega) hrest _ rfl

section

variable (hholds : c.Holds bytes) (hmore : nextControlMsg bytes = .more)

include hholds hmore

theorem Holds.bytesReceived_lt :
    c.bytesReceived < kProtocolHeaderSize + kMaxControlMsgBodySizeInBytes := by
  have hlt : bytes.length < kProtocolHeaderSize + kMaxControlMsgBodySizeInBytes := by
    apply controlHeaded.length_lt_of_more hmore
    intro size haccept
    by_cases hvalid : validateProtocolHeader bytes = .success
    · have hsize : acceptHeader bytes = .ok size := haccept
      rw [acceptHeader_ok hvalid, Except.ok.injEq] at hsize
      rw [← hsize]
      unfold validateProtocolHeader at hvalid
      split_ifs at hvalid with hmagic hmax
      exact Nat.not_lt.mp hmax
    · have hsize : acceptHeader bytes = .ok size := haccept
      simp [acceptHeader_error rfl hvalid] at hsize
  cases hexpected : c.window.expected with
  | none =>
    rwa [hholds.header hexpected, RecvWindow.length_received hholds.count_le] at hlt
  | some size =>
    rw [hholds.length_eq hexpected] at hlt
    exact (Nat.le_add_left _ _).trans_lt hlt

theorem Holds.growBuffer : c.growBuffer.Holds bytes := by
  have hlt := hholds.bytesReceived_lt hmore
  unfold RecvChannel.growBuffer
  split_ifs with hgrow
  · rw [← List.append_nil bytes]
    refine ⟨hholds.append ?_ ?_ ?_, ?_⟩
    · exact hholds.count_le.trans (by simp [window])
    · rfl
    · rw [List.append_nil]
      exact List.take_append_of_le_length hholds.count_le
    · rw [List.length_append, List.length_replicate, maxBufferSize]
      omega
  · exact hholds

end

variable {chunk : List UInt8}

theorem Holds.write (hholds : c.Holds bytes)
    (hfits : c.bytesReceived + chunk.length ≤ c.recvBuffer.length) : Holds
      { c with
        recvBuffer := writeAt c.recvBuffer c.bytesReceived chunk
        bytesReceived := c.bytesReceived + chunk.length }
      (bytes ++ chunk) := by
  have hlen := length_writeAt c.recvBuffer hholds.count_le chunk
  refine ⟨hholds.append ?_ ?_ ?_, ?_⟩
  · exact hlen.symm ▸ Nat.le_max_right _ _
  · rfl
  · exact take_writeAt hholds.count_le chunk
  · exact (hlen.trans (Nat.max_eq_left hfits)).trans_le hholds.buffer_le

theorem handleReadEvent_decode (hholds : c.Holds bytes) (hmore : nextControlMsg bytes = .more)
    (hchunk : chunk ≠ []) (hfits : c.fits chunk = true) (env : ControlEnv) (s : ControlState) :
    ∃ next, c.handleReadEvent env (.bytes chunk) s =
        (((decode controlFraming (bytes ++ chunk)).handled env.handler s).2.getD .success, next,
          ((decode controlFraming (bytes ++ chunk)).handled env.handler s).1) ∧
      ((decode controlFraming (bytes ++ chunk)).handled env.handler s).2 ≠ some .success ∧
      (((decode controlFraming (bytes ++ chunk)).handled env.handler s).2 = none →
        next.Holds (decode controlFraming (bytes ++ chunk)).rest) := by
  cases chunk with
  | nil => exact absurd rfl hchunk
  | cons b chunk =>
    apply processReceivedData_decode
    apply (hholds.growBuffer hmore).write
    simpa [fits] using hfits

variable {chunks : List (List UInt8)}

theorem handleReadEvents_eq_feedHandled {rest : List UInt8} (hholds : c.Holds rest)
    (hmore : controlFraming.next rest = .more) {env : ControlEnv} {s : ControlState}
    (hchunks : [] ∉ chunks) (hfits : (c.handleReadEvents env s chunks).isSome = true) :
    c.handleReadEvents env s chunks =
      some (feedHandled controlFraming env.handler s rest chunks) := by
  induction chunks generalizing c s rest with
  | nil => rfl
  | cons chunk chunks ih =>
    have hne : chunk ≠ [] := by
      intro h
      exact hchunks (by rw [h]; exact List.mem_cons_self)
    have htail : [] ∉ chunks := fun h => hchunks (List.mem_cons_of_mem chunk h)
    by_cases hfit : c.fits chunk = true
    · obtain ⟨next, hread, hstatus, hnext⟩ := handleReadEvent_decode hholds hmore hne hfit env s
      rcases hhandled : (decode controlFraming (rest ++ chunk)).handled
        env.handler s with ⟨s', error⟩
      rw [hhandled] at hread hstatus hnext
      simp only [handleReadEvents, hfit, if_true, hread] at hfits ⊢
      simp only [feedHandled, hhandled]
      cases error with
      | none =>
        have hstuck := next_rest (F := controlFraming) (rest ++ chunk)
        have herror :
            (decode controlFraming (rest ++ chunk)).error = none := by
          unfold Decoded.handled at hhandled
          split at hhandled
          · simp at hhandled
          · exact (Prod.mk.inj hhandled).2
        rw [herror] at hstuck
        exact ih (hnext rfl) hstuck htail hfits
      | some status =>
        cases status with
        | success => exact absurd rfl hstatus
        | _ => rfl
    · simp [handleReadEvents, hfit] at hfits

theorem fits_of_length_le (hlen : chunk.length ≤ kRecvChunkSize) : c.fits chunk = true := by
  unfold fits growBuffer
  rw [decide_eq_true_eq]
  split_ifs with hgrow
  · simp only [List.length_append, List.length_replicate]
    omega
  · omega

theorem handleReadEvents_isSome (env : ControlEnv)
    (hlen : ∀ chunk ∈ chunks, chunk.length ≤ kRecvChunkSize) (c : RecvChannel) (s : ControlState) :
    (c.handleReadEvents env s chunks).isSome = true := by
  induction chunks generalizing c s with
  | nil => rfl
  | cons chunk chunks ih =>
    have hfit := fits_of_length_le (c := c) (hlen chunk List.mem_cons_self)
    simp only [handleReadEvents, hfit, if_true]
    rcases c.handleReadEvent env (.bytes chunk) s with ⟨status, next, s'⟩
    cases status with
    | success =>
      apply ih
      intro other hother
      exact hlen other (List.mem_cons_of_mem chunk hother)
    | _ => rfl

end RecvChannel

/-! ## The dispatched messages -/

variable {s : ControlState}

theorem dispatched_withPayload {τ : Type} {deserialize : List UInt8 → Option τ}
    {msgStr : List UInt8} {handle : τ → Status × ControlState}
    (hhandle : ∀ msg, (handle msg).2.dispatched = s.dispatched) :
    (withPayload deserialize msgStr s handle).2.dispatched = s.dispatched := by
  unfold withPayload
  cases deserialize (cStr msgStr) with
  | none => rfl
  | some msg => exact hhandle msg

namespace ControlEnv

variable {env : ControlEnv} {s s' : ControlState}

theorem dispatched_answerDisconnect
    (transferCount : ℤ) (msg : RequestDisconnectMsg) (s : ControlState) :
    (env.answerDisconnect transferCount msg s).2.dispatched = s.dispatched := by
  have hcallback :
      (env.disconnectCallback msg.timeout s).2.dispatched =
        s.dispatched := by
    unfold disconnectCallback
    split_ifs
    all_goals rfl
  unfold answerDisconnect
  split_ifs
  · rfl
  · rfl
  · rcases henv : env.disconnectCallback msg.timeout s with ⟨ret, s₁⟩
    rw [henv] at hcallback
    cases ret with
    | zero | succ => exact hcallback
  · rfl

theorem dispatched_dispatch (msg : CtrlMsg) (transferCount : ℤ) (s : ControlState) :
    (env.dispatch msg transferCount s).2.dispatched = s.dispatched := by
  unfold dispatch
  cases ControlMsgType.ofNumber msg.msgType with
  | none => rfl
  | some type =>
    cases type with
    | heartBeat => rfl
    | bufferReq | bufferResp | requestDisconnectResp | notify | notifyAck =>
      apply dispatched_withPayload
      intro payload
      split_ifs
      all_goals rfl
    | requestDisconnect =>
      apply dispatched_withPayload
      intro req
      split_ifs
      · exact dispatched_answerDisconnect transferCount req s
      · rfl

theorem dispatched_handleMsg (msg : CtrlMsg) (s : ControlState) :
    (env.handleMsg msg s).2.dispatched = s.dispatched ++ [msg] :=
  dispatched_dispatch _ _ _

theorem dispatched_handleAll {msgs : List CtrlMsg}
    (hall : handleAll env.handler s msgs = (s', none)) : s'.dispatched = s.dispatched ++ msgs := by
  induction msgs generalizing s with
  | nil => rw [← (Prod.mk.inj hall).1, List.append_nil]
  | cons msg msgs ih =>
    rcases hstep : env.handler s msg with ⟨s₁, error⟩
    simp only [handleAll, hstep] at hall
    cases error with
    | some status => simp at hall
    | none =>
      have hfirst : s₁.dispatched = s.dispatched ++ [msg] := by
        rw [← (Prod.mk.inj hstep).1]
        exact dispatched_handleMsg msg s
      rw [ih hall, hfirst, List.append_assoc, List.singleton_append]

end ControlEnv

/-- How a stream ends, after the messages `msgs`: the rest is incomplete, the
rest is rejected, or the handler of the last message fails. -/
inductive StreamEnd (env : ControlEnv) (s : ControlState)
    (msgs : List CtrlMsg) (rest : List UInt8) :
    ControlState → Option Status → Prop where
  | waiting {s' : ControlState}
      (hall : handleAll env.handler s msgs = (s', none))
      (hrest : nextControlMsg rest = .more) :
      StreamEnd env s msgs rest s' none
  | rejected {s' : ControlState} {status : Status}
      (hall : handleAll env.handler s msgs = (s', none))
      (hrest : nextControlMsg rest = .bad status) :
      StreamEnd env s msgs rest s' (some status)
  | failed {before : List CtrlMsg} {msg : CtrlMsg} {mid s' : ControlState}
      {status : Status} (hmsgs : msgs = before ++ [msg])
      (hall : handleAll env.handler s before = (mid, none))
      (hfail : env.handler mid msg = (s', some status)) :
      StreamEnd env s msgs rest s' (some status)

theorem StreamEnd.dispatched {env : ControlEnv} {s' : ControlState} {msgs : List CtrlMsg}
    {rest : List UInt8} {error : Option Status} (hend : StreamEnd env s msgs rest s' error) :
    s'.dispatched = s.dispatched ++ msgs := by
  cases hend with
  | waiting hall | rejected hall => exact ControlEnv.dispatched_handleAll hall
  | @failed before msg mid _ status hmsgs hall hfail =>
    have hlast : s'.dispatched = mid.dispatched ++ [msg] := by
      rw [← (Prod.mk.inj hfail).1]
      exact ControlEnv.dispatched_handleMsg msg mid
    rw [hlast, ControlEnv.dispatched_handleAll hall, hmsgs, List.append_assoc]

theorem handled_frames (env : ControlEnv) (s : ControlState) (stream : List UInt8) :
    ∃ (frames : List (List UInt8)) (msgs : List CtrlMsg) (rest : List UInt8),
      stream = frames.flatten ++ rest ∧
      List.Forall₂ (fun f msg => nextControlMsg f = .frame msg f.length) frames msgs ∧
      StreamEnd env s msgs rest ((decode controlFraming stream).handled env.handler s).1
        ((decode controlFraming stream).handled env.handler s).2 := by
  obtain ⟨frames, hflat, hframes⟩ := decode_spec (F := controlFraming) stream
  have hrest := next_rest (F := controlFraming) stream
  rcases hall : handleAll env.handler s (decode controlFraming stream).msgs with ⟨s', error⟩
  cases error with
  | none =>
    refine ⟨frames, _, _, hflat, hframes, ?_⟩
    simp only [Decoded.handled, hall]
    cases herror : (decode controlFraming stream).error with
    | none =>
      rw [herror] at hrest
      exact StreamEnd.waiting hall hrest
    | some status =>
      rw [herror] at hrest
      exact StreamEnd.rejected hall hrest
  | some status =>
    -- the frames behind the message whose handler fails belong to the rest
    obtain ⟨before, msg, after, mid, hmsgs, hbefore, hfail⟩ := handleAll_eq_some hall
    rw [hmsgs, ← List.singleton_append, ← List.append_assoc] at hframes
    have hfirst := List.forall₂_take_append _ _ _ hframes
    refine ⟨_, before ++ [msg], (frames.drop (before ++ [msg]).length).flatten ++
        (decode controlFraming stream).rest, ?_, hfirst, ?_⟩
    · rwa [← List.append_assoc, ← List.flatten_append, List.take_append_drop]
    · simp only [Decoded.handled, hall]
      exact StreamEnd.failed rfl hbefore hfail

open RecvChannel

/-- Two ways to split a stream into reads dispatch the same messages and reach
the same first error.  The dispatched messages are those of the complete
frames at the start of the stream, each once and in order. -/
theorem controlMsgs_chunking_independent (env : ControlEnv) (s : ControlState) (stream : List UInt8)
    (chunks chunks' : List (List UInt8)) (hstream : chunks.flatten = stream) (hchunks : [] ∉ chunks)
    (hfits : (handleReadEvents env {} s chunks).isSome = true) (hstream' : chunks'.flatten = stream)
    (hchunks' : [] ∉ chunks') (hfits' : (handleReadEvents env {} s chunks').isSome = true) :
    handleReadEvents env {} s chunks = handleReadEvents env {} s chunks' ∧
      ∃ (s' : ControlState) (error : Option Status)
        (frames : List (List UInt8)) (msgs : List CtrlMsg) (rest : List UInt8),
        handleReadEvents env {} s chunks = some (s', error) ∧ s'.dispatched = s.dispatched ++ msgs ∧
        stream = frames.flatten ++ rest ∧
        List.Forall₂ (fun f msg => nextControlMsg f = .frame msg f.length) frames msgs ∧
        StreamEnd env s msgs rest s' error := by
  have hdecode : ∀ pieces : List (List UInt8), pieces.flatten = stream →
      [] ∉ pieces → (handleReadEvents env {} s pieces).isSome = true →
      handleReadEvents env {} s pieces =
        some ((decode controlFraming stream).handled env.handler s) := by
    intro pieces hflat hpieces hsome
    rw [handleReadEvents_eq_feedHandled Holds.start rfl hpieces hsome,
      feedHandled_eq (by rfl), List.nil_append, hflat]
  have hfirst := hdecode chunks hstream hchunks hfits
  have hsecond := hdecode chunks' hstream' hchunks' hfits'
  obtain ⟨frames, msgs, rest, hflat, hframes, hend⟩ := handled_frames env s stream
  constructor
  · rw [hfirst, hsecond]
  · exact ⟨_, _, frames, msgs, rest, hfirst, hend.dispatched, hflat, hframes, hend⟩

def bareControlEnv : ControlEnv where
  codec :=
    { bufferReq := fun _ => none
      bufferResp := fun _ => none
      notify := fun _ => none
      notifyAck := fun _ => none
      requestDisconnect := fun _ => none
      requestDisconnectResp := fun _ => none }
  channelId := "127.0.0.1:28101"
  isClient := true
  hasBufferTransferService := false
  hasNotifyAckCallback := false
  hasDisconnectCallback := false
  hasDisconnectResponseCallback := false
  others := fun _ => ⟨false, 0⟩

/-- A heartbeat, cut inside of the header. -/
theorem controlMsgs_heartbeat_cut : handleReadEvents bareControlEnv {} {}
        [[0xD4, 0xC3, 0xB2, 0xA1, 0], [0, 0, 0, 4, 0, 0, 0, 0, 0, 0, 0, 1, 0, 0, 0]] =
      handleReadEvents bareControlEnv {} {}
        [[0xD4, 0xC3, 0xB2, 0xA1, 0, 0, 0, 0, 4, 0, 0, 0, 0, 0, 0, 0, 1, 0, 0, 0]] :=
  (controlMsgs_chunking_independent bareControlEnv {} _
    [[0xD4, 0xC3, 0xB2, 0xA1, 0], [0, 0, 0, 4, 0, 0, 0, 0, 0, 0, 0, 1, 0, 0, 0]]
    [[0xD4, 0xC3, 0xB2, 0xA1, 0, 0, 0, 0, 4, 0, 0, 0, 0, 0, 0, 0, 1, 0, 0, 0]]
    rfl (by decide) (handleReadEvents_isSome _ (by decide) _ _)
    rfl (by decide) (handleReadEvents_isSome _ (by decide) _ _)).1

end Hixl.Adxl
