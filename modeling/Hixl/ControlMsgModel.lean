import Hixl.BufferTransferModel
import Hixl.MsgReceiverModel

/-!
# Control messages of a channel

The receiver thread of `ChannelManager` reads the control connection of a
channel into `recv_buffer_`, cuts the bytes into messages and hands each to its
handler.  A message is a `ProtocolHeader` (a 32-bit magic number and, at offset
8, a 64-bit body size), a 32-bit message type and a payload in JSON.

The codec of the payloads is a parameter.  What other threads do to the channel
between two messages is given by the number of the message.
-/

namespace Hixl.Adxl

def kRecvChunkSize : ℕ := 4096

def kMaxControlMsgBodySizeInBytes : ℕ := 4 * 1024 * 1024

def kMaxNotifyStorageSize : ℕ := 4096

def kMagicNumber : ℕ := 0xA1B2C3D4

def kProtocolHeaderSize : ℕ := 16

def kControlMsgTypeSize : ℕ := 4

/-- The largest size that `memmove_s` accepts. -/
def kSecurecMemMaxLen : ℕ := 2 ^ 31 - 1

def kInt32Max : ℕ := 2 ^ 31 - 1

def kNotConnected : ℕ := 103902

inductive ControlMsgType where
  | heartBeat
  | bufferReq
  | bufferResp
  | notify
  | notifyAck
  | requestDisconnect
  | requestDisconnectResp
  deriving DecidableEq, Repr

def ControlMsgType.ofNumber : ℕ → Option ControlMsgType
  | 1 => some .heartBeat
  | 2 => some .bufferReq
  | 3 => some .bufferResp
  | 4 => some .notify
  | 5 => some .notifyAck
  | 6 => some .requestDisconnect
  | 7 => some .requestDisconnectResp
  | _ => none

structure NotifyMsg where
  reqId : ℕ
  name : String
  notifyMsg : String
  deriving DecidableEq, Repr

structure RequestDisconnectMsg where
  channelId : String
  timeout : ℕ
  reqId : ℕ
  deriving DecidableEq, Repr

structure RequestDisconnectResp where
  channelId : String
  reqId : ℕ
  canDisconnect : Bool
  disconnected : Bool
  errorCode : ℕ
  errorMessage : String
  deriving DecidableEq, Repr

/-- `ControlMsgHandler::Deserialize` for each kind of payload. -/
structure ControlCodec where
  bufferReq : List UInt8 → Option BufferReq
  bufferResp : List UInt8 → Option BufferResp
  notify : List UInt8 → Option NotifyMsg
  notifyAck : List UInt8 → Option ℕ
  requestDisconnect : List UInt8 → Option RequestDisconnectMsg
  requestDisconnectResp : List UInt8 → Option RequestDisconnectResp

structure OtherThreads where
  notifiesTaken : Bool
  transferCount : ℤ

structure ControlEnv where
  codec : ControlCodec
  channelId : String
  isClient : Bool
  hasBufferTransferService : Bool
  hasNotifyAckCallback : Bool
  hasDisconnectCallback : Bool
  hasDisconnectResponseCallback : Bool
  others : ℕ → OtherThreads

/-- What the handlers change.  `dispatched` are the messages that have been
handed to the handlers. -/
structure ControlState where
  dispatched : List CtrlMsg := []
  heartbeats : ℕ := 0
  bufferReqs : List BufferReq := []
  bufferResps : List BufferResp := []
  notifyMessages : List NotifyMsg := []
  ackQueue : List ℕ := []
  notifyAcks : List ℕ := []
  evictTimeouts : List ℕ := []
  disconnecting : Bool := false
  sentResps : List RequestDisconnectResp := []
  disconnectResps : List RequestDisconnectResp := []
  deriving DecidableEq, Repr

/-- `msg_str.c_str()` ends at the first zero byte. -/
def cStr (msgStr : List UInt8) : List UInt8 := msgStr.takeWhile (· ≠ 0)

def withPayload {τ : Type} (deserialize : List UInt8 → Option τ)
    (msgStr : List UInt8) (s : ControlState)
    (handle : τ → Status × ControlState) : Status × ControlState :=
  match deserialize (cStr msgStr) with
  | none => (.paramInvalid, s)
  | some msg => handle msg

namespace ControlEnv

variable (env : ControlEnv)

def handleHeartBeatMessage (s : ControlState) : Status × ControlState :=
  (.success, { s with heartbeats := s.heartbeats + 1 })

def handleBufferReqMessage (msgStr : List UInt8) (s : ControlState) : Status × ControlState :=
  withPayload env.codec.bufferReq msgStr s fun req =>
    (.success, if env.hasBufferTransferService then
      { s with bufferReqs := s.bufferReqs ++ [req] } else s)

def handleBufferRespMessage (msgStr : List UInt8) (s : ControlState) : Status × ControlState :=
  withPayload env.codec.bufferResp msgStr s fun resp =>
    (.success, if env.hasBufferTransferService then
      { s with bufferResps := s.bufferResps ++ [resp] } else s)

def handleNotifyMessage (msgStr : List UInt8) (s : ControlState) : Status × ControlState :=
  withPayload env.codec.notify msgStr s fun msg =>
    if s.notifyMessages.length < kMaxNotifyStorageSize then
      (.success, { s with
        notifyMessages := s.notifyMessages ++ [msg]
        ackQueue := s.ackQueue ++ [msg.reqId] })
    else (.failed, s)

def handleNotifyAckMessage (msgStr : List UInt8) (s : ControlState) : Status × ControlState :=
  withPayload env.codec.notifyAck msgStr s fun reqId =>
    (.success, if env.hasNotifyAckCallback then
      { s with notifyAcks := s.notifyAcks ++ [reqId] } else s)

/-- The disconnect callback of `ChannelMsgHandler`: the eviction of a client
channel is queued. -/
def disconnectCallback (timeout : ℕ) (s : ControlState) : ℕ × ControlState :=
  if env.isClient then
    (Status.success.code, { s with
      disconnecting := true
      evictTimeouts := s.evictTimeouts ++ [timeout] })
  else (kNotConnected, s)

/-- The answer to a request to disconnect, and what it does to the channel. -/
def answerDisconnect (transferCount : ℤ) (msg : RequestDisconnectMsg)
    (s : ControlState) : RequestDisconnectResp × ControlState :=
  let resp : RequestDisconnectResp :=
    { channelId := msg.channelId
      reqId := msg.reqId
      canDisconnect := false
      disconnected := false
      errorCode := 0
      errorMessage := "" }
  if msg.channelId ≠ env.channelId then
    ({ resp with
      errorCode := Status.paramInvalid.code
      errorMessage := "Requested channel id does not match the receiving channel" }, s)
  else if transferCount ≠ 0 then
    ({ resp with
      errorCode := Status.failed.code
      errorMessage := "Channel is busy" }, s)
  else
    let resp := { resp with canDisconnect := true }
    if env.hasDisconnectCallback then
      match env.disconnectCallback msg.timeout s with
      | (0, s) => (resp, s)
      | (ret, s) =>
        ({ resp with
          errorCode := ret
          errorMessage := "Disconnect failed" }, s)
    else
      ({ resp with
        errorCode := Status.failed.code
        errorMessage := "Disconnect callback not set" }, s)

def handleRequestDisconnectMessage (transferCount : ℤ)
    (msgStr : List UInt8) (s : ControlState) : Status × ControlState :=
  withPayload env.codec.requestDisconnect msgStr s fun msg =>
    if msg.timeout ≤ kInt32Max then
      let answer := env.answerDisconnect transferCount msg s
      (.success, { answer.2 with
        sentResps := answer.2.sentResps ++ [answer.1] })
    else (.paramInvalid, s)

def handleRequestDisconnectRespMessage (msgStr : List UInt8)
    (s : ControlState) : Status × ControlState :=
  withPayload env.codec.requestDisconnectResp msgStr s fun resp =>
    (.success, if env.hasDisconnectResponseCallback then
      { s with disconnectResps := s.disconnectResps ++ [resp] } else s)

def dispatch (msg : CtrlMsg) (transferCount : ℤ) (s : ControlState) : Status × ControlState :=
  match ControlMsgType.ofNumber msg.msgType with
  | some .heartBeat => handleHeartBeatMessage s
  | some .bufferReq => env.handleBufferReqMessage msg.msg s
  | some .bufferResp => env.handleBufferRespMessage msg.msg s
  | some .notify => env.handleNotifyMessage msg.msg s
  | some .notifyAck => env.handleNotifyAckMessage msg.msg s
  | some .requestDisconnect => env.handleRequestDisconnectMessage transferCount msg.msg s
  | some .requestDisconnectResp => env.handleRequestDisconnectRespMessage msg.msg s
  | none => (.success, s)

def handleMsg (msg : CtrlMsg) (s : ControlState) : Status × ControlState :=
  let others := env.others s.dispatched.length
  env.dispatch msg others.transferCount { s with
    dispatched := s.dispatched ++ [msg]
    notifyMessages := if others.notifiesTaken then [] else s.notifyMessages }

end ControlEnv

/-! ## The receive buffer -/

def protocolMagic (bytes : List UInt8) : ℕ := littleEndian (bytes.take 4)

def protocolBodySize (bytes : List UInt8) : ℕ := littleEndian ((bytes.drop 8).take 8)

def validateProtocolHeader (bytes : List UInt8) : Status :=
  if protocolMagic bytes ≠ kMagicNumber then .failed
  else if kMaxControlMsgBodySizeInBytes < protocolBodySize bytes then .failed
  else .success

structure RecvChannel where
  recvState : RecvState := .waitingForHeader
  recvBuffer : List UInt8 := []
  expectedBodySize : ℕ := 0
  bytesReceived : ℕ := 0
  deriving DecidableEq, Repr

namespace RecvChannel

def resetRecvState : RecvChannel := {}

/-- `memmove_s` refuses a target that is empty, too large, or smaller than the
bytes to be moved. -/
def memmoveOk (dstMax count : ℕ) : Bool :=
  0 < dstMax && dstMax ≤ kSecurecMemMaxLen && count ≤ dstMax

/-- No value when `memmove_s` fails; the caller then resets the channel. -/
def shiftRecvBuffer (srcOffset remaining : ℕ) (c : RecvChannel) : Option RecvChannel :=
  if memmoveOk c.recvBuffer.length remaining then
    some { c with
      recvBuffer := moveToFront c.recvBuffer srcOffset remaining
      bytesReceived := remaining }
  else none

def dropFront (count : ℕ) (c : RecvChannel) : Option RecvChannel :=
  if count < c.bytesReceived then
    c.shiftRecvBuffer count (c.bytesReceived - count)
  else some { c with bytesReceived := 0 }

def handleControlMessage (env : ControlEnv) (c : RecvChannel)
    (s : ControlState) : Status × ControlState :=
  if c.expectedBodySize < kControlMsgTypeSize then (.failed, s)
  else env.handleMsg (ctrlMsgOf c.recvBuffer c.expectedBodySize) s

/-- How an iteration of the loop of `ProcessReceivedData` ends. -/
inductive LoopStep where
  | exit (status : Status) (c : RecvChannel) (s : ControlState)
  | again (c : RecvChannel) (s : ControlState)

/-- The part of an iteration that runs in the state `WAITING_FOR_BODY`. -/
def bodyStep (env : ControlEnv) (c : RecvChannel) (s : ControlState) : LoopStep :=
  if c.bytesReceived < c.expectedBodySize then .exit .success c s
  else
    match c.handleControlMessage env s with
    | (.success, s) =>
      match c.dropFront c.expectedBodySize with
      | none => .exit .failed resetRecvState s
      | some next =>
        let next := { next with recvState := .waitingForHeader }
        if c.expectedBodySize < c.bytesReceived then .again next s
        else .exit .success next s
    | (status, s) => .exit status resetRecvState s

def loopStep (env : ControlEnv) (c : RecvChannel) (s : ControlState) : LoopStep :=
  match c.recvState with
  | .waitingForHeader =>
    if c.bytesReceived < kProtocolHeaderSize then .exit .success c s
    else
      match validateProtocolHeader c.recvBuffer with
      | .success =>
        match dropFront kProtocolHeaderSize { c with
            expectedBodySize := protocolBodySize c.recvBuffer
            recvState := .waitingForBody } with
        | none => .exit .failed resetRecvState s
        | some c => c.bodyStep env s
      | status => .exit status resetRecvState s
  | .waitingForBody => c.bodyStep env s

def loopMeasure (c : RecvChannel) : ℕ :=
  2 * c.bytesReceived + if c.recvState = .waitingForBody then 1 else 0

variable {c next : RecvChannel}

theorem dropFront_eq_some {count : ℕ} (hdrop : c.dropFront count = some next) :
    next.bytesReceived = c.bytesReceived - count ∧ next.recvState = c.recvState ∧
      next.expectedBodySize = c.expectedBodySize := by
  unfold dropFront shiftRecvBuffer at hdrop
  split_ifs at hdrop with hlt hok
  · simp only [Option.some.injEq] at hdrop
    rw [← hdrop]
    exact ⟨rfl, rfl, rfl⟩
  · simp only [Option.some.injEq] at hdrop
    rw [← hdrop]
    exact ⟨by dsimp only; omega, rfl, rfl⟩

variable {env : ControlEnv} {s s' : ControlState}

theorem bodyStep_again (hagain : c.bodyStep env s = .again next s') :
    next.bytesReceived ≤ c.bytesReceived ∧ next.recvState = .waitingForHeader := by
  unfold bodyStep at hagain
  by_cases hshort : c.bytesReceived < c.expectedBodySize
  · simp [hshort] at hagain
  · rw [if_neg hshort] at hagain
    cases hhandle : c.handleControlMessage env s with
    | mk status s₁ =>
      rw [hhandle] at hagain
      cases status with
      | success =>
        cases hdrop : c.dropFront c.expectedBodySize with
        | none => simp [hdrop] at hagain
        | some c₁ =>
          have hspec := dropFront_eq_some hdrop
          simp only [hdrop] at hagain
          split_ifs at hagain with hmore
          simp only [LoopStep.again.injEq] at hagain
          rw [← hagain.1]
          exact ⟨by dsimp only; omega, rfl⟩
      | _ => simp at hagain

theorem loopStep_measure_lt (hagain : c.loopStep env s = .again next s') :
    next.loopMeasure < c.loopMeasure := by
  unfold loopStep at hagain
  cases hstate : c.recvState with
  | waitingForBody =>
    rw [hstate] at hagain
    have hnext := bodyStep_again hagain
    simp only [loopMeasure, hstate, hnext.2]
    simp
    omega
  | waitingForHeader =>
    simp only [hstate] at hagain
    split_ifs at hagain with hshort
    cases hvalid : validateProtocolHeader c.recvBuffer with
    | success =>
      simp only [hvalid] at hagain
      split at hagain
      · simp at hagain
      · rename_i c₁ hdrop
        have hspec := dropFront_eq_some hdrop
        have hnext := bodyStep_again hagain
        have hpos : 0 < kProtocolHeaderSize := by decide
        simp only [loopMeasure, hstate, hnext.2]
        simp
        dsimp only at hspec
        omega
    | _ => simp [hvalid] at hagain

def processReceivedData (env : ControlEnv) (c : RecvChannel)
    (s : ControlState) : Status × RecvChannel × ControlState :=
  match _hstep : c.loopStep env s with
  | .exit status c s => (status, c, s)
  | .again c s => processReceivedData env c s
  termination_by c.loopMeasure
  decreasing_by exact loopStep_measure_lt _hstep

theorem processReceivedData_exit {status : Status}
    (hstep : c.loopStep env s = .exit status next s') :
    c.processReceivedData env s = (status, next, s') := by
  rw [processReceivedData]
  split <;> simp_all

theorem processReceivedData_again (hstep : c.loopStep env s = .again next s') :
    c.processReceivedData env s = next.processReceivedData env s' := by
  rw [processReceivedData]
  split <;> simp_all

def growBuffer (c : RecvChannel) : RecvChannel :=
  if c.recvBuffer.length < c.bytesReceived + kRecvChunkSize then
    { c with
      recvBuffer := c.recvBuffer ++ List.replicate
        (c.bytesReceived + kRecvChunkSize - c.recvBuffer.length) 0 }
  else c

/-- A read delivers no more bytes than the buffer has room for. -/
def fits (c : RecvChannel) (chunk : List UInt8) : Bool :=
  c.growBuffer.bytesReceived + chunk.length ≤ c.growBuffer.recvBuffer.length

def handleReadEvent (env : ControlEnv) (result : MsgReceiver.RecvResult)
    (c : RecvChannel) (s : ControlState) : Status × RecvChannel × ControlState :=
  let c := c.growBuffer
  match result with
  | .failed _ => (.failed, c, s)
  | .negative retry =>
    if retry then (.success, c, s) else (.failed, resetRecvState, s)
  | .bytes [] => (.failed, resetRecvState, s)
  | .bytes chunk =>
    processReceivedData env { c with
      recvBuffer := writeAt c.recvBuffer c.bytesReceived chunk
      bytesReceived := c.bytesReceived + chunk.length } s

/-- The read events of a channel, until the first error takes its descriptor
out of the poll set.  The result is what the handlers did, and the error;
there is none when a read would not fit. -/
def handleReadEvents (env : ControlEnv) (c : RecvChannel) (s : ControlState) :
    List (List UInt8) → Option (ControlState × Option Status)
  | [] => some (s, none)
  | chunk :: chunks =>
    if c.fits chunk then
      match c.handleReadEvent env (.bytes chunk) s with
      | (.success, c, s) => handleReadEvents env c s chunks
      | (status, _, s) => some (s, some status)
    else none

end RecvChannel

end Hixl.Adxl
