import Hixl.MachineWords

/-!
# The receiver of control messages

`MsgReceiver` cuts the byte stream of a control connection into messages: a
packed header (a 32-bit magic number and a 64-bit body size), a 32-bit message
type and the payload, all little endian.  The buffer is a list of bytes of which
the first `receivedSize` have been received; `recv` delivers at most as many
bytes as the buffer offers.
-/

namespace Hixl

def kRecvChunkSizeInBytes : ℕ := 4096

def kMaxBodySizeInBytes : ℕ := 4 * 1024 * 1024

def kMagicNumber : ℕ := 0xA4B3C2D1

def kCtrlMsgHeaderSize : ℕ := 12

def kCtrlMsgTypeSize : ℕ := 4

def littleEndian (bytes : List UInt8) : ℕ := bytes.foldr (fun b n => b.toNat + 256 * n) 0

def headerMagic (bytes : List UInt8) : ℕ := littleEndian (bytes.take 4)

def headerBodySize (bytes : List UInt8) : ℕ := littleEndian ((bytes.drop 4).take 8)

structure CtrlMsg where
  msgType : ℕ
  msg : List UInt8
  deriving DecidableEq, Repr

/-- The message in a body of `size` bytes at the start of the bytes. -/
def ctrlMsgOf (bytes : List UInt8) (size : ℕ) : CtrlMsg where
  msgType := littleEndian (bytes.take kCtrlMsgTypeSize)
  msg := (bytes.drop kCtrlMsgTypeSize).take (size - kCtrlMsgTypeSize)

inductive RecvState where
  | waitingForHeader
  | waitingForBody
  deriving DecidableEq, Repr

structure MsgReceiver where
  recvState : RecvState := .waitingForHeader
  recvBuffer : List UInt8 := []
  receivedSize : ℕ := 0
  expectedSize : ℕ := 0

/-- `memmove` of `count` bytes at `offset` to the front of the buffer. -/
def moveToFront (buffer : List UInt8) (offset count : ℕ) : List UInt8 :=
  (buffer.drop offset).take count ++ buffer.drop count

def writeAt (buffer : List UInt8) (offset : ℕ) (chunk : List UInt8) : List UInt8 :=
  buffer.take offset ++ chunk ++ buffer.drop (offset + chunk.length)

variable {buffer : List UInt8} {offset count : ℕ}

theorem take_moveToFront (hle : offset + count ≤ buffer.length) :
    (moveToFront buffer offset count).take count = (buffer.drop offset).take count := by
  have hlen : ((buffer.drop offset).take count).length = count := by
    rw [List.length_take_of_le]
    rw [List.length_drop]
    omega
  rw [moveToFront, List.take_append_of_le_length hlen.ge, List.take_take, Nat.min_self]

theorem length_moveToFront (hle : offset + count ≤ buffer.length) :
    (moveToFront buffer offset count).length = buffer.length := by
  simp only [moveToFront, List.length_append, List.length_take, List.length_drop]
  omega

theorem take_writeAt (hle : offset ≤ buffer.length) (chunk : List UInt8) :
    (writeAt buffer offset chunk).take (offset + chunk.length) = buffer.take offset ++ chunk := by
  have hlen : (buffer.take offset ++ chunk).length = offset + chunk.length := by
    rw [List.length_append, List.length_take_of_le hle]
  rw [writeAt, List.take_append_of_le_length hlen.ge, List.take_of_length_le hlen.le]

theorem length_writeAt (buffer : List UInt8) (hle : offset ≤ buffer.length) (chunk : List UInt8) :
    (writeAt buffer offset chunk).length = max buffer.length (offset + chunk.length) := by
  simp only [writeAt, List.length_append, List.length_take, List.length_drop]
  omega

namespace MsgReceiver

def discard (count : ℕ) (r : MsgReceiver) : MsgReceiver :=
  if count < r.receivedSize then
    { r with
      recvBuffer := moveToFront r.recvBuffer count (r.receivedSize - count)
      receivedSize := r.receivedSize - count }
  else { r with receivedSize := 0 }

def recvHeader (r : MsgReceiver) : Status × MsgReceiver :=
  let bodySize := headerBodySize r.recvBuffer
  if headerMagic r.recvBuffer = kMagicNumber then
    if kCtrlMsgTypeSize ≤ bodySize then
      let r := { r with expectedSize := bodySize }
      if bodySize ≤ kMaxBodySizeInBytes then
        (.success, discard kCtrlMsgHeaderSize { r with recvState := .waitingForBody })
      else (.paramInvalid, r)
    else (.paramInvalid, r)
  else (.paramInvalid, r)

/-- How an iteration of the loop of `IRecv` ends. -/
inductive LoopStep where
  | exit (status : Status) (msg : Option CtrlMsg) (r : MsgReceiver)
  | again (msg : CtrlMsg) (r : MsgReceiver)

/-- The part of an iteration that runs in the state `WAITING_FOR_BODY`. -/
def bodyStep (r : MsgReceiver) : LoopStep :=
  if r.receivedSize < r.expectedSize then .exit .success none r
  else
    let msg := ctrlMsgOf r.recvBuffer r.expectedSize
    let next :=
      { r.discard r.expectedSize with recvState := .waitingForHeader }
    if r.expectedSize < r.receivedSize then .again msg next
    else .exit .success (some msg) next

def loopStep (r : MsgReceiver) : LoopStep :=
  match r.recvState with
  | .waitingForHeader =>
    if r.receivedSize < kCtrlMsgHeaderSize then .exit .success none r
    else
      match r.recvHeader with
      | (.success, r) => r.bodyStep
      | (status, r) => .exit status none r
  | .waitingForBody => r.bodyStep

def loopMeasure (r : MsgReceiver) : ℕ :=
  2 * r.receivedSize + if r.recvState = .waitingForBody then 1 else 0

theorem receivedSize_discard_le (count : ℕ) (r : MsgReceiver) :
    (r.discard count).receivedSize ≤ r.receivedSize := by
  unfold discard
  split_ifs
  · exact Nat.sub_le _ _
  · exact Nat.zero_le _

variable {r next : MsgReceiver} {msg : CtrlMsg}

theorem bodyStep_again (hagain : r.bodyStep = .again msg next) :
    next.receivedSize ≤ r.receivedSize ∧ next.recvState = .waitingForHeader := by
  unfold bodyStep at hagain
  split_ifs at hagain
  simp only [LoopStep.again.injEq] at hagain
  rw [← hagain.2]
  exact ⟨receivedSize_discard_le _ r, rfl⟩

/-- A header that `RecvHeader` accepts. -/
def HeaderOk (bytes : List UInt8) : Prop :=
  headerMagic bytes = kMagicNumber ∧ kCtrlMsgTypeSize ≤ headerBodySize bytes ∧
    headerBodySize bytes ≤ kMaxBodySizeInBytes

instance (bytes : List UInt8) : Decidable (HeaderOk bytes) := instDecidableAnd

theorem recvHeader_ok (hok : HeaderOk r.recvBuffer) : r.recvHeader = (.success,
        discard kCtrlMsgHeaderSize
          { r with
            expectedSize := headerBodySize r.recvBuffer
            recvState := .waitingForBody }) := by
  simp only [recvHeader, hok.1, hok.2.1, hok.2.2, if_true]

theorem recvHeader_bad (hbad : ¬ HeaderOk r.recvBuffer) :
    ∃ next, r.recvHeader = (.paramInvalid, next) ∧ next.receivedSize = r.receivedSize := by
  simp only [recvHeader]
  split_ifs with hmagic hmin hmax
  · exact absurd ⟨hmagic, hmin, hmax⟩ hbad
  all_goals exact ⟨_, rfl, rfl⟩

theorem receivedSize_recvHeader_lt (hheader : r.recvHeader = (.success, next))
    (hsize : kCtrlMsgHeaderSize ≤ r.receivedSize) : next.receivedSize < r.receivedSize := by
  have hpos : 0 < kCtrlMsgHeaderSize := by decide
  by_cases hok : HeaderOk r.recvBuffer
  · rw [recvHeader_ok hok] at hheader
    simp only [Prod.mk.injEq, true_and] at hheader
    rw [← hheader, discard]
    split_ifs
    · exact Nat.sub_lt (by omega) hpos
    · exact lt_of_lt_of_le hpos hsize
  · obtain ⟨bad, hbad, -⟩ := recvHeader_bad hok
    rw [hbad] at hheader
    simp at hheader

theorem loopStep_measure_lt (hagain : r.loopStep = .again msg next) :
    next.loopMeasure < r.loopMeasure := by
  unfold loopStep at hagain
  cases hstate : r.recvState with
  | waitingForBody =>
    rw [hstate] at hagain
    have hnext := bodyStep_again hagain
    simp only [loopMeasure, hstate, hnext.2]
    simp
    omega
  | waitingForHeader =>
    simp only [hstate] at hagain
    split_ifs at hagain with hshort
    cases hheader : r.recvHeader with
    | mk status r' =>
      rw [hheader] at hagain
      cases status with
      | success =>
        have hlt := receivedSize_recvHeader_lt hheader (by omega)
        have hnext := bodyStep_again hagain
        simp only [loopMeasure, hstate, hnext.2]
        omega
      | _ => simp at hagain

def drain (r : MsgReceiver) : Status × List CtrlMsg × MsgReceiver :=
  match _hstep : r.loopStep with
  | .exit status msg r => (status, msg.toList, r)
  | .again msg r =>
    let tail := drain r
    (tail.1, msg :: tail.2.1, tail.2.2)
  termination_by r.loopMeasure
  decreasing_by exact loopStep_measure_lt _hstep

theorem drain_exit {status : Status} {msg : Option CtrlMsg}
    (hstep : r.loopStep = .exit status msg next) : r.drain = (status, msg.toList, next) := by
  rw [drain]
  split <;> simp_all

theorem drain_again (hstep : r.loopStep = .again msg next) :
    r.drain = (next.drain.1, msg :: next.drain.2.1, next.drain.2.2) := by
  rw [drain]
  split <;> simp_all

/-- What `recv` on the connection returns: a failure of the connection, a
negative count with an `errno` that does or does not allow a retry, or the
bytes that were written to the buffer. -/
inductive RecvResult where
  | failed (status : Status)
  | negative (retry : Bool)
  | bytes (chunk : List UInt8)

def growBuffer (r : MsgReceiver) : MsgReceiver :=
  if r.recvBuffer.length < r.receivedSize + kRecvChunkSizeInBytes then
    { r with
      recvBuffer := r.recvBuffer ++ List.replicate
        (r.receivedSize + kRecvChunkSizeInBytes - r.recvBuffer.length) 0 }
  else r

def iRecv (result : RecvResult) (r : MsgReceiver) : Status × List CtrlMsg × MsgReceiver :=
  let r := r.growBuffer
  match result with
  | .failed status => (status, [], r)
  | .negative retry => (if retry then .success else .failed, [], r)
  | .bytes [] => (.failed, [], r)
  | .bytes chunk =>
    drain
      { r with
        recvBuffer := writeAt r.recvBuffer r.receivedSize chunk
        receivedSize := r.receivedSize + chunk.length }

/-- `ProClientMsg` for the successive chunks of a connection, until the first
error closes it.  The messages are those submitted to the handler, and an
error comes with its position in the stream: the received bytes less those
that the receiver still holds.  `total` bytes were received before. -/
def proClientMsgs (total : ℕ) (r : MsgReceiver) :
    List (List UInt8) → List CtrlMsg × Option (Status × ℕ)
  | [] => ([], none)
  | chunk :: chunks =>
    match r.iRecv (.bytes chunk) with
    | (.success, msgs, r) =>
      let tail := proClientMsgs (total + chunk.length) r chunks
      (msgs ++ tail.1, tail.2)
    | (status, msgs, r) => (msgs, some (status, total + chunk.length - r.receivedSize))

end MsgReceiver

end Hixl
