import Hixl.FramedStreams
import Hixl.MsgReceiverModel

/-!
# The receiver frames a stream independently of its chunks

The receiver holds the unconsumed bytes of the stream: in the state
`WAITING_FOR_BODY` the bytes of an accepted header, and then the received bytes
of the buffer.  Each iteration of the loop of `IRecv` takes the decision of
`ctrlFraming` on these bytes, and the result for a whole stream follows from the
framing alone.
-/

namespace Hixl

open FramedStreams
open MsgReceiver (HeaderOk)

/-! ## The framing of control messages -/

def nextCtrlMsg (bytes : List UInt8) : Next CtrlMsg Status :=
  if bytes.length < kCtrlMsgHeaderSize then .more
  else if HeaderOk bytes then
    if bytes.length < kCtrlMsgHeaderSize + headerBodySize bytes then .more
    else
      .frame (ctrlMsgOf (bytes.drop kCtrlMsgHeaderSize) (headerBodySize bytes))
        (kCtrlMsgHeaderSize + headerBodySize bytes)
  else .bad .paramInvalid

variable {bytes : List UInt8}

section

variable (hlen : kCtrlMsgHeaderSize ≤ bytes.length) (more : List UInt8)

include hlen more

theorem headerMagic_append : headerMagic (bytes ++ more) = headerMagic bytes := by
  unfold kCtrlMsgHeaderSize at hlen
  rw [headerMagic, List.take_append_of_le_length (by omega), headerMagic]

theorem headerBodySize_append : headerBodySize (bytes ++ more) = headerBodySize bytes := by
  unfold kCtrlMsgHeaderSize at hlen
  rw [headerBodySize, List.drop_append_of_le_length (by omega),
    List.take_append_of_le_length (by rw [List.length_drop]; omega),
    headerBodySize]

theorem headerOk_append : HeaderOk (bytes ++ more) ↔ HeaderOk bytes := by
  simp only [HeaderOk, headerMagic_append hlen, headerBodySize_append hlen]

end

theorem ctrlMsgOf_append {size : ℕ} (htype : kCtrlMsgTypeSize ≤ size) (hlen : size ≤ bytes.length)
    (more : List UInt8) : ctrlMsgOf (bytes ++ more) size = ctrlMsgOf bytes size := by
  simp only [ctrlMsgOf]
  rw [List.take_append_of_le_length (by omega), List.drop_append_of_le_length (by omega),
    List.take_append_of_le_length (by rw [List.length_drop]; omega)]

def ctrlHeaded : Headed UInt8 CtrlMsg Status where
  headerSize := kCtrlMsgHeaderSize
  headerSize_pos := by decide
  accept bytes := if HeaderOk bytes then .ok (headerBodySize bytes) else .error .paramInvalid
  accept_append := by
    intro bytes hlen more
    simp only [headerOk_append hlen, headerBodySize_append hlen]
  body bytes size :=
    if kCtrlMsgTypeSize ≤ size then .ok (ctrlMsgOf bytes size) else .error .paramInvalid
  body_append := by
    intro bytes size hlen more
    split_ifs with htype
    · rw [ctrlMsgOf_append htype hlen]
    · rfl

theorem nextCtrlMsg_eq : nextCtrlMsg = ctrlHeaded.next := by
  funext bytes
  unfold nextCtrlMsg Headed.next
  simp only [ctrlHeaded]
  by_cases hok : HeaderOk bytes
  · simp only [hok, hok.2.1, if_true]
  · simp only [hok, if_false]

def ctrlFraming : Framing UInt8 CtrlMsg Status where
  next := nextCtrlMsg
  frame_length := by
    rw [nextCtrlMsg_eq]
    exact ctrlHeaded.framing.frame_length
  stable_frame := by
    rw [nextCtrlMsg_eq]
    exact ctrlHeaded.framing.stable_frame
  stable_bad := by
    rw [nextCtrlMsg_eq]
    exact ctrlHeaded.framing.stable_bad
  local_frame := by
    rw [nextCtrlMsg_eq]
    exact ctrlHeaded.framing.local_frame

namespace MsgReceiver

def window (r : MsgReceiver) : RecvWindow UInt8 where
  buffer := r.recvBuffer
  count := r.receivedSize
  expected := if r.recvState = .waitingForBody then some r.expectedSize else none

/-- The receiver holds `bytes` of the stream, from the start of a message. -/
def Holds (r : MsgReceiver) (bytes : List UInt8) : Prop := r.window.Holds ctrlHeaded bytes

theorem Holds.start : Holds {} [] :=
  ⟨le_rfl, fun _ => rfl, nofun⟩

variable {r : MsgReceiver}

theorem discard_spec {count : ℕ} (hle : r.receivedSize ≤ r.recvBuffer.length)
    (hcount : count ≤ r.receivedSize) :
    (r.discard count).receivedSize ≤ (r.discard count).recvBuffer.length ∧
      (r.discard count).window.received = r.window.received.drop count ∧
      (r.discard count).recvState = r.recvState ∧
      (r.discard count).expectedSize = r.expectedSize := by
  unfold discard
  split_ifs with hlt
  · have hfits : count + (r.receivedSize - count) ≤ r.recvBuffer.length := by omega
    refine ⟨?_, (take_moveToFront hfits).trans List.drop_take.symm, rfl, rfl⟩
    rw [length_moveToFront hfits]
    exact (Nat.sub_le _ _).trans hle
  · refine ⟨Nat.zero_le _, ?_, rfl, rfl⟩
    have hempty : r.receivedSize - count = 0 := by omega
    simp [RecvWindow.received, window, List.drop_take, hempty]

/-! ## An iteration of the loop -/

inductive Follows (bytes : List UInt8) : LoopStep → Prop where
  | more {next : MsgReceiver}
      (hnext : nextCtrlMsg bytes = .more) (hholds : next.Holds bytes) :
      Follows bytes (.exit .success none next)
  | bad {status : Status} {next : MsgReceiver}
      (hnext : nextCtrlMsg bytes = .bad status)
      (hsize : next.receivedSize = bytes.length) :
      Follows bytes (.exit status none next)
  | last {msg : CtrlMsg} {next : MsgReceiver}
      (hnext : nextCtrlMsg bytes = .frame msg bytes.length)
      (hholds : next.Holds []) :
      Follows bytes (.exit .success (some msg) next)
  | again {msg : CtrlMsg} {n : ℕ} {next : MsgReceiver}
      (hnext : nextCtrlMsg bytes = .frame msg n)
      (hholds : next.Holds (bytes.drop n)) :
      Follows bytes (.again msg next)

variable {bytes : List UInt8} (hholds : r.Holds bytes)

include hholds

theorem bodyStep_follows (hstate : r.recvState = .waitingForBody) : Follows bytes r.bodyStep := by
  have hbody : r.window.expected = some r.expectedSize := if_pos hstate
  have hnext := hholds.next_of_body hbody
  rw [← nextCtrlMsg_eq] at hnext
  simp only [window] at hnext
  unfold bodyStep
  by_cases hshort : r.receivedSize < r.expectedSize
  · simp only [hshort, if_true] at hnext ⊢
    exact Follows.more hnext hholds
  · simp only [hshort, if_false] at hnext ⊢
    have htype : kCtrlMsgTypeSize ≤ r.expectedSize := by
      obtain ⟨header, -, haccept, -⟩ := hholds.body _ hbody
      simp only [ctrlHeaded] at haccept
      split_ifs at haccept with hok
      exact Except.ok.inj haccept ▸ hok.2.1
    simp only [ctrlHeaded, htype, if_true] at hnext
    obtain ⟨hle, hreceived, -⟩ := discard_spec hholds.count_le (Nat.not_lt.mp hshort)
    have hrest : Holds { r.discard r.expectedSize with recvState := .waitingForHeader }
        (bytes.drop (kCtrlMsgHeaderSize + r.expectedSize)) :=
      hholds.consumed hbody hle hreceived rfl
    split_ifs with hmore
    · exact Follows.again hnext hrest
    · have hall : bytes.length = kCtrlMsgHeaderSize + r.expectedSize := by
        rw [hholds.length_eq hbody]
        change kCtrlMsgHeaderSize + r.receivedSize = _
        omega
      rw [← hall] at hnext hrest
      rw [List.drop_length] at hrest
      exact Follows.last hnext hrest

theorem loopStep_follows : Follows bytes r.loopStep := by
  unfold loopStep
  cases hstate : r.recvState with
  | waitingForBody => exact bodyStep_follows hholds hstate
  | waitingForHeader =>
    have hheader : r.window.expected = none := if_neg (by simp [hstate])
    dsimp only
    split_ifs with hshort
    · refine Follows.more ?_ hholds
      rw [nextCtrlMsg_eq]
      exact hholds.next_of_short hheader hshort
    · have hfull : kCtrlMsgHeaderSize ≤ r.receivedSize := Nat.not_lt.mp hshort
      by_cases hok : HeaderOk r.recvBuffer
      · rw [recvHeader_ok hok]
        obtain ⟨hle, hreceived, hbodyState, hsize⟩ := discard_spec (r := { r with
          expectedSize := headerBodySize r.recvBuffer
          recvState := .waitingForBody }) hholds.count_le hfull
        refine bodyStep_follows ?_ hbodyState
        exact hholds.accepted hheader hfull (if_pos hok) hle hreceived
          ((if_pos hbodyState).trans (congrArg some hsize))
      · obtain ⟨next, hbad, hnextSize⟩ := recvHeader_bad hok
        rw [hbad]
        refine Follows.bad ?_ ?_
        · rw [nextCtrlMsg_eq]
          exact hholds.next_of_rejected hheader hfull (if_neg hok)
        · rw [hnextSize, hholds.header hheader]
          exact (RecvWindow.length_received hholds.count_le).symm

omit hholds

/-! ## The loop, a call and a whole stream -/

theorem decode_nil : decode ctrlFraming [] = ⟨[], none, []⟩ := by
  apply decode_more
  rfl

section

variable (hholds : r.Holds bytes)

include hholds

theorem drain_decode : ∃ next, r.drain = ((decode ctrlFraming bytes).error.getD .success,
        (decode ctrlFraming bytes).msgs, next) ∧ ((decode ctrlFraming bytes).error = none →
        next.Holds (decode ctrlFraming bytes).rest) ∧ ((decode ctrlFraming bytes).error ≠ none →
        next.receivedSize = (decode ctrlFraming bytes).rest.length) := by
  -- on the number of held bytes; each frame is one iteration
  induction hlen : bytes.length using Nat.strong_induction_on generalizing bytes r with
  | h k ih =>
    have hfollows := loopStep_follows hholds
    generalize hstep : r.loopStep = step at hfollows
    cases hfollows with
    | more hnext hrest =>
      rw [decode_more hnext]
      exact ⟨_, drain_exit hstep, fun _ => hrest, fun h => absurd rfl h⟩
    | bad hnext hsize =>
      rw [decode_bad hnext]
      exact ⟨_, drain_exit hstep, fun h => absurd h (by simp), fun _ => hsize⟩
    | last hnext hrest =>
      rw [decode_frame hnext, List.drop_length, decode_nil]
      exact ⟨_, drain_exit hstep, fun _ => hrest, fun h => absurd rfl h⟩
    | again hnext hrest =>
      have hn := ctrlFraming.frame_length hnext
      obtain ⟨next, hdrain, hkept⟩ := ih _ (by rw [List.length_drop]; omega) hrest rfl
      rw [decode_frame hnext]
      exact ⟨next, by rw [drain_again hstep, hdrain], hkept⟩

theorem Holds.growBuffer : r.growBuffer.Holds bytes := by
  unfold MsgReceiver.growBuffer
  split_ifs
  · rw [← List.append_nil bytes]
    refine RecvWindow.Holds.append hholds ?_ ?_ ?_
    · exact hholds.count_le.trans (by simp [window])
    · rfl
    · rw [List.append_nil]
      exact List.take_append_of_le_length hholds.count_le
  · exact hholds

theorem Holds.write (chunk : List UInt8) : Holds
      { r with
        recvBuffer := writeAt r.recvBuffer r.receivedSize chunk
        receivedSize := r.receivedSize + chunk.length }
      (bytes ++ chunk) := by
  refine RecvWindow.Holds.append hholds ?_ ?_ ?_
  · exact (length_writeAt _ hholds.count_le chunk).symm ▸ Nat.le_max_right _ _
  · rfl
  · exact take_writeAt hholds.count_le chunk

end

theorem iRecv_decode {chunk : List UInt8} (hholds : r.Holds bytes) (hchunk : chunk ≠ []) : ∃ next,
      r.iRecv (.bytes chunk) = ((decode ctrlFraming (bytes ++ chunk)).error.getD .success,
          (decode ctrlFraming (bytes ++ chunk)).msgs, next) ∧
      ((decode ctrlFraming (bytes ++ chunk)).error = none →
        next.Holds (decode ctrlFraming (bytes ++ chunk)).rest) ∧
      ((decode ctrlFraming (bytes ++ chunk)).error ≠ none →
        next.receivedSize = (decode ctrlFraming (bytes ++ chunk)).rest.length) := by
  cases chunk with
  | nil => exact absurd rfl hchunk
  | cons b chunk =>
    exact drain_decode (hholds.growBuffer.write (b :: chunk))

theorem decode_error_eq {status : Status}
    (herror : (decode ctrlFraming bytes).error = some status) : status = .paramInvalid := by
  have hrest : nextCtrlMsg _ = _ := next_rest (F := ctrlFraming) bytes
  rw [herror] at hrest
  unfold nextCtrlMsg at hrest
  split_ifs at hrest
  cases hrest
  rfl

theorem proClientMsgs_eq_feed {total : ℕ} {rest : List UInt8} (hholds : r.Holds rest)
    {chunks : List (List UInt8)} (hchunks : [] ∉ chunks) :
    r.proClientMsgs total chunks = feed ctrlFraming total rest chunks := by
  induction chunks generalizing total r rest with
  | nil => rfl
  | cons chunk chunks ih =>
    have hne : chunk ≠ [] := by
      intro h
      exact hchunks (by rw [h]; exact List.mem_cons_self)
    have htail : [] ∉ chunks := fun h => hchunks (List.mem_cons_of_mem chunk h)
    obtain ⟨next, hrecv, hmore, hbad⟩ := iRecv_decode hholds hne
    cases herror : (decode ctrlFraming (rest ++ chunk)).error with
    | none =>
      simp only [proClientMsgs, feed, hrecv, herror, Option.getD_none]
      rw [ih (hmore herror) htail]
    | some status =>
      have hstatus := decode_error_eq herror
      subst status
      simp only [proClientMsgs, feed, hrecv, herror, Option.getD_some]
      rw [hbad (by simp [herror])]

end MsgReceiver

open MsgReceiver

/-- Two ways to cut a stream into chunks give the same messages and the same
first error.  The messages are those of the complete frames at the start of
the stream, each once and in order; what follows the frames is either
incomplete, or it is rejected, at the position where the frames end. -/
theorem proClientMsgs_chunking_independent (stream : List UInt8)
    (chunks chunks' : List (List UInt8)) (hstream : chunks.flatten = stream) (hchunks : [] ∉ chunks)
    (hstream' : chunks'.flatten = stream) (hchunks' : [] ∉ chunks') :
    proClientMsgs 0 {} chunks = proClientMsgs 0 {} chunks' ∧
      ∃ (frames : List (List UInt8)) (rest : List UInt8), stream = frames.flatten ++ rest ∧
        List.Forall₂ (fun f msg => nextCtrlMsg f = .frame msg f.length)
          frames (proClientMsgs 0 {} chunks).1 ∧
        ((proClientMsgs 0 {} chunks).2 = none ∧ nextCtrlMsg rest = .more ∨ ∃ status,
            (proClientMsgs 0 {} chunks).2 = some (status, frames.flatten.length) ∧
            nextCtrlMsg rest = .bad status) := by
  have hdecode : ∀ pieces : List (List UInt8), [] ∉ pieces → pieces.flatten = stream →
      proClientMsgs 0 {} pieces = ((decode ctrlFraming stream).msgs,
          (decode ctrlFraming stream).error.map fun e =>
            (e, stream.length - (decode ctrlFraming stream).rest.length)) := by
    intro pieces hpieces hflat
    rw [proClientMsgs_eq_feed Holds.start hpieces,
      feed_eq_decode (by rfl), List.nil_append, hflat, Nat.zero_add]
  obtain ⟨frames, hflat, hframes⟩ := decode_spec (F := ctrlFraming) stream
  have hrest := next_rest (F := ctrlFraming) stream
  have hpos : stream.length - (decode ctrlFraming stream).rest.length =
      frames.flatten.length := by
    have hlen := congrArg List.length hflat
    rw [List.length_append] at hlen
    omega
  rw [hdecode chunks hchunks hstream, hdecode chunks' hchunks' hstream']
  constructor
  · rfl
  apply Exists.intro frames
  apply Exists.intro (decode ctrlFraming stream).rest
  constructor
  · exact hflat
  constructor
  · exact hframes
  · cases herror : (decode ctrlFraming stream).error with
    | none =>
      rw [herror] at hrest
      left
      exact ⟨rfl, hrest⟩
    | some status =>
      rw [herror] at hrest
      right
      exact ⟨status, by simp [hpos], hrest⟩

/-- A message of type 14 with an empty payload, cut after the header. -/
theorem proClientMsgs_heartbeat_cut :
    proClientMsgs 0 {} [[0xD1, 0xC2, 0xB3, 0xA4, 4, 0, 0, 0, 0, 0, 0, 0], [14, 0, 0, 0]] =
      proClientMsgs 0 {} [[0xD1, 0xC2, 0xB3, 0xA4, 4, 0, 0, 0, 0, 0, 0, 0, 14, 0, 0, 0]] :=
  (proClientMsgs_chunking_independent _
    [[0xD1, 0xC2, 0xB3, 0xA4, 4, 0, 0, 0, 0, 0, 0, 0], [14, 0, 0, 0]]
    [[0xD1, 0xC2, 0xB3, 0xA4, 4, 0, 0, 0, 0, 0, 0, 0, 14, 0, 0, 0]]
    rfl (by decide) rfl (by decide)).1

end Hixl
