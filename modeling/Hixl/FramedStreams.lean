import Mathlib.Data.List.Forall2
import Mathlib.Tactic

/-!
# Framed streams

A framing cuts a stream into messages.  At every point it looks at the items
that have arrived and not been consumed, and it needs more of them, rejects
them, or takes a message and a number of items; a decision is not changed by
items that arrive later.  `decode` runs a framing over all the items at once,
`feed` over the pieces in which they arrive.  The two agree.
-/

namespace FramedStreams

inductive Next (μ ε : Type*) where
  | more
  | bad (error : ε)
  | frame (msg : μ) (length : ℕ)

structure Framing (α μ ε : Type*) where
  next : List α → Next μ ε
  frame_length : ∀ {u m n}, next u = .frame m n → 0 < n ∧ n ≤ u.length
  stable_frame : ∀ {u m n}, next u = .frame m n →
    ∀ v, next (u ++ v) = .frame m n
  stable_bad : ∀ {u e}, next u = .bad e → ∀ v, next (u ++ v) = .bad e
  local_frame : ∀ {u m n}, next u = .frame m n →
    next (u.take n) = .frame m n

/-- What a run has produced: the messages, the error that ended it, and the
items that were not consumed. -/
structure Decoded (α μ ε : Type*) where
  msgs : List μ
  error : Option ε
  rest : List α

variable {α μ ε : Type*} (F : Framing α μ ε)

def decode (u : List α) : Decoded α μ ε :=
  match _hnext : F.next u with
  | .more => ⟨[], none, u⟩
  | .bad e => ⟨[], some e, u⟩
  | .frame m n =>
    let d := decode (u.drop n)
    ⟨m :: d.msgs, d.error, d.rest⟩
  termination_by u.length
  decreasing_by
    have hlen := F.frame_length _hnext
    rw [List.length_drop]
    omega

variable {F} {u : List α}

theorem decode_more (h : F.next u = .more) : decode F u = ⟨[], none, u⟩ := by
  rw [decode]
  split <;> simp_all

variable {e : ε}

theorem decode_bad (h : F.next u = .bad e) : decode F u = ⟨[], some e, u⟩ := by
  rw [decode]
  split <;> simp_all

theorem decode_frame {m : μ} {n : ℕ} (h : F.next u = .frame m n) : decode F u =
      ⟨m :: (decode F (u.drop n)).msgs, (decode F (u.drop n)).error,
        (decode F (u.drop n)).rest⟩ := by
  rw [decode]
  split <;> simp_all

theorem frame_induction {motive : List α → Prop} (more : ∀ u, F.next u = .more → motive u)
    (bad : ∀ u e, F.next u = .bad e → motive u)
    (frame : ∀ u m n, F.next u = .frame m n → motive (u.drop n) → motive u) (u : List α) :
    motive u := by
  induction hlen : u.length using Nat.strong_induction_on generalizing u with
  | h k ih =>
    cases hnext : F.next u with
    | more => exact more u hnext
    | bad e => exact bad u e hnext
    | frame m n =>
      have hn := F.frame_length hnext
      apply frame u m n hnext
      apply ih (u.drop n).length
      · rw [List.length_drop]
        omega
      · rfl

/-- The stream is the frames of the delivered messages, in order, and then
the rest. -/
theorem decode_spec (u : List α) : ∃ frames : List (List α),
      u = frames.flatten ++ (decode F u).rest ∧
      List.Forall₂ (fun f m => F.next f = .frame m f.length) frames (decode F u).msgs := by
  induction u using frame_induction (F := F) with
  | more u hnext =>
    rw [decode_more hnext]
    exact ⟨[], rfl, List.Forall₂.nil⟩
  | bad u e hnext =>
    rw [decode_bad hnext]
    exact ⟨[], rfl, List.Forall₂.nil⟩
  | frame u m n hnext ih =>
    obtain ⟨frames, hflat, hframes⟩ := ih
    have hn := F.frame_length hnext
    have hfirst : F.next (u.take n) = .frame m (u.take n).length := by
      rw [List.length_take_of_le hn.2]
      exact F.local_frame hnext
    rw [decode_frame hnext]
    apply Exists.intro (u.take n :: frames)
    constructor
    · rw [List.flatten_cons, List.append_assoc, ← hflat, List.take_append_drop]
    · exact List.Forall₂.cons hfirst hframes

theorem next_rest (u : List α) : F.next (decode F u).rest =
      match (decode F u).error with
      | none => .more
      | some e => .bad e := by
  induction u using frame_induction (F := F) with
  | more u hnext => rwa [decode_more hnext]
  | bad u e hnext => rwa [decode_bad hnext]
  | frame u m n hnext ih =>
    rw [decode_frame hnext]
    exact ih

theorem decode_append (u v : List α) : decode F (u ++ v) =
      ⟨(decode F u).msgs ++ (decode F ((decode F u).rest ++ v)).msgs,
        (decode F ((decode F u).rest ++ v)).error, (decode F ((decode F u).rest ++ v)).rest⟩ := by
  induction u using frame_induction (F := F) with
  | more u hnext =>
    rw [decode_more hnext]
    rfl
  | bad u e hnext =>
    rw [decode_bad hnext]
    rfl
  | frame u m n hnext ih =>
    have hn := F.frame_length hnext
    rw [decode_frame hnext, decode_frame (F.stable_frame hnext v),
      List.drop_append_of_le_length hn.2, ih, List.cons_append]

theorem decode_append_of_error (herror : (decode F u).error = some e) (v : List α) :
    decode F (u ++ v) = ⟨(decode F u).msgs, some e, (decode F u).rest ++ v⟩ := by
  have hbad := next_rest (F := F) u
  rw [herror] at hbad
  rw [decode_append, decode_bad (F.stable_bad hbad v), List.append_nil]

/-! ## Pieces of a stream -/

variable (F) in
/-- Decode the pieces one after the other until the first error.  `total`
items have arrived before, of which `rest` has not been consumed; an error is
reported with the position of the items that were rejected. -/
def feed (total : ℕ) (rest : List α) : List (List α) → List μ × Option (ε × ℕ)
  | [] => ([], none)
  | piece :: pieces =>
    let d := decode F (rest ++ piece)
    match d.error with
    | some e => (d.msgs, some (e, total + piece.length - d.rest.length))
    | none =>
      let tail := feed (total + piece.length) d.rest pieces
      (d.msgs ++ tail.1, tail.2)

theorem feed_eq_decode {total : ℕ} {rest : List α}
    (hrest : F.next rest = .more) (pieces : List (List α)) :
    feed F total rest pieces = ((decode F (rest ++ pieces.flatten)).msgs,
        (decode F (rest ++ pieces.flatten)).error.map fun e =>
          (e, total + pieces.flatten.length -
            (decode F (rest ++ pieces.flatten)).rest.length)) := by
  induction pieces generalizing total rest with
  | nil =>
    rw [List.flatten_nil, List.append_nil, decode_more hrest]
    rfl
  | cons piece pieces ih =>
    rw [List.flatten_cons, ← List.append_assoc]
    cases herror : (decode F (rest ++ piece)).error with
    | some e =>
      simp only [feed, herror, decode_append_of_error herror, Option.map_some, List.length_append]
      congr 3
      omega
    | none =>
      have hstuck := next_rest (F := F) (rest ++ piece)
      rw [herror] at hstuck
      simp only [feed, herror, ih hstuck, decode_append (rest ++ piece), List.length_append]
      congr 2
      funext e
      congr 2
      omega

/-! ## Messages with a header

A header has a fixed length.  It is rejected, or it gives the length of the
body that follows it; the body is then rejected or read as a message. -/

structure Headed (α μ ε : Type*) where
  headerSize : ℕ
  headerSize_pos : 0 < headerSize
  accept : List α → Except ε ℕ
  accept_append : ∀ {u}, headerSize ≤ u.length →
    ∀ v, accept (u ++ v) = accept u
  body : List α → ℕ → Except ε μ
  body_append : ∀ {u n}, n ≤ u.length → ∀ v, body (u ++ v) n = body u n

namespace Headed

def next (H : Headed α μ ε) (u : List α) : Next μ ε :=
  if u.length < H.headerSize then .more
  else
    match H.accept u with
    | .error e => .bad e
    | .ok n =>
      if u.length < H.headerSize + n then .more
      else
        match H.body (u.drop H.headerSize) n with
        | .error e => .bad e
        | .ok m => .frame m (H.headerSize + n)

variable {H : Headed α μ ε} {u : List α} {m : μ} {n : ℕ}

theorem next_eq_frame_iff :
    H.next u = .frame m n ↔ ∃ size, H.accept u = .ok size ∧ n = H.headerSize + size ∧
        n ≤ u.length ∧ H.body (u.drop H.headerSize) size = .ok m := by
  unfold next
  split_ifs with hheader
  · simp only [false_iff, not_exists]
    rintro size ⟨-, hn, hle, -⟩
    omega
  · cases haccept : H.accept u with
    | error e => simp
    | ok size =>
      dsimp only
      split_ifs with hshort
      · simp only [Except.ok.injEq, false_iff, not_exists]
        rintro size' ⟨rfl, hn, hle, -⟩
        omega
      · cases hbody : H.body (u.drop H.headerSize) size with
        | error e => simp [hbody]
        | ok m' =>
          simp only [Next.frame.injEq, Except.ok.injEq]
          constructor
          · rintro ⟨rfl, rfl⟩
            exact ⟨size, rfl, rfl, by omega, hbody⟩
          · rintro ⟨size', rfl, rfl, -, hm⟩
            rw [hbody, Except.ok.injEq] at hm
            exact ⟨hm, rfl⟩

variable {e : ε}

theorem next_eq_bad_iff : H.next u = .bad e ↔ H.headerSize ≤ u.length ∧ (H.accept u = .error e ∨
          ∃ size, H.accept u = .ok size ∧ H.headerSize + size ≤ u.length ∧
            H.body (u.drop H.headerSize) size = .error e) := by
  unfold next
  split_ifs with hheader
  · simp only [false_iff]
    intro hbad
    omega
  · have hle : H.headerSize ≤ u.length := by omega
    cases haccept : H.accept u with
    | error e' => simp [hle]
    | ok size =>
      dsimp only
      split_ifs with hshort
      · simp only [Except.ok.injEq, false_or, false_iff, not_and, not_exists]
        intro _ size' hsize hlong
        omega
      · cases hbody : H.body (u.drop H.headerSize) size with
        | error e' =>
          simp only [Next.bad.injEq, Except.ok.injEq,
            false_or, exists_eq_left', hbody, Except.error.injEq]
          exact ⟨fun h => ⟨hle, by omega, h⟩, fun h => h.2.2⟩
        | ok m => simp [hbody]

theorem length_lt_of_more {limit : ℕ} (hmore : H.next u = .more)
    (hlimit : ∀ size, H.accept u = .ok size → size ≤ limit) : u.length < H.headerSize + limit := by
  unfold next at hmore
  split_ifs at hmore with hheader
  · omega
  · cases haccept : H.accept u with
    | error e => simp [haccept] at hmore
    | ok size =>
      have hsize := hlimit size haccept
      simp only [haccept] at hmore
      split_ifs at hmore with hshort
      · omega
      · cases hbody : H.body (u.drop H.headerSize) size with
        | error | ok => simp [hbody] at hmore

theorem body_drop_append {size : ℕ} (hlong : H.headerSize + size ≤ u.length) (v : List α) :
    H.body ((u ++ v).drop H.headerSize) size = H.body (u.drop H.headerSize) size := by
  rw [List.drop_append_of_le_length (by omega)]
  exact H.body_append (by rw [List.length_drop]; omega) v

theorem next_frame_append (hframe : H.next u = .frame m n) (v : List α) :
    H.next (u ++ v) = .frame m n := by
  rw [next_eq_frame_iff] at hframe ⊢
  obtain ⟨size, haccept, hn, hle, hbody⟩ := hframe
  refine ⟨size, ?_, hn, ?_, ?_⟩
  · rw [H.accept_append (by omega), haccept]
  · rw [List.length_append]
    omega
  · rw [body_drop_append (by omega), hbody]

theorem next_bad_append (hbad : H.next u = .bad e) (v : List α) : H.next (u ++ v) = .bad e := by
  rw [next_eq_bad_iff] at hbad ⊢
  obtain ⟨hle, hcase⟩ := hbad
  refine ⟨by rw [List.length_append]; omega, ?_⟩
  rw [H.accept_append hle]
  cases hcase with
  | inl herror => exact Or.inl herror
  | inr hbody =>
    obtain ⟨size, haccept, hlong, herror⟩ := hbody
    refine Or.inr ⟨size, haccept, by rw [List.length_append]; omega, ?_⟩
    rw [body_drop_append hlong, herror]

theorem next_frame_take (hframe : H.next u = .frame m n) : H.next (u.take n) = .frame m n := by
  rw [next_eq_frame_iff] at hframe ⊢
  obtain ⟨size, haccept, hn, hle, hbody⟩ := hframe
  have hlen : (u.take n).length = n := List.length_take_of_le hle
  have hsplit : u.take n ++ u.drop n = u := List.take_append_drop n u
  refine ⟨size, ?_, hn, hlen.ge, ?_⟩
  · rw [← H.accept_append (by omega) (u.drop n), hsplit, haccept]
  · rw [← body_drop_append (by omega) (u.drop n), hsplit, hbody]

def framing (H : Headed α μ ε) : Framing α μ ε where
  next := H.next
  frame_length := by
    intro u m n hframe
    obtain ⟨size, -, hn, hle, -⟩ := next_eq_frame_iff.mp hframe
    have hpos := H.headerSize_pos
    exact ⟨by omega, hle⟩
  stable_frame := next_frame_append
  stable_bad := next_bad_append
  local_frame := next_frame_take

end Headed

/-! ## Receive buffers

The first `count` items of a buffer have been received.  Behind an accepted
header, which has been taken out, a body of a known length is expected. -/

structure RecvWindow (α : Type*) where
  buffer : List α
  count : ℕ
  expected : Option ℕ

def RecvWindow.received (w : RecvWindow α) : List α := w.buffer.take w.count

/-- The buffer holds `u` of the stream, from the start of a message. -/
structure RecvWindow.Holds (w : RecvWindow α) (H : Headed α μ ε) (u : List α) : Prop where
  count_le : w.count ≤ w.buffer.length
  header : w.expected = none → u = w.received
  body : ∀ n, w.expected = some n →
    ∃ header, header.length = H.headerSize ∧ H.accept header = .ok n ∧ u = header ++ w.received

namespace RecvWindow

variable {w w' : RecvWindow α} {H : Headed α μ ε} {u : List α} {n : ℕ}

theorem length_received (hle : w.count ≤ w.buffer.length) : w.received.length = w.count :=
  List.length_take_of_le hle

theorem received_append_stale (w : RecvWindow α) :
    w.received ++ w.buffer.drop w.count = w.buffer :=
  List.take_append_drop _ _

namespace Holds

variable (hholds : w.Holds H u)

include hholds

theorem append (hle : w'.count ≤ w'.buffer.length) (hexpected : w'.expected = w.expected)
    {chunk : List α} (hreceived : w'.received = w.received ++ chunk) :
    w'.Holds H (u ++ chunk) := by
  refine ⟨hle, fun hheader => ?_, fun n hbody => ?_⟩
  · rw [hreceived, hholds.header (hexpected ▸ hheader)]
  · obtain ⟨header, hlen, haccept, rfl⟩ := hholds.body n (hexpected ▸ hbody)
    exact ⟨header, hlen, haccept, by rw [hreceived, List.append_assoc]⟩

section Header

variable (hheader : w.expected = none)

include hheader

theorem next_of_short (hshort : w.count < H.headerSize) : H.next u = .more := by
  rw [hholds.header hheader, Headed.next, length_received hholds.count_le, if_pos hshort]

variable (hfull : H.headerSize ≤ w.count)

include hfull

theorem accept_eq : H.accept u = H.accept w.buffer := by
  have hlen := length_received hholds.count_le
  rw [← received_append_stale w, H.accept_append (by omega), hholds.header hheader]

theorem next_of_rejected {e : ε} (hreject : H.accept w.buffer = .error e) :
    H.next u = .bad e := by
  have hlen := length_received hholds.count_le
  rw [Headed.next_eq_bad_iff, hholds.accept_eq hheader hfull]
  exact ⟨by rw [hholds.header hheader]; omega, Or.inl hreject⟩

/-- An accepted header is taken out of the buffer. -/
theorem accepted (haccept : H.accept w.buffer = .ok n) (hle : w'.count ≤ w'.buffer.length)
    (hreceived : w'.received = w.received.drop H.headerSize) (hbody : w'.expected = some n) :
    w'.Holds H u := by
  have hlen := length_received hholds.count_le
  refine ⟨hle, fun hnone => ?_, fun size hsize => ?_⟩
  · cases hbody.symm.trans hnone
  · cases hbody.symm.trans hsize
    have hheaderLen : (w.received.take H.headerSize).length = H.headerSize :=
      List.length_take_of_le (by omega)
    refine ⟨w.received.take H.headerSize, hheaderLen, ?_, ?_⟩
    · rw [← haccept, ← hholds.accept_eq hheader hfull, hholds.header hheader,
        ← H.accept_append hheaderLen.ge (w.received.drop H.headerSize), List.take_append_drop]
    · rw [hreceived, List.take_append_drop, hholds.header hheader]

end Header

section Body

variable (hbody : w.expected = some n)

include hbody

theorem next_of_body : H.next u =
      if w.count < n then .more
      else
        match H.body w.buffer n with
        | .error e => .bad e
        | .ok m => .frame m (H.headerSize + n) := by
  obtain ⟨header, hlen, haccept, rfl⟩ := hholds.body n hbody
  have hreceived := length_received hholds.count_le
  rw [Headed.next, H.accept_append hlen.ge, haccept, List.length_append, hlen, hreceived,
    ← hlen, List.drop_left, if_neg (by omega)]
  simp only [Nat.add_lt_add_iff_left]
  split_ifs with hshort
  · rfl
  · rw [← H.body_append (by omega) (w.buffer.drop w.count), received_append_stale]

/-- A complete body is taken out of the buffer. -/
theorem consumed (hle : w'.count ≤ w'.buffer.length)
    (hreceived : w'.received = w.received.drop n) (hheader : w'.expected = none) :
    w'.Holds H (u.drop (H.headerSize + n)) := by
  obtain ⟨header, hlen, -, rfl⟩ := hholds.body n hbody
  refine ⟨hle, fun _ => ?_, fun size hsize => ?_⟩
  · rw [hreceived, ← hlen, List.drop_length_add_append]
  · cases hheader.symm.trans hsize

theorem length_eq : u.length = H.headerSize + w.count := by
  obtain ⟨header, hlen, -, rfl⟩ := hholds.body n hbody
  rw [List.length_append, hlen, length_received hholds.count_le]

end Body

end Holds

end RecvWindow

/-! ## Messages that are handled as they arrive

A handler takes the messages one after the other and may fail, which ends the
stream as a rejected message does. -/

section Handlers

variable {σ : Type*} (handle : σ → μ → σ × Option ε)

def handleAll (s : σ) : List μ → σ × Option ε
  | [] => (s, none)
  | m :: msgs =>
    match handle s m with
    | (s, some e) => (s, some e)
    | (s, none) => handleAll s msgs

/-- A handler that runs over a decoded stream; the error of the stream comes
after its messages. -/
def Decoded.handled (s : σ) (d : Decoded α μ ε) : σ × Option ε :=
  match handleAll handle s d.msgs with
  | (s, some e) => (s, some e)
  | (s, none) => (s, d.error)

variable (F) in
/-- Decode the pieces and handle their messages, until the first error. -/
def feedHandled (s : σ) (rest : List α) : List (List α) → σ × Option ε
  | [] => (s, none)
  | piece :: pieces =>
    let d := decode F (rest ++ piece)
    match d.handled handle s with
    | (s, some e) => (s, some e)
    | (s, none) => feedHandled s d.rest pieces

variable {handle}

theorem handleAll_append (s : σ) (msgs more : List μ) : handleAll handle s (msgs ++ more) =
      match handleAll handle s msgs with
      | (s, some e) => (s, some e)
      | (s, none) => handleAll handle s more := by
  induction msgs generalizing s with
  | nil => rfl
  | cons m msgs ih =>
    rcases hstep : handle s m with ⟨s', error⟩
    cases error with
    | some e => simp only [List.cons_append, handleAll, hstep]
    | none =>
      simp only [List.cons_append, handleAll, hstep]
      exact ih s'

theorem handleAll_eq_some {s s' : σ} {msgs : List μ} {e : ε}
    (hall : handleAll handle s msgs = (s', some e)) :
    ∃ before m after mid, msgs = before ++ m :: after ∧ handleAll handle s before = (mid, none) ∧
      handle mid m = (s', some e) := by
  induction msgs generalizing s with
  | nil => exact absurd hall (by simp [handleAll])
  | cons m msgs ih =>
    rcases hstep : handle s m with ⟨next, error⟩
    simp only [handleAll, hstep] at hall
    cases error with
    | some e' =>
      refine ⟨[], m, msgs, s, rfl, rfl, ?_⟩
      rwa [hstep]
    | none =>
      obtain ⟨before, m', after, mid, rfl, hbefore, hfail⟩ := ih hall
      refine ⟨m :: before, m', after, mid, rfl, ?_, hfail⟩
      simpa only [handleAll, hstep] using hbefore

theorem feedHandled_eq {rest : List α} (hrest : F.next rest = .more) (s : σ)
    (pieces : List (List α)) :
    feedHandled F handle s rest pieces = (decode F (rest ++ pieces.flatten)).handled handle s := by
  induction pieces generalizing s rest with
  | nil =>
    rw [List.flatten_nil, List.append_nil, decode_more hrest]
    rfl
  | cons piece pieces ih =>
    rw [List.flatten_cons, ← List.append_assoc]
    rcases hall : handleAll handle s (decode F (rest ++ piece)).msgs with
      ⟨s', error⟩
    cases herror : (decode F (rest ++ piece)).error with
    | some e =>
      rw [decode_append_of_error herror]
      simp only [feedHandled, Decoded.handled, hall, herror]
      cases error with
      | some e' => rfl
      | none => rfl
    | none =>
      rw [decode_append]
      simp only [feedHandled, Decoded.handled, handleAll_append, hall, herror]
      cases error with
      | some e' => rfl
      | none =>
        have hstuck := next_rest (F := F) (rest ++ piece)
        rw [herror] at hstuck
        exact ih hstuck s'

end Handlers

end FramedStreams
