import Hixl.BufferServerModel

/-!
# The staging buffers of the server are conserved

A buffer that is not idle belongs to one request, in a queue or in the hands of
a thread.  A thread that pushes a request to the second step has dismissed its
guard: when at most `kTimeoutLoss` microseconds are left, `PushSecondStepReq`
refuses the request and its buffer is lost.  Otherwise buffers are conserved.
-/

namespace Hixl.Adxl

open InterleavedCalls IdlePools Hixl.Adxl.ServerCall

def WorkerPoint.held : WorkerPoint → ℕ
  | .waiting => 0
  | .popped req | .getBuffer req | .working req | .pushing req => req.localBufferAddr
  | .releasing bufferAddr => bufferAddr

def ServerCall.held : ServerCall → ℕ
  | .pushBufferReq req => req.localBufferAddr
  | .pushed _ => 0
  | .worker _ point => point.held
  | .ctrlMsg none => 0
  | .ctrlMsg (some req) => req.localBufferAddr

def owners (queue : List BufferReq) (bufferAddr : ℕ) : ℕ :=
  queue.countP fun req => req.localBufferAddr = bufferAddr

def ServerState.queued (s : ServerState) (bufferAddr : ℕ) : ℕ :=
  owners s.reqQueue bufferAddr + owners s.secondStepQueue bufferAddr +
    owners s.ctrlMsgQueue bufferAddr

def holders (s : Config ServerState ServerCall) (bufferAddr : ℕ) : ℕ :=
  s.shared.queued bufferAddr + s.calls.countP fun call => call.held = bufferAddr

/-- No thread is about to push to the second step with too little time. -/
def pushesInTime (s : Config ServerState ServerCall) : Bool :=
  s.calls.all fun
    | .worker step (.pushing req) => !step.begins req || decide (kTimeoutLoss < req.timeout)
    | _ => true

/-! ## The steps -/

theorem owners_cons (req : BufferReq) (queue : List BufferReq) (bufferAddr : ℕ) :
    owners (req :: queue) bufferAddr =
      owners queue bufferAddr + owner req.localBufferAddr bufferAddr := by
  simp [owners, owner, List.countP_cons]

theorem owners_push (queue : List BufferReq) (req : BufferReq) (bufferAddr : ℕ) :
    owners (queue ++ [req]) bufferAddr =
      owners queue bufferAddr + owner req.localBufferAddr bufferAddr := by
  simp [owners, owner, List.countP_append, List.countP_cons]

inductive ServerMove (s : ServerState) (call : ServerCall)
    (s' : ServerState) (next : ServerCall) : Prop where
  | kept (hpool : s'.pool = s.pool)
      (hsame : ∀ b, b ≠ 0 → s'.queued b + owner next.held b = s.queued b + owner call.held b)
  | took (bufferAddr : ℕ)
      (htake : tryGetBuffer s.pool = some (bufferAddr, s'.pool))
      (hqueues : s'.queued = s.queued) (hcall : call.held = 0)
      (hnext : next.held = bufferAddr)
  | released (hpool : s'.pool = releaseBuffer call.held s.pool)
      (hqueues : s'.queued = s.queued) (hnext : next.held = 0)

/-- What holds of a thread: the first one has no buffer before it gets one, and
what comes later has passed the check. -/
def WorkerPoint.Fits (bufferSize : ℕ) (step : WorkerStep) : WorkerPoint → Prop
  | .popped req =>
    (step = .first → req.localBufferAddr = 0) ∧
      (step = .second → validatePeerBufferReq bufferSize req = .success)
  | .getBuffer req =>
    step.begins req = true ∧ req.localBufferAddr = 0 ∧
      validatePeerBufferReq bufferSize req = .success
  | .working req | .pushing req => validatePeerBufferReq bufferSize req = .success
  | _ => True

def ServerCall.Fits (bufferSize : ℕ) : ServerCall → Prop
  | .pushBufferReq req => req.localBufferAddr = 0
  | .worker step point => point.Fits bufferSize step
  | _ => True

structure ServerInvariant (bufferSize : ℕ)
    (s : Config ServerState ServerCall) : Prop where
  conserved : Conserved s.shared.pool (holders s)
  nonzero : 0 ∉ s.shared.pool.map Prod.fst
  fresh : ∀ req ∈ s.shared.reqQueue, req.localBufferAddr = 0
  checked : ∀ req ∈ s.shared.secondStepQueue,
    validatePeerBufferReq bufferSize req = .success
  calls : ∀ call ∈ s.calls, call.Fits bufferSize

theorem begins_second (req : BufferReq) : WorkerStep.second.begins req = false := by
  unfold WorkerStep.begins WorkerStep.handlesD2D BufferReq.isRead BufferReq.isWrite
  cases req.transferType with
  | none => rfl
  | some type => cases htype : isReadTransferType type <;> simp [htype]

structure ServerStep (bufferSize : ℕ) (s : ServerState) (call : ServerCall)
    (s' : ServerState) (next : ServerCall) : Prop where
  move : ServerMove s call s' next
  fits : next.Fits bufferSize := by trivial
  fresh : ∀ req ∈ s'.reqQueue, req ∈ s.reqQueue ∨ req.localBufferAddr = 0 := by
    exact fun _ => Or.inl
  checked : ∀ req ∈ s'.secondStepQueue, req ∈ s.secondStepQueue ∨
    validatePeerBufferReq bufferSize req = .success := by exact fun _ => Or.inl

namespace ServerStep

variable {bufferSize : ℕ} {s s' : ServerState} {input : ServerInput} {call : ServerCall}

theorem stay {next : ServerCall} (hheld : next.held = call.held) (hfits : next.Fits bufferSize) :
    ServerStep bufferSize s call s next where
  move := .kept rfl fun b _ => by rw [hheld]
  fits := hfits

variable {step : WorkerStep} {req : BufferReq} {next : WorkerPoint}

theorem of_popped (hfits : (ServerCall.worker step (.popped req)).Fits bufferSize)
    (hnext : (WorkerPoint.popped req).next bufferSize step input s = some (s', next)) :
    ServerStep bufferSize s (.worker step (.popped req)) s' (.worker step next) := by
  simp only [WorkerPoint.next] at hnext
  split_ifs at hnext with hskip hinvalid hbegins
  all_goals cases hnext
  · cases step with
    | first => exact stay (Eq.symm (hfits.1 rfl)) trivial
    | second => exact stay rfl trivial
  · cases step with
    | first => exact stay (Eq.symm (hfits.1 rfl)) trivial
    | second => exact absurd (hfits.2 rfl) hinvalid
  · cases step with
    | first => exact stay rfl ⟨hbegins, hfits.1 rfl, not_not.mp hinvalid⟩
    | second => exact absurd hbegins (by simp [begins_second])
  · exact stay rfl (not_not.mp hinvalid)

theorem of_pushing (hfits : (ServerCall.worker step (.pushing req)).Fits bufferSize)
    (htime : step.begins req = true → kTimeoutLoss < req.timeout)
    (hnext : (WorkerPoint.pushing req).next bufferSize step input s = some (s', next)) :
    ServerStep bufferSize s (.worker step (.pushing req)) s' (.worker step next) := by
  simp only [WorkerPoint.next] at hnext
  split_ifs at hnext with hbegins
  all_goals cases hnext
  · rw [pushSecondStepReq, if_neg (Nat.not_le.mpr (htime hbegins))]
    refine ⟨.kept rfl ?_, trivial, fun _ => Or.inl, ?_⟩
    · intro b hb
      simp only [ServerState.queued, held, WorkerPoint.held, owners_push, owner_zero hb]
      omega
    · exact List.forall_mem_append.mpr
        ⟨fun _ => Or.inl, List.forall_mem_singleton.mpr (Or.inr hfits)⟩
  · refine { move := .kept rfl ?_ }
    intro b hb
    simp only [ServerState.queued, pushCtrlMsg, held, WorkerPoint.held, owners_push, owner_zero hb]
    omega

section

variable (hfresh : ∀ req ∈ s.reqQueue, req.localBufferAddr = 0)
  (hchecked : ∀ req ∈ s.secondStepQueue, validatePeerBufferReq bufferSize req = .success)

include hfresh hchecked

theorem of_waiting (hpop : pop step s = some (req, s')) :
    ServerStep bufferSize s (.worker step .waiting) s' (.worker step (.popped req)) := by
  unfold pop at hpop
  split at hpop
  · split at hpop
    · cases hpop
    · next first rest hqueue =>
        obtain ⟨rfl, rfl⟩ := Prod.mk.inj (Option.some.inj hpop)
        refine ⟨.kept rfl ?_, ?_, ?_, fun _ => Or.inl⟩
        · intro b hb
          simp only [ServerState.queued, held, WorkerPoint.held, hqueue, owners_cons, owner_zero hb]
          omega
        · exact ⟨fun _ => hfresh first (hqueue ▸ List.mem_cons_self),
            fun hstep => absurd hstep (by simp)⟩
        · exact fun other hmem => Or.inl (hqueue ▸ List.mem_cons_of_mem _ hmem)
  · split at hpop
    · cases hpop
    · next first rest hqueue =>
        obtain ⟨rfl, rfl⟩ := Prod.mk.inj (Option.some.inj hpop)
        refine ⟨.kept rfl ?_, ?_, fun _ => Or.inl, ?_⟩
        · intro b hb
          simp only [ServerState.queued, held, WorkerPoint.held, hqueue, owners_cons, owner_zero hb]
          omega
        · exact ⟨fun hstep => absurd hstep (by simp),
            fun _ => hchecked first (hqueue ▸ List.mem_cons_self)⟩
        · exact fun other hmem => Or.inl (hqueue ▸ List.mem_cons_of_mem _ hmem)

theorem of_worker {point : WorkerPoint} (hfits : (ServerCall.worker step point).Fits bufferSize)
    (htime : ∀ req, point = .pushing req → step.begins req = true → kTimeoutLoss < req.timeout)
    (hnext : point.next bufferSize step input s = some (s', next)) :
    ServerStep bufferSize s (.worker step point) s' (.worker step next) := by
  cases point with
  | waiting =>
    obtain ⟨⟨req, rest⟩, hpop, heq⟩ := Option.map_eq_some_iff.mp hnext
    cases heq
    exact of_waiting hfresh hchecked hpop
  | popped req => exact of_popped hfits hnext
  | getBuffer req =>
    obtain ⟨hbegins, hlocal, hvalid⟩ := hfits
    simp only [WorkerPoint.next] at hnext
    split at hnext
    · next bufferAddr pool htake =>
        cases hnext
        exact { move := .took bufferAddr htake rfl hlocal rfl, fits := hvalid }
    · split_ifs at hnext
      all_goals cases hnext
      · exact stay rfl ⟨hbegins, hlocal, hvalid⟩
      · exact stay rfl trivial
  | working req =>
    simp only [WorkerPoint.next] at hnext
    split_ifs at hnext
    all_goals cases hnext
    · exact stay rfl trivial
    · exact stay rfl hfits
  | pushing req => exact of_pushing hfits (htime req rfl) hnext
  | releasing bufferAddr =>
    cases hnext
    exact { move := .released rfl rfl rfl }

theorem of_next {next : ServerCall} (hfits : call.Fits bufferSize)
    (htime : ∀ step req, call = .worker step (.pushing req) →
      step.begins req = true → kTimeoutLoss < req.timeout)
    (hnext : call.next bufferSize input s = some (s', next)) :
    ServerStep bufferSize s call s' next := by
  cases call with
  | pushBufferReq req =>
    have hlocal : req.localBufferAddr = 0 := hfits
    simp only [ServerCall.next] at hnext
    split_ifs at hnext
    all_goals cases hnext
    · exact stay (Eq.symm hlocal) trivial
    · refine ⟨.kept rfl ?_, trivial, ?_, fun _ => Or.inl⟩
      · intro b hb
        simp only [ServerState.queued, held, owners_push, hlocal, owner_zero hb]
        omega
      · exact List.forall_mem_append.mpr
          ⟨fun _ => Or.inl, List.forall_mem_singleton.mpr (Or.inr hlocal)⟩
  | pushed ret => exact absurd hnext (by simp [ServerCall.next])
  | worker step point =>
    obtain ⟨⟨s₁, point'⟩, hpoint, heq⟩ := Option.map_eq_some_iff.mp hnext
    cases heq
    exact of_worker hfresh hchecked hfits (fun req hpush => htime step req (by rw [hpush])) hpoint
  | ctrlMsg req =>
    cases req with
    | none =>
      simp only [ServerCall.next] at hnext
      split at hnext
      · cases hnext
      · next first rest hqueue =>
          cases hnext
          refine { move := .kept rfl ?_ }
          intro b hb
          simp only [ServerState.queued, held, hqueue, owners_cons, owner_zero hb]
          omega
    | some req =>
      cases hnext
      exact { move := .released rfl rfl rfl }

end

end ServerStep

/-! ## Runs -/

variable {call : ServerCall}

theorem holders_set {s : Config ServerState ServerCall} {i : ℕ} (hi : s.calls[i]? = some call)
    (s' : ServerState) (next : ServerCall) (b : ℕ) :
    holders { shared := s', calls := s.calls.set i next } b +
        (s.shared.queued b + owner call.held b) =
      holders s b + (s'.queued b + owner next.held b) := by
  have hadd := countP_set_add hi next fun call => decide (call.held = b)
  simp only [decide_eq_true_eq] at hadd
  simp only [holders, owner]
  omega

namespace ServerInvariant

variable {bufferSize : ℕ} {s : Config ServerState ServerCall}

theorem start (bufferSize : ℕ) (pool : PoolAddrs) :
    ServerInvariant bufferSize (serverStart pool) := by
  have hnames : (serverStart pool).shared.pool.map Prod.fst = pool.addrs := by
    simp [serverStart, Function.comp_def]
  refine ⟨⟨hnames ▸ pool.nodup, ?_⟩, hnames ▸ pool.nonzero,
    List.forall_mem_nil _,
    List.forall_mem_nil _, ?_⟩
  · intro entry hentry
    obtain ⟨addr, haddr, rfl⟩ := List.mem_map.mp hentry
    have hne : addr ≠ 0 := fun heq => pool.nonzero (heq ▸ haddr)
    simp [holders, serverStart, ServerState.queued, owners, held,
      WorkerPoint.held, Ne.symm hne]
  · intro call hcall
    simp only [serverStart, List.mem_cons, List.not_mem_nil, or_false] at hcall
    obtain rfl | rfl | rfl := hcall
    all_goals trivial

variable {call : ServerCall}

theorem startCall (hinv : ServerInvariant bufferSize s) (hstarts : call.starts = true) :
    ServerInvariant bufferSize { s with calls := s.calls ++ [call] } := by
  have hnew : call.held = 0 ∧ call.Fits bufferSize := by
    cases call with
    | pushBufferReq req =>
      have hlocal : req.localBufferAddr = 0 := of_decide_eq_true hstarts
      exact ⟨hlocal, hlocal⟩
    | _ => exact absurd hstarts (by simp [starts])
  refine ⟨hinv.conserved.congr ?_, hinv.nonzero, hinv.fresh, hinv.checked,
    forall_mem_append hnew.2 hinv.calls⟩
  intro b hb
  have hne : b ≠ 0 := fun heq => hinv.nonzero (heq ▸ hb)
  simp [holders, List.countP_append, hnew.1, Ne.symm hne]

variable {i : ℕ} {next : ServerCall} {s' : ServerState}

theorem conservedStep (hinv : ServerInvariant bufferSize s) (hi : s.calls[i]? = some call)
    (hmove : ServerMove s.shared call s' next) :
    s'.pool.map Prod.fst = s.shared.pool.map Prod.fst ∧ Conserved s'.pool
        (holders { shared := s', calls := s.calls.set i next }) := by
  have hcounts := holders_set hi s' next
  have hne : ∀ b ∈ s.shared.pool.map Prod.fst, b ≠ 0 := fun b hb heq => hinv.nonzero (heq ▸ hb)
  have hconserved := hinv.conserved
  cases hmove with
  | kept hpool hsame =>
    rw [hpool]
    refine ⟨rfl, hconserved.congr fun b hb => ?_⟩
    have hcount := hcounts b
    have howner := hsame b (hne b hb)
    omega
  | took bufferAddr htake hqueues hcall hnext =>
    refine ⟨names_take htake, conserved_tryGetBuffer hconserved htake fun b hb => ?_⟩
    have hcount := hcounts b
    have hzero := owner_zero (hne b hb)
    rw [hqueues, hcall, hnext] at hcount
    omega
  | released hpool hqueues hnext =>
    rw [hpool]
    refine ⟨names_releaseBuffer _ _, conserved_releaseBuffer hconserved hinv.nonzero fun b hb => ?_⟩
    have hcount := hcounts b
    have hzero := owner_zero (hne b hb)
    rw [hqueues, hnext] at hcount
    omega

theorem step (hinv : ServerInvariant bufferSize s) (htime : pushesInTime s = true)
    {input : ServerInput} (hi : s.calls[i]? = some call)
    (hnext : call.next bufferSize input s.shared = some (s', next)) :
    ServerInvariant bufferSize { shared := s', calls := s.calls.set i next } := by
  have hmem := List.mem_of_getElem? hi
  have hpush : ∀ step req, call = .worker step (.pushing req) →
      step.begins req = true → kTimeoutLoss < req.timeout := by
    rintro step req rfl hbegins
    have hcall := List.all_eq_true.mp htime _ hmem
    simpa [hbegins] using hcall
  have hstep := ServerStep.of_next hinv.fresh hinv.checked
    (hinv.calls call hmem) hpush hnext
  obtain ⟨hnames, hconserved⟩ := hinv.conservedStep hi hstep.move
  refine ⟨hconserved, hnames ▸ hinv.nonzero, ?_, ?_, ?_⟩
  · intro req hreq
    obtain hold | hzero := hstep.fresh req hreq
    · exact hinv.fresh req hold
    · exact hzero
  · intro req hreq
    obtain hold | hvalid := hstep.checked req hreq
    · exact hinv.checked req hold
    · exact hvalid
  · exact forall_mem_set_of_forall hstep.fits hinv.calls

theorem run {s s' : Config ServerState ServerCall} {actions : List (Action ServerCall ServerInput)}
    (hreach : (serverProgram bufferSize).run s actions = some s')
    (htime : (serverProgram bufferSize).throughout pushesInTime s actions = true)
    (hinv : ServerInvariant bufferSize s) : ServerInvariant bufferSize s' := by
  refine (Program.run_invariant_throughout (ServerInvariant bufferSize)
    pushesInTime ?_ ?_ actions hreach htime hinv).1
  · intro s call hstarts _ hinv
    exact hinv.startCall hstarts
  · intro s i input call next shared hi hnext htime _ hinv
    exact hinv.step htime hi hnext

end ServerInvariant

def ServerCall.quiet : ServerCall → Bool
  | .worker _ .waiting | .ctrlMsg none | .pushed _ => true
  | _ => false

def ServerQuiet (s : Config ServerState ServerCall) : Prop :=
  s.shared.reqQueue = [] ∧ s.shared.secondStepQueue = [] ∧
    s.shared.ctrlMsgQueue = [] ∧ s.calls.all ServerCall.quiet = true

theorem ServerCall.held_of_quiet (hquiet : call.quiet = true) : call.held = 0 := by
  cases call with
  | pushBufferReq req => exact absurd hquiet (by simp [quiet])
  | pushed ret => rfl
  | worker step point =>
    cases point with
    | waiting => rfl
    | _ => exact absurd hquiet (by simp [quiet])
  | ctrlMsg req =>
    cases req with
    | none => rfl
    | some req => exact absurd hquiet (by simp [quiet])

/-- In every run in which no request is pushed to the second step with too
little time, each buffer is idle and belongs to nobody, or belongs to exactly
one queued or in-process request; when there is no request, all buffers are
idle. -/
theorem serverPool_conserved (bufferSize : ℕ) (pool : PoolAddrs)
    (actions : List (Action ServerCall ServerInput)) (s : Config ServerState ServerCall)
    (hreach : (serverProgram bufferSize).run (serverStart pool) actions = some s)
    (htime : (serverProgram bufferSize).throughout pushesInTime (serverStart pool) actions = true) :
    (∀ entry ∈ s.shared.pool, entry.2 = true ∧ holders s entry.1 = 0 ∨
        entry.2 = false ∧ holders s entry.1 = 1) ∧
      (ServerQuiet s → ∀ entry ∈ s.shared.pool, entry.2 = true) := by
  have hinv := (ServerInvariant.start bufferSize pool).run hreach htime
  constructor
  · intro entry hentry
    have hcount := hinv.conserved.held entry hentry
    cases hidle : entry.2 with
    | true =>
      rw [hidle] at hcount
      exact Or.inl ⟨rfl, hcount⟩
    | false =>
      rw [hidle] at hcount
      exact Or.inr ⟨rfl, hcount⟩
  · rintro ⟨hreq, hsecond, hctrl, hcalls⟩
    apply hinv.conserved.all_idle
    intro b hb
    have hne : b ≠ 0 := fun heq => hinv.nonzero (heq ▸ hb)
    have hnone : s.calls.countP (fun call => call.held = b) = 0 := by
      rw [List.countP_eq_zero]
      intro call hcall
      have hheld := ServerCall.held_of_quiet
        (List.all_eq_true.mp hcalls call hcall)
      simp [hheld, Ne.symm hne]
    rw [holders, hnone, ServerState.queued, hreq, hsecond, hctrl]
    rfl

def twoBuffers : PoolAddrs where
  addrs := [4096, 8192]
  nodup := by decide
  nonzero := by decide

def timedWrite (timeout : ℕ) : BufferReq where
  transferType := some .writeH2RD
  timeout := timeout
  bufferAddr := 16384
  dstAddrs := [500]
  bufferLens := [4]
  totalBufferLen := 4

/-- A write comes in, and the first thread works on it for 1100 microseconds. -/
def firstStepRun (timeout : ℕ) : List (Action ServerCall ServerInput) :=
  [.start (.pushBufferReq (timedWrite timeout)), .run 3 {}, .run 0 {},
    .run 0 {}, .run 0 {}, .run 0 { timeCost := 7, busy := 1100 }, .run 0 {}]

def wholeWriteRun : List (Action ServerCall ServerInput) :=
  firstStepRun 10000 ++ [.run 1 {}, .run 1 {}, .run 1 {}, .run 1 {}, .run 2 {}, .run 2 {}]

theorem serverPool_conserved_wholeWrite :
    ∃ s, (serverProgram 8).run (serverStart twoBuffers) wholeWriteRun = some s ∧
      s.shared.pool = [(4096, true), (8192, true)] ∧
      ∀ entry ∈ s.shared.pool, entry.2 = true ∧ holders s entry.1 = 0 ∨
        entry.2 = false ∧ holders s entry.1 = 1 :=
  ⟨_, rfl, rfl, (serverPool_conserved 8 twoBuffers wholeWriteRun _ rfl (by decide)).1⟩

/-- Of 1300 microseconds 93 are left when the request is to be pushed to the second
step: its buffer is neither idle nor owned by any request. -/
theorem serverPool_loses_buffer :
    ∃ s, (serverProgram 8).run (serverStart twoBuffers) (firstStepRun 1300) = some s ∧
      s.shared.pool = [(4096, false), (8192, true)] ∧ holders s 4096 = 0 ∧ ServerQuiet s :=
  ⟨_, rfl, rfl, rfl, rfl, rfl, rfl, rfl⟩

end Hixl.Adxl
