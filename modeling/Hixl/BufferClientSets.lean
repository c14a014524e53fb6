import Hixl.BufferClientModel
import Hixl.ExclusiveOwners

/-!
# The staging buffers of the client

A buffer of the client that is not idle is in the set of one request, or in the
hands of the call that has just taken it.  The holder of `req_id_mutex_` may
have released a buffer that is still in a set; such a buffer can be taken by
another call, but it cannot be put into a second set before the mutex is free.
-/

namespace Hixl.Adxl

open ClientCall

open InterleavedCalls IdlePools StagedCopies

namespace ClientCall

def info : ClientCall → Option TransferInfo
  | .emplace info | .startTask info | .taskDone info _
  | .checkFinish info _ _ | .guard info _ | .guardRelease info _ _ _
  | .returned info _ => some info
  | .loop frame _ | .getBuffer frame _ _ | .insert frame _ _
  | .copy frame _ _ | .send frame _ _ | .sent frame _ => some frame.info
  | _ => none

def entered : ClientCall → Bool
  | .emplace _ | .returned _ _ => false
  | _ => true

/-- A buffer that has been taken and is not yet in a set, with its request. -/
def taken : ClientCall → Option (ℕ × ℕ)
  | .insert frame _ buffer => some (frame.info.reqId, buffer)
  | _ => none

def answering : ClientCall → Option ℕ
  | .answer index | .resp index _ | .respRelease index _ _
  | .respErase index _ _ | .respDone index => some index
  | _ => none

/-- The call holds `req_id_mutex_` between two steps. -/
def locks : ClientCall → Bool
  | .guardRelease _ _ _ _ | .respRelease _ _ _ | .respErase _ _ _ => true
  | _ => false

/-- The buffers that a call has released while they are still in a set. -/
def freed : ClientCall → List ℕ
  | .guardRelease _ _ freed _ => freed
  | .respErase _ bufferResp _ => [bufferResp.bufferAddr]
  | _ => []

def LockFits (s : ClientState) : ClientCall → Prop
  | .guardRelease info _ freed left => s.bufferSet info.reqId = freed ++ left
  | .respRelease _ bufferResp _ | .respErase _ bufferResp _ =>
    (bufferResp.reqId, bufferResp.bufferAddr) ∈ s.buffers
  | _ => True

variable {call : ClientCall}

theorem freed_of_not_locks (hfree : call.locks = false) : call.freed = [] := by
  cases call <;> trivial

theorem lockFits_of_not_locks {s : ClientState} (hfree : call.locks = false) : call.LockFits s := by
  cases call <;> trivial

end ClientCall

def ClientState.inSets (s : ClientState) (buffer : ℕ) : ℕ :=
  s.buffers.countP fun entry => entry.2 = buffer

def takenBy (calls : List ClientCall) (buffer : ℕ) : ℕ :=
  calls.countP fun call => call.taken.any fun entry => entry.2 = buffer

def freedBy (calls : List ClientCall) (buffer : ℕ) : ℕ :=
  (calls.map fun call => call.freed.count buffer).sum

def owned (s : Config ClientState ClientCall) (buffer : ℕ) : ℕ :=
  s.shared.inSets buffer + takenBy s.calls buffer - freedBy s.calls buffer

/-! ## The steps -/

inductive SetStep (s : ClientState) :
    ClientCall → ClientState → ClientCall → Prop
  | quiet {call next : ClientCall} {s' : ClientState}
      (hnow : s.now ≤ s'.now := by grind) (hshared : s' = { s with now := s'.now } := by rfl)
      (hinfo : next.info = call.info := by rfl)
      (hentered : next.entered = call.entered := by rfl)
      (hanswering : next.answering = call.answering := by rfl)
      (htaken : call.taken = none := by rfl) (htaken' : next.taken = none := by rfl)
      (hlocks : call.locks = false := by rfl) (hlocks' : next.locks = false := by rfl) :
      SetStep s call s' next
  | begin (type : TransferType) (ops : List TransferOpDesc) (millis : ℤ)
      (timer : Timer) (now : ℕ) (hnow : s.now ≤ now) :
      SetStep s (.transfer type ops millis) { s with now, nextReqId := s.nextReqId + 1 }
        (.emplace ⟨s.nextReqId, type, ops, timer⟩)
  | emplace (info : TransferInfo) (hfree : s.locked = false) :
      SetStep s (.emplace info) { s with reqIds := s.reqIds.insert info.reqId } (.startTask info)
  | take (frame : TaskFrame) (timer : Timer) (call : SendCall) (buffer : ℕ)
      (pool : Pool ℕ) (htake : tryGetBuffer s.pool = some (buffer, pool)) :
      SetStep s (.getBuffer frame timer call) { s with pool } (.insert frame call buffer)
  | insert (frame : TaskFrame) (call : SendCall) (buffer : ℕ)
      (hfree : s.locked = false) :
      SetStep s (.insert frame call buffer)
        { s with
          reqIds := s.reqIds.insert frame.info.reqId
          buffers := s.buffers.insert (frame.info.reqId, buffer) }
        (.copy frame call buffer)
  | send (frame : TaskFrame) (call : SendCall) (buffer now timeout : ℕ)
      (hnow : s.now ≤ now) :
      SetStep s (.send frame call buffer)
        { s with
          now
          sent := s.sent ++
            [⟨call.bufferReq frame.info.type frame.info.reqId timeout buffer, call, none⟩] }
        (.sent frame call)
  | lock (info : TransferInfo) (ret : Status) (hfree : s.locked = false) :
      SetStep s (.guard info ret) { s with locked := true }
        (.guardRelease info ret [] (s.bufferSet info.reqId))
  | free (info : TransferInfo) (ret : Status) (freed left : List ℕ)
      (buffer : ℕ) :
      SetStep s (.guardRelease info ret freed (buffer :: left))
        { s with pool := releaseBuffer buffer s.pool }
        (.guardRelease info ret (freed ++ [buffer]) left)
  | erase (info : TransferInfo) (ret : Status) (freed : List ℕ) :
      SetStep s (.guardRelease info ret freed [])
        { s with
          reqIds := s.reqIds.erase info.reqId
          buffers := s.buffers.filter fun entry => entry.1 ≠ info.reqId
          locked := false }
        (.returned info ret)
  | respLock (index : ℕ) (bufferResp : BufferResp) (copied : List Slice)
      (hfree : s.locked = false)
      (hmem : (bufferResp.reqId, bufferResp.bufferAddr) ∈ s.buffers) :
      SetStep s (.resp index bufferResp) { s with locked := true }
        (.respRelease index bufferResp copied)
  | respFree (index : ℕ) (bufferResp : BufferResp) (copied : List Slice) :
      SetStep s (.respRelease index bufferResp copied)
        { s with pool := releaseBuffer bufferResp.bufferAddr s.pool }
        (.respErase index bufferResp copied)
  | respErase (index : ℕ) (bufferResp : BufferResp) (copied : List Slice) :
      SetStep s (.respErase index bufferResp copied)
        { s with
          buffers := s.buffers.erase (bufferResp.reqId, bufferResp.bufferAddr)
          sent := ClientCall.markHandled s.sent index copied
          locked := false }
        (.respDone index)

theorem nextTask_info (bufferSize : ℕ) (frame : TaskFrame) (now now₂ now₃ : ℕ) :
    let next := nextTask bufferSize frame now now₂ now₃
    next.info = some frame.info ∧ next.entered = true ∧
      next.answering = none ∧ next.taken = none ∧ next.locks = false := by
  rw [nextTask.eq_def]
  split
  all_goals split_ifs <;> exact ⟨rfl, rfl, rfl, rfl, rfl⟩

namespace ClientCall

variable (bufferSize : ℕ) (input : ClientInput) {s s' : ClientState} {call next : ClientCall}

theorem nextStart_cases (hnext : call.nextStart bufferSize input s = some (s', next)) :
    SetStep s call s' next := by
  cases call with
  | transfer type ops millis =>
    simp only [nextStart] at hnext
    split_ifs at hnext with hmillis
    all_goals cases hnext
    · exact .quiet
    · exact .begin type ops millis _ _ (Nat.le_add_right _ _)
  | emplace info =>
    simp only [nextStart] at hnext
    split_ifs at hnext with hlocked
    cases hnext
    exact .emplace info (Bool.eq_false_of_not_eq_true hlocked)
  | startTask info =>
    simp only [nextStart] at hnext
    split_ifs at hnext
    all_goals
      cases hnext
      exact .quiet
  | loop frame leftTimeout =>
    simp only [nextStart] at hnext
    split at hnext
    · cases hnext
      rw [nextLarge]
      split_ifs <;> exact .quiet
    · cases hnext
      obtain ⟨hinfo, hentered, hanswer, htaken, hlocks⟩ :=
        nextTask_info bufferSize frame (s.now + input.delay) (s.now + input.delay + input.delay₂)
          (s.now + input.delay + input.delay₂ + input.delay₃)
      have hnow : s.now ≤ s.now + input.delay + input.delay₂ + input.delay₃ := by omega
      exact .quiet hnow rfl hinfo hentered hanswer rfl htaken rfl hlocks
  | _ => exact absurd hnext (by simp [nextStart])

theorem nextSend_cases (hnext : call.nextSend input s = some (s', next)) :
    SetStep s call s' next := by
  cases call with
  | getBuffer frame timer call =>
    simp only [nextSend] at hnext
    split at hnext
    · next buffer pool htake =>
        cases hnext
        exact .take frame timer call buffer pool htake
    · cases hnext
      split_ifs
      all_goals exact .quiet
  | insert frame call buffer =>
    simp only [nextSend] at hnext
    split_ifs at hnext with hlocked
    cases hnext
    exact .insert frame call buffer (Bool.eq_false_of_not_eq_true hlocked)
  | copy frame call buffer =>
    cases hnext
    split_ifs
    all_goals exact .quiet
  | send frame call buffer =>
    simp only [nextSend] at hnext
    split_ifs at hnext
    all_goals cases hnext
    · exact .send frame call buffer _ _ (Nat.le_add_right _ _)
    · exact .quiet
  | sent frame call =>
    cases call with
    | flushBatch ops =>
      cases hnext
      exact .quiet
    | largeData addr remoteAddr count =>
      cases hnext
      split_ifs
      all_goals exact .quiet
  | _ => exact absurd hnext (by simp [nextSend])

theorem nextFinish_cases (hnext : call.nextFinish input s = some (s', next)) :
    SetStep s call s' next := by
  cases call with
  | taskDone | checkFinish =>
    simp only [nextFinish] at hnext
    split_ifs at hnext
    all_goals
      cases hnext
      exact .quiet
  | guard info ret =>
    simp only [nextFinish] at hnext
    split_ifs at hnext with hlocked
    cases hnext
    exact .lock info ret (Bool.eq_false_of_not_eq_true hlocked)
  | guardRelease info ret freed left =>
    cases left
    all_goals cases hnext
    · exact .erase info ret freed
    · exact .free info ret freed _ _
  | _ => exact absurd hnext (by simp [nextFinish])

theorem nextResp_cases (hnext : call.nextResp bufferSize input s = some (s', next)) :
    SetStep s call s' next := by
  cases call with
  | answer index =>
    simp only [nextResp] at hnext
    split at hnext
    · cases hnext
    · cases hnext
      split_ifs
      all_goals exact .quiet
  | resp index bufferResp =>
    simp only [nextResp] at hnext
    split_ifs at hnext with hlocked hkey hmem hcopied
    all_goals cases hnext
    · exact .quiet
    · exact .respLock index bufferResp _ (Bool.eq_false_of_not_eq_true hlocked) hmem
    all_goals exact .quiet
  | respRelease index bufferResp copied =>
    cases hnext
    exact .respFree index bufferResp copied
  | respErase index bufferResp copied =>
    cases hnext
    exact .respErase index bufferResp copied
  | _ => exact absurd hnext (by simp [nextResp])

theorem next_cases (hnext : call.next bufferSize input s = some (s', next)) :
    SetStep s call s' next := by
  cases call with
  | transfer | emplace | startTask | loop => exact nextStart_cases bufferSize input hnext
  | getBuffer | insert | copy | send | sent => exact nextSend_cases input hnext
  | taskDone | checkFinish | guard | guardRelease => exact nextFinish_cases input hnext
  | answer | resp | respRelease | respErase => exact nextResp_cases bufferSize input hnext
  | rejected | returned | respDone => exact absurd hnext nofun

end ClientCall

/-! ## The entries of the map -/

def RequestsApart (a b : ClientCall) : Prop :=
  ∀ x y, a.info = some x → b.info = some y → x.reqId ≠ y.reqId

theorem RequestsApart.symm {a b : ClientCall} (hapart : RequestsApart a b) : RequestsApart b a :=
  fun x y hx hy => (hapart y x hy hx).symm

def ClientCall.Keyed (s : ClientState) (call : ClientCall) : Prop :=
  ∀ info, call.info = some info → info.reqId < s.nextReqId ∧
    (info.reqId ∈ s.reqIds ↔ call.entered = true)

structure KeyInvariant (s : Config ClientState ClientCall) : Prop where
  keyed : ∀ call ∈ s.calls, call.Keyed s.shared
  fresh : ∀ r ∈ s.shared.reqIds, r < s.shared.nextReqId
  nodup : s.shared.reqIds.Nodup
  apart : ∀ (i j : ℕ) (a b : ClientCall), i ≠ j → s.calls[i]? = some a →
    s.calls[j]? = some b → RequestsApart a b

namespace KeyInvariant

variable {s : Config ClientState ClientCall} {i : ℕ} {call next : ClientCall} {shared : ClientState}

section

variable (hinv : KeyInvariant s)

include hinv

theorem startCall (hinfo : call.info = none) :
    KeyInvariant { s with calls := s.calls ++ [call] } where
  keyed := forall_mem_append (by simp [ClientCall.Keyed, hinfo]) hinv.keyed
  fresh := hinv.fresh
  nodup := hinv.nodup
  apart := pairs_append hinv.apart fun other _ => by simp [RequestsApart, hinfo]

theorem apart_same (hcall : s.calls[i]? = some call) (hinfo : next.info = call.info) :
    ∀ (j k : ℕ) (a b : ClientCall), j ≠ k → (s.calls.set i next)[j]? = some a →
      (s.calls.set i next)[k]? = some b → RequestsApart a b := by
  refine pairs_set hinv.apart ?_
  intro j other hne hother
  have hapart : RequestsApart next other :=
    fun x y hx => hinv.apart i j call other (Ne.symm hne) hcall hother x y (hinfo ▸ hx)
  exact ⟨hapart, hapart.symm⟩

theorem stepFrame (hcall : s.calls[i]? = some call) (hkeys : shared.reqIds = s.shared.reqIds)
    (hcounter : shared.nextReqId = s.shared.nextReqId)
    (hinfo : next.info = call.info) (hentered : next.entered = call.entered) :
    KeyInvariant { shared := shared, calls := s.calls.set i next } where
  keyed := by
    have hsame : ∀ other, ClientCall.Keyed s.shared other →
        ClientCall.Keyed shared other := by
      intro other hother info heq
      rw [hkeys, hcounter]
      exact hother info heq
    refine forall_mem_set ?_ ?_
    · apply hsame
      intro info heq
      rw [hentered]
      exact hinv.keyed call (List.mem_of_getElem? hcall) info (hinfo ▸ heq)
    · intro j other _ hother
      exact hsame other (hinv.keyed other (List.mem_of_getElem? hother))
  fresh := by
    intro r hr
    rw [hcounter]
    exact hinv.fresh r (hkeys ▸ hr)
  nodup := hkeys ▸ hinv.nodup
  apart := hinv.apart_same hcall hinfo

theorem stepBegin (now : ℕ) (type : TransferType) (ops : List TransferOpDesc) (timer : Timer) :
    KeyInvariant
      { shared :=
          { s.shared with now, nextReqId := s.shared.nextReqId + 1 }
        calls := s.calls.set i
          (.emplace ⟨s.shared.nextReqId, type, ops, timer⟩) } where
  keyed := by
    refine forall_mem_set ?_ ?_
    · rintro info heq
      cases heq
      refine ⟨Nat.lt_succ_self _, ?_⟩
      refine ⟨?_, nofun⟩
      intro hmem
      exact absurd (hinv.fresh _ hmem) (lt_irrefl _)
    · intro j other _ hother info heq
      obtain ⟨hlt, hkey⟩ := hinv.keyed other (List.mem_of_getElem? hother) info heq
      exact ⟨Nat.lt_succ_of_lt hlt, hkey⟩
  fresh := fun r hr => Nat.lt_succ_of_lt (hinv.fresh r hr)
  nodup := hinv.nodup
  apart := by
    refine pairs_set hinv.apart ?_
    intro j other _ hother
    have hapart : RequestsApart other (.emplace ⟨s.shared.nextReqId, type, ops, timer⟩) := by
      intro x y hx hy
      cases hy
      exact Nat.ne_of_lt (hinv.keyed other (List.mem_of_getElem? hother) x hx).1
    exact ⟨hapart.symm, hapart⟩

theorem stepKey (hcall : s.calls[i]? = some call) {info : TransferInfo}
    (hinfo : call.info = some info) (hinfo' : next.info = some info)
    (hcounter : shared.nextReqId = s.shared.nextReqId)
    (hkey : info.reqId ∈ shared.reqIds ↔ next.entered = true)
    (hothers : ∀ r, r ≠ info.reqId → (r ∈ shared.reqIds ↔ r ∈ s.shared.reqIds))
    (hnodup : shared.reqIds.Nodup) :
    KeyInvariant { shared := shared, calls := s.calls.set i next } where
  keyed := by
    refine forall_mem_set ?_ ?_
    · intro x hx
      obtain rfl := Option.some.inj (hinfo'.symm.trans hx)
      refine ⟨?_, hkey⟩
      rw [hcounter]
      exact (hinv.keyed call (List.mem_of_getElem? hcall) info hinfo).1
    · intro j other hne hother x hx
      obtain ⟨hlt, hmem⟩ := hinv.keyed other (List.mem_of_getElem? hother) x hx
      have hapart := hinv.apart j i other call hne hother hcall x info hx hinfo
      rw [hcounter, hothers x.reqId hapart]
      exact ⟨hlt, hmem⟩
  fresh := by
    intro r hr
    rw [hcounter]
    by_cases hown : r = info.reqId
    · rw [hown]
      exact (hinv.keyed call (List.mem_of_getElem? hcall) info hinfo).1
    · exact hinv.fresh r ((hothers r hown).mp hr)
  nodup := hnodup
  apart := hinv.apart_same hcall (hinfo'.trans hinfo.symm)

theorem step (hcall : s.calls[i]? = some call) (hstep : SetStep s.shared call shared next) :
    KeyInvariant { shared := shared, calls := s.calls.set i next } := by
  have hkeyed := hinv.keyed call (List.mem_of_getElem? hcall)
  cases hstep with
  | quiet _ hshared hinfo hentered =>
    have hkeys : shared.reqIds = s.shared.reqIds := by rw [hshared]
    have hcounter : shared.nextReqId = s.shared.nextReqId := by rw [hshared]
    exact hinv.stepFrame hcall hkeys hcounter hinfo hentered
  | begin type ops millis timer now => exact hinv.stepBegin now type ops timer
  | emplace info =>
    refine hinv.stepKey hcall rfl rfl rfl ?_ ?_ ?_
    · simp [entered]
    · intro r hr
      simp [List.mem_insert_iff, hr]
    · exact List.Nodup.insert hinv.nodup
  | insert frame =>
    have hmem := (hkeyed frame.info rfl).2.mpr rfl
    refine hinv.stepFrame hcall ?_ rfl rfl rfl
    exact List.insert_of_mem hmem
  | erase info =>
    refine hinv.stepKey hcall rfl rfl rfl ?_ ?_ ?_
    · simp [entered, hinv.nodup.not_mem_erase]
    · intro r hr
      exact List.mem_erase_of_ne hr
    · exact hinv.nodup.erase _
  | take | send | lock | free | respLock | respFree | respErase =>
    exact hinv.stepFrame hcall rfl rfl rfl rfl

end

end KeyInvariant

/-! ## The mutex -/

structure LockInvariant (s : Config ClientState ClientCall) : Prop where
  holder : s.calls.countP ClientCall.locks = s.shared.locked.toNat
  fits : ∀ call ∈ s.calls, call.LockFits s.shared

namespace LockInvariant

variable {s : Config ClientState ClientCall} {i j : ℕ}
  {call other next : ClientCall} {shared : ClientState}

section

variable (hinv : LockInvariant s)

include hinv

theorem locked (hmem : call ∈ s.calls) (hlocks : call.locks = true) : s.shared.locked = true := by
  have hpos := List.countP_pos_iff.mpr ⟨call, hmem, hlocks⟩
  rw [hinv.holder] at hpos
  cases hlocked : s.shared.locked with
  | true => rfl
  | false => simp [hlocked] at hpos

theorem not_locks (hfree : s.shared.locked = false)
    (hmem : call ∈ s.calls) : call.locks = false := by
  apply Bool.eq_false_of_not_eq_true
  intro hlocks
  simp [hinv.locked hmem hlocks] at hfree

theorem exclusive (hcall : s.calls[i]? = some call) (hother : s.calls[j]? = some other)
    (hne : j ≠ i) (hlocks : call.locks = true) : other.locks = false := by
  apply Bool.eq_false_of_not_eq_true
  intro hlocks'
  refine hne (ExclusiveOwners.eq_of_countP_le_one ?_ hother hcall hlocks' hlocks)
  rw [hinv.holder]
  exact Bool.toNat_le _

theorem freedBy_free (hfree : s.shared.locked = false) (b : ℕ) : freedBy s.calls b = 0 := by
  rw [freedBy, List.sum_eq_zero_iff_forall_eq_nat]
  intro n hn
  obtain ⟨call, hmem, rfl⟩ := List.mem_map.mp hn
  rw [freed_of_not_locks (hinv.not_locks hfree hmem)]
  rfl

theorem freedBy_holder (hcall : s.calls[i]? = some call) (hlocks : call.locks = true) (b : ℕ) :
    freedBy s.calls b = call.freed.count b := by
  have hmoved := sum_map_set_add hcall (.respDone 0)
    fun call => call.freed.count b
  have hrest : ((s.calls.set i (.respDone 0)).map fun call => call.freed.count b).sum = 0 := by
    rw [List.sum_eq_zero_iff_forall_eq_nat]
    intro n hn
    obtain ⟨other, hmem, rfl⟩ := List.mem_map.mp hn
    clear hn
    revert other
    refine forall_mem_set ?_ ?_
    · rfl
    · intro j other hne hother
      rw [freed_of_not_locks (hinv.exclusive hcall hother hne hlocks)]
      rfl
  have hdone : (respDone 0).freed.count b = 0 := rfl
  rw [freedBy]
  omega

theorem startCall (hlocks : call.locks = false) :
    LockInvariant { s with calls := s.calls ++ [call] } where
  holder := by simp [hlocks, hinv.holder]
  fits := forall_mem_append (lockFits_of_not_locks hlocks)
    hinv.fits

end

theorem buffers_of_locked (hstep : SetStep s.shared call shared next)
    (hlocked : s.shared.locked = true) (hlocks : call.locks = false) :
    shared.buffers = s.shared.buffers := by
  cases hstep with
  | quiet _ hshared => rw [hshared]
  | begin | emplace | take | send | lock | respLock => rfl
  | insert _ _ _ hfree => exact absurd (hlocked.symm.trans hfree) (by simp)
  | free | erase | respFree | respErase => exact absurd hlocks nofun

theorem fits_congr {s s' : ClientState} (hsame : s'.buffers = s.buffers)
    (hfits : call.LockFits s) : call.LockFits s' := by
  cases call <;>
    simp_all only [ClientCall.LockFits, ClientState.bufferSet]

theorem fits_next (hinv : LockInvariant s) (hmem : call ∈ s.calls)
    (hstep : SetStep s.shared call shared next) : next.LockFits shared := by
  have hfits := hinv.fits call hmem
  cases hstep with
  | quiet _ _ _ _ _ _ _ _ hlocks => exact lockFits_of_not_locks hlocks
  | begin | emplace | take | insert | send | erase | respErase => trivial
  | lock => rfl
  | free info ret freed left buffer =>
    refine hfits.trans ?_
    simp
  | respLock _ _ _ _ hin => exact hin
  | respFree => exact hfits

theorem step (hinv : LockInvariant s) (hcall : s.calls[i]? = some call)
    (hstep : SetStep s.shared call shared next) :
    LockInvariant { shared := shared, calls := s.calls.set i next } where
  holder := by
    have hmem := List.mem_of_getElem? hcall
    have hlocked : shared.locked.toNat + call.locks.toNat = s.shared.locked.toNat + next.locks.toNat
        := by
      cases hstep with
      | quiet _ hshared _ _ _ _ _ hlocks hlocks' => rw [hshared, hlocks, hlocks']
      | begin | emplace | take | insert | send | free | respFree => rfl
      | lock _ _ hfree | respLock _ _ _ hfree => simp [hfree, locks]
      | erase | respErase => simp [(hinv.locked hmem) rfl, locks]
    have hmoved := countP_set_add hcall next locks
    have hholder := hinv.holder
    simp only [Bool.toNat, Bool.cond_eq_ite] at hlocked hholder ⊢
    omega
  fits := by
    refine forall_mem_set (hinv.fits_next (List.mem_of_getElem? hcall) hstep) ?_
    intro j other hne hother
    have hmem := List.mem_of_getElem? hother
    cases hlocks : other.locks with
    | false => exact lockFits_of_not_locks hlocks
    | true =>
      have hfree := hinv.exclusive hother hcall (Ne.symm hne) hlocks
      have hsame := buffers_of_locked hstep (hinv.locked hmem hlocks) hfree
      exact fits_congr hsame (hinv.fits other hmem)

end LockInvariant

/-! ## The sets and the pool -/

structure SetInvariant (s : Config ClientState ClientCall) : Prop where
  keys : KeyInvariant s
  lock : LockInvariant s
  keyed : ∀ entry ∈ s.shared.buffers, entry.1 ∈ s.shared.reqIds
  nodup : (s.shared.buffers.map Prod.snd).Nodup
  nonzero : 0 ∉ s.shared.pool.map Prod.fst
  pooled : ∀ call ∈ s.calls, ∀ entry, call.taken = some entry →
    entry.2 ∈ s.shared.pool.map Prod.fst
  conserved : Conserved s.shared.pool (owned s)

theorem count_singleton_owner (buffer b : ℕ) : [buffer].count b = owner buffer b := by
  rw [List.count_singleton, owner]
  simp only [beq_iff_eq]

section

variable (s : ClientState)

include s

theorem inSets_erase {entry : ℕ × ℕ} (hmem : entry ∈ s.buffers) (b : ℕ) :
    (s.buffers.erase entry).countP (fun e => e.2 = b) + owner entry.2 b = s.inSets b := by
  have hperm := (List.perm_cons_erase hmem).countP_eq fun e => e.2 = b
  rw [ClientState.inSets, hperm, List.countP_cons, owner]
  simp only [decide_eq_true_eq]

theorem inSets_filter (r b : ℕ) :
    (s.buffers.filter fun e => e.1 ≠ r).countP (fun e => e.2 = b) + (s.bufferSet r).count b =
      s.inSets b := by
  rw [ClientState.bufferSet, List.count, List.countP_map, ClientState.inSets,
    List.countP_eq_countP_filter_add s.buffers _ fun e => e.1 ≠ r]
  simp only [ne_eq, decide_not, Bool.not_not]
  rfl

end

variable {call : ClientCall}

theorem freed_count_le {s : ClientState} (hfits : call.LockFits s) (b : ℕ) :
    call.freed.count b ≤ s.inSets b := by
  cases call with
  | guardRelease info ret freed left =>
    have hle := inSets_filter s info.reqId b
    rw [show s.bufferSet info.reqId = freed ++ left from hfits, List.count_append] at hle
    change freed.count b ≤ _
    omega
  | respErase index bufferResp copied =>
    have herase : _ + owner bufferResp.bufferAddr b = _ := inSets_erase s hfits b
    rw [freed, count_singleton_owner]
    omega
  | _ => exact Nat.zero_le _

theorem LockInvariant.freedBy_le {s : Config ClientState ClientCall} (hinv : LockInvariant s)
    (b : ℕ) : freedBy s.calls b ≤ s.shared.inSets b := by
  by_cases hlocked : ∃ call ∈ s.calls, call.locks = true
  · obtain ⟨call, hmem, hlocks⟩ := hlocked
    obtain ⟨i, hcall⟩ := List.mem_iff_getElem?.mp hmem
    rw [hinv.freedBy_holder hcall hlocks]
    exact freed_count_le (hinv.fits call hmem) b
  · have hfree : s.shared.locked = false := by
      apply Bool.eq_false_of_not_eq_true
      intro hheld
      have hholder := hinv.holder
      rw [hheld] at hholder
      have hpos : 0 < s.calls.countP locks := by
        rw [hholder]
        exact Nat.one_pos
      exact hlocked (List.countP_pos_iff.mp hpos)
    rw [hinv.freedBy_free hfree]
    exact Nat.zero_le _

def ClientCall.takes (call : ClientCall) (b : ℕ) : ℕ :=
  call.taken.elim 0 fun entry => owner entry.2 b

variable {calls : List ClientCall} {i : ℕ}

section

variable (hcall : calls[i]? = some call) (next : ClientCall) (b : ℕ)

include hcall next b

theorem takenBy_set :
    takenBy (calls.set i next) b + call.takes b = takenBy calls b + next.takes b := by
  have hone : ∀ c : ClientCall, c.takes b =
      if (c.taken.any fun entry => entry.2 = b) = true then 1 else 0 := by
    intro c
    rw [takes]
    cases c.taken with
    | none => rfl
    | some entry => simp [owner]
  rw [hone, hone]
  exact countP_set_add hcall next _

end

namespace SetInvariant

variable {s : Config ClientState ClientCall} {i : ℕ} {call next : ClientCall} {shared : ClientState}
  {buffer : ℕ}

section

variable (hinv : SetInvariant s)

include hinv

/-- A buffer that a call has just taken is in no set while the mutex is
free. -/
theorem taken_not_in_sets {frame : TaskFrame} {send : SendCall}
    (hcall : s.calls[i]? = some (.insert frame send buffer)) (hfree : s.shared.locked = false) :
    buffer ∉ s.shared.buffers.map Prod.snd := by
  obtain ⟨entry, hentry, rfl⟩ := List.mem_map.mp (hinv.pooled _ (List.mem_of_getElem? hcall) _ rfl)
  have hheld := hinv.conserved.held entry hentry
  have hle : owned s entry.1 ≤ 1 := by
    rw [hheld]
    split_ifs
    · exact Nat.zero_le 1
    · exact le_refl 1
  have htaken := takenBy_set hcall (.respDone 0) entry.1
  have hone : (insert frame send entry.1).takes entry.1 = 1 :=
    if_pos rfl
  have hzero : (respDone 0).takes entry.1 = 0 := rfl
  rw [owned, hinv.lock.freedBy_free hfree] at hle
  intro hin
  obtain ⟨other, hother, heq⟩ := List.mem_map.mp hin
  have hpos : 0 < s.shared.inSets entry.1 :=
    List.countP_pos_iff.mpr ⟨other, hother, decide_eq_true heq⟩
  omega

/-- A step changes the owners of a buffer as it changes the sets, the buffers
in the hands of its call and those that it has freed. -/
theorem owned_step (hcall : s.calls[i]? = some call)
    (hlock : LockInvariant { shared := shared, calls := s.calls.set i next }) (b : ℕ) :
    owned { shared := shared, calls := s.calls.set i next } b +
        (s.shared.inSets b + call.takes b + next.freed.count b) =
      owned s b + (shared.inSets b + next.takes b + call.freed.count b) := by
  have hle := hinv.lock.freedBy_le b
  have hle' := hlock.freedBy_le b
  have htaken := takenBy_set hcall next b
  have hfreed := sum_map_set_add hcall next fun call => call.freed.count b
  simp only [owned, freedBy] at *
  omega

theorem conservedStep (hcall : s.calls[i]? = some call)
    (hstep : SetStep s.shared call shared next) :
    shared.pool.map Prod.fst = s.shared.pool.map Prod.fst ∧ Conserved shared.pool
        (owned { shared := shared, calls := s.calls.set i next }) := by
  have hmove := hinv.owned_step hcall (hinv.lock.step hcall hstep)
  have hfits := hinv.lock.fits call (List.mem_of_getElem? hcall)
  -- A step that moves no buffer between its owners.
  have hkept : shared.pool = s.shared.pool →
      (∀ b, shared.inSets b + next.takes b + call.freed.count b =
        s.shared.inSets b + call.takes b + next.freed.count b) →
      shared.pool.map Prod.fst = s.shared.pool.map Prod.fst ∧ Conserved shared.pool
          (owned { shared := shared, calls := s.calls.set i next }) := by
    intro hpool hsame
    rw [hpool]
    refine ⟨rfl, hinv.conserved.congr fun b _ => ?_⟩
    have hmove := hmove b
    have hsame := hsame b
    omega
  cases hstep with
  | quiet _ hshared _ _ _ htaken htaken' hlocks hlocks' =>
    refine hkept (by rw [hshared]) fun b => ?_
    have hsets : shared.inSets b = s.shared.inSets b := by
      rw [hshared]
      rfl
    rw [hsets, takes, takes, htaken, htaken',
      freed_of_not_locks hlocks,
      freed_of_not_locks hlocks']
  | begin | emplace | send | lock | respLock => exact hkept rfl fun _ => rfl
  | take frame timer send buffer pool htake =>
    refine ⟨names_take htake, conserved_tryGetBuffer hinv.conserved htake fun b _ => ?_⟩
    have hmove : _ + (s.shared.inSets b + 0 + 0) =
      _ + (s.shared.inSets b + owner buffer b + 0) := hmove b
    omega
  | insert frame send buffer hfree =>
    have hnew : (frame.info.reqId, buffer) ∉ s.shared.buffers :=
      fun hin => hinv.taken_not_in_sets hcall hfree (List.mem_map_of_mem hin)
    refine hkept rfl fun b => ?_
    rw [ClientState.inSets, List.insert_of_not_mem hnew, List.countP_cons]
    simp only [decide_eq_true_eq]
    rfl
  | free info ret freed left buffer =>
    refine ⟨names_releaseBuffer _ _, conserved_releaseBuffer hinv.conserved
      hinv.nonzero fun b _ => ?_⟩
    have hmove : _ + (s.shared.inSets b + 0 + (freed ++ [buffer]).count b) =
      _ + (s.shared.inSets b + 0 + freed.count b) := hmove b
    rw [List.count_append, count_singleton_owner] at hmove
    omega
  | erase info ret freed =>
    refine hkept rfl fun b => ?_
    have hfilter := inSets_filter s.shared info.reqId b
    rwa [show s.shared.bufferSet info.reqId = freed ++ [] from hfits, List.append_nil] at hfilter
  | respFree index bufferResp copied =>
    refine ⟨names_releaseBuffer _ _, conserved_releaseBuffer hinv.conserved
      hinv.nonzero fun b _ => ?_⟩
    have hmove : _ + (s.shared.inSets b + 0 + [bufferResp.bufferAddr].count b) =
      _ + (s.shared.inSets b + 0 + 0) := hmove b
    rw [count_singleton_owner] at hmove
    omega
  | respErase index bufferResp copied =>
    refine hkept rfl fun b => ?_
    rw [freed, count_singleton_owner]
    exact inSets_erase s.shared hfits b

theorem keyedStep (hstep : SetStep s.shared call shared next) :
    ∀ entry ∈ shared.buffers, entry.1 ∈ shared.reqIds := by
  intro entry hentry
  cases hstep with
  | quiet _ hshared =>
    rw [hshared] at hentry ⊢
    exact hinv.keyed entry hentry
  | begin | take | send | lock | free | respLock | respFree => exact hinv.keyed entry hentry
  | emplace info => exact List.mem_insert_of_mem (hinv.keyed entry hentry)
  | insert frame send buffer =>
    cases List.mem_insert_iff.mp hentry with
    | inl heq =>
      rw [heq]
      exact List.mem_insert_self
    | inr hold => exact List.mem_insert_of_mem (hinv.keyed entry hold)
  | erase info ret freed =>
    obtain ⟨hold, hne⟩ := List.mem_filter.mp hentry
    exact (List.mem_erase_of_ne (of_decide_eq_true hne)).mpr (hinv.keyed entry hold)
  | respErase => exact hinv.keyed entry (List.mem_of_mem_erase hentry)

theorem nodupStep (hcall : s.calls[i]? = some call) (hstep : SetStep s.shared call shared next) :
    (shared.buffers.map Prod.snd).Nodup := by
  cases hstep with
  | quiet _ hshared =>
    rw [hshared]
    exact hinv.nodup
  | begin | emplace | take | send | lock | free | respLock | respFree => exact hinv.nodup
  | insert frame send buffer hfree =>
    have hnew := hinv.taken_not_in_sets hcall hfree
    have hpair : (frame.info.reqId, buffer) ∉ s.shared.buffers :=
      fun hin => hnew (List.mem_map_of_mem hin)
    rw [List.insert_of_not_mem hpair, List.map_cons, List.nodup_cons]
    exact ⟨hnew, hinv.nodup⟩
  | erase => exact hinv.nodup.sublist (List.filter_sublist.map Prod.snd)
  | respErase => exact hinv.nodup.sublist (List.erase_sublist.map Prod.snd)

theorem pooledStep (hnames : shared.pool.map Prod.fst = s.shared.pool.map Prod.fst)
    (hstep : SetStep s.shared call shared next) :
    ∀ other ∈ s.calls.set i next, ∀ entry, other.taken = some entry →
      entry.2 ∈ shared.pool.map Prod.fst := by
  rw [hnames]
  refine forall_mem_set ?_ ?_
  · intro entry hentry
    cases hstep with
    | quiet _ _ _ _ _ _ htaken => exact absurd (htaken.symm.trans hentry) nofun
    | take frame timer send buffer pool htake =>
      cases hentry
      obtain ⟨before, after, hpool, -⟩ := take_spec htake
      rw [hpool]
      simp
    | _ => exact absurd hentry nofun
  · intro j other _ hother
    exact hinv.pooled other (List.mem_of_getElem? hother)

theorem step (hcall : s.calls[i]? = some call) (hstep : SetStep s.shared call shared next) :
    SetInvariant { shared := shared, calls := s.calls.set i next } := by
  obtain ⟨hnames, hconserved⟩ := hinv.conservedStep hcall hstep
  exact ⟨hinv.keys.step hcall hstep, hinv.lock.step hcall hstep,
    hinv.keyedStep hstep, hinv.nodupStep hcall hstep,
    hnames ▸ hinv.nonzero, hinv.pooledStep hnames hstep, hconserved⟩

theorem startCall (hstarts : call.starts = true) :
    SetInvariant { s with calls := s.calls ++ [call] } := by
  have hnew : call.info = none ∧ call.taken = none ∧ call.locks = false := by
    cases call with
    | transfer | answer => exact ⟨rfl, rfl, rfl⟩
    | _ => exact absurd hstarts nofun
  obtain ⟨hinfo, htaken, hlocks⟩ := hnew
  refine ⟨hinv.keys.startCall hinfo, hinv.lock.startCall hlocks, hinv.keyed,
    hinv.nodup, hinv.nonzero, ?_, hinv.conserved.congr fun b _ => ?_⟩
  · refine forall_mem_append ?_ hinv.pooled
    intro entry hentry
    exact absurd (htaken.symm.trans hentry) nofun
  · simp [owned, takenBy, freedBy, htaken, freed_of_not_locks hlocks]

end

theorem start (pool : PoolAddrs) : SetInvariant (clientStart pool) := by
  have hnames : (clientStart pool).shared.pool.map Prod.fst = pool.addrs := by
    simp [clientStart, Function.comp_def]
  refine ⟨⟨?_, ?_, List.nodup_nil, ?_⟩, ⟨rfl, ?_⟩, ?_, List.nodup_nil,
    hnames ▸ pool.nonzero, ?_, ⟨hnames ▸ pool.nodup, ?_⟩⟩
  · exact List.forall_mem_nil _
  · exact List.forall_mem_nil _
  · exact fun _ _ _ _ _ hcall => absurd hcall nofun
  · exact List.forall_mem_nil _
  · exact List.forall_mem_nil _
  · exact List.forall_mem_nil _
  · intro entry hentry
    obtain ⟨addr, -, rfl⟩ := List.mem_map.mp hentry
    rfl

theorem run {bufferSize : ℕ} {pool : PoolAddrs} (actions : List (Action ClientCall ClientInput))
    (hreach : (clientProgram bufferSize).run (clientStart pool) actions = some s) :
    SetInvariant s := by
  refine Program.run_invariant SetInvariant ?_ ?_ actions hreach (start pool)
  · intro s call hstarts hinv
    exact hinv.startCall hstarts
  · intro s i input call next shared hcall hnext hinv
    exact hinv.step hcall (next_cases bufferSize input hnext)

theorem busy_of_others (hinv : SetInvariant s) {info : TransferInfo} {ret : Status}
    (hreturned : .returned info ret ∈ s.calls) (hbusy : (buffer, false) ∈ s.shared.pool) :
    ∃ r, r ≠ info.reqId ∧ ((r, buffer) ∈ s.shared.buffers ∨
      ∃ other ∈ s.calls, other.taken = some (r, buffer)) := by
  have hgone : info.reqId ∉ s.shared.reqIds := by
    intro hin
    exact absurd ((hinv.keys.keyed _ hreturned info rfl).2.mp hin) nofun
  have hheld : owned s buffer = 1 := hinv.conserved.held _ hbusy
  by_cases hin : buffer ∈ s.shared.buffers.map Prod.snd
  · obtain ⟨entry, hentry, rfl⟩ := List.mem_map.mp hin
    refine ⟨entry.1, ?_, Or.inl hentry⟩
    intro heq
    exact hgone (heq ▸ hinv.keyed entry hentry)
  · have hsets : s.shared.inSets buffer = 0 := by
      rw [ClientState.inSets, List.countP_eq_zero]
      intro entry hentry heq
      exact hin (of_decide_eq_true heq ▸ List.mem_map_of_mem hentry)
    have hpos : 0 < takenBy s.calls buffer := by
      rw [owned] at hheld
      omega
    obtain ⟨other, hother, htaken⟩ := List.countP_pos_iff.mp hpos
    obtain ⟨⟨r, b⟩, hentry, heq⟩ := Option.any_eq_true _ _ |>.mp htaken
    obtain rfl : b = buffer := of_decide_eq_true heq
    refine ⟨r, ?_, Or.inr ⟨other, hother, hentry⟩⟩
    cases other with
    | insert frame send buffer =>
      cases hentry
      intro heq
      have hkey := (hinv.keys.keyed _ hother frame.info rfl).2.mpr rfl
      exact hgone (heq ▸ hkey)
    | _ => exact absurd hentry nofun

end SetInvariant

end Hixl.Adxl
