import Hixl.BufferTransferModel
import Hixl.SegmentTableModel
import Mathlib.Data.List.TakeWhile

/-!
# The type of a buffered transfer

`GetTransferType` goes over the operations of a transfer.  An operation whose
local or remote range is in no segment needs a buffer, and from the first such
operation on every operation must have the type of the one before it.  The type
that is returned is that of the last operation.
-/

namespace Hixl.Adxl

inductive TransferOp where
  | read
  | write
  deriving DecidableEq, Repr

def determineTransferType : TransferOp → MemType → MemType → TransferType
  | .read, .host, .host => .readRH2H
  | .read, .host, .device => .readRD2H
  | .read, .device, .host => .readRH2D
  | .read, .device, .device => .readRD2D
  | .write, .host, .host => .writeH2RH
  | .write, .host, .device => .writeH2RD
  | .write, .device, .host => .writeD2RH
  | .write, .device, .device => .writeD2RD

structure TypeEnv where
  segmentTable : Option SegmentTable
  localEngine : String
  channelId : String
  operation : TransferOp

namespace TypeEnv

variable (env : TypeEnv)

def table : SegmentTable := env.segmentTable.getD []

def localSegment (op : TransferOpDesc) : Option Segment :=
  env.table.findSegment env.localEngine op.localAddr (wrapAdd 64 op.localAddr op.len)

def remoteSegment (op : TransferOpDesc) : Option Segment :=
  env.table.findSegment env.channelId op.remoteAddr (wrapAdd 64 op.remoteAddr op.len)

def memTypeOf (segment : Option Segment) : MemType :=
  match segment with
  | none => .host
  | some segment => segment.memType

def opType (op : TransferOpDesc) : TransferType :=
  determineTransferType env.operation (memTypeOf (env.localSegment op))
    (memTypeOf (env.remoteSegment op))

def opNeedsBuffer (op : TransferOpDesc) : Bool :=
  (env.localSegment op).isNone || (env.remoteSegment op).isNone

/-- The loop of `GetTransferType` from one of its rounds on; the type `none` is
`kEnd`. -/
def typeLoop : Bool → List TransferOpDesc → Bool → Option TransferType →
    Status × Bool × Option TransferType
  | _, [], needBuffer, type => (.success, needBuffer, type)
  | first, op :: ops, needBuffer, type =>
    let needBuffer := needBuffer || env.opNeedsBuffer op
    if !first && needBuffer && some (env.opType op) ≠ type then
      (.paramInvalid, needBuffer, type)
    else typeLoop false ops needBuffer (some (env.opType op))

def getTransferType (ops : List TransferOpDesc) (needBuffer : Bool)
    (type : Option TransferType) : Status × Bool × Option TransferType :=
  match env.segmentTable with
  | none => (.failed, needBuffer, type)
  | some _ => env.typeLoop true ops needBuffer type

/-- What `TransferSyncViaBuffer` does: it leaves the transfer to the direct
path, fails, or runs `BufferTransferService::Transfer`. -/
inductive ViaBuffer where
  | direct
  | fails (status : Status)
  | transfer (type : TransferType) (ops : List TransferOpDesc)
  deriving DecidableEq, Repr

def transferSyncViaBuffer (hasService : Bool) (ops : List TransferOpDesc) : ViaBuffer :=
  if !hasService then .direct
  else
    match env.getTransferType ops false none with
    | (.success, false, _) => .direct
    | (.success, true, none) => .fails .paramInvalid
    | (.success, true, some type) => .transfer type ops
    | (status, _, _) => .fails status

/-! ## What the loop has checked -/

variable {env} {needBuffer : Bool} {type : Option TransferType} {ops : List TransferOpDesc}
  {current : TransferType}

theorem typeLoop_buffered
    (hloop : env.typeLoop false ops true (some current) = (.success, needBuffer, type)) :
    type = some current ∧ ∀ op ∈ ops, env.opType op = current := by
  induction ops with
  | nil =>
    simp only [typeLoop, Prod.mk.injEq, true_and] at hloop
    exact ⟨hloop.2.symm, by simp⟩
  | cons op ops ih =>
    simp only [typeLoop, Bool.true_or, Bool.not_false, Bool.and_self,
      Bool.true_and, decide_eq_true_eq] at hloop
    split_ifs at hloop with hother
    · simp at hloop
    have hsame : env.opType op = current := by simpa using hother
    rw [hsame] at hloop
    obtain ⟨htype, hall⟩ := ih hloop
    refine ⟨htype, ?_⟩
    intro other hmem
    rcases List.mem_cons.mp hmem with rfl | hrest
    · exact hsame
    · exact hall other hrest

def lastType (env : TypeEnv) (ops : List TransferOpDesc)
    (type : Option TransferType) : Option TransferType :=
  ops.foldl (fun _ op => some (env.opType op)) type

variable {before : List TransferOpDesc}

theorem typeLoop_quiet (hquiet : ∀ op ∈ before, env.opNeedsBuffer op = false)
    (after : List TransferOpDesc) (first : Bool) (type : Option TransferType) :
    env.typeLoop first (before ++ after) false type =
      env.typeLoop (first && before.isEmpty) after false (env.lastType before type) := by
  induction before generalizing first type with
  | nil => simp [lastType]
  | cons op before ih =>
    have hop := hquiet op List.mem_cons_self
    have hrest := fun other hother => hquiet other (List.mem_cons_of_mem op hother)
    simp only [List.cons_append, typeLoop, hop, Bool.or_self,
      Bool.and_false, Bool.false_and, Bool.false_eq_true, if_false]
    rw [ih hrest]
    simp [lastType]

theorem lastType_uniform (hsame : ∀ a ∈ before, ∀ b ∈ before, env.opType a = env.opType b)
    (hlast : env.lastType before type = some current) (hne : before ≠ []) :
    ∀ op ∈ before, env.opType op = current := by
  have hconcat := List.dropLast_append_getLast hne
  have hend : env.opType (before.getLast hne) = current := by
    rw [← hconcat, lastType, List.foldl_append] at hlast
    simpa using hlast
  intro op hop
  rw [← hend]
  exact hsame op hop _ (List.getLast_mem hne)

/-- The operations before the first one that needs a buffer. -/
def quietOps (env : TypeEnv) (ops : List TransferOpDesc) : List TransferOpDesc :=
  ops.takeWhile fun op => !env.opNeedsBuffer op

variable {start : Option TransferType}

/-- From the last operation before the first one that needs a buffer, all
operations have the type that is returned. -/
theorem typeLoop_success (hloop : env.typeLoop true ops false start = (.success, true, type)) :
    ∃ current after, type = some current ∧ ops = env.quietOps ops ++ after ∧
      (∀ op ∈ after, env.opType op = current) ∧
      (env.quietOps ops ≠ [] → env.lastType (env.quietOps ops) start = some current) := by
  have hquiet : ∀ op ∈ env.quietOps ops, env.opNeedsBuffer op = false := by
    intro op hop
    simpa using List.mem_takeWhile_imp hop
  have hsplit : env.quietOps ops ++ ops.dropWhile (fun op => !env.opNeedsBuffer op) = ops :=
    List.takeWhile_append_dropWhile
  rw [← hsplit, typeLoop_quiet hquiet] at hloop
  cases hafter : ops.dropWhile fun op => !env.opNeedsBuffer op with
  | nil =>
    rw [hafter] at hloop
    simp [typeLoop] at hloop
  | cons op rest =>
    have hneeds : env.opNeedsBuffer op = true := by
      have hhead := List.head?_dropWhile_not
        (fun op => !env.opNeedsBuffer op) ops
      rw [hafter] at hhead
      simpa using hhead
    rw [hafter] at hloop hsplit
    simp only [typeLoop, hneeds, Bool.or_true, Bool.and_true,
      Bool.and_eq_true, decide_eq_true_eq] at hloop
    split_ifs at hloop with hother
    · simp at hloop
    obtain ⟨htype, hall⟩ := typeLoop_buffered hloop
    refine ⟨env.opType op, op :: rest, htype, hsplit.symm, ?_, ?_⟩
    · intro other hmem
      rcases List.mem_cons.mp hmem with rfl | hrest
      · rfl
      · exact hall other hrest
    · intro hne
      by_contra hdiffers
      apply hother
      have hempty : (env.quietOps ops).isEmpty = false := by simpa using hne
      refine ⟨by simp [hempty], Ne.symm hdiffers⟩

def SameType (env : TypeEnv) (ops : List TransferOpDesc) : Prop :=
  ∀ a ∈ ops, ∀ b ∈ ops, env.opType a = env.opType b

instance (env : TypeEnv) (ops : List TransferOpDesc) : Decidable (env.SameType ops) :=
  inferInstanceAs (Decidable (∀ a ∈ ops, ∀ b ∈ ops, env.opType a = env.opType b))

theorem getTransferType_success
    (hget : env.getTransferType ops needBuffer start = (.success, true, type)) :
    env.typeLoop true ops needBuffer start = (.success, true, type) := by
  unfold getTransferType at hget
  split at hget
  · simp at hget
  · exact hget

theorem typeLoop_uniform (hne : ops ≠ []) (hloop : env.typeLoop true ops needBuffer start =
      (.success, true, type)) (hquiet : needBuffer = false → env.SameType (env.quietOps ops)) :
    ∃ current, type = some current ∧ ∀ op ∈ ops, env.opType op = current := by
  cases needBuffer with
  | true =>
    cases ops with
    | nil => exact absurd rfl hne
    | cons op ops =>
      simp only [typeLoop, Bool.not_true, Bool.false_and, Bool.true_or,
        Bool.false_eq_true, if_false] at hloop
      obtain ⟨htype, hall⟩ := typeLoop_buffered hloop
      exact ⟨_, htype, by simpa using hall⟩
  | false =>
    obtain ⟨current, after, htype, hsplit, hafter, hlast⟩ := typeLoop_success hloop
    refine ⟨current, htype, ?_⟩
    intro op hop
    rw [hsplit] at hop
    rcases List.mem_append.mp hop with hbefore | hlater
    · have hsome := List.ne_nil_of_mem hbefore
      exact lastType_uniform (hquiet rfl) (hlast hsome) hsome op hbefore
    · exact hafter op hlater

theorem transferSyncViaBuffer_transfer {given : List TransferOpDesc} {hasService : Bool}
    (hvia : env.transferSyncViaBuffer hasService ops = .transfer current given) :
    given = ops ∧ env.getTransferType ops false none = (.success, true, some current) := by
  unfold transferSyncViaBuffer at hvia
  split at hvia
  · simp at hvia
  · split at hvia <;> simp_all

end TypeEnv

/-- The type that comes with a buffer is the type of all operations exactly
when the operations before the first one without a segment have one type; then
`BufferTransferService::Transfer` only runs on operations of its type. -/
theorem getTransferType_uniform (env : TypeEnv) (ops : List TransferOpDesc) (hne : ops ≠ []) :
    (∀ needBuffer start type, env.getTransferType ops needBuffer start = (.success, true, type) →
      ((∃ current, type = some current ∧ ∀ op ∈ ops, env.opType op = current) ↔
        (needBuffer = false → env.SameType (env.quietOps ops)))) ∧
    (env.SameType (env.quietOps ops) → ∀ hasService current given,
        env.transferSyncViaBuffer hasService ops = .transfer current given →
        given = ops ∧ ∀ op ∈ given, env.opType op = current) := by
  constructor
  · intro needBuffer start type hget
    have hloop := TypeEnv.getTransferType_success hget
    constructor
    · rintro ⟨current, -, hall⟩ - a ha b hb
      have hsub : env.quietOps ops ⊆ ops := List.takeWhile_subset _
      rw [hall a (hsub ha), hall b (hsub hb)]
    · exact TypeEnv.typeLoop_uniform hne hloop
  · intro hsame hasService current given hvia
    obtain ⟨rfl, hget⟩ := TypeEnv.transferSyncViaBuffer_transfer hvia
    obtain ⟨other, htype, hall⟩ := TypeEnv.typeLoop_uniform hne
      (TypeEnv.getTransferType_success hget) fun _ => hsame
    rw [Option.some.inj htype]
    exact ⟨rfl, hall⟩

def mixedSegments : TypeEnv where
  segmentTable := some
    [("local", [⟨.device, [(0, 100)]⟩, ⟨.host, [(100, 200)]⟩]), ("remote", [⟨.device, [(0, 100)]⟩])]
  localEngine := "local"
  channelId := "remote"
  operation := .write

theorem getTransferType_hostOps :
    mixedSegments.transferSyncViaBuffer true [⟨100, 0, 8⟩, ⟨500, 8, 8⟩] =
      .transfer .writeH2RD [⟨100, 0, 8⟩, ⟨500, 8, 8⟩] ∧
    ∀ op ∈ [⟨100, 0, 8⟩, ⟨500, 8, 8⟩], mixedSegments.opType op = .writeH2RD := by
  have hvia : mixedSegments.transferSyncViaBuffer true [⟨100, 0, 8⟩, ⟨500, 8, 8⟩] =
        .transfer .writeH2RD [⟨100, 0, 8⟩, ⟨500, 8, 8⟩] := by decide
  exact ⟨hvia, ((getTransferType_uniform mixedSegments _ (by decide)).2 (by decide) _ _ _ hvia).2⟩

/-- The first operation is from device memory; the third one is in no segment
and is only compared with the second. -/
theorem getTransferType_mixed :
    mixedSegments.transferSyncViaBuffer true [⟨0, 0, 8⟩, ⟨100, 8, 8⟩, ⟨500, 16, 8⟩] =
      .transfer .writeH2RD [⟨0, 0, 8⟩, ⟨100, 8, 8⟩, ⟨500, 16, 8⟩] ∧
    mixedSegments.getTransferType [⟨0, 0, 8⟩, ⟨100, 8, 8⟩, ⟨500, 16, 8⟩] false none =
      (.success, true, some .writeH2RD) ∧ mixedSegments.opType ⟨0, 0, 8⟩ = .writeD2RD := by
  decide

end Hixl.Adxl
