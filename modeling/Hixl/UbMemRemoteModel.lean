import Hixl.MemStoreModel

/-!
# Translation of remote addresses

A client imports the memory ranges of its peer and maps each of them at a local
address.  The translation index is an ordered multimap from peer addresses to
mapped ranges, in which neighbours that are adjacent in both address spaces
share one entry.  Operation descriptors are rewritten through the index and cut
at the borders of its entries.
-/

namespace Hixl

/-- A live range of the peer.  An imported range was checked for overflow when
the span of its import was computed and lies inside one local reservation; an
identity-bound range keeps the address under which it was registered. -/
structure RemoteRange where
  vaAddr : ℕ
  len : ℕ
  localVa : ℕ
  imported : Bool
  peer_fits : vaAddr + len ≤ wordMax 64
  local_fits : localVa + len ≤ wordMax 64

structure VaInfo where
  vaAddr : ℕ
  len : ℕ
  imported : Bool
  deriving DecidableEq, Repr

structure IndexEntry where
  peerAddr : ℕ
  info : VaInfo
  deriving DecidableEq, Repr

abbrev UbMemRemoteIndex := List IndexEntry

namespace UbMemRemoteIndex

def emplace (index : UbMemRemoteIndex) (entry : IndexEntry) : UbMemRemoteIndex :=
  (index.takeWhile fun other => other.peerAddr ≤ entry.peerAddr) ++
    entry :: index.dropWhile fun other => other.peerAddr ≤ entry.peerAddr

end UbMemRemoteIndex

def RemoteRange.entry (range : RemoteRange) : IndexEntry where
  peerAddr := range.vaAddr
  info := ⟨range.localVa, range.len, range.imported⟩

def addToIndex (index : UbMemRemoteIndex) (entry : IndexEntry) : UbMemRemoteIndex :=
  match index.getLast? with
  | none => index.emplace entry
  | some last =>
    let peerAdjacent : Bool := wrapAdd 64 last.peerAddr last.info.len = entry.peerAddr
    let localAdjacent : Bool := wrapAdd 64 last.info.vaAddr last.info.len = entry.info.vaAddr
    if peerAdjacent && localAdjacent && last.info.imported == entry.info.imported then
      index.dropLast ++ [{ last with info :=
          { last.info with len := wrapAdd 64 last.info.len entry.info.len } }]
    else index.emplace entry

/-- The index of the ranges of the unordered table, one entry for each range,
whether or not its ends are addresses. -/
def buildIndex (entries : List IndexEntry) : UbMemRemoteIndex :=
  (entries.mergeSort fun lhs rhs => lhs.peerAddr ≤ rhs.peerAddr).foldl addToIndex []

def sortedRanges (ranges : List RemoteRange) : List RemoteRange :=
  ranges.mergeSort fun lhs rhs => lhs.vaAddr ≤ rhs.vaAddr

def rebuildTranslationIndex (ranges : List RemoteRange) : UbMemRemoteIndex :=
  buildIndex (ranges.map RemoteRange.entry)

def probeDown (oldAddr : ℕ) : List IndexEntry → Option (ℕ × ℕ)
  | [] => none
  | entry :: rest =>
    let offset := oldAddr - entry.peerAddr
    if offset ≥ entry.info.len ∨ entry.info.vaAddr > wordMax 64 - offset then
      probeDown oldAddr rest
    else some (entry.info.vaAddr + offset, entry.info.len - offset)

/-- The mapped address of a peer address and the length left in its entry. -/
def findMappedAddrPrefix (oldAddr : ℕ) (index : UbMemRemoteIndex) : Option (ℕ × ℕ) :=
  probeDown oldAddr (index.takeWhile fun entry => entry.peerAddr ≤ oldAddr).reverse

/-- The loop over one operation.  Every round consumes at least one byte, so
that the length of the operation is enough fuel. -/
def translateOp (index : UbMemRemoteIndex) (op : HixlOneSideOpDesc) :
    ℕ → ℕ → Status × List HixlOneSideOpDesc
  | 0, offset => if offset < op.len then (.failed, []) else (.success, [])
  | fuel + 1, offset =>
    if offset < op.len then
      match findMappedAddrPrefix (op.remoteBuf + offset) index with
      | none => (.paramInvalid, [])
      | some (newRemote, availableLen) =>
        let chunkLen := min (op.len - offset) availableLen
        let out : HixlOneSideOpDesc :=
          { remoteBuf := newRemote
            localBuf := op.localBuf + offset
            len := chunkLen }
        let (status, rest) := translateOp index op fuel (offset + chunkLen)
        (status, out :: rest)
    else (.success, [])

/-- The overflow checks compare an address with the largest address less the
length; they are written as a sum here. -/
def translateRemoteOpDescs (index : UbMemRemoteIndex) :
    List HixlOneSideOpDesc → Status × List HixlOneSideOpDesc
  | [] => (.success, [])
  | op :: rest =>
    if op.len = 0 then (.paramInvalid, [])
    else if ¬(op.remoteBuf + op.len ≤ wordMax 64 ∧
        op.localBuf + op.len ≤ wordMax 64) then (.paramInvalid, [])
    else
      match translateOp index op op.len 0 with
      | (.success, pieces) =>
        let (status, more) := translateRemoteOpDescs index rest
        (status, pieces ++ more)
      | (status, pieces) => (status, pieces)

end Hixl
