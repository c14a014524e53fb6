import Hixl.MachineWords

/-!
# The segment table

For every channel id the table has one segment for each memory type that was
added; a segment is the list of its ranges, sorted by their start.  The ranges
of the engine itself are under its own listen info, those of a peer under the
id of the channel.
-/

namespace Hixl.Adxl

inductive MemType where
  | device
  | host
  deriving DecidableEq, Repr

structure Segment where
  memType : MemType
  ranges : List (ℕ × ℕ) := []
  deriving DecidableEq, Repr

namespace Segment

/-- The ranges before the iterator of `std::upper_bound`. -/
def upTo (seg : Segment) (start : ℕ) : List (ℕ × ℕ) :=
  seg.ranges.takeWhile fun range => range.1 ≤ start

/-- The ranges from the iterator of `std::upper_bound` on. -/
def above (seg : Segment) (start : ℕ) : List (ℕ × ℕ) :=
  seg.ranges.dropWhile fun range => range.1 ≤ start

def addRange (start stop : ℕ) (seg : Segment) : Segment :=
  if stop < start then seg
  else { seg with ranges := seg.upTo start ++ (start, stop) :: seg.above start }

def removeFrom (start stop : ℕ) : List (ℕ × ℕ) → List (ℕ × ℕ)
  | [] => []
  | range :: rest =>
    if range.1 = start then
      if range.2 = stop then rest
      else range :: removeFrom start stop rest
    else range :: rest

def removeRange (start stop : ℕ) (seg : Segment) : Segment :=
  { seg with
    ranges := (seg.ranges.takeWhile fun range => range.1 < start) ++
      removeFrom start stop (seg.ranges.dropWhile fun range => range.1 < start) }

/-- The first loop of `Contains`, from the iterator to the front: how far the
ranges reach and whether one of them covers the start.  No value when the loop
has returned `true`. -/
def reachLeft (start stop : ℕ) : List (ℕ × ℕ) → ℕ → Bool → Option (ℕ × Bool)
  | [], maxReached, covered => some (maxReached, covered)
  | range :: rest, maxReached, covered =>
    if start < range.2 then
      if stop ≤ max maxReached range.2 then none
      else reachLeft start stop rest (max maxReached range.2) true
    else reachLeft start stop rest maxReached covered

def reachRight (stop : ℕ) : List (ℕ × ℕ) → ℕ → Bool
  | [], maxReached => stop ≤ maxReached
  | range :: rest, maxReached =>
    if maxReached < range.1 then stop ≤ maxReached
    else if maxReached < range.2 then
      if stop ≤ range.2 then true else reachRight stop rest range.2
    else reachRight stop rest maxReached

def contains (seg : Segment) (start stop : ℕ) : Bool :=
  if stop < start then false
  else
    match reachLeft start stop (seg.upTo start).reverse start false with
    | none => true
    | some (_, false) => false
    | some (maxReached, true) => reachRight stop (seg.above start) maxReached

end Segment

abbrev SegmentTable := List (String × List Segment)

namespace SegmentTable

def segments (table : SegmentTable) (channelId : String) : List Segment :=
  (table.lookup channelId).getD []

def addToSegments (start stop : ℕ) (type : MemType) : List Segment → List Segment
  | [] => [Segment.addRange start stop { memType := type }]
  | seg :: rest =>
    if seg.memType = type then seg.addRange start stop :: rest
    else seg :: addToSegments start stop type rest

def setSegments (table : SegmentTable) (channelId : String) (segs : List Segment) : SegmentTable :=
  (channelId, segs) :: table.filter fun entry => entry.1 ≠ channelId

def addRange (channelId : String) (start stop : ℕ) (type : MemType)
    (table : SegmentTable) : SegmentTable :=
  table.setSegments channelId (addToSegments start stop type (table.segments channelId))

def removeFromSegments (start stop : ℕ) (type : MemType) : List Segment → List Segment
  | [] => []
  | seg :: rest =>
    if seg.memType = type then seg.removeRange start stop :: rest
    else seg :: removeFromSegments start stop type rest

def removeRange (channelId : String) (start stop : ℕ) (type : MemType)
    (table : SegmentTable) : SegmentTable :=
  match table.lookup channelId with
  | none => table
  | some segs => table.setSegments channelId (removeFromSegments start stop type segs)

def removeChannel (channelId : String) (table : SegmentTable) : SegmentTable :=
  table.filter fun entry => entry.1 ≠ channelId

def findSegment (table : SegmentTable) (channelId : String) (start stop : ℕ) : Option Segment :=
  (table.segments channelId).find? fun seg => seg.contains start stop

end SegmentTable

end Hixl.Adxl
