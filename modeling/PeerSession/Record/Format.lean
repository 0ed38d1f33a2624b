namespace PeerSession.Record

/-!
# Record formats

Four layouts have been written over time. The first word of a record tells them
apart: three markers name the versioned layouts, and any other word is the
counter of the oldest layout, which has no marker. Formats are ordered from the
oldest to the newest; two unmarked ones by their counters.
-/

/-- The layout that a record is stored in. -/
inductive Format where
  | unmarked (counter : UInt32)
  | v1
  | v2
  | v3
  deriving DecidableEq, Repr

namespace Format

/-- The first word of the first versioned layout. -/
def markerV1 : UInt32 := 0x55555555

/-- The first word of the second versioned layout. -/
def markerV2 : UInt32 := 0x55555556

/-- The first word of the third versioned layout. -/
def markerV3 : UInt32 := 0x55555557

/-- The first word of every record that is written. -/
def newestMarker : UInt32 := markerV3

/-- Tell the format from the first word of a record. -/
def ofFirst (first : UInt32) : Format :=
  if first = markerV1 then
    .v1
  else if first = markerV2 then
    .v2
  else if first = markerV3 then
    .v3
  else
    .unmarked first

/-- The first word of a versioned layout. -/
def marker? : Format → Option UInt32
  | .unmarked _ => none
  | .v1 => some markerV1
  | .v2 => some markerV2
  | .v3 => some markerV3

/-- Whether this is the format that records are written in. -/
def isNewest (format : Format) : Bool :=
  format = .v3

/-- The place of a layout in the order from oldest to newest. -/
def age : Format → Nat
  | .unmarked _ => 0
  | .v1 => 1
  | .v2 => 2
  | .v3 => 3

/-- The counter that an unmarked record starts with, 0 for the others. -/
def leadingCounter : Format → UInt32
  | .unmarked counter => counter
  | _ => 0

instance : Ord Format where
  compare left right :=
    (compare left.age right.age).then
      (compare left.leadingCounter right.leadingCounter)

end Format

end PeerSession.Record
