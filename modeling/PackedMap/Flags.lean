/-!
# Flags

Switches for additions and deletions, a set of bits in one byte.
-/

namespace PackedMap

/-- A set of switches. -/
structure Flags where
  /-- One bit for each switch. -/
  bits : UInt8
deriving DecidableEq, Repr

namespace Flags

/-- No switch at all. -/
def empty : Flags := ⟨0⟩

/-- Compact the map once tombstones outnumber live entries. -/
def allowCompaction : Flags := ⟨1⟩

/-- On addition, put the new entry in the place of one that compares equal. -/
def replace : Flags := ⟨2⟩

/-- The switches of both sets. -/
def union (a b : Flags) : Flags := ⟨a.bits ||| b.bits⟩

/-- Whether a set has all switches of another. -/
def contains (flags other : Flags) : Bool := flags.bits &&& other.bits == other.bits

end Flags

end PackedMap
