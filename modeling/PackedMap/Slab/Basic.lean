import PackedMap.CapacityError
import PackedMap.Fault
import PackedMap.Slab.Record

/-!
# The slab

One growable run of bytes holds the records of all entries back to back.  Besides its bytes a slab
has a capacity, the number of bytes it may fill before it has to grow, and a limit that its capacity
never passes.  Slots and lengths are 32-bit words, so no limit is above the greatest of these.
-/

namespace PackedMap

/-- A run of bytes with a capacity and a limit. -/
structure Slab where
  /-- The used bytes. -/
  data : Array UInt8
  /-- Bytes that may be used without growing. -/
  capacity : Nat
  /-- The greatest capacity. -/
  limit : Nat
deriving DecidableEq, Repr

namespace Slab

/-- The greatest limit, so that every slot and every length is a 32-bit word. -/
def greatestLimit : Nat := 0xFFFFFFFF

/-- An empty slab with room for `initial` bytes, or for as many as its limit allows. -/
def withCapacity (initial limit : Nat) : Slab :=
  ⟨#[], min initial (min limit greatestLimit), min limit greatestLimit⟩

/-- An empty slab without room. -/
def empty (limit : Nat) : Slab := withCapacity 0 limit

/-- Number of used bytes. -/
def used (slab : Slab) : Nat := slab.data.size

/-- Number of used units. -/
def units (slab : Slab) : Nat := slab.used / unitSize

/-- The slot after the last entry. -/
def endSlot (slab : Slab) : Slot := .ofUnits slab.units

/-- Whether a link points into the used part. -/
def contains (slab : Slab) : Link → Bool
  | none => false
  | some slot => decide (slot.index < slab.endSlot.index)

/-- The slab without spare room.  A copy of a slab takes no more room than this either. -/
def shrink (slab : Slab) : Slab := { slab with capacity := slab.used }

/-- A copy of the slab that keeps the spare room, so that it can be put back in its place. -/
def snapshot (slab : Slab) : Slab := { slab with capacity := max slab.capacity slab.used }

/-- A slab with no more bytes than it has room for is its own snapshot. -/
theorem snapshot_eq {slab : Slab} (used_le : slab.used ≤ slab.capacity) : slab.snapshot = slab := by
  rw [snapshot, Nat.max_eq_left used_le]

/-- The slab without the entry at a slot and those after it. -/
def truncate (slab : Slab) (slot : Slot) : Slab :=
  { slab with data := slab.data.take slot.offset }

end Slab

end PackedMap
