import PackedMap.Slab.Access

/-!
# Fields of an entry

Reading and writing the parts of one record in the slab.  Each writer changes the bytes of its own
field and no others.
-/

namespace PackedMap
namespace Slab

/-- The link on a side of an entry. -/
def child (slab : Slab) (slot : Slot) (side : Side) : Checked Link := do
  return Link.ofWord (← slab.wordAt (slot.offset + Header.linkAt side))

/-- Sets the link on a side of an entry. -/
def setChild (slab : Slab) (slot : Slot) (side : Side) (link : Link) : Checked Slab :=
  slab.write (slot.offset + Header.linkAt side) (Word.toBytes link.toWord)

/-- The balance of an entry. -/
def balance (slab : Slab) (slot : Slot) : Checked Balance := do
  Checked.ofOption .unbalanced
    (Balance.ofByte? (← slab.byteAt (slot.offset + Header.balanceAt)))

/-- Sets the balance of an entry. -/
def setBalance (slab : Slab) (slot : Slot) (balance : Balance) : Checked Slab :=
  slab.write (slot.offset + Header.balanceAt) [balance.toByte]

/-- Whether an entry is a tombstone. -/
def isTombstone (slab : Slab) (slot : Slot) : Checked Bool := do
  return (← slab.byteAt (slot.offset + Header.stateAt)) == Header.tombstoneByte

/-- Whether an entry has no links and an even balance, as outside the tree. -/
def isDetached (slab : Slab) (slot : Slot) : Checked Bool := do
  return (← slab.child slot .left).isNone && (← slab.child slot .right).isNone &&
    (← slab.balance slot) == .even

/-- Takes an entry out of the tree: no links, even balance. -/
def detach (slab : Slab) (slot : Slot) : Checked Slab := do
  let slab ← slab.setChild slot .left none
  let slab ← slab.setChild slot .right none
  slab.setBalance slot .even

/-- Makes a live entry a tombstone outside the tree.  Its bytes stay readable. -/
def layTombstone (slab : Slab) (slot : Slot) : Checked Slab := do
  if ← slab.isTombstone slot then throw .alreadyTombstone
  let slab ← slab.write (slot.offset + Header.stateAt) [Header.tombstoneByte]
  slab.detach slot

/-- Length of an entry's key. -/
def keyLength (slab : Slab) (slot : Slot) : Checked Nat := do
  return (← slab.wordAt (slot.offset + Header.keyLengthAt)).toNat

/-- Length of an entry's value. -/
def valueLength (slab : Slab) (slot : Slot) : Checked Nat := do
  return (← slab.wordAt (slot.offset + Header.valueLengthAt)).toNat

/-- Number of units that an entry takes. -/
def unitsAt (slab : Slab) (slot : Slot) : Checked Nat := do
  return unitsFor (← slab.keyLength slot) (← slab.valueLength slot)

/-- The slot right after an entry. -/
def next (slab : Slab) (slot : Slot) : Checked Slot := do
  return slot.advance (← slab.unitsAt slot)

/-- An entry's key. -/
def key (slab : Slab) (slot : Slot) : Checked Bytes := do
  slab.bytesAt (slot.offset + Header.size) (← slab.keyLength slot)

/-- Where an entry's value starts. -/
def valueStart (slab : Slab) (slot : Slot) : Checked Nat := do
  return slot.offset + Header.size + (← slab.keyLength slot)

/-- An entry's value. -/
def value (slab : Slab) (slot : Slot) : Checked Bytes := do
  slab.bytesAt (← slab.valueStart slot) (← slab.valueLength slot)

/-- Lays bytes over the start of an entry's value, as many as both hold. -/
def setValue (slab : Slab) (slot : Slot) (bytes : Bytes) : Checked Slab := do
  slab.write (← slab.valueStart slot) (bytes.take (← slab.valueLength slot))

/-- An entry's key and value. -/
def pair (slab : Slab) (slot : Slot) : Checked Pair := do
  return ⟨← slab.key slot, ← slab.value slot⟩

/-- All that the slab stores for an entry. -/
def record (slab : Slab) (slot : Slot) : Checked Record := do
  return {
    left := ← slab.child slot .left
    right := ← slab.child slot .right
    balance := ← slab.balance slot
    tombstone := ← slab.isTombstone slot
    pair := ← slab.pair slot }

end Slab
end PackedMap
