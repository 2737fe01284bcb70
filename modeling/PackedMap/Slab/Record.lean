import PackedMap.Balance
import PackedMap.Pair
import PackedMap.Slot
import PackedMap.Word

/-!
# Records

A record is what the slab stores for one entry: the pair, the two links and the balance of its tree
node, and whether it is a tombstone.  Its written form is a header of 24 bytes, the key, the value,
and zeros up to a whole number of units.  The header holds four words (left link, right link, key
length, value length), the balance byte, the state byte and six zeros.
-/

namespace PackedMap

namespace Header

/-- Number of bytes of a header. -/
def size : Nat := 24

/-- Where the left link stands in the header. -/
def leftAt : Nat := 0

/-- Where the right link stands in the header. -/
def rightAt : Nat := 4

/-- Where the key length stands in the header. -/
def keyLengthAt : Nat := 8

/-- Where the value length stands in the header. -/
def valueLengthAt : Nat := 12

/-- Where the balance stands in the header. -/
def balanceAt : Nat := 16

/-- Where the state stands in the header. -/
def stateAt : Nat := 17

/-- Where the link on a side stands in the header. -/
def linkAt : Side → Nat
  | .left => leftAt
  | .right => rightAt

/-- The state byte of a live entry. -/
def liveByte : UInt8 := 1

/-- The state byte of a tombstone. -/
def tombstoneByte : UInt8 := 2

end Header

/-- Number of units that an entry with a key and a value of the given lengths takes. -/
def unitsFor (keyLength valueLength : Nat) : Nat :=
  (Header.size + keyLength + valueLength + (unitSize - 1)) / unitSize

/-- What the slab stores for one entry. -/
structure Record where
  /-- Link to the subtree before the entry. -/
  left : Link
  /-- Link to the subtree after the entry. -/
  right : Link
  /-- Balance of the entry's node. -/
  balance : Balance
  /-- Whether the entry is a tombstone. -/
  tombstone : Bool
  /-- The entry's key and value. -/
  pair : Pair
deriving DecidableEq, Repr

namespace Record

/-- The record of a live entry outside the tree. -/
def detached (pair : Pair) : Record := ⟨none, none, .even, false, pair⟩

/-- Number of units of a record. -/
def units (record : Record) : Nat :=
  unitsFor record.pair.key.length record.pair.value.length

/-- Written form of a record's header. -/
def encodeHeader (record : Record) : Bytes :=
  Word.toBytes record.left.toWord ++ Word.toBytes record.right.toWord ++
    Word.toBytes (.ofNat record.pair.key.length) ++
    Word.toBytes (.ofNat record.pair.value.length) ++
    [record.balance.toByte, if record.tombstone then Header.tombstoneByte else Header.liveByte] ++
    List.replicate 6 0

/-- Written form of a record, a whole number of units long. -/
def encode (record : Record) : Bytes :=
  record.encodeHeader ++ record.pair.key ++ record.pair.value ++
    List.replicate (record.units * unitSize - (Header.size + record.pair.size)) 0

@[simp]
theorem length_encodeHeader (record : Record) : record.encodeHeader.length = Header.size := by
  simp [encodeHeader, Header.size, Word.size]

theorem length_encode (record : Record) : record.encode.length = record.units * unitSize := by
  simp only [encode, units, unitsFor, Pair.size, List.length_append, List.length_replicate,
    length_encodeHeader, Header.size, unitSize]
  omega

end Record

end PackedMap
