/-!
# Sides and balances

A node of the tree has two sides.  Its balance is the height of its right side less that of its left
side, and only three values are allowed.  In the slab a balance is one signed byte.
-/

namespace PackedMap

/-- One of the two sides of a node. -/
inductive Side
  | left
  | right
deriving DecidableEq, Repr

/-- Which side of a node is higher, by one level. -/
inductive Balance
  | leftHeavy
  | even
  | rightHeavy
deriving DecidableEq, Repr

namespace Side

/-- The other side. -/
def flip : Side → Side
  | left => right
  | right => left

/-- The balance of a node whose given side is the higher one. -/
def heavy : Side → Balance
  | left => .leftHeavy
  | right => .rightHeavy

/-- The side on which a comparison goes on, if it goes on. -/
def ofOrdering? : Ordering → Option Side
  | .lt => some left
  | .eq => none
  | .gt => some right

@[simp]
theorem flip_flip (side : Side) : side.flip.flip = side := by
  cases side <;> rfl

end Side

namespace Balance

/-- Height of the right side less height of the left side. -/
def toInt : Balance → Int
  | leftHeavy => -1
  | even => 0
  | rightHeavy => 1

/-- The balance with a given height difference, if there is one. -/
def ofInt? : Int → Option Balance
  | -1 => some leftHeavy
  | 0 => some even
  | 1 => some rightHeavy
  | _ => none

/-- The stored byte: the height difference as a signed byte. -/
def toByte (balance : Balance) : UInt8 := (Int8.ofInt balance.toInt).toUInt8

/-- The balance that a stored byte stands for, if it stands for one. -/
def ofByte? (byte : UInt8) : Option Balance := ofInt? byte.toInt8.toInt

/-- The balance of a node over sides of the given heights, taken as signed bytes. -/
def ofHeights? (left right : Nat) : Option Balance :=
  ofInt? (Int8.ofNat right - Int8.ofNat left).toInt

@[simp]
theorem ofByte?_toByte (balance : Balance) : ofByte? balance.toByte = some balance := by
  cases balance <;> rfl

end Balance

end PackedMap
