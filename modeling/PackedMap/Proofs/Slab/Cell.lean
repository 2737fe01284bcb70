import PackedMap.Slab.Record

/-!
# The two halves of a record

A record is split into its cell, the pair and the state, and its node, the links and the balance.
Operations on trees change nodes and leave cells alone.  The written form of a record is split at
each field, so that a field can be read and written by itself.
-/

namespace PackedMap

/-- The links and the balance of an entry. -/
structure Node where
  /-- Link to the subtree before the entry. -/
  left : Link
  /-- Link to the subtree after the entry. -/
  right : Link
  /-- Which side is higher. -/
  balance : Balance
deriving DecidableEq, Repr

namespace Node

/-- The node of an entry outside the tree. -/
def detached : Node := ⟨none, none, .even⟩

/-- The link on a side. -/
def child (node : Node) : Side → Link
  | .left => node.left
  | .right => node.right

@[simp]
theorem child_detached (side : Side) : detached.child side = none := by
  cases side <;> rfl

/-- The node with another link on a side. -/
def withChild (node : Node) (link : Link) : Side → Node
  | .left => { node with left := link }
  | .right => { node with right := link }

/-- The node with another balance. -/
def withBalance (node : Node) (balance : Balance) : Node := { node with balance }

/-- The node with its links named as seen from one side. -/
def sides (side : Side) (near far : Link) (balance : Balance) : Node :=
  match side with
  | .left => ⟨near, far, balance⟩
  | .right => ⟨far, near, balance⟩

section Sides

variable {side : Side} {near far link : Link} {balance : Balance}

@[simp]
theorem child_sides : (sides side near far balance).child side = near := by
  cases side <;> rfl

@[simp]
theorem balance_sides : (sides side near far balance).balance = balance := by
  cases side <;> rfl

@[simp]
theorem withChild_sides :
    (sides side near far balance).withChild link side = sides side link far balance := by
  cases side <;> rfl

@[simp]
theorem withChild_flip_sides :
    (sides side near far balance).withChild link side.flip = sides side near link balance := by
  cases side <;> rfl

@[simp]
theorem withBalance_sides {balance' : Balance} :
    (sides side near far balance).withBalance balance' = sides side near far balance' := by
  cases side <;> rfl

end Sides

@[simp]
theorem withChild_child (node : Node) (side : Side) :
    node.withChild (node.child side) side = node := by
  cases side <;> rfl

@[simp]
theorem withBalance_balance (node : Node) : node.withBalance node.balance = node := rfl

end Node

/-- The pair and the state of an entry. -/
structure Cell where
  /-- The entry's key and value. -/
  pair : Pair
  /-- Whether the entry is a tombstone. -/
  tombstone : Bool
deriving DecidableEq, Repr

namespace Cell

/-- The cell of a live entry. -/
def live (pair : Pair) : Cell := ⟨pair, false⟩

/-- The same cell as a tombstone. -/
def entomb (cell : Cell) : Cell := { cell with tombstone := true }

/-- The cell with another value. -/
def withValue (cell : Cell) (value : Bytes) : Cell := { cell with pair := { cell.pair with value } }

/-- The record of a cell and a node. -/
def record (cell : Cell) (node : Node) : Record :=
  ⟨node.left, node.right, node.balance, cell.tombstone, cell.pair⟩

/-- Number of units of the record of a cell. -/
def units (cell : Cell) : Nat := unitsFor cell.pair.key.length cell.pair.value.length

@[simp]
theorem units_record (cell : Cell) (node : Node) : (cell.record node).units = cell.units := rfl

@[simp]
theorem units_entomb (cell : Cell) : cell.entomb.units = cell.units := rfl

/-- The cell with bytes laid over the start of its value, as many as both hold. -/
def lay (cell : Cell) (bytes : Bytes) : Cell :=
  cell.withValue (bytes.take cell.pair.value.length ++ cell.pair.value.drop bytes.length)

theorem lay_of_length {cell : Cell} {bytes : Bytes}
    (same : bytes.length = cell.pair.value.length) : cell.lay bytes = cell.withValue bytes := by
  simp [lay, List.take_of_length_le (Nat.le_of_eq same),
    List.drop_eq_nil_of_le (Nat.le_of_eq same.symm)]

theorem length_lay (cell : Cell) (bytes : Bytes) :
    (cell.lay bytes).pair.value.length = cell.pair.value.length := by
  simp only [lay, withValue, List.length_append, List.length_take, List.length_drop]
  omega

@[simp]
theorem detached_eq (pair : Pair) : Record.detached pair = (live pair).record .detached := rfl

@[simp]
theorem units_lay (cell : Cell) (bytes : Bytes) : (cell.lay bytes).units = cell.units := by
  simp only [units, length_lay]
  rfl

theorem length_encode_record (cell : Cell) (node : Node) :
    (cell.record node).encode.length = cell.units * unitSize :=
  Record.length_encode _

theorem size_le_units (cell : Cell) : Header.size + cell.pair.size ≤ cell.units * unitSize := by
  simp only [units, unitsFor, Pair.size, Header.size, unitSize]
  omega

theorem units_pos (cell : Cell) : 0 < cell.units := by
  have := cell.size_le_units
  simp only [Header.size, unitSize] at this
  omega

/-! ## Fields of the written form -/

/-- The state byte of a cell. -/
def stateByte (tombstone : Bool) : UInt8 :=
  if tombstone then Header.tombstoneByte else Header.liveByte

/-- The written form of a cell's lengths. -/
def lengthBytes (cell : Cell) : Bytes :=
  Word.toBytes (.ofNat cell.pair.key.length) ++ Word.toBytes (.ofNat cell.pair.value.length)

/-- The written form of a record's header. -/
def headerBytes (cell : Cell) (node : Node) : Bytes :=
  Word.toBytes node.left.toWord ++ Word.toBytes node.right.toWord ++ cell.lengthBytes ++
    [node.balance.toByte, stateByte cell.tombstone] ++ List.replicate 6 0

/-- What follows the header in the written form of a record. -/
def body (cell : Cell) : Bytes :=
  cell.pair.key ++ cell.pair.value ++
    List.replicate (cell.units * unitSize - (Header.size + cell.pair.size)) 0

theorem encode_record (cell : Cell) (node : Node) :
    (cell.record node).encode = cell.headerBytes node ++ cell.body := by
  simp only [Record.encode, Record.encodeHeader, record, headerBytes, body, lengthBytes,
    Record.units, units, stateByte, List.append_assoc]
  rfl

theorem encode_child (cell : Cell) (node : Node) (side : Side) :
    ∃ before after, before.length = Header.linkAt side ∧
      ∀ link, (cell.record (node.withChild link side)).encode =
        before ++ Word.toBytes (Link.toWord link) ++ after := by
  cases side with
  | left =>
      refine ⟨[], Word.toBytes node.right.toWord ++ cell.lengthBytes ++
        [node.balance.toByte, stateByte cell.tombstone] ++ List.replicate 6 0 ++ cell.body,
        rfl, fun link => ?_⟩
      simp [encode_record, headerBytes, Node.withChild]
  | right =>
      refine ⟨Word.toBytes node.left.toWord, cell.lengthBytes ++
        [node.balance.toByte, stateByte cell.tombstone] ++ List.replicate 6 0 ++ cell.body,
        rfl, fun link => ?_⟩
      simp [encode_record, headerBytes, Node.withChild]

theorem encode_balance (cell : Cell) (node : Node) :
    ∃ before after, before.length = Header.balanceAt ∧
      ∀ balance, (cell.record (node.withBalance balance)).encode =
        before ++ [balance.toByte] ++ after := by
  refine ⟨Word.toBytes node.left.toWord ++ Word.toBytes node.right.toWord ++ cell.lengthBytes,
    stateByte cell.tombstone :: (List.replicate 6 0 ++ cell.body), rfl, fun balance => ?_⟩
  simp [encode_record, headerBytes, Node.withBalance]

theorem encode_state (cell : Cell) (node : Node) :
    ∃ before after, before.length = Header.stateAt ∧
      ∀ tombstone, (record { cell with tombstone } node).encode =
        before ++ [stateByte tombstone] ++ after := by
  refine ⟨Word.toBytes node.left.toWord ++ Word.toBytes node.right.toWord ++ cell.lengthBytes ++
    [node.balance.toByte], List.replicate 6 0 ++ cell.body, rfl, fun tombstone => ?_⟩
  simp [encode_record, headerBytes, lengthBytes, body, units]

theorem encode_keyLength (cell : Cell) (node : Node) :
    ∃ before after, before.length = Header.keyLengthAt ∧
      (cell.record node).encode =
        before ++ Word.toBytes (.ofNat cell.pair.key.length) ++ after := by
  refine ⟨Word.toBytes node.left.toWord ++ Word.toBytes node.right.toWord,
    Word.toBytes (.ofNat cell.pair.value.length) ++
      [node.balance.toByte, stateByte cell.tombstone] ++ List.replicate 6 0 ++ cell.body, rfl, ?_⟩
  simp [encode_record, headerBytes, lengthBytes]

theorem encode_valueLength (cell : Cell) (node : Node) :
    ∃ before after, before.length = Header.valueLengthAt ∧
      (cell.record node).encode =
        before ++ Word.toBytes (.ofNat cell.pair.value.length) ++ after := by
  refine ⟨Word.toBytes node.left.toWord ++ Word.toBytes node.right.toWord ++
    Word.toBytes (.ofNat cell.pair.key.length),
    [node.balance.toByte, stateByte cell.tombstone] ++ List.replicate 6 0 ++ cell.body, rfl, ?_⟩
  simp [encode_record, headerBytes, lengthBytes]

theorem encode_key (cell : Cell) (node : Node) :
    ∃ before after, before.length = Header.size ∧
      (cell.record node).encode = before ++ cell.pair.key ++ after := by
  refine ⟨cell.headerBytes node, cell.pair.value ++
    List.replicate (cell.units * unitSize - (Header.size + cell.pair.size)) 0, rfl, ?_⟩
  simp [encode_record, body]

theorem encode_value (cell : Cell) (node : Node) :
    ∃ before after, before.length = Header.size + cell.pair.key.length ∧
      ∀ value, value.length = cell.pair.value.length →
        ((cell.withValue value).record node).encode = before ++ value ++ after := by
  refine ⟨cell.headerBytes node ++ cell.pair.key,
    List.replicate (cell.units * unitSize - (Header.size + cell.pair.size)) 0,
    List.length_append, fun value same => ?_⟩
  simp [encode_record, headerBytes, body, lengthBytes, units, withValue, Pair.size, same]

end Cell
end PackedMap
