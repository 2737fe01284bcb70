import PackedMap.Proofs.Slab.Runs
import PackedMap.Proofs.Slab.Tiling
import PackedMap.Slab.Field
import Mathlib.Data.List.Nodup

/-!
# Stocks

A stock is what a slab holds apart from its tree: the cells with their bounds, which fit into the
capacity and the capacity into the limit.  With a node for each slot a stock determines the bytes of
the slab.  Every field of an entry is then read as it is in its cell and its node, and writing a
field changes that cell or that node and no other.
-/

namespace PackedMap

/-- The cells of a slab, with its capacity and its limit. -/
structure Stock where
  /-- The cells, tombstones included. -/
  cells : List Cell
  /-- The capacity of the slab. -/
  capacity : Nat
  /-- The limit of the slab. -/
  limit : Nat
  used_le : Cell.total cells * unitSize ≤ capacity
  capacity_le : capacity ≤ limit
  limit_le : limit ≤ Slab.greatestLimit

namespace Stock

/-- The cells with their slots. -/
def placed (stock : Stock) : List (Slot × Cell) := Cell.tiling 0 stock.cells

/-- The slots of all entries. -/
def slots (stock : Stock) : List Slot := stock.placed.map Prod.fst

/-- The written form of cells with the nodes of their slots. -/
def written (nodes : Slot → Node) (placed : List (Slot × Cell)) : Bytes :=
  placed.flatMap fun (slot, cell) => (cell.record (nodes slot)).encode

/-- The slab with the cells of the stock and the given nodes. -/
def slab (stock : Stock) (nodes : Slot → Node) : Slab :=
  ⟨(written nodes stock.placed).toArray, stock.capacity, stock.limit⟩

/-- The nodes with another one for a slot. -/
def assign (nodes : Slot → Node) (slot : Slot) (node : Node) : Slot → Node :=
  fun other => if other = slot then node else nodes other

@[simp]
theorem assign_same (nodes : Slot → Node) (slot : Slot) (node : Node) :
    assign nodes slot node slot = node := if_pos rfl

@[simp]
theorem assign_self (nodes : Slot → Node) (slot : Slot) :
    assign nodes slot (nodes slot) = nodes := by
  funext other
  unfold assign
  split <;> simp_all

theorem assign_other {nodes : Slot → Node} {slot other : Slot} {node : Node}
    (differ : other ≠ slot) : assign nodes slot node other = nodes other := if_neg differ

@[simp]
theorem assign_assign (nodes : Slot → Node) (slot : Slot) (first second : Node) :
    assign (assign nodes slot first) slot second = assign nodes slot second := by
  funext other
  unfold assign
  split <;> rfl

/-! ## Bounds -/

theorem total_small (stock : Stock) : Cell.total stock.cells < 2 ^ 29 := by
  have used := stock.used_le
  have capacity := stock.capacity_le
  have limit := stock.limit_le
  simp only [unitSize, Slab.greatestLimit] at used limit
  omega

theorem bounds_of_mem {stock : Stock} {slot : Slot} {cell : Cell}
    (mem : (slot, cell) ∈ stock.placed) :
    slot.index.toNat + cell.units ≤ Cell.total stock.cells := by
  have small := stock.total_small
  have bounds := Cell.mem_tiling_bounds (by omega) mem
  omega

theorem slots_increasing (stock : Stock) :
    stock.slots.Pairwise fun a b => a.index.toNat < b.index.toNat := by
  have small := stock.total_small
  exact Cell.tiling_increasing (by omega)

theorem slots_nodup (stock : Stock) : stock.slots.Nodup :=
  stock.slots_increasing.imp fun less same => by simp [same] at less

theorem map_snd_placed (stock : Stock) : stock.placed.map Prod.snd = stock.cells :=
  Cell.map_snd_tiling ..

theorem length_slots (stock : Stock) : stock.slots.length = stock.cells.length := by
  rw [slots, List.length_map, ← stock.map_snd_placed, List.length_map]

theorem mem_slots {stock : Stock} {slot : Slot} {cell : Cell} (mem : (slot, cell) ∈ stock.placed) :
    slot ∈ stock.slots :=
  List.mem_map.mpr ⟨_, mem, rfl⟩

theorem exists_cell {stock : Stock} {slot : Slot} (mem : slot ∈ stock.slots) :
    ∃ cell, (slot, cell) ∈ stock.placed := by
  obtain ⟨⟨_, cell⟩, placed, rfl⟩ := List.mem_map.mp mem
  exact ⟨cell, placed⟩

/-- A slot that holds an entry can be stored as a link. -/
theorem ne_nilWord_of_mem {stock : Stock} {slot : Slot} (mem : slot ∈ stock.slots) :
    some slot ≠ (some ⟨Link.nilWord⟩ : Link) := by
  obtain ⟨cell, placed⟩ := exists_cell mem
  have bounds := bounds_of_mem placed
  have small := stock.total_small
  rintro same
  obtain rfl := Option.some.inj same
  simp only [Link.nilWord, UInt32.reduceToNat] at bounds
  omega

/-! ## The bytes around one entry -/

theorem length_written (nodes : Slot → Node) (start : Nat) (cells : List Cell) :
    (written nodes (Cell.tiling start cells)).length = Cell.total cells * unitSize := by
  induction cells generalizing start with
  | nil => simp [written, Cell.tiling, Cell.total]
  | cons cell cells ih =>
      have rest := ih (start + cell.units)
      simp only [written] at rest
      simp only [written, Cell.tiling, Cell.total, List.flatMap_cons, List.length_append, rest,
        Cell.length_encode_record, Nat.add_mul]

@[simp]
theorem used_slab (stock : Stock) (nodes : Slot → Node) :
    (stock.slab nodes).used = Cell.total stock.cells * unitSize := by
  simp [Slab.used, slab, placed, length_written]

/-- Nodes of other slots do not show in the bytes. -/
theorem written_congr {nodes nodes' : Slot → Node} {entries : List (Slot × Cell)}
    (agree : ∀ entry ∈ entries, nodes' entry.1 = nodes entry.1) :
    written nodes' entries = written nodes entries := by
  simp only [written]
  exact List.flatMap_congr fun entry mem => by rw [agree entry mem]

/-- A change to the cell at one slot. -/
def changeAt (slot : Slot) (change : Cell → Cell) (other : Slot) (cell : Cell) : Cell :=
  if other = slot then change cell else cell

theorem units_changeAt {slot : Slot} {change : Cell → Cell}
    (same : ∀ cell, (change cell).units = cell.units) (other : Slot) (cell : Cell) :
    (changeAt slot change other cell).units = cell.units := by
  unfold changeAt
  split <;> simp [same]

/-- The stock with a changed cell at a slot. -/
def alter (stock : Stock) (slot : Slot) (change : Cell → Cell)
    (same : ∀ cell, (change cell).units = cell.units) : Stock where
  cells := stock.placed.map fun entry => changeAt slot change entry.1 entry.2
  capacity := stock.capacity
  limit := stock.limit
  used_le := by
    rw [placed, Cell.total_map_tiling fun other cell _ => units_changeAt same other cell]
    exact stock.used_le
  capacity_le := stock.capacity_le
  limit_le := stock.limit_le

theorem placed_alter (stock : Stock) (slot : Slot) {change : Cell → Cell}
    (same : ∀ cell, (change cell).units = cell.units) :
    (stock.alter slot change same).placed =
      stock.placed.map fun entry => (entry.1, changeAt slot change entry.1 entry.2) :=
  Cell.tiling_map fun other cell _ => units_changeAt same other cell

@[simp]
theorem slots_alter (stock : Stock) (slot : Slot) {change : Cell → Cell}
    (same : ∀ cell, (change cell).units = cell.units) :
    (stock.alter slot change same).slots = stock.slots := by
  rw [slots, placed_alter, List.map_map]
  rfl

@[simp]
theorem total_alter (stock : Stock) (slot : Slot) {change : Cell → Cell}
    (same : ∀ cell, (change cell).units = cell.units) :
    Cell.total (stock.alter slot change same).cells = Cell.total stock.cells :=
  Cell.total_map_tiling fun other cell _ => units_changeAt same other cell

theorem exists_split {stock : Stock} {slot : Slot} {cell : Cell}
    (mem : (slot, cell) ∈ stock.placed) :
    ∃ front back, stock.placed = front ++ (slot, cell) :: back ∧
      (∀ entry ∈ front, entry.1 ≠ slot) ∧ (∀ entry ∈ back, entry.1 ≠ slot) ∧
      ∀ nodes, (written nodes front).length = slot.offset := by
  obtain ⟨front, back, cells_eq, rfl⟩ := Cell.split_of_mem_tiling mem
  have small := stock.total_small
  have placed_eq : stock.placed = Cell.tiling 0 front ++
      (.ofUnits (0 + Cell.total front), cell) ::
        Cell.tiling (0 + Cell.total front + cell.units) back := by
    rw [placed, cells_eq, Cell.tiling_append]
    rfl
  have distinct := stock.slots_nodup
  rw [slots, placed_eq, List.map_append, List.map_cons, List.nodup_middle] at distinct
  have absent := (List.nodup_cons.mp distinct).1
  refine ⟨_, _, placed_eq, fun entry here same => ?_, fun entry here same => ?_, fun nodes => ?_⟩
  · exact absent (List.mem_append_left _ (List.mem_map.mpr ⟨entry, here, same⟩))
  · exact absent (List.mem_append_right _ (List.mem_map.mpr ⟨entry, here, same⟩))
  · rw [cells_eq, Cell.total_append] at small
    rw [length_written, Slot.offset, Slot.toNat_ofUnits (by omega), Nat.zero_add]

@[simp]
theorem alter_id (stock : Stock) (slot : Slot)
    (same : ∀ cell, (id cell : Cell).units = cell.units) :
    stock.alter slot id same = stock := by
  have cells_eq : stock.placed.map (fun entry => changeAt slot id entry.1 entry.2) =
      stock.placed.map Prod.snd :=
    List.map_congr_left fun entry _ => by simp [changeAt]
  cases stock
  simp only [alter, mk.injEq, and_true]
  exact cells_eq.trans (Cell.map_snd_tiling ..)

section Entry

variable {stock : Stock} {slot : Slot} {cell : Cell}

/-- A run of bytes of an entry's written form, in the bytes of the slab. -/
theorem exists_run (mem : (slot, cell) ∈ stock.placed) (nodes : Slot → Node)
    {front run back : Bytes}
    (encode_eq : (cell.record (nodes slot)).encode = front ++ run ++ back) :
    ∃ before after, before.length = slot.offset + front.length ∧
      (stock.slab nodes).data.toList = before ++ run ++ after := by
  obtain ⟨first, last, placed_eq, -, -, length_first⟩ := exists_split mem
  refine ⟨written nodes first ++ front, back ++ written nodes last, ?_, ?_⟩
  · rw [List.length_append, length_first]
  · simp [slab, placed_eq, written, encode_eq]

/-- Writing over a run of an entry's bytes changes that entry and no other. -/
theorem write_slab (mem : (slot, cell) ∈ stock.placed) (nodes : Slot → Node)
    (change : Cell → Cell) (same : ∀ cell, (change cell).units = cell.units) {node : Node}
    {front old new back : Bytes}
    (old_eq : (cell.record (nodes slot)).encode = front ++ old ++ back)
    (new_eq : ((change cell).record node).encode = front ++ new ++ back)
    (length_eq : new.length = old.length) :
    (stock.slab nodes).write (slot.offset + front.length) new =
      .ok ((stock.alter slot change same).slab (assign nodes slot node)) := by
  obtain ⟨first, last, placed_eq, first_ne, last_ne, length_first⟩ := exists_split mem
  have keep (part : List (Slot × Cell)) (ne : ∀ entry ∈ part, entry.1 ≠ slot) :
      written (assign nodes slot node)
        (part.map fun entry => (entry.1, changeAt slot change entry.1 entry.2)) =
          written nodes part := by
    have entries_eq :
        part.map (fun entry => (entry.1, changeAt slot change entry.1 entry.2)) = part :=
      (List.map_congr_left fun entry here => by simp [changeAt, ne entry here]).trans
        (List.map_id part)
    rw [entries_eq]
    exact written_congr fun entry here => assign_other (ne entry here)
  have split : (stock.slab nodes).data.toList =
      (written nodes first ++ front) ++ old ++ (back ++ written nodes last) := by
    simp [slab, placed_eq, written, old_eq]
  have after_eq : written (assign nodes slot node) (stock.alter slot change same).placed =
      (written nodes first ++ front) ++ new ++ (back ++ written nodes last) := by
    rw [placed_alter, placed_eq, List.map_append, List.map_cons, ← keep first first_ne,
      ← keep last last_ne]
    simp [written, changeAt, new_eq]
  have write := Slab.write_of_split split length_eq
  rw [List.length_append, length_first] at write
  rw [write, ← after_eq]
  rfl

/-! ## Reading fields -/

theorem size_small (mem : (slot, cell) ∈ stock.placed) : cell.pair.size < 2 ^ 32 := by
  have bounds := bounds_of_mem mem
  have small := stock.total_small
  have size := cell.size_le_units
  simp only [unitSize, Header.size] at size
  omega

theorem child_slab (mem : slot ∈ stock.slots) (nodes : Slot → Node) (side : Side)
    (storable : (nodes slot).child side ≠ some ⟨Link.nilWord⟩) :
    (stock.slab nodes).child slot side = .ok ((nodes slot).child side) := by
  obtain ⟨cell, placed⟩ := exists_cell mem
  obtain ⟨front, back, length_front, encode_eq⟩ := cell.encode_child (nodes slot) side
  have field := encode_eq ((nodes slot).child side)
  rw [Node.withChild_child] at field
  obtain ⟨before, after, length_before, split⟩ := exists_run placed nodes field
  have read := Slab.wordAt_of_split split
  rw [length_before, length_front] at read
  simp [Slab.child, read, Link.ofWord_toWord _ storable]

theorem balance_slab (mem : slot ∈ stock.slots) (nodes : Slot → Node) :
    (stock.slab nodes).balance slot = .ok (nodes slot).balance := by
  obtain ⟨cell, placed⟩ := exists_cell mem
  obtain ⟨front, back, length_front, encode_eq⟩ := cell.encode_balance (nodes slot)
  have field := encode_eq (nodes slot).balance
  rw [Node.withBalance_balance] at field
  obtain ⟨before, after, length_before, split⟩ := exists_run placed nodes field
  have read := Slab.byteAt_of_split split 0 rfl
  rw [length_before, length_front, Nat.add_zero] at read
  simp [Slab.balance, read]

theorem isDetached_slab (mem : slot ∈ stock.slots) {nodes : Slot → Node}
    (detached : nodes slot = .detached) : (stock.slab nodes).isDetached slot = .ok true := by
  have bare (side : Side) : (nodes slot).child side = none := by
    rw [detached, Node.child_detached]
  have link (side : Side) : (stock.slab nodes).child slot side = .ok none := by
    rw [child_slab mem nodes side (by simp [bare]), bare]
  simp [Slab.isDetached, link, balance_slab mem, detached, Node.detached]

theorem detached_of_isDetached (mem : slot ∈ stock.slots) {nodes : Slot → Node}
    (storable : ∀ side, (nodes slot).child side ≠ some ⟨Link.nilWord⟩)
    (told : (stock.slab nodes).isDetached slot = .ok true) : nodes slot = .detached := by
  simp only [Slab.isDetached, child_slab mem nodes _ (storable _), balance_slab mem,
    Checked.ok_bind, Checked.pure_eq_ok, Except.ok.injEq, Bool.and_eq_true,
    Option.isNone_iff_eq_none, beq_iff_eq] at told
  obtain ⟨⟨left_none, right_none⟩, even⟩ := told
  cases node_eq : nodes slot with
  | mk left right balance =>
      simp only [node_eq, Node.child] at left_none right_none even
      rw [left_none, right_none, even, Node.detached]

theorem isTombstone_slab (mem : (slot, cell) ∈ stock.placed) (nodes : Slot → Node) :
    (stock.slab nodes).isTombstone slot = .ok cell.tombstone := by
  obtain ⟨front, back, length_front, encode_eq⟩ := cell.encode_state (nodes slot)
  obtain ⟨before, after, length_before, split⟩ :=
    exists_run mem nodes (encode_eq cell.tombstone)
  have read := Slab.byteAt_of_split split 0 rfl
  rw [length_before, length_front, Nat.add_zero] at read
  cases state : cell.tombstone <;>
    simp [Slab.isTombstone, read, state, Cell.stateByte, Header.tombstoneByte, Header.liveByte]

theorem keyLength_slab (mem : (slot, cell) ∈ stock.placed) (nodes : Slot → Node) :
    (stock.slab nodes).keyLength slot = .ok cell.pair.key.length := by
  obtain ⟨front, back, length_front, encode_eq⟩ := cell.encode_keyLength (nodes slot)
  obtain ⟨before, after, length_before, split⟩ := exists_run mem nodes encode_eq
  have read := Slab.wordAt_of_split split
  rw [length_before, length_front] at read
  have small : cell.pair.key.length < 2 ^ 32 :=
    Nat.lt_of_le_of_lt (Nat.le_add_right ..) (size_small mem)
  simp only [Slab.keyLength, read, Checked.ok_bind, Checked.pure_eq_ok,
    UInt32.toNat_ofNat_of_lt' small]

theorem valueLength_slab (mem : (slot, cell) ∈ stock.placed) (nodes : Slot → Node) :
    (stock.slab nodes).valueLength slot = .ok cell.pair.value.length := by
  obtain ⟨front, back, length_front, encode_eq⟩ := cell.encode_valueLength (nodes slot)
  obtain ⟨before, after, length_before, split⟩ := exists_run mem nodes encode_eq
  have read := Slab.wordAt_of_split split
  rw [length_before, length_front] at read
  have small : cell.pair.value.length < 2 ^ 32 :=
    Nat.lt_of_le_of_lt (Nat.le_add_left ..) (size_small mem)
  simp only [Slab.valueLength, read, Checked.ok_bind, Checked.pure_eq_ok,
    UInt32.toNat_ofNat_of_lt' small]

theorem key_slab (mem : (slot, cell) ∈ stock.placed) (nodes : Slot → Node) :
    (stock.slab nodes).key slot = .ok cell.pair.key := by
  obtain ⟨front, back, length_front, encode_eq⟩ := cell.encode_key (nodes slot)
  obtain ⟨before, after, length_before, split⟩ := exists_run mem nodes encode_eq
  have read := Slab.bytesAt_of_split split
  rw [length_before, length_front] at read
  simp only [Slab.key, keyLength_slab mem, Checked.ok_bind, read]

theorem value_slab (mem : (slot, cell) ∈ stock.placed) (nodes : Slot → Node) :
    (stock.slab nodes).value slot = .ok cell.pair.value := by
  obtain ⟨front, back, length_front, encode_eq⟩ := cell.encode_value (nodes slot)
  obtain ⟨before, after, length_before, split⟩ :=
    exists_run mem nodes (encode_eq cell.pair.value rfl)
  have read := Slab.bytesAt_of_split split
  rw [length_before, length_front, ← Nat.add_assoc] at read
  simp only [Slab.value, Slab.valueStart, keyLength_slab mem, valueLength_slab mem,
    Checked.ok_bind, Checked.pure_eq_ok, read]

theorem pair_slab (mem : (slot, cell) ∈ stock.placed) (nodes : Slot → Node) :
    (stock.slab nodes).pair slot = .ok cell.pair := by
  simp [Slab.pair, key_slab mem, value_slab mem]

theorem next_slab (mem : (slot, cell) ∈ stock.placed) (nodes : Slot → Node) :
    (stock.slab nodes).next slot = .ok (slot.advance cell.units) := by
  simp [Slab.next, Slab.unitsAt, keyLength_slab mem, valueLength_slab mem, Cell.units]

theorem record_slab (mem : (slot, cell) ∈ stock.placed) (nodes : Slot → Node)
    (left_storable : (nodes slot).left ≠ some ⟨Link.nilWord⟩)
    (right_storable : (nodes slot).right ≠ some ⟨Link.nilWord⟩) :
    (stock.slab nodes).record slot = .ok (cell.record (nodes slot)) := by
  have left := child_slab (mem_slots mem) nodes .left left_storable
  have right := child_slab (mem_slots mem) nodes .right right_storable
  simp [Slab.record, left, right, balance_slab (mem_slots mem), isTombstone_slab mem,
    pair_slab mem, Cell.record, Node.child]

/-! ## Writing fields -/

theorem setChild_slab (mem : slot ∈ stock.slots) (nodes : Slot → Node) (side : Side)
    (link : Link) :
    (stock.slab nodes).setChild slot side link =
      .ok (stock.slab (assign nodes slot ((nodes slot).withChild link side))) := by
  obtain ⟨cell, placed⟩ := exists_cell mem
  obtain ⟨front, back, length_front, encode_eq⟩ := cell.encode_child (nodes slot) side
  have field := encode_eq ((nodes slot).child side)
  rw [Node.withChild_child] at field
  have write := write_slab placed nodes id (fun _ => rfl) field (encode_eq link) rfl
  rwa [length_front, alter_id] at write

theorem setBalance_slab (mem : slot ∈ stock.slots) (nodes : Slot → Node) (balance : Balance) :
    (stock.slab nodes).setBalance slot balance =
      .ok (stock.slab (assign nodes slot ((nodes slot).withBalance balance))) := by
  obtain ⟨cell, placed⟩ := exists_cell mem
  obtain ⟨front, back, length_front, encode_eq⟩ := cell.encode_balance (nodes slot)
  have field := encode_eq (nodes slot).balance
  rw [Node.withBalance_balance] at field
  have write := write_slab placed nodes id (fun _ => rfl) field (encode_eq balance) rfl
  rwa [length_front, alter_id] at write

theorem detach_slab (mem : slot ∈ stock.slots) (nodes : Slot → Node) :
    (stock.slab nodes).detach slot = .ok (stock.slab (assign nodes slot .detached)) := by
  simp only [Slab.detach, setChild_slab mem, Checked.ok_bind, setBalance_slab mem, assign_same,
    assign_assign]
  rfl

theorem layTombstone_slab (mem : (slot, cell) ∈ stock.placed) (live : cell.tombstone = false)
    (nodes : Slot → Node) :
    (stock.slab nodes).layTombstone slot =
      .ok ((stock.alter slot Cell.entomb Cell.units_entomb).slab
        (assign nodes slot .detached)) := by
  obtain ⟨front, back, length_front, encode_eq⟩ := cell.encode_state (nodes slot)
  have write := write_slab mem nodes Cell.entomb Cell.units_entomb (encode_eq cell.tombstone)
    (encode_eq true) rfl
  rw [length_front] at write
  have there : slot ∈ (stock.alter slot Cell.entomb Cell.units_entomb).slots := by
    rw [slots_alter]
    exact mem_slots mem
  have byte_eq : Header.tombstoneByte = Cell.stateByte true := rfl
  simp [Slab.layTombstone, isTombstone_slab mem, live, byte_eq, write, detach_slab there]

theorem setValue_slab (mem : (slot, cell) ∈ stock.placed) (nodes : Slot → Node) (bytes : Bytes) :
    (stock.slab nodes).setValue slot bytes =
      .ok ((stock.alter slot (Cell.lay · bytes) (Cell.units_lay · bytes)).slab nodes) := by
  obtain ⟨front, back, length_front, encode_eq⟩ := cell.encode_value (nodes slot)
  let count := min bytes.length cell.pair.value.length
  have old_eq : (cell.record (nodes slot)).encode =
      front ++ cell.pair.value.take count ++ (cell.pair.value.drop count ++ back) := by
    rw [← List.append_assoc, List.append_assoc front, List.take_append_drop]
    exact encode_eq cell.pair.value rfl
  have new_eq : ((cell.lay bytes).record (nodes slot)).encode =
      front ++ bytes.take cell.pair.value.length ++ (cell.pair.value.drop count ++ back) := by
    have drop_eq : cell.pair.value.drop bytes.length = cell.pair.value.drop count := by
      rcases Nat.le_total bytes.length cell.pair.value.length with short | long
      · rw [show count = bytes.length from Nat.min_eq_left short]
      · rw [show count = cell.pair.value.length from Nat.min_eq_right long,
          List.drop_eq_nil_of_le long, List.drop_length]
    have whole := encode_eq _ (cell.length_lay bytes)
    simpa [Cell.lay, Cell.withValue, drop_eq] using whole
  have write := write_slab mem nodes (Cell.lay · bytes) (Cell.units_lay · bytes) old_eq new_eq (by
    simp [count, Nat.min_comm])
  rw [length_front, ← Nat.add_assoc, assign_self] at write
  simpa [Slab.setValue, Slab.valueStart, keyLength_slab mem, valueLength_slab mem] using write

end Entry

end Stock
end PackedMap
