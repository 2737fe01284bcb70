import PackedMap.Proofs.Slab.Packing

/-!
# Ledgers

A ledger is a slab without its bytes: the list of its records, with a capacity and a limit.  The
slot of a record is the number of units of those before it.  Each operation of slabs is an operation
on the list, which changes one field of one record, adds a record at the end, or drops the last
ones; the bytes of the slab are the written form of the list throughout.
-/

namespace PackedMap

/-- The link that is read back where a link is stored.  The greatest slot stands for nothing. -/
def Link.stored (link : Link) : Link := .ofWord link.toWord

theorem Link.stored_ne (link : Link) : link.stored ≠ some ⟨Link.nilWord⟩ := by
  rw [stored, ofWord]
  split
  · simp
  · next differ =>
      intro same
      injection same with same
      injection same with same
      exact differ same

namespace Record

/-- The record with another link on a side. -/
def withChild (record : Record) (link : Link) : Side → Record
  | .left => { record with left := link }
  | .right => { record with right := link }

/-- The record with another balance. -/
def withBalance (record : Record) (balance : Balance) : Record := { record with balance }

/-- The record as a tombstone outside the tree, with its pair. -/
def entomb (record : Record) : Record :=
  { record with left := none, right := none, balance := .even, tombstone := true }

/-- The record with bytes laid over the start of its value, as many as both hold. -/
def lay (record : Record) (bytes : Bytes) : Record :=
  { record with pair := ⟨record.pair.key,
      bytes.take record.pair.value.length ++ record.pair.value.drop bytes.length⟩ }

/-- Number of units of some records. -/
def total : List Record → Nat
  | [] => 0
  | record :: rest => record.units + total rest

/-- Records with their slots, the first one standing at a given unit. -/
def placing : Nat → List Record → List (Slot × Record)
  | _, [] => []
  | start, record :: rest => (.ofUnits start, record) :: placing (start + record.units) rest

theorem total_append (front back : List Record) :
    total (front ++ back) = total front + total back := by
  induction front with
  | nil => simp [total]
  | cons record front ih => simp [total, ih, Nat.add_assoc]

theorem placing_append (start : Nat) (front back : List Record) :
    placing start (front ++ back) = placing start front ++ placing (start + total front) back := by
  induction front generalizing start with
  | nil => simp [placing, total]
  | cons record front ih => simp [placing, total, ih, Nat.add_assoc]

end Record

/-- The records of a slab, with its capacity and its limit. -/
structure Ledger where
  /-- The records, tombstones included. -/
  records : List Record
  /-- The capacity of the slab. -/
  capacity : Nat
  /-- The limit of the slab. -/
  limit : Nat

namespace Ledger

/-- A ledger without records. -/
def empty (initial limit : Nat) : Ledger :=
  ⟨[], min initial (min limit Slab.greatestLimit), min limit Slab.greatestLimit⟩

/-- The slab that a ledger is written to. -/
def slab (ledger : Ledger) : Slab :=
  ⟨(ledger.records.flatMap Record.encode).toArray, ledger.capacity, ledger.limit⟩

/-- Number of bytes of all records. -/
def used (ledger : Ledger) : Nat := Record.total ledger.records * unitSize

/-- The records with their slots. -/
def placed (ledger : Ledger) : List (Slot × Record) := Record.placing 0 ledger.records

/-- The slot behind the last record. -/
def last (ledger : Ledger) : Slot := .ofUnits (Record.total ledger.records)

/-- The record at a slot, if one starts there. -/
def at? (ledger : Ledger) (slot : Slot) : Option Record := ledger.placed.lookup slot

/-- The slot of the record behind the one at a slot, or that behind the last record. -/
def behind (ledger : Ledger) (slot : Slot) : Slot :=
  ((ledger.placed.map Prod.fst).dropWhile (· ≠ slot)).tail.headD ledger.last

/-- The ledger with a change to the record at a slot. -/
def update (ledger : Ledger) (slot : Slot) (change : Record → Record) : Ledger :=
  { ledger with
    records := ledger.placed.map fun entry => if entry.1 = slot then change entry.2 else entry.2 }

/-- The ledger with the records before the one at a slot. -/
def before (ledger : Ledger) (slot : Slot) : Ledger :=
  { ledger with records := (ledger.placed.takeWhile fun entry => entry.1 ≠ slot).map Prod.snd }

/-- The ledger with one more live record, outside the tree. -/
def append (ledger : Ledger) (pair : Pair) : Ledger :=
  { ledger with records := ledger.records ++ [.detached pair] }

/-- The ledger without spare room. -/
def shrink (ledger : Ledger) : Ledger := { ledger with capacity := ledger.used }

/-- Bytes that a ledger needs for a batch of entries beside its records. -/
def needed (ledger : Ledger) (entries bytes : Nat) : Nat :=
  unitSize * Slab.advance entries bytes + ledger.used

/-- The ledger with room for a number of bytes. -/
def grow (ledger : Ledger) (needed : Nat) : Ledger :=
  { ledger with capacity := ledger.slab.grownCapacity needed }

/-- The ledger of a stock and the nodes of its slots. -/
def of (stock : Stock) (nodes : Slot → Node) : Ledger :=
  ⟨stock.placed.map fun entry => entry.2.record (nodes entry.1), stock.capacity, stock.limit⟩

/-- A ledger is that of a stock, and all its links can be stored. -/
inductive Sound : Ledger → Prop
  | of (stock : Stock) {nodes : Slot → Node} :
      (∀ slot side, (nodes slot).child side ≠ some ⟨Link.nilWord⟩) →
      Sound (.of stock nodes)

end Ledger

namespace Stock

variable {stock : Stock} {front back : List Cell}

/-- An entry starts behind the units of those before it, and nowhere else. -/
theorem exists_cut {slot : Slot} {cell : Cell} (mem : (slot, cell) ∈ stock.placed) :
    ∃ front back, stock.cells = front ++ cell :: back ∧ slot = .ofUnits (Cell.total front) ∧
      ∀ other ∈ (Cell.tiling 0 front).map Prod.fst, other ≠ slot := by
  obtain ⟨front, back, split, slot_eq⟩ := Cell.split_of_mem_tiling mem
  rw [Nat.zero_add] at slot_eq
  have distinct := stock.slots_nodup
  rw [slots, placed_eq_append split, List.map_append, Cell.tiling, List.map_cons, ← slot_eq]
    at distinct
  have absent := (List.nodup_cons.mp (List.nodup_middle.mp distinct)).1
  refine ⟨front, back, split, slot_eq, fun other here same => ?_⟩
  exact absent (List.mem_append_left _ (same ▸ here))

/-- The stock with the first cells alone. -/
def cut (stock : Stock) (split : stock.cells = front ++ back) : Stock where
  cells := front
  capacity := stock.capacity
  limit := stock.limit
  used_le := by
    have used := stock.used_le
    rw [split, Cell.total_append, Nat.add_mul] at used
    exact Nat.le_trans (Nat.le_add_right ..) used
  capacity_le := stock.capacity_le
  limit_le := stock.limit_le

theorem truncate_slab (split : stock.cells = front ++ back) (nodes : Slot → Node) :
    (stock.slab nodes).truncate (.ofUnits (Cell.total front)) = (stock.cut split).slab nodes := by
  have small := stock.total_small
  rw [split, Cell.total_append] at small
  have length_eq : (Slot.ofUnits (Cell.total front)).offset =
      (written nodes (Cell.tiling 0 front)).length := by
    rw [length_written, Slot.offset, Slot.toNat_ofUnits (by omega)]
  have data_eq : (stock.slab nodes).data.take (Slot.ofUnits (Cell.total front)).offset =
      (written nodes (Cell.tiling 0 front)).toArray := by
    rw [slab, placed_eq_append split, length_eq]
    simp [written]
  rw [Slab.truncate, data_eq]
  rfl

end Stock

namespace Ledger

/-! ## Ledgers of stocks -/

section Of

variable {stock : Stock} {nodes nodes' : Slot → Node} {slot : Slot} {record : Record}

theorem slab_of (stock : Stock) (nodes : Slot → Node) :
    (Ledger.of stock nodes).slab = stock.slab nodes := by
  simp only [slab, of, List.flatMap_map]
  rfl

theorem placed_of (stock : Stock) (nodes : Slot → Node) :
    (Ledger.of stock nodes).placed =
      stock.placed.map fun entry => (entry.1, entry.2.record (nodes entry.1)) := by
  have placing_eq (start : Nat) (cells : List Cell) :
      Record.placing start
          ((Cell.tiling start cells).map fun entry => entry.2.record (nodes entry.1)) =
        (Cell.tiling start cells).map fun entry => (entry.1, entry.2.record (nodes entry.1)) := by
    induction cells generalizing start with
    | nil => rfl
    | cons cell cells ih =>
        have later := ih (start + cell.units)
        simp only [Cell.tiling, List.map_cons, Record.placing] at later ⊢
        rw [← later]
        rfl
  exact placing_eq 0 stock.cells

theorem total_of (stock : Stock) (nodes : Slot → Node) :
    Record.total (Ledger.of stock nodes).records = Cell.total stock.cells := by
  have total_eq (start : Nat) (cells : List Cell) :
      Record.total ((Cell.tiling start cells).map fun entry => entry.2.record (nodes entry.1)) =
        Cell.total cells := by
    induction cells generalizing start with
    | nil => rfl
    | cons cell cells ih =>
        rw [Cell.tiling, List.map_cons, Record.total, Cell.total, ih]
        rfl
  exact total_eq 0 stock.cells

theorem last_of (stock : Stock) (nodes : Slot → Node) :
    (Ledger.of stock nodes).last = stock.last := by
  rw [last, total_of, Stock.last]

theorem used_of (stock : Stock) (nodes : Slot → Node) :
    (Ledger.of stock nodes).used = Cell.total stock.cells * unitSize := by
  rw [used, total_of]

theorem needed_of (stock : Stock) (nodes : Slot → Node) (entries bytes : Nat) :
    (Ledger.of stock nodes).needed entries bytes = stock.needed entries bytes := by
  rw [needed, used_of, Stock.needed]

theorem grow_of (stock : Stock) (nodes : Slot → Node) (needed : Nat) :
    (Ledger.of stock nodes).grow needed = .of (stock.grow needed) nodes := rfl

theorem slots_of (stock : Stock) (nodes : Slot → Node) :
    (Ledger.of stock nodes).placed.map Prod.fst = stock.slots := by
  rw [placed_of, List.map_map]
  rfl

theorem of_congr (agree : ∀ slot ∈ stock.slots, nodes' slot = nodes slot) :
    Ledger.of stock nodes' = Ledger.of stock nodes := by
  rw [of, of]
  congr 1
  refine List.map_congr_left fun entry mem => ?_
  rw [agree entry.1 (List.mem_map_of_mem mem)]

theorem mem_placed_of : (slot, record) ∈ (Ledger.of stock nodes).placed ↔
    ∃ cell, (slot, cell) ∈ stock.placed ∧ record = cell.record (nodes slot) := by
  rw [placed_of]
  constructor
  · intro mem
    obtain ⟨⟨_, cell⟩, cell_mem, same⟩ := List.mem_map.mp mem
    obtain ⟨rfl, rfl⟩ := Prod.mk.inj same
    exact ⟨cell, cell_mem, rfl⟩
  · rintro ⟨cell, cell_mem, rfl⟩
    exact List.mem_map.mpr ⟨_, cell_mem, rfl⟩

theorem exists_cell (here : (Ledger.of stock nodes).at? slot = some record) :
    ∃ cell, (slot, cell) ∈ stock.placed ∧ record = cell.record (nodes slot) := by
  obtain ⟨front, back, placed_eq, -⟩ := List.lookup_eq_some_iff.mp here
  refine mem_placed_of.mp ?_
  rw [placed_eq]
  exact List.mem_append_right _ List.mem_cons_self

/-- A change to one record is a change to its cell and to its node. -/
theorem update_of {change : Record → Record} {alter : Cell → Cell} {node : Node}
    (same : ∀ cell, (alter cell).units = cell.units)
    (change_eq : ∀ cell : Cell, change (cell.record (nodes slot)) = (alter cell).record node) :
    (Ledger.of stock nodes).update slot change =
      Ledger.of (stock.alter slot alter same) (Stock.assign nodes slot node) := by
  have records_eq : ((Ledger.of stock nodes).placed.map fun entry =>
      if entry.1 = slot then change entry.2 else entry.2) =
        (stock.alter slot alter same).placed.map fun entry =>
          entry.2.record (Stock.assign nodes slot node entry.1) := by
    rw [placed_of, Stock.placed_alter, List.map_map, List.map_map]
    refine List.map_congr_left fun entry _ => ?_
    by_cases here : entry.1 = slot
    · simp [Stock.changeAt, here, change_eq]
    · simp [Stock.changeAt, here, Stock.assign_other]
  rw [update, records_eq]
  rfl

theorem update_node {change : Record → Record} {node : Node}
    (change_eq : ∀ cell : Cell, change (cell.record (nodes slot)) = cell.record node) :
    (Ledger.of stock nodes).update slot change = .of stock (Stock.assign nodes slot node) := by
  have updated := @update_of stock nodes slot change id node (fun _ => rfl) change_eq
  rwa [Stock.alter_id] at updated

theorem update_cell {change : Record → Record} {alter : Cell → Cell}
    (same : ∀ cell, (alter cell).units = cell.units)
    (change_eq : ∀ cell : Cell, ∀ node, change (cell.record node) = (alter cell).record node) :
    (Ledger.of stock nodes).update slot change = .of (stock.alter slot alter same) nodes := by
  have updated := @update_of stock nodes slot change alter (nodes slot) same
    fun cell => change_eq cell (nodes slot)
  rwa [Stock.assign_self] at updated

theorem storable_assign (storable : ∀ slot side, (nodes slot).child side ≠ some ⟨Link.nilWord⟩)
    {node : Node} (node_storable : ∀ side, node.child side ≠ some ⟨Link.nilWord⟩) (other : Slot)
    (side : Side) : (Stock.assign nodes slot node other).child side ≠ some ⟨Link.nilWord⟩ := by
  unfold Stock.assign
  split
  · exact node_storable side
  · exact storable other side

end Of

/-! ## Operations -/

namespace Sound

variable {ledger : Ledger} {slot : Slot} {stored : Record}

theorem empty (initial limit : Nat) : (Ledger.empty initial limit).Sound := by
  exact @Sound.of (.empty initial limit) (fun _ => .detached) fun slot side => by simp

/-- A record stands at the units of those before it, which a slot can count. -/
theorem at_split (sound : ledger.Sound) {front back : List Record}
    (split : ledger.records = front ++ stored :: back) :
    ledger.at? (.ofUnits (Record.total front)) = some stored ∧
      (Slot.ofUnits (Record.total front)).index.toNat = Record.total front := by
  have placed_eq : ledger.placed = Record.placing 0 front ++
      (.ofUnits (Record.total front), stored) ::
        Record.placing (Record.total front + stored.units) back := by
    rw [placed, split, Record.placing_append, Nat.zero_add, Record.placing]
  obtain @⟨stock, nodes, storable⟩ := sound
  have distinct := stock.slots_nodup
  rw [← slots_of stock nodes, placed_eq, List.map_append, List.map_cons] at distinct
  have absent := (List.nodup_cons.mp (List.nodup_middle.mp distinct)).1
  constructor
  · refine List.lookup_eq_some_iff.mpr ⟨_, _, placed_eq, fun entry mem => bne_iff_ne.mpr ?_⟩
    intro same
    exact absent (List.mem_append_left _ (List.mem_map.mpr ⟨entry, mem, same.symm⟩))
  · have small := stock.total_small
    rw [← total_of stock nodes, split, Record.total_append] at small
    exact Slot.toNat_ofUnits (by omega)

/-! ### Reading -/

theorem record (sound : ledger.Sound) (here : ledger.at? slot = some stored) :
    ledger.slab.record slot = .ok stored := by
  obtain ⟨stock, storable⟩ := sound
  obtain ⟨cell, placed, rfl⟩ := exists_cell here
  rw [slab_of]
  exact Stock.record_slab placed _ (storable slot .left) (storable slot .right)

theorem pair (sound : ledger.Sound) (here : ledger.at? slot = some stored) :
    ledger.slab.pair slot = .ok stored.pair := by
  obtain ⟨stock, storable⟩ := sound
  obtain ⟨cell, placed, rfl⟩ := exists_cell here
  rw [slab_of]
  exact Stock.pair_slab placed _

theorem unitsAt (sound : ledger.Sound) (here : ledger.at? slot = some stored) :
    ledger.slab.unitsAt slot = .ok stored.units := by
  obtain ⟨stock, storable⟩ := sound
  obtain ⟨cell, placed, rfl⟩ := exists_cell here
  rw [slab_of]
  simp only [Slab.unitsAt, Stock.keyLength_slab placed, Stock.valueLength_slab placed]
  rfl

theorem next (sound : ledger.Sound) (here : ledger.at? slot = some stored) :
    ledger.slab.next slot = .ok (ledger.behind slot) := by
  obtain ⟨stock, storable⟩ := sound
  obtain ⟨cell, placed, rfl⟩ := exists_cell here
  rw [slab_of, Stock.next_slab placed, behind, slots_of, last_of]
  obtain ⟨front, back, split, rfl, front_ne⟩ := Stock.exists_cut placed
  rw [Stock.slots, Stock.placed_eq_append split, List.map_append,
    List.dropWhile_append_of_pos fun other mem => decide_eq_true (front_ne other mem), Cell.tiling,
    List.map_cons, List.dropWhile_cons_of_neg (by simp), List.tail_cons, Slot.advance_ofUnits]
  cases back with
  | nil => simp [Cell.tiling, Cell.total, Stock.last, split]
  | cons next rest => rfl

theorem records (sound : ledger.Sound) : ledger.slab.records = .ok ledger.placed := by
  obtain ⟨stock, storable⟩ := sound
  rw [slab_of, placed_of]
  exact Stock.records_slab _ fun slot _ => storable slot

theorem contains (sound : ledger.Sound) (link : Link) :
    ledger.slab.contains link = link.any fun slot => decide (slot.index < ledger.last.index) := by
  obtain ⟨stock, storable⟩ := sound
  rw [slab_of, last_of]
  cases link with
  | none => rfl
  | some slot => rw [Slab.contains, Stock.endSlot_slab, Option.any_some]

/-! ### Writing -/

theorem setChild (sound : ledger.Sound) (here : ledger.at? slot = some stored) (side : Side)
    (link : Link) :
    ledger.slab.setChild slot side link =
        .ok (ledger.update slot (·.withChild link.stored side)).slab ∧
      (ledger.update slot (·.withChild link.stored side)).Sound := by
  obtain @⟨stock, nodes, storable⟩ := sound
  obtain ⟨cell, placed, rfl⟩ := exists_cell here
  have written := Stock.setChild_slab (Stock.mem_slots placed) nodes side link.stored
  rw [Slab.setChild, Link.stored, Link.toWord_ofWord] at written
  have updated : (Ledger.of stock nodes).update slot (·.withChild link.stored side) =
      .of stock (Stock.assign nodes slot ((nodes slot).withChild link.stored side)) :=
    update_node fun cell => by cases side <;> rfl
  rw [updated, slab_of, slab_of]
  exact ⟨written, .of stock (storable_assign storable fun other => by
    cases side <;> cases other
    · exact link.stored_ne
    · exact storable slot .right
    · exact storable slot .left
    · exact link.stored_ne)⟩

theorem setBalance (sound : ledger.Sound) (here : ledger.at? slot = some stored)
    (balance : Balance) :
    ledger.slab.setBalance slot balance = .ok (ledger.update slot (·.withBalance balance)).slab ∧
      (ledger.update slot (·.withBalance balance)).Sound := by
  obtain @⟨stock, nodes, storable⟩ := sound
  obtain ⟨cell, placed, rfl⟩ := exists_cell here
  have written := Stock.setBalance_slab (Stock.mem_slots placed) nodes balance
  have updated : (Ledger.of stock nodes).update slot (·.withBalance balance) =
      .of stock (Stock.assign nodes slot ((nodes slot).withBalance balance)) :=
    update_node fun cell => rfl
  rw [updated, slab_of, slab_of]
  exact ⟨written, .of stock (storable_assign storable fun side => by
    cases side
    · exact storable slot .left
    · exact storable slot .right)⟩

theorem layTombstone (sound : ledger.Sound) (here : ledger.at? slot = some stored)
    (live : stored.tombstone = false) :
    ledger.slab.layTombstone slot = .ok (ledger.update slot Record.entomb).slab ∧
      (ledger.update slot Record.entomb).Sound := by
  obtain @⟨stock, nodes, storable⟩ := sound
  obtain ⟨cell, placed, rfl⟩ := exists_cell here
  have written := Stock.layTombstone_slab placed live nodes
  have updated : (Ledger.of stock nodes).update slot Record.entomb =
      .of (stock.alter slot Cell.entomb Cell.units_entomb) (Stock.assign nodes slot .detached) :=
    update_of Cell.units_entomb fun cell => rfl
  rw [updated, slab_of, slab_of]
  exact ⟨written, .of _ (storable_assign storable fun side => by simp)⟩

theorem setValue (sound : ledger.Sound) (here : ledger.at? slot = some stored) (bytes : Bytes) :
    ledger.slab.setValue slot bytes = .ok (ledger.update slot (·.lay bytes)).slab ∧
      (ledger.update slot (·.lay bytes)).Sound := by
  obtain @⟨stock, nodes, storable⟩ := sound
  obtain ⟨cell, placed, rfl⟩ := exists_cell here
  have written := Stock.setValue_slab placed nodes bytes
  have updated : (Ledger.of stock nodes).update slot (·.lay bytes) =
      .of (stock.alter slot (Cell.lay · bytes) (Cell.units_lay · bytes)) nodes :=
    update_cell (Cell.units_lay · bytes) fun cell node => rfl
  rw [updated, slab_of, slab_of]
  exact ⟨written, .of _ storable⟩

/-! ### Adding and dropping -/

theorem truncate (sound : ledger.Sound) (here : ledger.at? slot = some stored) :
    ledger.slab.truncate slot = (ledger.before slot).slab ∧ (ledger.before slot).Sound := by
  obtain @⟨stock, nodes, storable⟩ := sound
  obtain ⟨cell, placed, rfl⟩ := exists_cell here
  obtain ⟨front, back, split, rfl, front_ne⟩ := Stock.exists_cut placed
  have before_eq : (Ledger.of stock nodes).before (.ofUnits (Cell.total front)) =
      .of (stock.cut split) nodes := by
    have records_eq : ((Ledger.of stock nodes).placed.takeWhile fun entry =>
        entry.1 ≠ .ofUnits (Cell.total front)).map Prod.snd =
          (stock.cut split).placed.map fun entry => entry.2.record (nodes entry.1) := by
      have kept : ∀ entry ∈ (Cell.tiling 0 front).map fun entry =>
          (entry.1, entry.2.record (nodes entry.1)),
          decide (entry.1 ≠ .ofUnits (Cell.total front)) = true := by
        intro entry mem
        obtain ⟨origin, origin_mem, rfl⟩ := List.mem_map.mp mem
        exact decide_eq_true (front_ne _ (List.mem_map_of_mem origin_mem))
      rw [placed_of, Stock.placed_eq_append split, List.map_append,
        List.takeWhile_append_of_pos kept, Cell.tiling, List.map_cons,
        List.takeWhile_cons_of_neg (by simp), List.append_nil, List.map_map]
      rfl
    rw [before, records_eq]
    rfl
  rw [before_eq, slab_of, slab_of]
  exact ⟨Stock.truncate_slab split nodes, .of _ storable⟩

/-- There is room for an entry where its units fit into the capacity. -/
theorem push (sound : ledger.Sound) {pair : Pair}
    (room : (Record.total ledger.records + (Record.detached pair).units) * unitSize ≤
      ledger.capacity) :
    ledger.slab.push pair = .ok (ledger.last, (ledger.append pair).slab) ∧
      (ledger.append pair).Sound := by
  obtain @⟨stock, nodes, storable⟩ := sound
  rw [total_of] at room
  have fits : (Cell.total stock.cells + (Cell.live pair).units) * unitSize ≤ stock.capacity := room
  let ready := Stock.assign nodes stock.last .detached
  have ready_eq : Ledger.of stock ready = .of stock nodes :=
    of_congr fun slot mem => Stock.assign_other fun same => stock.last_notMem (same ▸ mem)
  have new : ready stock.last = .detached := Stock.assign_same ..
  have pushed := Stock.push_slab new pair fits
  have append_eq : (Ledger.of stock ready).append pair = .of (stock.push pair fits) ready := by
    have records_eq : (Ledger.of stock ready).records ++ [.detached pair] =
        (stock.push pair fits).placed.map fun entry => entry.2.record (ready entry.1) := by
      rw [Stock.placed_push, List.map_append, List.map_singleton, new]
      rfl
    rw [append, records_eq]
    rfl
  rw [← ready_eq, append_eq, slab_of, slab_of, last_of]
  exact ⟨pushed, .of _ (storable_assign storable fun side => by simp)⟩

theorem grow (sound : ledger.Sound) (needed : Nat) : (ledger.grow needed).Sound := by
  obtain @⟨stock, nodes, storable⟩ := sound
  exact .of (stock.grow needed) storable

theorem reserve (sound : ledger.Sound) (entries bytes : UInt64) :
    ledger.slab.reserve entries bytes =
      if ledger.needed entries.toNat bytes.toNat ≤ ledger.limit then
        .ok (Slab.advance entries.toNat bytes.toNat,
          (ledger.grow (ledger.needed entries.toNat bytes.toNat)).slab)
      else
        .error ⟨min (ledger.needed entries.toNat bytes.toNat) (UInt64.size - 1), ledger.limit⟩ := by
  obtain @⟨stock, nodes, storable⟩ := sound
  rw [needed_of, grow_of, slab_of, slab_of]
  exact Stock.reserve_slab stock nodes entries bytes

theorem reservePair (sound : ledger.Sound) (pair : Pair) :
    ledger.slab.reservePair pair =
      if ledger.needed 1 pair.size ≤ ledger.limit then
        .ok (ledger.grow (ledger.needed 1 pair.size)).slab
      else
        .error ⟨min (ledger.needed 1 pair.size) (UInt64.size - 1), ledger.limit⟩ := by
  obtain @⟨stock, nodes, storable⟩ := sound
  rw [needed_of, grow_of, slab_of, slab_of]
  exact Stock.reservePair_slab stock nodes pair

theorem shrink (sound : ledger.Sound) :
    ledger.slab.shrink = ledger.shrink.slab ∧ ledger.shrink.Sound := by
  obtain @⟨stock, nodes, storable⟩ := sound
  have shrunk : (Ledger.of stock nodes).shrink = .of stock.shrink nodes := by
    rw [Ledger.shrink, used_of]
    rfl
  rw [shrunk, slab_of, slab_of]
  exact ⟨Stock.shrink_slab stock nodes, .of _ storable⟩

theorem snapshot (sound : ledger.Sound) : ledger.slab.snapshot = ledger.slab := by
  obtain @⟨stock, nodes, storable⟩ := sound
  rw [slab_of]
  exact Stock.snapshot_slab stock nodes

end Sound

/-- What is needed for a batch is there once it is reserved. -/
theorem needed_le_grow {ledger : Ledger} {needed : Nat} (fits : needed ≤ ledger.limit) :
    needed ≤ (ledger.grow needed).capacity := by
  have capacity_eq : (ledger.grow needed).capacity =
      if needed ≤ ledger.capacity then ledger.capacity
      else min (max (2 * ledger.capacity) needed) ledger.limit := rfl
  rw [capacity_eq]
  split <;> omega

/-- There is room for a batch of entries where room was reserved for as many with as many bytes. -/
theorem room_of_needed {ledger : Ledger} {entries bytes : Nat} {pairs : List Pair}
    (fits : ledger.needed entries bytes ≤ ledger.limit) (few : pairs.length ≤ entries)
    (small : Pair.totalSize pairs ≤ bytes) :
    (Record.total ledger.records + Cell.total (pairs.map Cell.live)) * unitSize ≤
      (ledger.grow (ledger.needed entries bytes)).capacity := by
  have granted := Nat.le_trans (Stock.total_le_advance pairs) (Slab.advance_mono few small)
  refine Nat.le_trans ?_ (needed_le_grow fits)
  rw [needed, used, Nat.mul_comm unitSize, ← Nat.add_mul, Nat.add_comm]
  exact Nat.mul_le_mul_right _ (Nat.add_le_add_right granted _)

end Ledger
end PackedMap
