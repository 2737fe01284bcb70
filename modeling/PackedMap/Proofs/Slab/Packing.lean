import PackedMap.Proofs.Slab.Pairs

/-!
# Packing entries

Compaction writes entries one after another into a fresh slab.  The room it reserves is enough for
them, and afterwards the slab holds exactly these entries in the given order, all of them live.
-/

namespace PackedMap

/-- Number of units that an entry with the pair takes. -/
def Pair.units (pair : Pair) : Nat := unitsFor pair.key.length pair.value.length

/-- Number of units that entries with some pairs take. -/
def Pair.totalUnits : List Pair → Nat
  | [] => 0
  | pair :: rest => pair.units + totalUnits rest

theorem Pair.totalUnits_append (front back : List Pair) :
    totalUnits (front ++ back) = totalUnits front + totalUnits back := by
  induction front with
  | nil => exact (Nat.zero_add _).symm
  | cons pair front ih => rw [List.cons_append, totalUnits, totalUnits, ih, Nat.add_assoc]

theorem Cell.total_eq (cells : List Cell) :
    total cells = Pair.totalUnits (cells.map Cell.pair) := by
  induction cells with
  | nil => rfl
  | cons cell cells ih =>
      rw [total, ih]
      rfl

namespace Stock

/-- What one more entry needs is its own units beside the used ones. -/
theorem needed_one (stock : Stock) (pair : Pair) :
    stock.needed 1 pair.size = Cell.total stock.cells * unitSize + unitSize * pair.units := by
  rw [needed, advance_one, Nat.add_comm]
  rfl

/-- The stock with more live entries, one for each pair. -/
def appendAll (stock : Stock) (pairs : List Pair)
    (room : (Cell.total stock.cells + Cell.total (pairs.map Cell.live)) * unitSize ≤
      stock.capacity) :
    Stock where
  cells := stock.cells ++ pairs.map Cell.live
  capacity := stock.capacity
  limit := stock.limit
  used_le := by rwa [Cell.total_append]
  capacity_le := stock.capacity_le
  limit_le := stock.limit_le

theorem pushAll_slab (stock : Stock) (pairs : List Pair)
    (room : (Cell.total stock.cells + Cell.total (pairs.map Cell.live)) * unitSize ≤
      stock.capacity) :
    (stock.slab fun _ => .detached).pushAll pairs =
      .ok ((Cell.tiling (Cell.total stock.cells) (pairs.map Cell.live)).map Prod.fst,
        (stock.appendAll pairs room).slab fun _ => .detached) := by
  induction pairs generalizing stock with
  | nil => simp [Slab.pushAll, appendAll, Cell.tiling]
  | cons pair pairs ih =>
      have total_eq : Cell.total (stock.cells ++ [Cell.live pair]) =
          Cell.total stock.cells + (Cell.live pair).units := by
        simp [Cell.total]
      have first :
          (Cell.total stock.cells + (Cell.live pair).units) * unitSize ≤ stock.capacity := by
        refine Nat.le_trans (Nat.mul_le_mul_right _ ?_) room
        rw [List.map_cons, Cell.total]
        omega
      have rest : (Cell.total (stock.push pair first).cells +
          Cell.total (pairs.map Cell.live)) * unitSize ≤ (stock.push pair first).capacity := by
        rw [List.map_cons, Cell.total] at room
        rwa [push, total_eq, Nat.add_assoc]
      have whole : (stock.push pair first).appendAll pairs rest =
          stock.appendAll (pair :: pairs) room := by
        simp [appendAll, push]
      have later := ih (stock.push pair first) rest
      rw [whole] at later
      have start_eq : Cell.total (stock.push pair first).cells =
          Cell.total stock.cells + (Cell.live pair).units := total_eq
      rw [start_eq] at later
      have pushed := @push_slab stock (fun _ => .detached) rfl pair first
      simp only [Slab.pushAll, pushed, later, Checked.ok_bind, Checked.pure_eq_ok, List.map_cons,
        Cell.tiling, last]

/-- Bytes that a batch of some entries asks for in a fresh slab. -/
def packedSize (pairs : List Pair) : Nat :=
  unitSize * Slab.advance pairs.length (Pair.totalSize pairs)

/-- The stock of some live entries alone. -/
def packed (stock : Stock) (pairs : List Pair) (fits : packedSize pairs ≤ stock.limit) : Stock where
  cells := pairs.map Cell.live
  capacity := packedSize pairs
  limit := stock.limit
  used_le := by
    rw [packedSize, Nat.mul_comm]
    exact Nat.mul_le_mul_left _ (total_le_advance pairs)
  capacity_le := fits
  limit_le := stock.limit_le

section Packed

variable {stock : Stock} {pairs : List Pair} {fits : packedSize pairs ≤ stock.limit}

theorem liveSlots_packed :
    (stock.packed pairs fits).liveSlots = (stock.packed pairs fits).slots := by
  have all : ∀ entry ∈ (stock.packed pairs fits).placed, entry.2.tombstone = false := by
    intro entry mem
    have cell_mem : entry.2 ∈ (stock.packed pairs fits).placed.map Prod.snd :=
      List.mem_map_of_mem mem
    rw [placed, Cell.map_snd_tiling] at cell_mem
    obtain ⟨pair, -, same⟩ := List.mem_map.mp cell_mem
    rw [← same]
    rfl
  rw [liveSlots, slots, List.filter_eq_self.mpr fun entry mem => by rw [all entry mem]; rfl]

theorem tombstones_packed : (stock.packed pairs fits).tombstones = 0 := by
  rw [tombstones, List.countP_eq_zero]
  intro cell mem
  obtain ⟨pair, -, rfl⟩ := List.mem_map.mp mem
  exact Bool.false_ne_true

theorem map_pairAt_slots (stock : Stock) :
    stock.slots.map stock.pairAt = stock.cells.map Cell.pair := by
  rw [slots, ← stock.map_snd_placed, List.map_map, List.map_map]
  exact List.map_congr_left fun entry mem => pairAt_eq mem

theorem pairs_packed :
    (stock.packed pairs fits).slots.map (stock.packed pairs fits).pairAt = pairs := by
  rw [map_pairAt_slots, packed, List.map_map]
  exact List.map_id pairs

end Packed

/-- The live cells are those that packing the live entries writes. -/
theorem live_cells (stock : Stock) :
    (stock.liveSlots.map stock.pairAt).map Cell.live =
      stock.cells.filter fun cell => !cell.tombstone := by
  rw [← stock.map_snd_placed, List.filter_map, liveSlots, List.map_map, List.map_map]
  refine List.map_congr_left fun entry mem => ?_
  obtain ⟨placed, alive⟩ := List.mem_filter.mp mem
  rw [Bool.not_eq_true'] at alive
  rw [Function.comp_apply, Function.comp_apply, pairAt_eq placed, Cell.live, ← alive]

/-- Beside the live entries the used bytes hold a header at least for each tombstone. -/
theorem total_live (cells : List Cell) :
    Cell.total (cells.filter fun cell => !cell.tombstone) * unitSize +
        Header.size * cells.countP Cell.tombstone ≤ Cell.total cells * unitSize := by
  induction cells with
  | nil => simp [Cell.total]
  | cons cell cells ih =>
      have size := cell.size_le_units
      rw [Cell.total, Nat.add_mul]
      cases dead : cell.tombstone with
      | true =>
          simp only [List.filter_cons, List.countP_cons, dead, Bool.not_true, Bool.false_eq_true,
            if_false, if_true, Nat.mul_succ]
          omega
      | false =>
          simp only [List.filter_cons, List.countP_cons, dead, Bool.not_false, Bool.false_eq_true,
            if_false, if_true, Cell.total, Nat.add_mul, Nat.add_zero]
          omega

/-- Some entries and their headers fit into the units that the entries take. -/
theorem totalSize_le_total (pairs : List Pair) :
    Header.size * pairs.length + Pair.totalSize pairs ≤
      Cell.total (pairs.map Cell.live) * unitSize := by
  induction pairs with
  | nil => simp [Pair.totalSize]
  | cons pair pairs ih =>
      have size := (Cell.live pair).size_le_units
      simp only [List.map_cons, Cell.total, List.length_cons, Pair.totalSize, Cell.live,
        Nat.add_mul, Nat.mul_succ] at *
      omega

theorem total_map_live (pairs : List Pair) :
    Cell.total (pairs.map Cell.live) = Pair.totalUnits pairs := by
  rw [Cell.total_eq, List.map_map]
  exact congrArg Pair.totalUnits (List.map_id pairs)

/-- Packing some entries asks for at most seven bytes more for each of them than they take. -/
theorem packedSize_le (pairs : List Pair) :
    packedSize pairs ≤ (Pair.totalUnits pairs + 7 * pairs.length / unitSize) * unitSize := by
  have bytes := totalSize_le_total pairs
  rw [total_map_live] at bytes
  rw [packedSize, Slab.advance, Nat.mul_comm]
  refine Nat.mul_le_mul_right _ ?_
  simp only [Header.size, unitSize] at *
  omega

/-! ## Packing in the slab -/

/-- The stock without entries and without room, under the same limit. -/
def vacant (stock : Stock) : Stock where
  cells := []
  capacity := 0
  limit := stock.limit
  used_le := by simp [Cell.total]
  capacity_le := Nat.zero_le _
  limit_le := stock.limit_le

theorem slab_vacant (stock : Stock) (nodes nodes' : Slot → Node) :
    stock.vacant.slab nodes = Slab.empty (stock.slab nodes').limit := by
  rw [Slab.empty, Slab.withCapacity, show (stock.slab nodes').limit = stock.limit from rfl,
    Nat.min_eq_left stock.limit_le, Nat.zero_min]
  rfl

theorem needed_vacant (stock : Stock) (pairs : List Pair) :
    stock.vacant.needed pairs.length (Pair.totalSize pairs) = packedSize pairs := by
  simp [needed, packedSize, vacant, Cell.total]

theorem room_packed (stock : Stock) {pairs : List Pair} (fits : packedSize pairs ≤ stock.limit) :
    (Cell.total (stock.vacant.grow (packedSize pairs)).cells +
        Cell.total (pairs.map Cell.live)) * unitSize ≤
      (stock.vacant.grow (packedSize pairs)).capacity := by
  refine Nat.le_trans ?_ (stock.vacant.needed_le_grow fits)
  rw [grow, resize, vacant, Cell.total, Nat.zero_add, packedSize, Nat.mul_comm]
  exact Nat.mul_le_mul_left _ (total_le_advance pairs)

theorem appendAll_vacant (stock : Stock) {pairs : List Pair}
    (fits : packedSize pairs ≤ stock.limit) :
    (stock.vacant.grow (packedSize pairs)).appendAll pairs (stock.room_packed fits) =
      stock.packed pairs fits := by
  have capacity_eq : stock.vacant.grownCapacity (packedSize pairs) = packedSize pairs := by
    rw [grownCapacity, show stock.vacant.capacity = 0 from rfl,
      show stock.vacant.limit = stock.limit from rfl]
    split_ifs <;> omega
  simp only [appendAll, grow, resize, capacity_eq]
  rfl

/-- A reservation in a fresh slab is refused, or leaves room that the entries fit in exactly. -/
theorem reserve_vacant (stock : Stock) (nodes : Slot → Node) {pairs : List Pair}
    (counted : pairs.length < UInt64.size) (sized : Pair.totalSize pairs < UInt64.size) :
    (Slab.empty (stock.slab nodes).limit).reserve (.ofNat pairs.length)
        (.ofNat (Pair.totalSize pairs)) =
      if packedSize pairs ≤ stock.limit then
        .ok (Slab.advance pairs.length (Pair.totalSize pairs),
          (stock.vacant.grow (packedSize pairs)).slab fun _ => .detached)
      else
        .error ⟨min (packedSize pairs) (UInt64.size - 1), stock.limit⟩ := by
  rw [← slab_vacant stock (fun _ => .detached), reserve_slab, UInt64.toNat_ofNat_of_lt' counted,
    UInt64.toNat_ofNat_of_lt' sized, needed_vacant]
  rfl

theorem pushAll_vacant (stock : Stock) {pairs : List Pair}
    (fits : packedSize pairs ≤ stock.limit) :
    ((stock.vacant.grow (packedSize pairs)).slab fun _ => .detached).pushAll pairs =
      .ok ((stock.packed pairs fits).slots, (stock.packed pairs fits).slab fun _ => .detached) := by
  rw [pushAll_slab _ pairs (stock.room_packed fits), appendAll_vacant]
  rfl

end Stock
end PackedMap
