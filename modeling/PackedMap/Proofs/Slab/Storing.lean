import PackedMap.Proofs.Slab.Growth

/-!
# Storing entries

Creating, growing and shrinking a slab, appending an entry and taking it back, as operations on
stocks.  The room that one entry is granted is exactly what it takes, and the room granted to many
is enough for them.
-/

namespace PackedMap
namespace Stock

variable {stock : Stock} {nodes : Slot → Node}

/-! ## Units -/

@[simp]
theorem units_slab (stock : Stock) (nodes : Slot → Node) :
    (stock.slab nodes).units = Cell.total stock.cells := by
  rw [Slab.units, used_slab, Nat.mul_div_cancel _ (by decide)]

/-- The slot after the last entry. -/
def last (stock : Stock) : Slot := .ofUnits (Cell.total stock.cells)

@[simp]
theorem endSlot_slab (stock : Stock) (nodes : Slot → Node) :
    (stock.slab nodes).endSlot = stock.last := by
  rw [Slab.endSlot, units_slab, last]

theorem toNat_last (stock : Stock) : stock.last.index.toNat = Cell.total stock.cells := by
  have small := stock.total_small
  exact Slot.toNat_ofUnits (by omega)

theorem lt_last {slot : Slot} (mem : slot ∈ stock.slots) :
    slot.index.toNat < stock.last.index.toNat := by
  obtain ⟨cell, placed⟩ := exists_cell mem
  have bounds := bounds_of_mem placed
  have := cell.units_pos
  rw [toNat_last]
  omega

theorem last_notMem (stock : Stock) : stock.last ∉ stock.slots :=
  fun mem => Nat.lt_irrefl _ (lt_last mem)

theorem limit_lt_size (stock : Stock) : stock.limit < UInt64.size := by
  have limit := stock.limit_le
  simp only [Slab.greatestLimit, UInt64.size] at *
  omega

/-! ## Capacity -/

/-- The stock without entries. -/
def empty (initial limit : Nat) : Stock where
  cells := []
  capacity := min initial (min limit Slab.greatestLimit)
  limit := min limit Slab.greatestLimit
  used_le := by simp [Cell.total]
  capacity_le := Nat.min_le_right ..
  limit_le := Nat.min_le_right ..

/-- The stock with another capacity. -/
def resize (stock : Stock) (capacity : Nat) (used_le : Cell.total stock.cells * unitSize ≤ capacity)
    (capacity_le : capacity ≤ stock.limit) : Stock :=
  { stock with capacity, used_le, capacity_le }

/-- The stock without spare room. -/
def shrink (stock : Stock) : Stock :=
  stock.resize (Cell.total stock.cells * unitSize) (Nat.le_refl _)
    (Nat.le_trans stock.used_le stock.capacity_le)

theorem shrink_slab (stock : Stock) (nodes : Slot → Node) :
    (stock.slab nodes).shrink = stock.shrink.slab nodes := by
  simp only [Slab.shrink, used_slab]
  rfl

theorem snapshot_slab (stock : Stock) (nodes : Slot → Node) :
    (stock.slab nodes).snapshot = stock.slab nodes :=
  Slab.snapshot_eq (Nat.le_trans (Nat.le_of_eq (used_slab ..)) stock.used_le)

/-- The capacity that holds a number of bytes. -/
def grownCapacity (stock : Stock) (needed : Nat) : Nat :=
  if needed ≤ stock.capacity then stock.capacity
  else min (max (2 * stock.capacity) needed) stock.limit

theorem grownCapacity_bounds (stock : Stock) (needed : Nat) :
    stock.capacity ≤ stock.grownCapacity needed ∧ stock.grownCapacity needed ≤ stock.limit := by
  have capacity := stock.capacity_le
  unfold grownCapacity
  split <;> omega

/-- The stock with room for a number of bytes. -/
def grow (stock : Stock) (needed : Nat) : Stock :=
  stock.resize (stock.grownCapacity needed)
    (Nat.le_trans stock.used_le (stock.grownCapacity_bounds needed).1)
    (stock.grownCapacity_bounds needed).2

theorem needed_le_grow {needed : Nat} (within : needed ≤ stock.limit) :
    needed ≤ (stock.grow needed).capacity := by
  simp only [grow, resize, grownCapacity]
  split <;> omega

/-- Bytes that a stock needs for a batch of entries beside those it has. -/
def needed (stock : Stock) (entries bytes : Nat) : Nat :=
  unitSize * Slab.advance entries bytes + Cell.total stock.cells * unitSize

theorem reserve_slab (stock : Stock) (nodes : Slot → Node) (entries bytes : UInt64) :
    (stock.slab nodes).reserve entries bytes =
      if stock.needed entries.toNat bytes.toNat ≤ stock.limit then
        .ok (Slab.advance entries.toNat bytes.toNat,
          (stock.grow (stock.needed entries.toNat bytes.toNat)).slab nodes)
      else
        .error ⟨min (stock.needed entries.toNat bytes.toNat) (UInt64.size - 1), stock.limit⟩ := by
  have fits : (stock.slab nodes).used ≤ (stock.slab nodes).limit := by
    rw [used_slab]
    exact Nat.le_trans stock.used_le stock.capacity_le
  have needed_eq : (stock.slab nodes).needed entries.toNat bytes.toNat =
      stock.needed entries.toNat bytes.toNat := by
    rw [Slab.needed, used_slab, needed]
  rw [Slab.reserve_eq _ entries bytes stock.limit_lt_size fits, needed_eq]
  rfl

/-! ## Appending -/

/-- A reservation for one entry grants exactly the units that it takes. -/
theorem advance_one (pair : Pair) : Slab.advance 1 pair.size = (Cell.live pair).units :=
  Slab.advance_one pair.key.length pair.value.length

/-- The units that some cells take are granted to a batch of as many entries. -/
theorem total_le_advance (pairs : List Pair) :
    Cell.total (pairs.map Cell.live) ≤ Slab.advance pairs.length (Pair.totalSize pairs) := by
  induction pairs with
  | nil => simp [Cell.total]
  | cons pair pairs ih =>
      have one := advance_one pair
      simp only [List.map_cons, Cell.total, List.length_cons, Pair.totalSize, Slab.advance,
        unitSize] at *
      omega

/-- The stock with one more live entry. -/
def push (stock : Stock) (pair : Pair)
    (room : (Cell.total stock.cells + (Cell.live pair).units) * unitSize ≤ stock.capacity) :
    Stock where
  cells := stock.cells ++ [.live pair]
  capacity := stock.capacity
  limit := stock.limit
  used_le := by simpa [Cell.total] using room
  capacity_le := stock.capacity_le
  limit_le := stock.limit_le

section Push

variable {pair : Pair}
  {room : (Cell.total stock.cells + (Cell.live pair).units) * unitSize ≤ stock.capacity}

theorem placed_push :
    (stock.push pair room).placed = stock.placed ++ [(stock.last, .live pair)] := by
  simp [placed, push, Cell.tiling_append, Cell.tiling, last]

theorem slots_push : (stock.push pair room).slots = stock.slots ++ [stock.last] := by
  simp [slots, placed_push]

theorem slab_push
    (room : (Cell.total stock.cells + (Cell.live pair).units) * unitSize ≤ stock.capacity)
    (nodes : Slot → Node) :
    ((stock.push pair room).slab nodes).data =
      (stock.slab nodes).data ++ ((Cell.live pair).record (nodes stock.last)).encode := by
  simp [slab, placed_push, written]

theorem push_slab (new : nodes stock.last = .detached) (pair : Pair)
    (room : (Cell.total stock.cells + (Cell.live pair).units) * unitSize ≤ stock.capacity) :
    (stock.slab nodes).push pair = .ok (stock.last, (stock.push pair room).slab nodes) := by
  have enough : (stock.slab nodes).used + (Cell.live pair).units * unitSize ≤
      (stock.slab nodes).capacity := by
    rw [used_slab, ← Nat.add_mul]
    exact room
  have data_eq := slab_push room nodes
  rw [new] at data_eq
  simp only [Slab.push, Cell.detached_eq, Cell.units_record, if_pos enough, endSlot_slab,
    ← data_eq]
  rfl

theorem truncate_push (nodes : Slot → Node) :
    ((stock.push pair room).slab nodes).truncate stock.last = stock.slab nodes := by
  have size : stock.last.offset = (stock.slab nodes).data.size := by
    have used := stock.used_slab nodes
    rw [Slab.used] at used
    rw [used, Slot.offset, toNat_last]
  have data_eq := slab_push room nodes
  simp only [Slab.truncate, data_eq, size]
  simp [slab, push]

end Push

/-! ## Extending -/

theorem room_of_fits {pair : Pair} (fits : stock.needed 1 pair.size ≤ stock.limit) :
    (Cell.total stock.cells + (Cell.live pair).units) * unitSize ≤
      (stock.grow (stock.needed 1 pair.size)).capacity := by
  refine Nat.le_trans (Nat.le_of_eq ?_) (stock.needed_le_grow fits)
  rw [needed, advance_one, Nat.add_mul, Nat.mul_comm unitSize, Nat.add_comm]

/-- The stock with one more live entry, grown as far as that entry needs. -/
def extend (stock : Stock) (pair : Pair) (fits : stock.needed 1 pair.size ≤ stock.limit) : Stock :=
  (stock.grow (stock.needed 1 pair.size)).push pair (room_of_fits fits)

theorem total_extend {pair : Pair} (fits : stock.needed 1 pair.size ≤ stock.limit) :
    Cell.total (stock.extend pair fits).cells =
      Cell.total stock.cells + (Cell.live pair).units := by
  rw [show (stock.extend pair fits).cells = stock.cells ++ [.live pair] from rfl,
    Cell.total_append]
  rfl

theorem reservePair_slab (stock : Stock) (nodes : Slot → Node) (pair : Pair) :
    (stock.slab nodes).reservePair pair =
      if stock.needed 1 pair.size ≤ stock.limit then
        .ok ((stock.grow (stock.needed 1 pair.size)).slab nodes)
      else
        .error ⟨min (stock.needed 1 pair.size) (UInt64.size - 1), stock.limit⟩ := by
  have limit := stock.limit_lt_size
  by_cases counted : pair.size < UInt64.size
  · have one : (1 : UInt64).toNat = 1 := rfl
    have bytes : (UInt64.ofNat pair.size).toNat = pair.size := UInt64.toNat_ofNat_of_lt' counted
    rw [Slab.reservePair, if_pos counted, reserve_slab, one, bytes]
    split <;> rfl
  · have large : UInt64.size ≤ stock.needed 1 pair.size := by
      have size := (Cell.live pair).size_le_units
      simp only [needed, advance_one, Cell.live, Header.size, unitSize] at *
      omega
    rw [Slab.reservePair, if_neg counted, if_neg (by omega), Nat.min_eq_right (by omega)]
    rfl

theorem push_grow_slab (new : nodes stock.last = .detached) {pair : Pair}
    (fits : stock.needed 1 pair.size ≤ stock.limit) :
    ((stock.grow (stock.needed 1 pair.size)).slab nodes).push pair =
      .ok (stock.last, (stock.extend pair fits).slab nodes) :=
  @push_slab (stock.grow (stock.needed 1 pair.size)) nodes new pair (room_of_fits fits)

theorem truncate_extend (nodes : Slot → Node) {pair : Pair}
    (fits : stock.needed 1 pair.size ≤ stock.limit) :
    ((stock.extend pair fits).slab nodes).truncate stock.last =
      (stock.grow (stock.needed 1 pair.size)).slab nodes :=
  @truncate_push (stock.grow (stock.needed 1 pair.size)) pair (room_of_fits fits) nodes

end Stock
end PackedMap
