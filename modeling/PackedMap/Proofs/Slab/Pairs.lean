import PackedMap.Proofs.Slab.Walking
import PackedMap.Comparator

/-!
# Pairs and states of entries

Which entry is the first live one from a slot on, and what each operation on a stock does to the
cell at a slot, to the live entries and to the number of tombstones.
-/

namespace PackedMap
namespace Stock

variable {stock : Stock} {slot other : Slot} {cell : Cell} {pair : Pair}

/-- The cell at a slot. -/
def cellAt (stock : Stock) (slot : Slot) : Option Cell := stock.placed.lookup slot

/-- The pair at a slot, and an empty one where no entry is. -/
def pairAt (stock : Stock) (slot : Slot) : Pair :=
  ((stock.cellAt slot).map Cell.pair).getD ⟨[], []⟩

/-- Where a comparator sends a search for one entry when it meets another. -/
def place (stock : Stock) (order : Comparator) (probe other : Slot) : Ordering :=
  order (stock.pairAt probe) (stock.pairAt other)

theorem cellAt_eq_some : stock.cellAt slot = some cell ↔ (slot, cell) ∈ stock.placed := by
  constructor
  · intro found
    obtain ⟨front, back, placed_eq, -⟩ := List.lookup_eq_some_iff.mp found
    rw [placed_eq]
    exact List.mem_append_right _ List.mem_cons_self
  · intro mem
    obtain ⟨front, back, placed_eq, front_ne, -, -⟩ := exists_split mem
    refine List.lookup_eq_some_iff.mpr ⟨front, back, placed_eq, fun entry here => ?_⟩
    exact bne_iff_ne.mpr (front_ne entry here).symm

theorem pairAt_eq (mem : (slot, cell) ∈ stock.placed) : stock.pairAt slot = cell.pair := by
  rw [pairAt, cellAt_eq_some.mpr mem]
  rfl

theorem pair_eq_pairAt (mem : slot ∈ stock.slots) (nodes : Slot → Node) :
    (stock.slab nodes).pair slot = .ok (stock.pairAt slot) := by
  obtain ⟨cell, placed⟩ := exists_cell mem
  rw [pair_slab placed, pairAt_eq placed]

theorem mem_slots_of_live (mem : slot ∈ stock.liveSlots) : slot ∈ stock.slots :=
  stock.liveSlots_sublist.subset mem

/-- The stock with a tombstone at a slot. -/
def entomb (stock : Stock) (slot : Slot) : Stock := stock.alter slot Cell.entomb Cell.units_entomb

/-! ## The first live entry -/

theorem tombstone_eq (mem : (slot, cell) ∈ stock.placed) :
    cell.tombstone = !decide (slot ∈ stock.liveSlots) := by
  cases state : cell.tombstone with
  | false =>
      have live := mem_liveSlots.mpr ⟨cell, mem, state⟩
      simp [live]
  | true =>
      have gone : slot ∉ stock.liveSlots := by
        intro live
        obtain ⟨other, other_mem, alive⟩ := mem_liveSlots.mp live
        have same := (cellAt_eq_some.mpr mem).symm.trans (cellAt_eq_some.mpr other_mem)
        rw [Option.some.inj same, alive] at state
        cases state
      simp [gone]

theorem liveSlots_eq_filter (stock : Stock) :
    stock.liveSlots = stock.slots.filter (· ∈ stock.liveSlots) := by
  rw [slots, List.filter_map]
  refine congrArg _ (List.filter_congr fun entry mem => ?_)
  rw [tombstone_eq mem, Bool.not_not]
  rfl

/-- A search from between two cells on finds the first live one behind. -/
theorem firstLive_tiling (nodes : Slot → Node) (front back : List Cell)
    (split : stock.cells = front ++ back) :
    (stock.slab nodes).firstLive (.ofUnits (Cell.total front)) =
      .ok (((Cell.tiling (Cell.total front) back).map Prod.fst).find? (· ∈ stock.liveSlots)) := by
  have told : ∀ slot ∈ (Cell.tiling (Cell.total front) back).map Prod.fst,
      (stock.slab nodes).isTombstone slot = .ok (!decide (slot ∈ stock.liveSlots)) := by
    intro slot mem
    obtain ⟨⟨slot, cell⟩, here, rfl⟩ := List.mem_map.mp mem
    have placed : (slot, cell) ∈ stock.placed := by
      rw [placed_eq_append split]
      exact List.mem_append_right _ here
    rw [isTombstone_slab placed, tombstone_eq placed]
  have short : ((Cell.tiling (Cell.total front) back).map Prod.fst).length <
      (stock.slab nodes).units + 1 := by
    have bound := Cell.length_le_total stock.cells
    have length_eq := congrArg List.length (Cell.map_snd_tiling (Cell.total front) back)
    rw [List.length_map] at length_eq ⊢
    rw [split, List.length_append] at bound
    rw [units_slab, split]
    omega
  exact (tiles_tiling nodes front back split).firstLiveWithin told short

theorem firstLive_slab (stock : Stock) (nodes : Slot → Node) :
    (stock.slab nodes).firstLive ⟨0⟩ = .ok stock.liveSlots.head? := by
  have found := firstLive_tiling nodes [] stock.cells rfl
  rw [liveSlots_eq_filter, List.head?_filter]
  exact found

/-- The entries behind one of them are those with greater slots. -/
theorem exists_behind (mem : (slot, cell) ∈ stock.placed) :
    ∃ front back, stock.cells = front ++ back ∧
      slot.advance cell.units = .ofUnits (Cell.total front) ∧
      (Cell.tiling (Cell.total front) back).map Prod.fst =
        stock.slots.filter fun other => slot.index < other.index := by
  obtain ⟨front, back, split, rfl⟩ := Cell.split_of_mem_tiling mem
  have total_eq : Cell.total (front ++ [cell]) = 0 + Cell.total front + cell.units := by
    simp [Cell.total]
  have increasing := stock.slots_increasing
  refine ⟨front ++ [cell], back, by simp [split], by rw [Slot.advance_ofUnits, total_eq], ?_⟩
  rw [total_eq]
  rw [slots, placed, split, Cell.tiling_append, List.map_append, Cell.tiling, List.map_cons]
    at increasing ⊢
  obtain ⟨-, behind, before⟩ := List.pairwise_append.mp increasing
  have passed : ∀ other ∈ (Cell.tiling 0 front).map Prod.fst,
      ¬ (Slot.ofUnits (0 + Cell.total front)).index < other.index := fun other here =>
    UInt32.not_lt.mpr (UInt32.le_iff_toNat_le.mpr
      (Nat.le_of_lt (before other here _ List.mem_cons_self)))
  have beyond : ∀ other ∈ (Cell.tiling (0 + Cell.total front + cell.units) back).map Prod.fst,
      (Slot.ofUnits (0 + Cell.total front)).index < other.index := fun other here =>
    UInt32.lt_iff_toNat_lt.mpr ((List.pairwise_cons.mp behind).1 other here)
  rw [List.filter_append, List.filter_cons_of_neg (by simp [UInt32.lt_irrefl]),
    List.filter_eq_nil_iff.mpr fun other here => by simpa using passed other here,
    List.filter_eq_self.mpr fun other here => decide_eq_true (beyond other here), List.nil_append]

/-- Behind an entry the first live one is the first with a greater slot. -/
theorem firstLive_behind (mem : (slot, cell) ∈ stock.placed) (nodes : Slot → Node) :
    (stock.slab nodes).firstLive (slot.advance cell.units) =
      .ok (stock.liveSlots.find? fun other => slot.index < other.index) := by
  obtain ⟨front, back, split, start_eq, behind_eq⟩ := exists_behind mem
  have found := firstLive_tiling nodes front back split
  rw [← start_eq, behind_eq, List.find?_filter] at found
  rw [found]
  conv => rhs; rw [liveSlots_eq_filter, List.find?_filter]
  simp only [and_comm]

/-! ## Changing a cell -/

section Alter

variable {change : Cell → Cell} {same : ∀ cell, (change cell).units = cell.units}

theorem cellAt_alter : (stock.alter slot change same).cellAt other =
    (stock.cellAt other).map (changeAt slot change other) := by
  rw [cellAt, cellAt, placed_alter]
  induction stock.placed with
  | nil => rfl
  | cons entry rest ih =>
      rw [List.map_cons, List.lookup_cons, List.lookup_cons, ih]
      cases here : other == entry.1 with
      | false => rfl
      | true =>
          obtain rfl := eq_of_beq here
          rfl

theorem pairAt_alter_other (differ : other ≠ slot) :
    (stock.alter slot change same).pairAt other = stock.pairAt other := by
  rw [pairAt, pairAt, cellAt_alter]
  cases stock.cellAt other with
  | none => rfl
  | some cell => simp [changeAt, differ]

@[simp]
theorem pairAt_entomb : (stock.entomb slot).pairAt = stock.pairAt := by
  funext other
  rw [pairAt, pairAt, entomb, cellAt_alter]
  cases stock.cellAt other with
  | none => rfl
  | some cell =>
      simp only [Option.map_some, Option.getD_some, changeAt]
      split <;> rfl

theorem exists_alter_split (mem : (slot, cell) ∈ stock.placed) :
    ∃ front back, stock.placed = front ++ (slot, cell) :: back ∧
      (stock.alter slot change same).placed = front ++ (slot, change cell) :: back := by
  obtain ⟨front, back, placed_eq, front_ne, back_ne, -⟩ := exists_split mem
  have keep (part : List (Slot × Cell)) (ne : ∀ entry ∈ part, entry.1 ≠ slot) :
      part.map (fun entry => (entry.1, changeAt slot change entry.1 entry.2)) = part :=
    (List.map_congr_left fun entry here => by simp [changeAt, ne entry here]).trans
      (List.map_id part)
  refine ⟨front, back, placed_eq, ?_⟩
  rw [placed_alter, placed_eq, List.map_append, List.map_cons, keep front front_ne,
    keep back back_ne, changeAt, if_pos rfl]

/-- A change that keeps the state of its cell keeps the live entries. -/
theorem liveSlots_alter (mem : (slot, cell) ∈ stock.placed)
    (state : (change cell).tombstone = cell.tombstone) :
    (stock.alter slot change same).liveSlots = stock.liveSlots ∧
      (stock.alter slot change same).tombstones = stock.tombstones := by
  obtain ⟨front, back, placed_eq, alter_eq⟩ := @exists_alter_split stock slot cell change same mem
  constructor
  · rw [liveSlots, liveSlots, alter_eq, placed_eq]
    cases dead : cell.tombstone <;> simp [state, dead]
  · rw [tombstones_eq, tombstones_eq, alter_eq, placed_eq]
    simp [List.countP_cons, state]

/-- A tombstone is laid over exactly one live entry. -/
theorem entomb_spec (live : slot ∈ stock.liveSlots) :
    stock.liveSlots.Perm (slot :: (stock.entomb slot).liveSlots) ∧
      (stock.entomb slot).tombstones = stock.tombstones + 1 := by
  obtain ⟨cell, mem, alive⟩ := mem_liveSlots.mp live
  obtain ⟨front, back, placed_eq, alter_eq⟩ :=
    @exists_alter_split stock slot cell Cell.entomb Cell.units_entomb mem
  constructor
  · rw [liveSlots, liveSlots, entomb, alter_eq, placed_eq]
    simp [alive, Cell.entomb]
  · rw [tombstones_eq, tombstones_eq, entomb, alter_eq, placed_eq]
    simp [alive, Cell.entomb]
    omega

theorem slots_entomb : (stock.entomb slot).slots = stock.slots := slots_alter ..

theorem total_entomb : Cell.total (stock.entomb slot).cells = Cell.total stock.cells :=
  total_alter ..

end Alter

/-! ## Appending -/

section Push

variable {room : (Cell.total stock.cells + (Cell.live pair).units) * unitSize ≤ stock.capacity}

theorem cellAt_push_other (differ : other ≠ stock.last) :
    (stock.push pair room).cellAt other = stock.cellAt other := by
  rw [cellAt, cellAt, placed_push, List.lookup_append, List.lookup_cons, beq_false_of_ne differ]
  exact Option.or_none

theorem pairAt_push_other (differ : other ≠ stock.last) :
    (stock.push pair room).pairAt other = stock.pairAt other := by
  rw [pairAt, pairAt, cellAt_push_other differ]

theorem pairAt_push_last : (stock.push pair room).pairAt stock.last = pair := by
  have mem : (stock.last, Cell.live pair) ∈ (stock.push pair room).placed := by
    rw [placed_push]
    exact List.mem_append_right _ List.mem_cons_self
  exact pairAt_eq mem

theorem liveSlots_push : (stock.push pair room).liveSlots = stock.liveSlots ++ [stock.last] := by
  simp [liveSlots, placed_push, Cell.live]

theorem tombstones_push : (stock.push pair room).tombstones = stock.tombstones := by
  simp [tombstones, push, Cell.live]

end Push

section Extend

variable {fits : stock.needed 1 pair.size ≤ stock.limit}

theorem placed_extend :
    (stock.extend pair fits).placed = stock.placed ++ [(stock.last, .live pair)] := placed_push

theorem mem_placed_extend (fits : stock.needed 1 pair.size ≤ stock.limit) :
    (stock.last, .live pair) ∈ (stock.extend pair fits).placed := by
  rw [placed_extend]
  exact List.mem_append_right _ List.mem_cons_self

theorem slots_extend : (stock.extend pair fits).slots = stock.slots ++ [stock.last] := slots_push

theorem pairAt_extend_other (differ : other ≠ stock.last) :
    (stock.extend pair fits).pairAt other = stock.pairAt other := pairAt_push_other differ

theorem pairAt_extend_last : (stock.extend pair fits).pairAt stock.last = pair := pairAt_push_last

theorem liveSlots_extend :
    (stock.extend pair fits).liveSlots = stock.liveSlots ++ [stock.last] := liveSlots_push

theorem tombstones_extend : (stock.extend pair fits).tombstones = stock.tombstones :=
  tombstones_push

end Extend

end Stock
end PackedMap
