import PackedMap.Proofs.Slab.Storing
import PackedMap.Slab.Walk

/-!
# Walks over a stock

A walk through a slab meets the entries of the stock in their order, each one once, and ends at the
slot behind the last of them.
-/

namespace PackedMap

theorem Slot.advance_ofUnits (units more : Nat) :
    (Slot.ofUnits units).advance more = .ofUnits (units + more) := by
  simp [Slot.advance, Slot.ofUnits]

theorem Cell.length_le_total (cells : List Cell) : cells.length ≤ Cell.total cells := by
  induction cells with
  | nil => simp [total]
  | cons cell cells ih =>
      have := cell.units_pos
      simp only [List.length_cons, total]
      omega

/-- The entries at some slots stand back to back, from a slot to the end of the slab. -/
inductive Slab.Tiles (slab : Slab) : Slot → List Slot → Prop
  | nil : Tiles slab slab.endSlot []
  | cons {slot next : Slot} {rest : List Slot} :
      slot.index < slab.endSlot.index →
      slab.next slot = .ok next →
      Tiles slab next rest →
      Tiles slab slot (slot :: rest)

/-- A walk finds what tiles the slab. -/
theorem Slab.Tiles.slotsFrom {slab : Slab} {slot : Slot} {slots : List Slot}
    (tiles : slab.Tiles slot slots) {fuel : Nat} (enough : slots.length < fuel) :
    slab.slotsFrom fuel slot = .ok slots := by
  induction tiles generalizing fuel with
  | nil =>
      obtain ⟨fuel, rfl⟩ := Nat.exists_eq_add_of_lt enough
      simp [Slab.slotsFrom, UInt32.lt_irrefl]
  | cons before next_eq _ ih =>
      obtain ⟨fuel, rfl⟩ : ∃ rest, fuel = rest + 1 := ⟨fuel - 1, by omega⟩
      rw [List.length_cons, Nat.add_lt_add_iff_right] at enough
      simp [Slab.slotsFrom, before, next_eq, ih enough]

/-- A search finds the first live entry of what tiles the slab. -/
theorem Slab.Tiles.firstLiveWithin {slab : Slab} {slot : Slot} {slots : List Slot}
    (tiles : slab.Tiles slot slots) {live : Slot → Bool}
    (told : ∀ other ∈ slots, slab.isTombstone other = .ok (!live other)) {fuel : Nat}
    (enough : slots.length < fuel) : slab.firstLiveWithin fuel slot = .ok (slots.find? live) := by
  induction tiles generalizing fuel with
  | nil =>
      obtain ⟨fuel, rfl⟩ := Nat.exists_eq_add_of_lt enough
      simp [Slab.firstLiveWithin, UInt32.lt_irrefl]
  | @cons slot next rest before next_eq _ ih =>
      obtain ⟨fuel, rfl⟩ : ∃ less, fuel = less + 1 := ⟨fuel - 1, by omega⟩
      rw [List.length_cons, Nat.add_lt_add_iff_right] at enough
      obtain ⟨here, behind⟩ := List.forall_mem_cons.mp told
      have later := ih behind enough
      cases state : live slot <;>
        simp [Slab.firstLiveWithin, before, here, next_eq, later, state]

namespace Stock

variable {stock : Stock}

/-- The slots of the live entries. -/
def liveSlots (stock : Stock) : List Slot :=
  (stock.placed.filter fun entry => !entry.2.tombstone).map Prod.fst

/-- Number of tombstones. -/
def tombstones (stock : Stock) : Nat := stock.cells.countP Cell.tombstone

theorem tombstones_eq (stock : Stock) :
    stock.tombstones = stock.placed.countP fun entry => entry.2.tombstone := by
  rw [tombstones, ← stock.map_snd_placed, List.countP_map]
  rfl

theorem placed_eq_append {front back : List Cell} (split : stock.cells = front ++ back) :
    stock.placed = Cell.tiling 0 front ++ Cell.tiling (Cell.total front) back := by
  rw [placed, split, Cell.tiling_append, Nat.zero_add]

theorem tiles_tiling (nodes : Slot → Node) (front back : List Cell)
    (split : stock.cells = front ++ back) :
    (stock.slab nodes).Tiles (.ofUnits (Cell.total front))
      ((Cell.tiling (Cell.total front) back).map Prod.fst) := by
  induction back generalizing front with
  | nil =>
      have at_end : Slot.ofUnits (Cell.total front) = (stock.slab nodes).endSlot := by
        rw [endSlot_slab, last, split, List.append_nil]
      rw [at_end]
      exact .nil
  | cons cell back ih =>
      have placed : (Slot.ofUnits (Cell.total front), cell) ∈ stock.placed := by
        rw [placed_eq_append split]
        exact List.mem_append_right _ (by simp [Cell.tiling])
      have later := ih (front ++ [cell]) (by simp [split])
      have total_eq : Cell.total (front ++ [cell]) = Cell.total front + cell.units := by
        simp [Cell.total]
      rw [total_eq] at later
      refine .cons ?_ ?_ later
      · rw [endSlot_slab]
        exact UInt32.lt_iff_toNat_lt.mpr (lt_last (mem_slots placed))
      · rw [next_slab placed, Slot.advance_ofUnits]

/-- The entries tile the slab. -/
theorem tiles_slab (stock : Stock) (nodes : Slot → Node) :
    (stock.slab nodes).Tiles ⟨0⟩ stock.slots :=
  tiles_tiling nodes [] stock.cells rfl

theorem slotsFrom_tiling (nodes : Slot → Node) (front back : List Cell)
    (split : stock.cells = front ++ back) {fuel : Nat} (enough : back.length < fuel) :
    (stock.slab nodes).slotsFrom fuel (.ofUnits (Cell.total front)) =
      .ok ((Cell.tiling (Cell.total front) back).map Prod.fst) := by
  refine (tiles_tiling nodes front back split).slotsFrom ?_
  rw [List.length_map, ← List.length_map Prod.snd, Cell.map_snd_tiling]
  exact enough

theorem slots_slab (stock : Stock) (nodes : Slot → Node) :
    (stock.slab nodes).slots = .ok stock.slots := by
  have bound := Cell.length_le_total stock.cells
  exact slotsFrom_tiling nodes [] stock.cells rfl
    (by rw [units_slab]; omega)

/-- All that is stored in a slab can be read back. -/
theorem records_slab (nodes : Slot → Node) (storable : ∀ slot ∈ stock.slots, ∀ side,
      (nodes slot).child side ≠ some ⟨Link.nilWord⟩) :
    (stock.slab nodes).records =
      .ok (stock.placed.map fun entry => (entry.1, entry.2.record (nodes entry.1))) := by
  have each : ∀ entry ∈ stock.placed, (do
      return (entry.1, ← (stock.slab nodes).record entry.1) : Checked (Slot × Record)) =
        .ok (entry.1, entry.2.record (nodes entry.1)) := by
    intro entry mem
    have here := storable entry.1 (mem_slots mem)
    rw [record_slab mem nodes (here .left) (here .right)]
    rfl
  have read := Checked.mapM_eq_ok each
  have walk := stock.slots_slab nodes
  rw [slots] at walk
  rw [Slab.records]
  refine (Checked.bind_eq walk _).trans ?_
  rw [List.mapM_map]
  exact read

theorem liveAmong_slab (nodes : Slot → Node) {entries : List (Slot × Cell)}
    (inside : ∀ entry ∈ entries, entry ∈ stock.placed) :
    (stock.slab nodes).liveAmong (entries.map Prod.fst) =
      .ok ((entries.filter fun entry => !entry.2.tombstone).map Prod.fst) := by
  induction entries with
  | nil => rfl
  | cons entry entries ih =>
      have here : (entry.1, entry.2) ∈ stock.placed := inside entry List.mem_cons_self
      have later := ih fun other mem => inside other (List.mem_cons_of_mem _ mem)
      cases state : entry.2.tombstone <;>
        simp [Slab.liveAmong, isTombstone_slab here, later, state]

/-- A walk from between two cells on finds the live ones behind. -/
theorem liveFrom_slab (nodes : Slot → Node) (front back : List Cell)
    (split : stock.cells = front ++ back) :
    (stock.slab nodes).liveFrom (.ofUnits (Cell.total front)) =
      .ok (((Cell.tiling (Cell.total front) back).filter fun entry => !entry.2.tombstone).map
        Prod.fst) := by
  have short : back.length < (stock.slab nodes).units + 1 := by
    have bound := Cell.length_le_total stock.cells
    rw [units_slab]
    rw [split, List.length_append] at bound
    rw [split]
    omega
  have inside : ∀ entry ∈ Cell.tiling (Cell.total front) back, entry ∈ stock.placed := by
    intro entry mem
    rw [placed_eq_append split]
    exact List.mem_append_right _ mem
  rw [Slab.liveFrom, slotsFrom_tiling nodes front back split short, Checked.ok_bind]
  exact liveAmong_slab nodes inside

theorem liveSlots_slab (stock : Stock) (nodes : Slot → Node) :
    (stock.slab nodes).liveSlots = .ok stock.liveSlots :=
  liveFrom_slab nodes [] stock.cells rfl

theorem mem_liveSlots {slot : Slot} :
    slot ∈ stock.liveSlots ↔ ∃ cell, (slot, cell) ∈ stock.placed ∧ cell.tombstone = false := by
  simp [liveSlots]

theorem liveSlots_sublist (stock : Stock) : stock.liveSlots.Sublist stock.slots :=
  List.filter_sublist.map _

theorem liveSlots_nodup (stock : Stock) : stock.liveSlots.Nodup :=
  stock.slots_nodup.sublist stock.liveSlots_sublist

theorem liveSlots_increasing (stock : Stock) :
    stock.liveSlots.Pairwise fun a b => a.index < b.index :=
  (stock.slots_increasing.sublist stock.liveSlots_sublist).imp UInt32.lt_iff_toNat_lt.mpr

theorem length_liveSlots (stock : Stock) :
    stock.liveSlots.length + stock.tombstones = stock.cells.length := by
  have whole := List.length_eq_countP_add_countP (fun entry : Slot × Cell => entry.2.tombstone)
    (l := stock.placed)
  have length_eq : stock.placed.length = stock.cells.length := by
    rw [← stock.map_snd_placed, List.length_map]
  rw [liveSlots, List.length_map, ← List.countP_eq_length_filter, tombstones_eq, ← length_eq, whole]
  simp [Nat.add_comm]

end Stock
end PackedMap
