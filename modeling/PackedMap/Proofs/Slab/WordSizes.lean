import PackedMap.Proofs.Slab.Ledger
import PackedMap.Proofs.Tree.Held

/-!
# Sizes as words

A slab stores lengths and links as 32-bit words, and computes slots in 32-bit words that wrap.  As
its capacity stays below 2³² bytes, all slots stay below 2²⁹, so that no number is cut off, no sum
wraps, and no slot is the word that stands for nothing.
-/

namespace PackedMap

/-- The lengths and the units of an entry are words, and the slot behind it is computed without
wrapping. -/
structure Slab.EntryFits (slab : Slab) (slot : Slot) (record : Record) : Prop where
  key_word : (UInt32.ofNat record.pair.key.length).toNat = record.pair.key.length
  value_word : (UInt32.ofNat record.pair.value.length).toNat = record.pair.value.length
  units_word : (UInt32.ofNat record.units).toNat = record.units
  keyLength_eq : slab.keyLength slot = .ok record.pair.key.length
  valueLength_eq : slab.valueLength slot = .ok record.pair.value.length
  unitsAt_eq : slab.unitsAt slot = .ok record.units
  next_eq : ∃ next, slab.next slot = .ok next ∧
    next.index.toNat = slot.index.toNat + record.units
  before_end : slot.index.toNat + record.units ≤ slab.units

/-- All sizes of a slab are words: it is filled by whole units within its capacity and its limit,
and its slots, with that behind the last entry, are below 2²⁹.  So they differ from the word that
stands for nothing, and links lead to entries only. -/
structure Slab.FitsWords (slab : Slab) (records : List (Slot × Record)) : Prop where
  stored : slab.records = .ok records
  whole : unitSize ∣ slab.used
  used_le : slab.used ≤ slab.capacity
  capacity_le : slab.capacity ≤ slab.limit
  limit_le : slab.limit ≤ Slab.greatestLimit
  units_lt : slab.units < 2 ^ 29
  end_eq : slab.endSlot.index.toNat = slab.units
  entry : ∀ slot record, (slot, record) ∈ records → slab.EntryFits slot record
  link : ∀ slot record, (slot, record) ∈ records → ∀ target,
    record.left = some target ∨ record.right = some target → target ∈ records.map Prod.fst
  nil_apart : ∀ slot, slot = slab.endSlot ∨ slot ∈ records.map Prod.fst →
    slot.index ≠ Link.nilWord

/-- The links of a tree over entries lead to entries. -/
theorem Held.link_mem {stock : Stock} {shape : Shape} {given : Slot → Node} {target : Slot}
    (inside : ∀ slot ∈ shape.slots, slot ∈ stock.slots)
    (given_inside : ∀ slot side, (given slot).child side = some target → target ∈ stock.slots)
    (slot : Slot) (side : Side) (linked : (shape.overlay given slot).child side = some target) :
    target ∈ stock.slots := by
  induction shape generalizing given slot side with
  | nil => exact given_inside slot side linked
  | node top balance left right left_ih right_ih =>
      simp only [Shape.slots, List.mem_append, List.mem_cons] at inside
      have left_inside := fun slot mem => inside slot (.inl mem)
      have right_inside := fun slot mem => inside slot (.inr (.inr mem))
      by_cases here : slot = top
      · rw [Shape.overlay, here, Stock.assign_same] at linked
        cases side with
        | left => exact left_inside target (Shape.mem_slots_of_root linked)
        | right => exact right_inside target (Shape.mem_slots_of_root linked)
      · rw [Shape.overlay, Stock.assign_other here] at linked
        exact left_ih left_inside (right_ih right_inside given_inside) slot side linked

namespace Stock

variable {stock : Stock} {nodes : Slot → Node} {slot : Slot} {cell : Cell}

theorem entryFits (placed : (slot, cell) ∈ stock.placed) (nodes : Slot → Node) :
    (stock.slab nodes).EntryFits slot (cell.record (nodes slot)) := by
  have small := stock.total_small
  have bounds := bounds_of_mem placed
  have size := size_small placed
  have key_le : cell.pair.key.length ≤ cell.pair.size := Nat.le_add_right ..
  have value_le : cell.pair.value.length ≤ cell.pair.size := Nat.le_add_left ..
  have units_word : (UInt32.ofNat cell.units).toNat = cell.units :=
    UInt32.toNat_ofNat_of_lt' (show cell.units < 2 ^ 32 by omega)
  have sum_small : slot.index.toNat + cell.units < 2 ^ 32 := by omega
  exact {
    key_word := UInt32.toNat_ofNat_of_lt' (Nat.lt_of_le_of_lt key_le size)
    value_word := UInt32.toNat_ofNat_of_lt' (Nat.lt_of_le_of_lt value_le size)
    units_word := units_word
    keyLength_eq := keyLength_slab placed nodes
    valueLength_eq := valueLength_slab placed nodes
    unitsAt_eq := by
      rw [Slab.unitsAt, keyLength_slab placed, Checked.ok_bind, valueLength_slab placed]
      rfl
    next_eq := by
      refine ⟨_, next_slab placed nodes, ?_⟩
      rw [Slot.advance, UInt32.toNat_add, units_word, Nat.mod_eq_of_lt sum_small,
        Cell.units_record]
    before_end := by
      rw [units_slab]
      exact bounds }

/-- Where links lead to entries, all sizes of a slab are words. -/
theorem fitsWords (stock : Stock)
    (links : ∀ slot side target, (nodes slot).child side = some target → target ∈ stock.slots) :
    (stock.slab nodes).FitsWords (Ledger.of stock nodes).placed where
  stored := by
    rw [Ledger.placed_of]
    exact records_slab nodes fun slot _ side top => ne_nilWord_of_mem (links slot side _ top) rfl
  whole := by
    rw [used_slab]
    exact Nat.dvd_mul_left ..
  used_le := by
    rw [used_slab]
    exact stock.used_le
  capacity_le := stock.capacity_le
  limit_le := stock.limit_le
  units_lt := by
    rw [units_slab]
    exact stock.total_small
  end_eq := by rw [endSlot_slab, units_slab, toNat_last]
  entry slot record mem := by
    obtain ⟨cell, placed, rfl⟩ := Ledger.mem_placed_of.mp mem
    exact entryFits placed nodes
  link slot record mem target linked := by
    obtain ⟨cell, -, rfl⟩ := Ledger.mem_placed_of.mp mem
    rw [Ledger.slots_of]
    rcases linked with left | right
    · exact links slot .left target left
    · exact links slot .right target right
  nil_apart slot here nil := by
    have small := stock.total_small
    rw [endSlot_slab, Ledger.slots_of] at here
    rcases here with rfl | mem
    · have last := stock.toNat_last
      simp only [nil, Link.nilWord, UInt32.reduceToNat] at last
      omega
    · obtain ⟨index⟩ := slot
      exact ne_nilWord_of_mem mem (by rw [← nil])

theorem fitsWords_nodes {shape : Shape} (inside : ∀ slot ∈ shape.slots, slot ∈ stock.slots) :
    (stock.slab shape.nodes).FitsWords (Ledger.of stock shape.nodes).placed :=
  stock.fitsWords fun slot side _ linked =>
    Held.link_mem inside (fun other side none => by simp at none) slot side linked

/-- The records of entries outside the tree are those of their cells. -/
theorem records_of_detached (stock : Stock) :
    (Ledger.of stock fun _ => .detached).placed.map Prod.snd =
      stock.cells.map fun cell => cell.record .detached := by
  rw [Ledger.placed_of, List.map_map, ← stock.map_snd_placed, List.map_map]
  rfl

/-- Each of some entries can be packed into a fresh slab that was given room for all of them, and
all sizes stay words on the way. -/
theorem fitsWords_pushAll (stock : Stock) {front back : List Pair}
    (fits : packedSize (front ++ back) ≤ stock.limit) :
    ∃ slots slab records,
      ((stock.vacant.grow (packedSize (front ++ back))).slab fun _ => .detached).pushAll front =
          .ok (slots, slab) ∧
        slab.limit = stock.limit ∧ slab.FitsWords records ∧
        records.map Prod.snd = front.map Record.detached := by
  have room := stock.room_packed fits
  rw [List.map_append, Cell.total_append, ← Nat.add_assoc, Nat.add_mul] at room
  have front_room := Nat.le_trans (Nat.le_add_right ..) room
  refine ⟨_, _, _, pushAll_slab _ front front_room, rfl,
    fitsWords _ fun slot side target linked => by simp at linked, ?_⟩
  rw [records_of_detached]
  exact List.map_map ..

end Stock
end PackedMap
