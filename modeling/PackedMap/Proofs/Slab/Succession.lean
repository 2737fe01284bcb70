import PackedMap.Proofs.Slab.Pairs

/-!
# Stocks that follow one another

Unless a stock is packed anew it changes in two ways only: live entries are appended at its end, and
live entries become tombstones.  Either way every entry stays at its slot with its pair, and a slot
that was given out once is never given out again.
-/

namespace PackedMap
namespace Stock

/-- A stock comes before another one: all its entries stand there at their slots with their pairs,
the new ones stand behind its end, and of its live entries the given ones are gone. -/
structure Precedes (before after : Stock) (gone : List Slot) : Prop where
  slots : ∃ new, after.slots = before.slots ++ new ∧
    ∀ slot ∈ new, before.last.index.toNat ≤ slot.index.toNat
  ends : before.last.index.toNat ≤ after.last.index.toNat
  pairs : ∀ slot ∈ before.slots, after.pairAt slot = before.pairAt slot
  live : ∀ slot ∈ before.slots,
    (slot ∈ after.liveSlots ↔ slot ∈ before.liveSlots ∧ slot ∉ gone)

namespace Precedes

variable {before middle after stock : Stock} {gone gone' : List Slot} {slot : Slot}

/-- Entries appended at the end change none of those before them. -/
theorem of_append {back : List Cell} (cells_eq : after.cells = before.cells ++ back) :
    before.Precedes after [] := by
  have placed_eq : after.placed =
      before.placed ++ Cell.tiling (Cell.total before.cells) back := placed_eq_append cells_eq
  have small := after.total_small
  rw [cells_eq, Cell.total_append] at small
  have same : ∀ slot ∈ before.slots, after.cellAt slot = before.cellAt slot := by
    intro slot mem
    obtain ⟨cell, placed⟩ := exists_cell mem
    have still : (slot, cell) ∈ after.placed := by
      rw [placed_eq]
      exact List.mem_append_left _ placed
    rw [cellAt_eq_some.mpr placed, cellAt_eq_some.mpr still]
  constructor
  · refine ⟨(Cell.tiling (Cell.total before.cells) back).map Prod.fst, ?_, ?_⟩
    · rw [Stock.slots, placed_eq, List.map_append, Stock.slots]
    · intro slot mem
      obtain ⟨⟨slot, cell⟩, placed, rfl⟩ := List.mem_map.mp mem
      rw [toNat_last]
      exact (Cell.mem_tiling_bounds (by omega) placed).1
  · rw [toNat_last, toNat_last, cells_eq, Cell.total_append]
    omega
  · intro slot mem
    rw [pairAt, pairAt, same slot mem]
  · intro slot mem
    simp only [mem_liveSlots, ← cellAt_eq_some, same slot mem, List.not_mem_nil, not_false_eq_true,
      and_true]

theorem refl (stock : Stock) : stock.Precedes stock [] := of_append (List.append_nil _).symm

/-- A tombstone takes the place of one live entry. -/
theorem entomb (live : slot ∈ stock.liveSlots) : stock.Precedes (stock.entomb slot) [slot] := by
  have perm := (entomb_spec live).1
  have absent := (List.nodup_cons.mp (perm.nodup_iff.mp stock.liveSlots_nodup)).1
  constructor
  · exact ⟨[], by rw [slots_entomb, List.append_nil], List.forall_mem_nil _⟩
  · exact Nat.le_of_eq (by rw [toNat_last, toNat_last, total_entomb])
  · intro other _
    rw [pairAt_entomb]
  · intro other _
    rw [perm.mem_iff, List.mem_cons, List.mem_singleton]
    constructor
    · intro still
      exact ⟨.inr still, fun same => absent (same ▸ still)⟩
    · rintro ⟨same | still, differ⟩
      · exact absurd same differ
      · exact still

theorem mem (precedes : before.Precedes after gone) (mem : slot ∈ before.slots) :
    slot ∈ after.slots := by
  obtain ⟨new, slots_eq, -⟩ := precedes.slots
  rw [slots_eq]
  exact List.mem_append_left _ mem

theorem trans (front : before.Precedes middle gone) (back : middle.Precedes after gone') :
    before.Precedes after (gone ++ gone') := by
  obtain ⟨new, middle_eq, behind⟩ := front.slots
  obtain ⟨new', after_eq, behind'⟩ := back.slots
  constructor
  · refine ⟨new ++ new', by rw [after_eq, middle_eq, List.append_assoc], fun slot mem => ?_⟩
    rcases List.mem_append.mp mem with first | later
    · exact behind slot first
    · exact Nat.le_trans front.ends (behind' slot later)
  · exact Nat.le_trans front.ends back.ends
  · intro slot mem
    exact (back.pairs slot (front.mem mem)).trans (front.pairs slot mem)
  · intro slot mem
    rw [back.live slot (front.mem mem), front.live slot mem, List.mem_append, not_or, and_assoc]

/-- What is live later was live before, or stands behind the old end. -/
theorem old_or_new (precedes : before.Precedes after gone) (live : slot ∈ after.liveSlots) :
    slot ∈ before.liveSlots ∨ before.last.index.toNat ≤ slot.index.toNat := by
  obtain ⟨new, slots_eq, behind⟩ := precedes.slots
  have mem := mem_slots_of_live live
  rw [slots_eq] at mem
  rcases List.mem_append.mp mem with old | fresh
  · exact .inl ((precedes.live slot old).mp live).1
  · exact .inr (behind slot fresh)

end Precedes
end Stock
end PackedMap
