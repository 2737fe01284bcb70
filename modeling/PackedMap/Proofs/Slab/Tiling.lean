import PackedMap.Proofs.Slab.Cell
import Mathlib.Algebra.Group.Nat.Defs

/-!
# Tilings

Cells that stand back to back tile the units of a slab.  The slot of each is the number of units
before it, and as long as the units can be counted in a 32-bit word, slots increase from cell to
cell.
-/

namespace PackedMap

theorem Slot.toNat_ofUnits {units : Nat} (small : units < 2 ^ 32) :
    (Slot.ofUnits units).index.toNat = units :=
  UInt32.toNat_ofNat_of_lt' small

namespace Cell

/-- Number of units of some cells. -/
def total : List Cell → Nat
  | [] => 0
  | cell :: rest => cell.units + total rest

/-- Cells with their slots, the first one standing at a given unit. -/
def tiling : Nat → List Cell → List (Slot × Cell)
  | _, [] => []
  | start, cell :: rest => (.ofUnits start, cell) :: tiling (start + cell.units) rest

@[simp]
theorem total_append (front back : List Cell) :
    total (front ++ back) = total front + total back := by
  induction front with
  | nil => simp [total]
  | cons cell front ih => simp [total, ih, Nat.add_assoc]

theorem total_perm {a b : List Cell} (perm : a.Perm b) : total a = total b := by
  induction perm with
  | nil => rfl
  | cons cell _ ih => rw [total, total, ih]
  | swap a b rest =>
      simp only [total]
      omega
  | trans _ _ first second => exact first.trans second

theorem tiling_append (start : Nat) (front back : List Cell) :
    tiling start (front ++ back) = tiling start front ++ tiling (start + total front) back := by
  induction front generalizing start with
  | nil => simp [tiling, total]
  | cons cell front ih => simp [tiling, total, ih, Nat.add_assoc]

@[simp]
theorem map_snd_tiling (start : Nat) (cells : List Cell) :
    (tiling start cells).map Prod.snd = cells := by
  induction cells generalizing start with
  | nil => rfl
  | cons cell cells ih => simp [tiling, ih]

/-- A cell of a tiling stands at the units of those before it. -/
theorem split_of_mem_tiling {start : Nat} {cells : List Cell} {slot : Slot} {cell : Cell}
    (mem : (slot, cell) ∈ tiling start cells) :
    ∃ front back, cells = front ++ cell :: back ∧ slot = .ofUnits (start + total front) := by
  induction cells generalizing start with
  | nil => simp [tiling] at mem
  | cons head cells ih =>
      rcases List.mem_cons.mp mem with here | later
      · obtain ⟨rfl, rfl⟩ := Prod.mk.inj here
        exact ⟨[], cells, rfl, rfl⟩
      · obtain ⟨front, back, rfl, rfl⟩ := ih later
        exact ⟨head :: front, back, rfl, by rw [total, Nat.add_assoc]⟩

/-- In a tiling the cells in front of one tell its slot. -/
theorem slot_of_tiling_eq {start : Nat} {cells : List Cell} {front back : List (Slot × Cell)}
    {slot : Slot} {cell : Cell} (split : tiling start cells = front ++ (slot, cell) :: back) :
    slot = .ofUnits (start + total (front.map Prod.snd)) := by
  induction front generalizing start cells with
  | nil =>
      cases cells with
      | nil => cases split
      | cons head cells => exact (congrArg Prod.fst (List.cons.inj split).1).symm
  | cons entry front ih =>
      cases cells with
      | nil => cases split
      | cons head cells =>
          obtain ⟨rfl, rest⟩ := List.cons.inj split
          rw [ih rest, List.map_cons, total, Nat.add_assoc]

/-- Changing cells without changing their sizes leaves every slot where it is. -/
theorem tiling_map {start : Nat} {cells : List Cell} {change : Slot → Cell → Cell}
    (same : ∀ slot, ∀ cell ∈ cells, (change slot cell).units = cell.units) :
    tiling start ((tiling start cells).map fun entry => change entry.1 entry.2) =
      (tiling start cells).map fun entry => (entry.1, change entry.1 entry.2) := by
  induction cells generalizing start with
  | nil => rfl
  | cons cell cells ih =>
      have later := @ih (start + cell.units) fun slot other mem =>
        same slot other (List.mem_cons_of_mem _ mem)
      simp only [tiling, List.map_cons, same _ cell List.mem_cons_self, later]

theorem total_map_tiling {start : Nat} {cells : List Cell} {change : Slot → Cell → Cell}
    (same : ∀ slot, ∀ cell ∈ cells, (change slot cell).units = cell.units) :
    total ((tiling start cells).map fun entry => change entry.1 entry.2) = total cells := by
  induction cells generalizing start with
  | nil => rfl
  | cons cell cells ih =>
      have later := @ih (start + cell.units) fun slot other mem =>
        same slot other (List.mem_cons_of_mem _ mem)
      simp only [tiling, List.map_cons, total, same _ cell List.mem_cons_self, later]

/-- A cell lies between the start and the end of its tiling. -/
theorem mem_tiling_bounds {start : Nat} {cells : List Cell} {slot : Slot} {cell : Cell}
    (small : start + total cells < 2 ^ 32) (mem : (slot, cell) ∈ tiling start cells) :
    start ≤ slot.index.toNat ∧ slot.index.toNat + cell.units ≤ start + total cells := by
  obtain ⟨front, back, rfl, rfl⟩ := split_of_mem_tiling mem
  simp only [total_append, total] at small ⊢
  rw [Slot.toNat_ofUnits (by omega)]
  omega

theorem tiling_increasing {start : Nat} {cells : List Cell} (small : start + total cells < 2 ^ 32) :
    ((tiling start cells).map Prod.fst).Pairwise fun a b => a.index.toNat < b.index.toNat := by
  induction cells generalizing start with
  | nil => exact List.Pairwise.nil
  | cons cell cells ih =>
      rw [total] at small
      refine List.pairwise_cons.mpr ⟨fun later mem => ?_, ih (by omega)⟩
      obtain ⟨⟨slot, other⟩, placed, rfl⟩ := List.mem_map.mp mem
      have bounds := mem_tiling_bounds (by omega) placed
      have := cell.units_pos
      rw [Slot.toNat_ofUnits (by omega)]
      exact Nat.lt_of_lt_of_le (by omega) bounds.1

end Cell
end PackedMap
