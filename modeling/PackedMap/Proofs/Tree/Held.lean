import PackedMap.Proofs.Tree.Shape
import PackedMap.Proofs.Slab.Pairs
import PackedMap.Tree.Basic
import Mathlib.Data.List.Perm.Subperm

/-!
# Trees in a stock

A tree is held by a stock with nodes if its slots are distinct entries of the stock and its nodes
are the given ones.  Links, balances and pairs along the tree can then be read in the slab, and a
node can be given another subtree on one side.
-/

namespace PackedMap

/-- A tree whose nodes stand in a slab. -/
structure Held (stock : Stock) (nodes : Slot → Node) (shape : Shape) : Prop where
  stored : shape.Stored nodes
  distinct : shape.slots.Nodup
  inside : ∀ slot ∈ shape.slots, slot ∈ stock.slots

namespace Held

variable {stock : Stock} {nodes : Slot → Node} {shape : Shape}

theorem overlay (distinct : shape.slots.Nodup) (inside : ∀ slot ∈ shape.slots, slot ∈ stock.slots)
    (nodes : Slot → Node) : Held stock (shape.overlay nodes) shape :=
  ⟨Shape.stored_overlay distinct nodes, distinct, inside⟩

/-- No path of a tree in a slab is longer than the bound on descents. -/
theorem height_lt (held : Held stock nodes shape) :
    shape.height < (stock.slab nodes).depthBound := by
  have cells_eq := stock.length_slots
  have fits := (List.subperm_of_subset held.distinct held.inside).length_le
  have height := shape.height_le_length
  have total := Cell.length_le_total stock.cells
  rw [Slab.depthBound, Stock.units_slab]
  omega

/-- The root of a tree of entries can be stored as a link. -/
theorem link_storable (inside : ∀ slot ∈ shape.slots, slot ∈ stock.slots) :
    shape.root ≠ some ⟨Link.nilWord⟩ := by
  intro top
  exact Stock.ne_nilWord_of_mem (inside _ (Shape.mem_slots_of_root top)) rfl

theorem root_storable (held : Held stock nodes shape) : shape.root ≠ some ⟨Link.nilWord⟩ :=
  link_storable held.inside

/-- The links of every node of a tree in a slab can be stored. -/
theorem storable {given : Slot → Node} (inside : ∀ slot ∈ shape.slots, slot ∈ stock.slots)
    (given_storable : ∀ slot side, (given slot).child side ≠ some ⟨Link.nilWord⟩) (slot : Slot)
    (side : Side) : (shape.overlay given slot).child side ≠ some ⟨Link.nilWord⟩ := by
  induction shape generalizing given slot side with
  | nil => exact given_storable slot side
  | node top balance left right left_ih right_ih =>
      simp only [Shape.slots, List.mem_append, List.mem_cons] at inside
      have left_inside := fun slot mem => inside slot (.inl mem)
      have right_inside := fun slot mem => inside slot (.inr (.inr mem))
      by_cases here : slot = top
      · rw [Shape.overlay, here, Stock.assign_same]
        cases side with
        | left => exact link_storable left_inside
        | right => exact link_storable right_inside
      · rw [Shape.overlay, Stock.assign_other here]
        exact left_ih left_inside (right_ih right_inside given_storable) slot side

section Join

variable {side : Side} {slot : Slot} {balance : Balance} {near far : Shape}

theorem mem (held : Held stock nodes (.join side slot balance near far)) : slot ∈ stock.slots :=
  held.inside slot (Shape.mem_slots_join.mpr (.inl rfl))

theorem held_near (held : Held stock nodes (.join side slot balance near far)) :
    Held stock nodes near where
  stored := (Shape.stored_join.mp held.stored).2.1
  distinct := (Shape.nodup_join.mp held.distinct).2.1
  inside other mem := held.inside other (Shape.mem_slots_join.mpr (.inr (.inl mem)))

theorem held_far (held : Held stock nodes (.join side slot balance near far)) :
    Held stock nodes far where
  stored := (Shape.stored_join.mp held.stored).2.2
  distinct := (Shape.nodup_join.mp held.distinct).2.2.1
  inside other mem := held.inside other (Shape.mem_slots_join.mpr (.inr (.inr mem)))

theorem node_eq (held : Held stock nodes (.join side slot balance near far)) :
    nodes slot = .sides side near.root far.root balance := (Shape.stored_join.mp held.stored).1

theorem child_near (held : Held stock nodes (.join side slot balance near far)) :
    (stock.slab nodes).child slot side = .ok near.root := by
  have child_eq : (nodes slot).child side = near.root := by rw [held.node_eq, Node.child_sides]
  have storable := held.held_near.root_storable
  rw [← child_eq] at storable
  rw [Stock.child_slab held.mem nodes side storable, child_eq]

theorem child_far (held : Held stock nodes (.join side slot balance near far)) :
    (stock.slab nodes).child slot side.flip = .ok far.root := by
  rw [← Shape.join_flip] at held
  exact held.child_near

theorem childThere (held : Held stock nodes (.join side slot balance near far)) {top : Slot}
    (near_root : near.root = some top) : (stock.slab nodes).childThere slot side = .ok top := by
  simp [Slab.childThere, held.child_near, near_root]

theorem balance_eq (held : Held stock nodes (.join side slot balance near far)) :
    (stock.slab nodes).balance slot = .ok balance := by
  rw [Stock.balance_slab held.mem, held.node_eq, Node.balance_sides]

theorem pair_eq (held : Held stock nodes (.join side slot balance near far)) :
    (stock.slab nodes).pair slot = .ok (stock.pairAt slot) :=
  Stock.pair_eq_pairAt held.mem nodes

theorem inside_sublist {near' : Shape}
    (held : Held stock nodes (.join side slot balance near far))
    (fewer : near'.slots.Sublist near.slots) :
    ∀ other ∈ (Shape.join side slot balance near' far).slots, other ∈ stock.slots := by
  intro other mem
  refine held.inside other ?_
  rw [Shape.mem_slots_join] at mem ⊢
  exact mem.imp_right (Or.imp_left fun here => fewer.subset here)

end Join

end Held

namespace Shape

variable {stock : Stock} {nodes : Slot → Node} {side : Side} {slot : Slot} {balance : Balance}
  {near far : Shape}

/-- A node over a subtree that was replaced takes the new one by its root. -/
theorem relink {near' : Shape} (held : Held stock nodes (join side slot balance near far))
    (distinct : (join side slot balance near' far).slots.Nodup) :
    (stock.slab (near'.overlay nodes)).setChild slot side near'.root =
      .ok (stock.slab ((join side slot balance near' far).overlay nodes)) := by
  obtain ⟨⟨near_ne, far_ne⟩, near_nodup, far_nodup, apart⟩ := nodup_join.mp distinct
  have here : near'.overlay nodes slot = .sides side near.root far.root balance :=
    (overlay_of_notMem near_ne).trans held.node_eq
  rw [Stock.setChild_slab held.mem, here, Node.withChild_sides]
  congr 2
  refine Stored.eq_overlay (stored_join.mpr ⟨Stock.assign_same .., ?_, ?_⟩) distinct
    fun other outside => ?_
  · exact (stored_overlay near_nodup nodes).congr fun other mem =>
      Stock.assign_other fun same => near_ne (same ▸ mem)
  · refine held.held_far.stored.congr fun other mem => ?_
    have other_ne : other ≠ slot := fun same => far_ne (same ▸ mem)
    rw [Stock.assign_other other_ne, overlay_of_notMem fun first => apart other first mem]
  · rw [mem_slots_join, not_or, not_or] at outside
    rw [Stock.assign_other outside.1, overlay_of_notMem outside.2.1]

end Shape
end PackedMap
