import PackedMap.Proofs.Tree.Bearing
import PackedMap.Proofs.Tree.Remove

/-!
# What a removal does

A removal takes any record for its target and any comparator for its guide.  Where the comparator
leads to the target, exactly that entry leaves the tree, and no pair or state changes anywhere.
Where it does not, nothing changes at all.  A comparator in whose order the tree stands leads to
each entry of the tree.
-/

namespace PackedMap

/-- What a removal that found its target leaves of a ledger and of the tree in it. -/
structure Ledger.Removes (before after : Ledger) (left : Tree) (shape rest : Shape)
    (target : Slot) : Prop where
  bears : after.Bears left rest
  erased : ∃ front back, shape.slots = front ++ target :: back ∧ rest.slots = front ++ back
  detached : ∃ record, after.at? target = some record ∧ record.left = none ∧
    record.right = none ∧ record.balance = .even
  relinks : before.Relinks after shape.slots

section Removal

variable {stock : Stock} {nodes : Slot → Node} {shape : Shape} {target : Slot}
  {place : Slot → Ordering}

/-- The tree without the target stays among the records, and the target is detached. -/
theorem Held.removes (held : Held stock nodes shape) (balanced : shape.Balanced)
    (storable : ∀ slot side, (nodes slot).child side ≠ some ⟨Link.nilWord⟩)
    {rest : Shape × Bool} (removed : shape.remove place target = some rest) :
    (Ledger.of stock nodes).Removes
      (.of stock (Stock.assign (rest.1.overlay nodes) target .detached)) ⟨rest.1.root⟩ shape rest.1
      target := by
  obtain ⟨⟨front, back, slots_eq, rest_eq⟩, lowered⟩ := Shape.remove_spec balanced removed
  have fewer := Shape.sublist_remove balanced removed
  have target_mem := Shape.mem_of_remove balanced removed
  have distinct : rest.1.slots.Nodup := held.distinct.sublist fewer
  have inside : ∀ slot ∈ rest.1.slots, slot ∈ stock.slots :=
    fun slot mem => held.inside slot (fewer.subset mem)
  have absent : target ∉ rest.1.slots := by
    have once := held.distinct
    rw [slots_eq, List.nodup_middle, ← rest_eq] at once
    exact (List.nodup_cons.mp once).1
  have stored : rest.1.Stored (Stock.assign (rest.1.overlay nodes) target .detached) :=
    (Shape.stored_overlay distinct nodes).congr fun slot mem =>
      Stock.assign_other fun same => absent (same ▸ mem)
  refine ⟨Ledger.bears_of ⟨stored, distinct, inside⟩ lowered.balanced ?_,
    ⟨front, back, slots_eq, rest_eq⟩, ?_, Ledger.relinks_of fun slot outside => ?_⟩
  · exact Ledger.storable_assign (Held.storable inside storable) fun side => by simp
  · obtain ⟨cell, placed⟩ := Stock.exists_cell (held.inside target target_mem)
    have here : (Ledger.of stock
        (Stock.assign (rest.1.overlay nodes) target .detached)).at? target =
          some (cell.record .detached) := by
      rw [Ledger.at?_of, Stock.cellAt_eq_some.mpr placed, Option.map_some, Stock.assign_same]
    exact ⟨_, here, rfl, rfl, rfl⟩
  · have slot_ne : slot ≠ target := fun same => outside (same ▸ target_mem)
    rw [Stock.assign_other slot_ne,
      Shape.overlay_of_notMem fun mem => outside (fewer.subset mem)]

end Removal

/-- A removal ends, whatever its target and its comparator.  It changes nothing, or it takes its
target out of the tree and detaches it; and it does the latter for every entry of a tree in the
order of the comparator. -/
theorem removal_exact {ledger : Ledger} {tree : Tree} {shape : Shape} {target : Slot}
    (bears : ledger.Bears tree shape) (stored : target ∈ ledger.slots) (cmp : Comparator) :
    ∃ found left slab, tree.remove ledger.slab target cmp = .ok (found, left, slab) ∧
      (found = false → left = tree ∧ slab = ledger.slab) ∧
      (found = true →
        ∃ after rest, slab = after.slab ∧ ledger.Removes after left shape rest target) ∧
      (Std.TransCmp cmp → ∀ pairs, shape.slots.mapM ledger.slab.pair = .ok pairs →
        Increasing cmp pairs → (found = true ↔ target ∈ shape.slots)) := by
  have balanced := bears.balanced
  obtain ⟨stock, nodes, storable, rfl, rfl, held⟩ := bears.exists_held
  rw [Ledger.slots, Ledger.slots_of] at stored
  rw [Ledger.slab_of]
  have run := Shape.remove_slab cmp held balanced stored
  have read : shape.slots.mapM (stock.slab nodes).pair = .ok (shape.slots.map stock.pairAt) :=
    Checked.mapM_eq_ok fun slot mem => Stock.pair_eq_pairAt (held.inside slot mem) nodes
  cases removed : shape.remove (stock.place cmp target) target with
  | none =>
      rw [removed] at run
      refine ⟨false, _, _, run, fun _ => ⟨rfl, rfl⟩, Bool.noConfusion,
        fun lawful pairs pairs_eq increasing => ?_⟩
      obtain rfl := Except.ok.inj (read.symm.trans pairs_eq)
      refine ⟨Bool.noConfusion, fun mem => ?_⟩
      obtain ⟨rest, found⟩ := Shape.exists_remove_of_increasing increasing mem
      rw [removed] at found
      cases found
  | some rest =>
      rw [removed] at run
      have removes := held.removes balanced storable removed
      obtain ⟨front, back, slots_eq, -⟩ := removes.erased
      exact ⟨true, _, _, run, Bool.noConfusion,
        fun _ => ⟨_, rest.1, (Ledger.slab_of ..).symm, removes⟩,
        fun _ _ _ _ => iff_of_true rfl (by simp [slots_eq])⟩

/-- A tree of four records.  The root has records on both sides, and the one that follows it is the
one right below. -/
def twoSidedTree : Shape :=
  .node ⟨0⟩ .rightHeavy (.node ⟨8⟩ .even .nil .nil)
    (.node ⟨4⟩ .rightHeavy .nil (.node ⟨12⟩ .even .nil .nil))

/-- Four cells for that tree, in the order of their keys. -/
def twoSidedStock : Stock where
  cells := [.live ⟨[2], []⟩, .live ⟨[3], []⟩, .live ⟨[1], [7]⟩, .live ⟨[4], []⟩]
  capacity := 128
  limit := 200
  used_le := by decide
  capacity_le := by decide
  limit_le := by decide

/-- The records of that tree. -/
def twoSided : Ledger := .of twoSidedStock twoSidedTree.nodes

theorem bears_twoSided : twoSided.Bears ⟨twoSidedTree.root⟩ twoSidedTree := by
  refine Ledger.bears_nodes (by decide +kernel) (by decide +kernel) ?_
  simp [twoSidedTree, Shape.Balanced, Shape.height, Balance.toInt]

theorem removal_exact_twoSided :
    twoSided.Bears ⟨twoSidedTree.root⟩ twoSidedTree ∧ ⟨0⟩ ∈ twoSided.slots ∧
      ∃ left after rest, Tree.remove ⟨twoSidedTree.root⟩ twoSided.slab ⟨0⟩ .byKeyDescending =
          .ok (true, left, after.slab) ∧
        twoSided.Removes after left twoSidedTree rest ⟨0⟩ := by
  have stored : ⟨0⟩ ∈ twoSided.slots := by decide +kernel
  obtain ⟨found, left, slab, run, -, removes, -⟩ :=
    removal_exact bears_twoSided stored .byKeyDescending
  have told : (Tree.remove ⟨twoSidedTree.root⟩ twoSided.slab ⟨0⟩ .byKeyDescending).map Prod.fst =
      .ok true := by decide +kernel
  rw [run] at told
  obtain rfl := Except.ok.inj told
  obtain ⟨after, rest, rfl, removed⟩ := removes rfl
  exact ⟨bears_twoSided, stored, left, after, rest, run, removed⟩

end PackedMap
