import PackedMap.Proofs.Tree.Bearing
import PackedMap.Proofs.Tree.Sorted

/-!
# What building a tree does

A tree is built over a list of distinct records, whatever links these had before.  The list becomes
the order of the tree, and no tree over as many records is lower.  The halves of a list differ by
one entry at most, and it is the first half that is the longer one, so no node leans to the right.
-/

namespace PackedMap
namespace Shape

/-- Every node is even or leans to the left. -/
def LeansLeft : Shape → Prop
  | nil => True
  | node _ balance left right => balance ≠ .rightHeavy ∧ left.LeansLeft ∧ right.LeansLeft

theorem leansLeft_ofSorted (slots : List Slot) : (ofSorted slots).LeansLeft := by
  induction slots using halves_induction with
  | nil =>
      rw [ofSorted_nil]
      trivial
  | halves left middle right short long left_ih right_ih =>
      rw [ofSorted_halves short long]
      refine ⟨?_, left_ih, right_ih⟩
      split <;> simp

/-- A tree of some levels has fewer nodes than a power of two tells. -/
theorem length_lt_two_pow (shape : Shape) : shape.slots.length < 2 ^ shape.height := by
  induction shape with
  | nil => exact Nat.one_pos
  | node slot balance left right left_ih right_ih =>
      have left_le : 2 ^ left.height ≤ 2 ^ max left.height right.height :=
        Nat.pow_le_pow_right Nat.two_pos (Nat.le_max_left ..)
      have right_le : 2 ^ right.height ≤ 2 ^ max left.height right.height :=
        Nat.pow_le_pow_right Nat.two_pos (Nat.le_max_right ..)
      rw [slots, height, List.length_append, List.length_cons, Nat.pow_succ]
      omega

/-- No tree over as many entries, or more, is lower than one that is built. -/
theorem height_ofSorted_le {slots : List Slot} {other : Shape}
    (many : slots.length ≤ other.slots.length) : (ofSorted slots).height ≤ other.height := by
  rw [height_ofSorted_eq]
  exact Nat.size_le.mpr (Nat.lt_of_le_of_lt many other.length_lt_two_pow)

end Shape

/-- What building a tree over a list leaves of a ledger.  Heights are subtracted as signed bytes,
and those of the tree and of its subtrees are numbers that a signed byte holds. -/
structure Ledger.Builds (before after : Ledger) (tree : Tree) (shape : Shape) (slots : List Slot) :
    Prop where
  bears : after.Bears tree shape
  slots_eq : shape.slots = slots
  height_eq : shape.height = slots.length.size
  least : ∀ other : Shape, slots.length ≤ other.slots.length → shape.height ≤ other.height
  leansLeft : shape.LeansLeft
  castable : ∀ height ≤ shape.height, (Int8.ofNat height).toInt = height
  relinks : before.Relinks after slots

section Construction

variable {stock : Stock} {nodes : Slot → Node} {slots : List Slot}

/-- A stock has no room for a tree of thirty levels. -/
theorem Stock.height_ofSorted_lt (distinct : slots.Nodup)
    (inside : ∀ slot ∈ slots, slot ∈ stock.slots) : (Shape.ofSorted slots).height < 30 := by
  have cells_eq := stock.length_slots
  have few := (List.subperm_of_subset distinct inside).length_le
  have total := Cell.length_le_total stock.cells
  have small := stock.total_small
  rw [Shape.height_ofSorted_eq]
  exact Nat.lt_succ_of_le (Nat.size_le.mpr (by omega))

theorem Stock.builds (storable : ∀ slot side, (nodes slot).child side ≠ some ⟨Link.nilWord⟩)
    (distinct : slots.Nodup) (inside : ∀ slot ∈ slots, slot ∈ stock.slots) :
    (Ledger.of stock nodes).Builds (.of stock ((Shape.ofSorted slots).overlay nodes))
      ⟨(Shape.ofSorted slots).root⟩ (.ofSorted slots) slots := by
  have slots_eq := Shape.slots_ofSorted slots
  have tree_distinct : (Shape.ofSorted slots).slots.Nodup := slots_eq.symm ▸ distinct
  have tree_inside : ∀ slot ∈ (Shape.ofSorted slots).slots, slot ∈ stock.slots :=
    slots_eq.symm ▸ inside
  constructor
  · exact (Ledger.spells_overlay tree_distinct tree_inside storable).bears
      (Shape.balanced_ofSorted slots)
  · exact slots_eq
  · exact Shape.height_ofSorted_eq slots
  · exact fun _ => Shape.height_ofSorted_le
  · exact Shape.leansLeft_ofSorted slots
  · intro height low
    have levels := stock.height_ofSorted_lt distinct inside
    exact Int8.toInt_ofNat_of_lt (by omega)
  · exact Ledger.relinks_of fun slot outside =>
      Shape.overlay_of_notMem (slots_eq.symm ▸ outside)

end Construction

/-- A tree is built over any distinct records of a ledger, in the order of the list.  It has as many
levels as the length has binary digits, exact balances, and no node that leans to the right.  The
links and balances of the listed records change, and nothing else. -/
theorem construction_exact {ledger : Ledger} (sound : ledger.Sound) {slots : List Slot}
    (distinct : slots.Nodup) (inside : ∀ slot ∈ slots, slot ∈ ledger.slots) :
    ∃ tree after shape, Tree.ofSorted ledger.slab slots = .ok (tree, after.slab) ∧
      ledger.Builds after tree shape slots := by
  obtain @⟨stock, nodes, storable⟩ := sound
  rw [Ledger.slots, Ledger.slots_of] at inside
  have run := Shape.ofSorted_slab slots distinct inside nodes
  refine ⟨_, _, _, ?_, stock.builds storable distinct inside⟩
  rw [Ledger.slab_of, Ledger.slab_of]
  exact run

/-- Four cells, one of them a tombstone. -/
def unbuiltStock : Stock where
  cells := [.live ⟨[4], []⟩, .live ⟨[2], [7]⟩, ⟨⟨[9], []⟩, true⟩, .live ⟨[1], []⟩]
  capacity := 128
  limit := 130
  used_le := by decide
  capacity_le := by decide
  limit_le := by decide

/-- Links that spell out no tree: every record leads to the same two. -/
def cyclicNodes : Slot → Node := fun _ => ⟨some ⟨4⟩, some ⟨0⟩, .rightHeavy⟩

/-- Those cells with those links. -/
def unbuilt : Ledger := .of unbuiltStock cyclicNodes

theorem construction_exact_unbuilt : unbuilt.Sound ∧
    ∃ after shape, Tree.ofSorted unbuilt.slab [⟨12⟩, ⟨4⟩] = .ok (⟨some ⟨4⟩⟩, after.slab) ∧
      unbuilt.Builds after ⟨some ⟨4⟩⟩ shape [⟨12⟩, ⟨4⟩] := by
  have sound : unbuilt.Sound :=
    .of unbuiltStock fun slot side => by cases side <;> simp [cyclicNodes, Node.child, Link.nilWord]
  obtain ⟨tree, after, shape, run, builds⟩ :=
    construction_exact sound (by decide : [(⟨12⟩ : Slot), ⟨4⟩].Nodup) (by decide +kernel)
  have told : (Tree.ofSorted unbuilt.slab [⟨12⟩, ⟨4⟩]).map Prod.fst = .ok ⟨some ⟨4⟩⟩ := by
    decide +kernel
  rw [run] at told
  obtain rfl : tree = _ := Except.ok.inj told
  exact ⟨sound, after, shape, run, builds⟩

end PackedMap
