import PackedMap.Proofs.Slab.Ledger
import PackedMap.Proofs.Tree.Search

/-!
# Trees in a ledger

A ledger bears a tree if what the links in its slab spell out is a balanced tree of distinct
records.  The tree need not be that of a map: there may be records outside it, and it may be in the
order of no comparator.  An operation on the tree relinks the records of the ledger, and changes
nothing else.
-/

namespace PackedMap
namespace Ledger

/-- The slots of the records. -/
def slots (ledger : Ledger) : List Slot := ledger.placed.map Prod.fst

/-- The links in the slab of a ledger spell out a tree, whose nodes are distinct records.  The
stored balances need not fit. -/
structure Spells (ledger : Ledger) (tree : Tree) (shape : Shape) : Prop where
  sound : ledger.Sound
  linked : tree.shape ledger.slab = .ok shape
  distinct : shape.slots.Nodup
  inside : ∀ slot ∈ shape.slots, slot ∈ ledger.slots

/-- There is a well-formed tree in the slab of a ledger: its nodes are distinct records, and the
stored balances are the differences of the heights. -/
structure Bears (ledger : Ledger) (tree : Tree) (shape : Shape) : Prop where
  sound : ledger.Sound
  linked : tree.shape ledger.slab = .ok shape
  distinct : shape.slots.Nodup
  inside : ∀ slot ∈ shape.slots, slot ∈ ledger.slots
  balanced : shape.Balanced

/-- A ledger differs from another one in the links and balances of some records at most. -/
structure Relinks (before after : Ledger) (among : List Slot) : Prop where
  capacity_eq : after.capacity = before.capacity
  limit_eq : after.limit = before.limit
  slots_eq : after.slots = before.slots
  kept : ∀ slot record, before.at? slot = some record →
    ∃ relinked, after.at? slot = some relinked ∧ relinked.pair = record.pair ∧
      relinked.tombstone = record.tombstone ∧ (slot ∉ among → relinked = record)

/-- How a comparator answers when it meets the record at a slot with a probe. -/
def Answers (ledger : Ledger) (cmp : Comparator) (probe : Pair) (answer : Ordering) (slot : Slot) :
    Prop :=
  ∃ pair, ledger.slab.pair slot = .ok pair ∧ cmp probe pair = answer

end Ledger

namespace Shape

variable {stock : Stock} {nodes : Slot → Node} {shape : Shape}

/-- What the links in a slab spell out is stored there. -/
theorem stored_of_shapeBelow
    (storable : ∀ slot side, (nodes slot).child side ≠ some ⟨Link.nilWord⟩)
    (inside : ∀ slot ∈ shape.slots, slot ∈ stock.slots) {fuel : Nat} {link : Link}
    (read : Tree.shapeBelow (stock.slab nodes) fuel link = .ok shape) :
    shape.root = link ∧ shape.Stored nodes := by
  induction fuel generalizing link shape with
  | zero => cases read
  | succ fuel ih =>
      cases link with
      | none =>
          obtain rfl := Except.ok.inj read
          exact ⟨rfl, trivial⟩
      | some slot =>
          rw [Tree.shapeBelow] at read
          obtain ⟨balance, balance_read, read⟩ := Checked.bind_eq_ok.mp read
          obtain ⟨left_link, left_child, read⟩ := Checked.bind_eq_ok.mp read
          obtain ⟨left, left_read, read⟩ := Checked.bind_eq_ok.mp read
          obtain ⟨right_link, right_child, read⟩ := Checked.bind_eq_ok.mp read
          obtain ⟨right, right_read, read⟩ := Checked.bind_eq_ok.mp read
          obtain rfl := Except.ok.inj read
          simp only [slots, List.mem_append, List.mem_cons] at inside
          have slot_mem : slot ∈ stock.slots := inside slot (.inr (.inl rfl))
          rw [Stock.balance_slab slot_mem] at balance_read
          rw [Stock.child_slab slot_mem nodes _ (storable slot _)] at left_child right_child
          obtain ⟨left_root, left_stored⟩ :=
            ih (fun other mem => inside other (.inl mem)) left_read
          obtain ⟨right_root, right_stored⟩ :=
            ih (fun other mem => inside other (.inr (.inr mem))) right_read
          refine ⟨rfl, ?_, left_stored, right_stored⟩
          rw [left_root, right_root, ← Except.ok.inj left_child, ← Except.ok.inj right_child,
            ← Except.ok.inj balance_read]
          rfl

end Shape

namespace Ledger

variable {stock : Stock} {nodes nodes' : Slot → Node} {shape : Shape} {slot : Slot}

theorem at?_of : (Ledger.of stock nodes).at? slot =
    (stock.cellAt slot).map fun cell => cell.record (nodes slot) := by
  rw [at?, placed_of, Stock.cellAt]
  induction stock.placed with
  | nil => rfl
  | cons entry rest ih =>
      rw [List.map_cons, List.lookup_cons, List.lookup_cons, ih]
      cases here : slot == entry.1 with
      | false => rfl
      | true =>
          obtain rfl := eq_of_beq here
          rfl

/-- Other nodes for some slots relink the records at these slots. -/
theorem relinks_of {among : List Slot} (agree : ∀ slot ∉ among, nodes' slot = nodes slot) :
    (Ledger.of stock nodes).Relinks (.of stock nodes') among where
  capacity_eq := rfl
  limit_eq := rfl
  slots_eq := by rw [slots, slots, slots_of, slots_of]
  kept slot record here := by
    rw [at?_of] at here ⊢
    obtain ⟨cell, found, rfl⟩ := Option.map_eq_some_iff.mp here
    rw [found]
    refine ⟨_, rfl, rfl, rfl, fun outside => ?_⟩
    rw [agree slot outside]

theorem Spells.bears {ledger : Ledger} {tree : Tree} (spells : ledger.Spells tree shape)
    (balanced : shape.Balanced) : ledger.Bears tree shape :=
  ⟨spells.sound, spells.linked, spells.distinct, spells.inside, balanced⟩

theorem Bears.spells {ledger : Ledger} {tree : Tree} (bears : ledger.Bears tree shape) :
    ledger.Spells tree shape :=
  ⟨bears.sound, bears.linked, bears.distinct, bears.inside⟩

theorem spells_of (held : Held stock nodes shape)
    (storable : ∀ slot side, (nodes slot).child side ≠ some ⟨Link.nilWord⟩) :
    (Ledger.of stock nodes).Spells ⟨shape.root⟩ shape where
  sound := .of stock storable
  linked := by
    rw [slab_of]
    exact Shape.shape_slab held
  distinct := held.distinct
  inside slot mem := by
    rw [slots, slots_of]
    exact held.inside slot mem

theorem bears_of (held : Held stock nodes shape) (balanced : shape.Balanced)
    (storable : ∀ slot side, (nodes slot).child side ≠ some ⟨Link.nilWord⟩) :
    (Ledger.of stock nodes).Bears ⟨shape.root⟩ shape := (spells_of held storable).bears balanced

/-- A tree of distinct entries, laid over the nodes of a stock, is spelled out there. -/
theorem spells_overlay (distinct : shape.slots.Nodup)
    (inside : ∀ slot ∈ shape.slots, slot ∈ stock.slots)
    (storable : ∀ slot side, (nodes slot).child side ≠ some ⟨Link.nilWord⟩) :
    (Ledger.of stock (shape.overlay nodes)).Spells ⟨shape.root⟩ shape :=
  spells_of (Held.overlay distinct inside nodes) (Held.storable inside storable)

theorem spells_nodes (distinct : shape.slots.Nodup)
    (inside : ∀ slot ∈ shape.slots, slot ∈ stock.slots) :
    (Ledger.of stock shape.nodes).Spells ⟨shape.root⟩ shape :=
  spells_overlay distinct inside fun slot side => by simp

/-- The nodes of a balanced tree of distinct entries, laid over a stock, make a ledger that bears
the tree. -/
theorem bears_nodes (distinct : shape.slots.Nodup)
    (inside : ∀ slot ∈ shape.slots, slot ∈ stock.slots) (balanced : shape.Balanced) :
    (Ledger.of stock shape.nodes).Bears ⟨shape.root⟩ shape :=
  (spells_nodes distinct inside).bears balanced

theorem answers_of (mem : slot ∈ stock.slots) {cmp : Comparator} {probe : Pair}
    {answer : Ordering} :
    (Ledger.of stock nodes).Answers cmp probe answer slot ↔
      cmp probe (stock.pairAt slot) = answer := by
  rw [Answers, slab_of, Stock.pair_eq_pairAt mem]
  exact ⟨fun ⟨_, read, told⟩ => Except.ok.inj read ▸ told, fun told => ⟨_, rfl, told⟩⟩

/-- A tree that a ledger spells out is held by the stock of the ledger. -/
theorem Spells.exists_held {ledger : Ledger} {tree : Tree} (spells : ledger.Spells tree shape) :
    ∃ stock nodes, (∀ slot side, (nodes slot).child side ≠ some ⟨Link.nilWord⟩) ∧
      ledger = .of stock nodes ∧ tree = ⟨shape.root⟩ ∧ Held stock nodes shape := by
  obtain ⟨⟨stock, storable⟩, linked, distinct, inside⟩ := spells
  rw [slots, slots_of] at inside
  rw [slab_of] at linked
  obtain ⟨root_eq, stored⟩ := Shape.stored_of_shapeBelow storable inside linked
  exact ⟨stock, _, storable, rfl, by rw [root_eq], stored, distinct, inside⟩

theorem Bears.exists_held {ledger : Ledger} {tree : Tree} (bears : ledger.Bears tree shape) :
    ∃ stock nodes, (∀ slot side, (nodes slot).child side ≠ some ⟨Link.nilWord⟩) ∧
      ledger = .of stock nodes ∧ tree = ⟨shape.root⟩ ∧ Held stock nodes shape :=
  bears.spells.exists_held

end Ledger
end PackedMap
