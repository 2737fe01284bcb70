import PackedMap.Proofs.Comparator
import PackedMap.Proofs.Map.Sorted
import PackedMap.Proofs.Tree.Bearing
import PackedMap.Proofs.Tree.Insert

/-!
# What an insertion does

An insertion takes any comparator for its guide.  The comparator may lead it to a record that
answers the new one with *equal*; then nothing changes at all.  Else the new record comes to stand
at one place among the others, the tree is balanced again, and no pair or state changes anywhere.
In a tree in the order of the comparator, a record is in the way only if it has to be, and the order
is kept.
-/

namespace PackedMap

/-- What an insertion that met nothing in its way leaves of a ledger and of the tree in it. -/
structure Ledger.Inserts (before after : Ledger) (taken : Tree) (shape grown : Shape)
    (new : Slot) : Prop where
  bears : after.Bears taken grown
  placed : ∃ front back, shape.slots = front ++ back ∧ grown.slots = front ++ new :: back
  relinks : before.Relinks after (new :: shape.slots)

/-- The pairs along a tree stand in the strict order of a comparator. -/
def Ledger.Ascending (ledger : Ledger) (cmp : Comparator) (shape : Shape) : Prop :=
  ∃ pairs, shape.slots.mapM ledger.slab.pair = .ok pairs ∧ Increasing cmp pairs

section Insertion

variable {stock : Stock} {nodes : Slot → Node} {shape : Shape} {new : Slot} {cmp : Comparator}
  {grown : Shape × Bool}

theorem Ledger.ascending_of (inside : ∀ slot ∈ shape.slots, slot ∈ stock.slots) :
    (Ledger.of stock nodes).Ascending cmp shape ↔
      Increasing cmp (shape.slots.map stock.pairAt) := by
  have read : shape.slots.mapM (stock.slab nodes).pair = .ok (shape.slots.map stock.pairAt) :=
    Checked.mapM_eq_ok fun slot mem => Stock.pair_eq_pairAt (inside slot mem) nodes
  rw [Ascending, slab_of, read]
  exact ⟨fun ⟨_, same, increasing⟩ => Except.ok.inj same ▸ increasing,
    fun increasing => ⟨_, rfl, increasing⟩⟩

section Inserted

variable {place : Slot → Ordering} (held : Held stock nodes shape) (balanced : shape.Balanced)
  (new_mem : new ∈ stock.slots)

include held balanced new_mem

theorem Held.inside_inserted (inserted : shape.insert place new = .ok grown) :
    ∀ slot ∈ grown.1.slots, slot ∈ stock.slots := by
  intro slot mem
  rcases List.mem_cons.mp ((Shape.perm_insert balanced inserted).mem_iff.mp mem) with rfl | old
  · exact new_mem
  · exact held.inside slot old

/-- The tree with the new entry stands among the records, and only its nodes were touched. -/
theorem Held.inserts (storable : ∀ slot side, (nodes slot).child side ≠ some ⟨Link.nilWord⟩)
    (outside : new ∉ shape.slots) (inserted : shape.insert place new = .ok grown) :
    (Ledger.of stock nodes).Inserts (.of stock (grown.1.overlay nodes)) ⟨grown.1.root⟩ shape
      grown.1 new := by
  have perm := Shape.perm_insert balanced inserted
  have distinct : grown.1.slots.Nodup :=
    perm.nodup_iff.mpr (List.nodup_cons.mpr ⟨outside, held.distinct⟩)
  have inside := held.inside_inserted balanced new_mem inserted
  refine ⟨(Ledger.spells_overlay distinct inside storable).bears
      (Shape.insert_raised balanced inserted).balanced,
    Shape.slots_insert balanced inserted, Ledger.relinks_of fun slot apart => ?_⟩
  exact Shape.overlay_of_notMem fun mem => apart (perm.mem_iff.mp mem)

/-- In a tree in the order of a comparator the new entry takes its place in that order, and no entry
answers it with *equal*. -/
theorem Held.inserts_ascending [Std.TransCmp cmp]
    (inserted : shape.insert (stock.place cmp new) new = .ok grown)
    (ascending : (Ledger.of stock nodes).Ascending cmp shape) :
    (Ledger.of stock (grown.1.overlay nodes)).Ascending cmp grown.1 ∧
      ∀ slot ∈ shape.slots, stock.place cmp new slot ≠ .eq := by
  have increasing := (Ledger.ascending_of held.inside).mp ascending
  have swept : Sweeps (stock.place cmp new) shape.slots := by
    have along := increasing.sweeps (stock.pairAt new)
    rwa [sweeps_map] at along
  obtain ⟨slots_eq, none⟩ := Shape.slots_insert_of_sweeps balanced swept inserted
  have pairs_eq : grown.1.slots.map stock.pairAt =
      insertSorted cmp (stock.pairAt new) (shape.slots.map stock.pairAt) := by
    rw [slots_eq, List.map_append, List.map_cons]
    exact congrArg₂ (fun front back => front ++ stock.pairAt new :: back) map_below map_above
  constructor
  · rw [Ledger.ascending_of (held.inside_inserted balanced new_mem inserted), pairs_eq]
    exact increasing_insertSorted increasing
  · intro slot mem equal
    exact List.not_mem_nil (none ▸ mem_matching.mpr ⟨mem, equal⟩)

end Inserted

end Insertion

/-- An insertion of a detached record ends, whatever its comparator.  Either a record of the tree
that answers it with *equal* is in the way, and nothing changes, or the record comes to stand in the
tree.  In a tree in the order of the comparator the former happens exactly if some record answers
so, and the latter keeps the order. -/
theorem insertion_exact {ledger : Ledger} {tree : Tree} {shape : Shape} {new : Slot}
    {record : Record} (bears : ledger.Bears tree shape) (stored : ledger.at? new = some record)
    (detached : record.left = none ∧ record.right = none ∧ record.balance = .even)
    (outside : new ∉ shape.slots) (cmp : Comparator) :
    ∃ holder taken slab, tree.insert ledger.slab new cmp = .ok (holder, taken, slab) ∧
      (∀ slot, holder = some slot → taken = tree ∧ slab = ledger.slab ∧ slot ∈ shape.slots ∧
        ledger.Answers cmp record.pair .eq slot) ∧
      (holder = none → ∃ after grown, slab = after.slab ∧
        ledger.Inserts after taken shape grown new ∧
        (Std.TransCmp cmp → ledger.Ascending cmp shape → after.Ascending cmp grown)) ∧
      (Std.TransCmp cmp → ledger.Ascending cmp shape →
        (holder ≠ none ↔ ∃ slot ∈ shape.slots, ledger.Answers cmp record.pair .eq slot)) := by
  have balanced := bears.balanced
  obtain ⟨stock, nodes, storable, rfl, rfl, held⟩ := bears.exists_held
  obtain ⟨cell, placed, rfl⟩ := Ledger.exists_cell stored
  have new_mem : new ∈ stock.slots := Stock.mem_slots placed
  have node_eq : nodes new = .detached := (Node.mk.injEq ..).mpr detached
  have probe_eq : (cell.record (nodes new)).pair = stock.pairAt new :=
    (Stock.pairAt_eq placed).symm
  have answers {slot : Slot} (mem : slot ∈ shape.slots) :
      (Ledger.of stock nodes).Answers cmp (stock.pairAt new) .eq slot ↔
        stock.place cmp new slot = .eq :=
    Ledger.answers_of (held.inside slot mem)
  rw [Ledger.slab_of, probe_eq]
  have run := Shape.insert_slab cmp held balanced new_mem outside node_eq
  cases inserted : shape.insert (stock.place cmp new) new with
  | error holder =>
      rw [inserted] at run
      obtain ⟨mem, equal⟩ := mem_matching.mp (Shape.insert_error inserted)
      have answer := (answers mem).mpr equal
      refine ⟨some holder, _, _, run, fun slot same => ?_,
        fun same => absurd same (Option.some_ne_none holder),
        fun _ _ => iff_of_true (Option.some_ne_none holder) ⟨holder, mem, answer⟩⟩
      obtain rfl := Option.some.inj same
      exact ⟨rfl, rfl, mem, answer⟩
  | ok grown =>
      rw [inserted] at run
      have inserts := held.inserts balanced new_mem storable outside inserted
      refine ⟨none, _, _, run, fun slot same => absurd same.symm (Option.some_ne_none slot),
        fun _ => ⟨_, grown.1, (Ledger.slab_of ..).symm, inserts, fun lawful ascending => ?_⟩,
        fun lawful ascending => iff_of_false (fun differ => differ rfl) ?_⟩
      · exact (held.inserts_ascending balanced new_mem inserted ascending).1
      · rintro ⟨slot, mem, answer⟩
        have unequal := (held.inserts_ascending balanced new_mem inserted ascending).2
        exact unequal slot mem ((answers mem).mp answer)

/-- A tree of two records, the second one below the first. -/
def rightChain : Shape := .node ⟨0⟩ .rightHeavy .nil (.node ⟨8⟩ .even .nil .nil)

/-- Three cells, of which the middle one comes between the other two in the order of the keys. -/
def chainedStock : Stock where
  cells := [.live ⟨[1], []⟩, .live ⟨[2], [7]⟩, .live ⟨[3], []⟩]
  capacity := 96
  limit := 400
  used_le := by decide
  capacity_le := by decide
  limit_le := by decide

/-- The records of that tree, and one in the middle that is not linked in. -/
def chained : Ledger := .of chainedStock rightChain.nodes

theorem bears_chained : chained.Bears ⟨rightChain.root⟩ rightChain := by
  refine Ledger.bears_nodes (by decide +kernel) (by decide +kernel) ?_
  simp [rightChain, Shape.Balanced, Shape.height, Balance.toInt]

theorem insertion_exact_chained :
    chained.Bears ⟨rightChain.root⟩ rightChain ∧
      chained.at? ⟨4⟩ = some (.detached ⟨[2], [7]⟩) ∧ ⟨4⟩ ∉ rightChain.slots ∧
      chained.Ascending .byKey rightChain ∧
      ∃ taken after grown, Tree.insert ⟨rightChain.root⟩ chained.slab ⟨4⟩ .byKey =
          .ok (none, taken, after.slab) ∧
        chained.Inserts after taken rightChain grown ⟨4⟩ ∧
        after.Ascending .byKey grown := by
  have stored : chained.at? ⟨4⟩ = some (.detached ⟨[2], [7]⟩) := by decide +kernel
  have outside : ⟨4⟩ ∉ rightChain.slots := by decide +kernel
  have ascending : chained.Ascending .byKey rightChain := by
    refine ⟨[⟨[1], []⟩, ⟨[3], []⟩], by decide +kernel, ?_⟩
    exact List.pairwise_pair.mpr (by decide)
  obtain ⟨holder, taken, slab, run, -, inserts, -⟩ :=
    insertion_exact bears_chained stored ⟨rfl, rfl, rfl⟩ outside .byKey
  have told : (Tree.insert ⟨rightChain.root⟩ chained.slab ⟨4⟩ .byKey).map Prod.fst = .ok none := by
    decide +kernel
  rw [run] at told
  obtain rfl := Except.ok.inj told
  obtain ⟨after, grown, rfl, inserted, kept⟩ := inserts rfl
  exact ⟨bears_chained, stored, outside, ascending, taken, after, grown, run, inserted,
    kept inferInstance ascending⟩

end PackedMap
