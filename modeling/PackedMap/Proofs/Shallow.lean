import PackedMap.Proofs.Comparator
import PackedMap.Proofs.Map.Admitting
import PackedMap.Proofs.Rollback
import PackedMap.Proofs.Tree.Depth

/-!
# Shallow trees

The tree of a reachable map is balanced, and its entries share fewer than 2³² bytes, so that it
never has more than 39 levels.  Nor has any tree that an operation works on before it ends.  So the
recursions of insertions and removals are shallow, and searches make few comparisons.
-/

namespace PackedMap

/-- A tree of at most 39 levels in a slab, and what that bounds.  A search makes no more comparisons
than there are levels.  The recursion of an insertion or a removal goes one level deeper, to the
empty link at the end; the search for a first entry ends at an entry. -/
structure Slab.Shallow (slab : Slab) (tree : Tree) (slots : List Slot) (shape : Shape) : Prop where
  stored : slab.slots = .ok slots
  linked : tree.shape slab = .ok shape
  height_le : shape.height ≤ 39
  find : ∀ probe cmp, ∃ found comparisons,
    Tree.findCounting slab probe cmp slab.depthBound tree.root = .ok (found, comparisons) ∧
      tree.find slab probe cmp = .ok found ∧ comparisons ≤ shape.height
  insert : ∀ new ∈ slots, new ∉ shape.slots → slab.isDetached new = .ok true → ∀ cmp,
    EndsWithin (shape.height + 1) fun fuel => Tree.insertBelow cmp new fuel slab tree.root
  remove : ∀ target ∈ slots, ∀ cmp,
    EndsWithin (shape.height + 1) fun fuel => Tree.removeBelow cmp target fuel slab tree.root
  removeFirst : ∀ top, tree.root = some top →
    EndsWithin shape.height fun fuel => Tree.removeFirst fuel slab top

/-- The tree of a map is shallow, and so are the trees that an addition works on: the same one
beside the new entry, or what is left of it where the new entry takes the place of another. -/
structure Map.Shallow (map : Map) (shape : Shape) : Prop where
  fib_le : Nat.fib (shape.height + 2) - 1 ≤ map.size
  room : Header.size * map.size ≤ map.slab.used
  used_le : map.slab.used ≤ Slab.greatestLimit
  here : ∃ slots, map.slab.Shallow map.tree slots shape
  admitting : ∀ pair new between, map.Admitting pair new between →
    between.slab.isDetached new = .ok true ∧
      ∃ slots rest, new ∈ slots ∧ new ∉ rest.slots ∧
        between.slab.Shallow between.tree slots rest

/-- So few entries fit into a slab that a balanced tree over them is shallow. -/
theorem Shape.height_le_of_room {shape : Shape} (balanced : shape.Balanced)
    (room : Header.size * shape.slots.length ≤ Slab.greatestLimit) : shape.height ≤ 39 := by
  have many := fib_height_le balanced
  have few : shape.slots.length ≤ 178956970 := by
    simp only [Header.size, Slab.greatestLimit] at room
    omega
  refine Nat.le_of_not_lt fun high => ?_
  have grows : Nat.fib 42 ≤ Nat.fib (shape.height + 2) := Nat.fib_mono (by omega)
  have value : Nat.fib 42 = 267914296 := by decide
  omega

theorem Held.shallow {stock : Stock} {nodes : Slot → Node} {shape : Shape}
    (held : Held stock nodes shape) (balanced : shape.Balanced) (height_le : shape.height ≤ 39)
    (storable : ∀ slot side, (nodes slot).child side ≠ some ⟨Link.nilWord⟩) :
    (stock.slab nodes).Shallow ⟨shape.root⟩ stock.slots shape where
  stored := stock.slots_slab nodes
  linked := Shape.shape_slab held
  height_le := height_le
  find probe cmp := by
    obtain ⟨comparisons, counted, few⟩ := Shape.findCounting_slab probe cmp held held.height_lt
    exact ⟨_, comparisons, counted, Shape.find_slab probe cmp held, few⟩
  insert new new_mem fresh detached cmp :=
    Shape.insertBelow_endsWithin cmp held balanced new_mem fresh
      (Stock.detached_of_isDetached new_mem (storable new) detached)
  remove target target_mem cmp := Shape.removeBelow_endsWithin cmp held balanced target_mem
  removeFirst top top_eq := Shape.removeFirst_endsWithin held balanced top_eq

namespace State

variable {state : State} {pair : Pair}

theorem nodes_storable {shape : Shape} {stock : Stock}
    (inside : ∀ slot ∈ shape.slots, slot ∈ stock.slots) (slot : Slot) (side : Side) :
    (shape.nodes slot).child side ≠ some ⟨Link.nilWord⟩ :=
  Held.storable inside (fun other side => by simp) slot side

/-- Every live entry takes a header at least. -/
theorem room_le (state : State) :
    Header.size * state.shape.slots.length ≤ Cell.total state.stock.cells * unitSize := by
  have total := state.total_pairs_le
  have bytes := Stock.totalSize_le_total state.pairs
  rw [length_pairs] at bytes
  omega

theorem used_le_greatest (stock : Stock) :
    Cell.total stock.cells * unitSize ≤ Slab.greatestLimit :=
  stock.used_le.trans (stock.capacity_le.trans stock.limit_le)

theorem height_le (state : State) : state.shape.height ≤ 39 :=
  Shape.height_le_of_room state.balanced (state.room_le.trans (used_le_greatest state.stock))

theorem Awaits.shallow {stock : Stock} {rest : Shape} (awaits : state.Awaits pair stock rest) :
    (stock.slab rest.nodes).Shallow ⟨rest.root⟩ stock.slots rest := by
  refine awaits.held.shallow awaits.balanced (Shape.height_le_of_room awaits.balanced ?_)
    (nodes_storable awaits.inside)
  calc Header.size * rest.slots.length
      ≤ Header.size * state.shape.slots.length := Nat.mul_le_mul_left _ awaits.fewer.length_le
    _ ≤ Cell.total state.stock.cells * unitSize := state.room_le
    _ ≤ Slab.greatestLimit := used_le_greatest state.stock

/-- A map in a state has a shallow tree, whatever its comparator. -/
theorem shallow_on (state : State) (map : Map) : (state.on map).Shallow state.shape where
  fib_le := by
    have many := Shape.fib_height_le state.balanced
    have size_eq : (state.on map).size = state.shape.slots.length := rfl
    omega
  room := by
    rw [show (state.on map).slab.used = _ from Stock.used_slab state.stock state.shape.nodes]
    exact state.room_le
  used_le := by
    rw [show (state.on map).slab.used = _ from Stock.used_slab state.stock state.shape.nodes]
    exact used_le_greatest state.stock
  here := ⟨_, state.held.shallow state.balanced state.height_le
    (nodes_storable fun _ mem => mem_stock mem)⟩
  admitting pair new between admitting := by
    obtain ⟨rfl, stock, rest, awaits, slab_eq, tree_eq⟩ := exists_of_admitting admitting
    have new_mem := Stock.mem_slots awaits.placed
    rw [slab_eq, tree_eq]
    exact ⟨Stock.isDetached_slab new_mem (Shape.nodes_of_notMem awaits.fresh), _, rest, new_mem,
      awaits.fresh, awaits.shallow⟩

end State

/-- The tree of every reachable map is shallow, and so is that of every map on the way of a
merge. -/
theorem reachable_shallow {map : Map} (reachable : Reachable map) :
    (∃ shape, map.Shallow shape) ∧
      ∀ hook sources copies last, map.Copies hook sources copies last →
        ∃ shape, last.Shallow shape := by
  obtain ⟨state, described⟩ := reachable.exists_state
  constructor
  · have shallow := state.shallow_on map
    rw [described.same] at shallow
    exact ⟨_, shallow⟩
  · intro hook sources copies last run
    rw [← described.same] at run
    obtain ⟨after, rfl, -⟩ := State.exists_of_copies run
    exact ⟨_, after.shallow_on map⟩

theorem reachable_shallow_added : ∃ map : Map, Reachable map ∧
    map.order = .byKey ∧ map.size = 3 ∧ ∃ shape, map.Shallow shape := by
  have reached : Reachable ((Map.empty .byKey .default).after
      [.add ⟨[97], []⟩ .empty, .add ⟨[98], []⟩ .empty, .add ⟨[99], []⟩ .empty]) :=
    (Reachable.empty .byKey .default).after _
  exact ⟨_, reached, (Reachable.empty .byKey .default).order_after _, by decide +kernel,
    (reachable_shallow reached).1⟩

end PackedMap
