import PackedMap.Proofs.Map.Matching
import PackedMap.Proofs.Reachable

/-!
# Iterators

An iterator gives out its entries one at a time.  A scan stands at the entry that comes next in the
slab.  A traversal of the tree keeps the entries it has passed on its way down: each stands for
itself and for the range within its right subtree.  On every reachable map both come to their end,
and give out what the recursions over the slab and the tree collect.
-/

namespace PackedMap

variable {σ α : Type}

/-- An iterator gives out some items one after another, and then none. -/
inductive Yields (next? : σ → Checked (Option (α × σ))) : σ → List α → Prop
  | done {iterator : σ} : next? iterator = .ok none → Yields next? iterator []
  | item {iterator rest : σ} {item : α} {items : List α} :
      next? iterator = .ok (some (item, rest)) →
      Yields next? rest items →
      Yields next? iterator (item :: items)

/-- An iterator starts, and gives out what a computation collects. -/
def Collects (start : Checked σ) (next? : σ → Checked (Option (α × σ)))
    (collected : Checked (List α)) : Prop :=
  ∃ iterator items, start = .ok iterator ∧ collected = .ok items ∧ Yields next? iterator items

/-- An iterator over slots gives out the entries at them. -/
theorem Yields.entries {map : Map} {next? : σ → Checked (Option (Slot × σ))} {iterator : σ}
    {slots : List Slot} {f : Slot → Entry} (yields : Yields next? iterator slots)
    (read : ∀ slot ∈ slots, map.entry slot = .ok (f slot)) :
    Yields (map.nextEntry? next?) iterator (slots.map f) := by
  induction yields with
  | done ended => exact .done (by rw [Map.nextEntry?, ended]; rfl)
  | item gives _ ih =>
      obtain ⟨here, later⟩ := List.forall_mem_cons.mp read
      refine .item ?_ (ih later)
      rw [Map.nextEntry?, gives, Checked.ok_bind]
      simp only [here, Checked.ok_bind, Checked.pure_eq_ok]

/-! ## Scans of a slab -/

namespace Stock

variable {stock : Stock} {slot : Slot} {front back : List Slot}

/-- Behind a live entry the first greater slot is that of the next live one. -/
theorem find?_behind (split : stock.liveSlots = front ++ slot :: back) :
    stock.liveSlots.find? (fun other => slot.index < other.index) = back.head? := by
  have increasing := stock.liveSlots_increasing
  rw [split] at increasing ⊢
  obtain ⟨-, later, before⟩ := List.pairwise_append.mp increasing
  have passed : ∀ other ∈ front, ¬ slot.index < other.index := fun other mem =>
    UInt32.not_lt.mpr (UInt32.le_of_lt (before other mem slot List.mem_cons_self))
  have beyond : ∀ other ∈ back, slot.index < other.index := (List.pairwise_cons.mp later).1
  rw [← List.head?_filter, List.filter_append,
    List.filter_eq_nil_iff.mpr fun other mem => by simpa using passed other mem,
    List.filter_cons_of_neg (by simp [UInt32.lt_irrefl]),
    List.filter_eq_self.mpr fun other mem => decide_eq_true (beyond other mem), List.nil_append]

theorem scan?_slab (split : stock.liveSlots = front ++ slot :: back) (nodes : Slot → Node) :
    (stock.slab nodes).scan? (some slot) = .ok (some (slot, back.head?)) := by
  have mem : slot ∈ stock.liveSlots := split ▸ List.mem_append_right _ List.mem_cons_self
  obtain ⟨cell, placed⟩ := exists_cell (mem_slots_of_live mem)
  rw [Slab.scan?, next_slab placed nodes, Checked.ok_bind, firstLive_behind placed nodes,
    find?_behind split]
  rfl

/-- A scan that stands at an entry gives out the live entries from there on. -/
theorem yields_scan (split : stock.liveSlots = front ++ back) (nodes : Slot → Node) :
    Yields (stock.slab nodes).scan? back.head? back := by
  induction back generalizing front with
  | nil => exact .done rfl
  | cons slot back ih =>
      have split_behind : stock.liveSlots = (front ++ [slot]) ++ back := by simp [split]
      exact .item (scan?_slab split nodes) (ih split_behind)

end Stock

/-! ## Traversals of a tree -/

namespace Shape

variable {stock : Stock} {nodes : Slot → Node} {shape : Shape} {slot : Slot}
  {waiting : List (Slot × Shape)}

/-- What waits after a descent from the top of a tree: the entries of the range on the way, each
with its right subtree, before those that waited already. -/
def spine (place : Slot → Ordering) : Shape → List (Slot × Shape) → List (Slot × Shape)
  | nil, waiting => waiting
  | node slot _ left right, waiting =>
      match place slot with
      | .lt => left.spine place waiting
      | .gt => right.spine place waiting
      | .eq => left.spine place ((slot, right) :: waiting)

/-- The entries still to come while some wait, each with its right subtree. -/
def pending (place : Slot → Ordering) : List (Slot × Shape) → List Slot
  | [] => []
  | (slot, right) :: waiting => slot :: (right.select place ++ pending place waiting)

theorem pending_spine (place : Slot → Ordering) (shape : Shape) (waiting : List (Slot × Shape)) :
    pending place (shape.spine place waiting) = shape.select place ++ pending place waiting := by
  induction shape generalizing waiting with
  | nil => rfl
  | node slot balance left right left_ih right_ih =>
      rw [spine, select]
      cases place slot with
      | lt => exact left_ih waiting
      | eq => simp only [left_ih, pending, List.append_assoc, List.cons_append]
      | gt => exact right_ih waiting

/-- The right subtrees of entries that wait are held by the slab. -/
def Waits (stock : Stock) (nodes : Slot → Node) (waiting : List (Slot × Shape)) : Prop :=
  ∀ entry ∈ waiting, (stock.slab nodes).child entry.1 .right = .ok entry.2.root ∧
    Held stock nodes entry.2

theorem Waits.spine (waits : Waits stock nodes waiting) (held : Held stock nodes shape)
    (place : Slot → Ordering) : Waits stock nodes (shape.spine place waiting) := by
  induction shape generalizing waiting with
  | nil => exact waits
  | node slot balance left right left_ih right_ih =>
      have left_held := (read_left held).2
      have right_read := read_right held
      rw [Shape.spine]
      cases place slot with
      | lt => exact left_ih waits left_held
      | eq => exact left_ih (List.forall_mem_cons.mpr ⟨right_read, waits⟩) left_held
      | gt => exact right_ih waits right_read.2

/-- A descent in the slab leaves the spine waiting. -/
theorem descend_slab (place : Pair → Ordering) (held : Held stock nodes shape)
    (waiting : List (Slot × Shape)) {fuel : Nat} (enough : shape.height < fuel) :
    Traversal.descend (stock.slab nodes) place fuel shape.root ⟨waiting.map Prod.fst⟩ =
      .ok ⟨(shape.spine (fun slot => place (stock.pairAt slot)) waiting).map Prod.fst⟩ := by
  induction shape generalizing waiting fuel with
  | nil =>
      obtain ⟨fuel, rfl⟩ := Nat.exists_eq_add_of_lt enough
      rfl
  | node slot balance left right left_ih right_ih =>
      obtain ⟨fuel, rfl⟩ : ∃ rest, fuel = rest + 1 := ⟨fuel - 1, by omega⟩
      obtain ⟨left_link, left_held⟩ := read_left held
      obtain ⟨right_link, right_held⟩ := read_right held
      rw [height] at enough
      have left_low : left.height < fuel := by omega
      have right_low : right.height < fuel := by omega
      rw [root_node, Traversal.descend, spine, (read_node held).1, Checked.ok_bind]
      cases answer : place (stock.pairAt slot) with
      | lt => simp only [left_link, Checked.ok_bind, left_ih left_held waiting left_low]
      | eq =>
          simp only [left_link, Checked.ok_bind]
          exact left_ih left_held ((slot, right) :: waiting) left_low
      | gt => simp only [right_link, Checked.ok_bind, right_ih right_held waiting right_low]

/-- A step gives out the first entry that waits, and the spine of its right subtree waits then. -/
theorem next?_slab (place : Pair → Ordering) {right : Shape}
    (waits : Waits stock nodes ((slot, right) :: waiting)) :
    Traversal.next? (stock.slab nodes) place ⟨((slot, right) :: waiting).map Prod.fst⟩ =
      .ok (some (slot,
        ⟨(right.spine (fun slot => place (stock.pairAt slot)) waiting).map Prod.fst⟩)) := by
  obtain ⟨right_link, right_held⟩ := (List.forall_mem_cons.mp waits).1
  rw [List.map_cons, Traversal.next?, right_link, Checked.ok_bind,
    descend_slab place right_held waiting right_held.height_lt]
  rfl

/-- A traversal gives out all that is pending. -/
theorem yields_pending (place : Pair → Ordering) (waits : Waits stock nodes waiting) :
    Yields (Traversal.next? (stock.slab nodes) place) ⟨waiting.map Prod.fst⟩
      (pending (fun slot => place (stock.pairAt slot)) waiting) := by
  -- Each step takes the first member off the pending list, but may leave more entries waiting.
  induction same : pending (fun slot => place (stock.pairAt slot)) waiting generalizing waiting with
  | nil =>
      cases waiting with
      | nil => exact .done rfl
      | cons entry waiting => cases same
  | cons slot later ih =>
      cases waiting with
      | nil => cases same
      | cons entry waiting =>
          obtain ⟨rfl, rest_eq⟩ := List.cons.inj same
          obtain ⟨-, right_held⟩ := (List.forall_mem_cons.mp waits).1
          have rest_waits : Waits stock nodes waiting := (List.forall_mem_cons.mp waits).2
          refine .item (next?_slab place waits) (ih (rest_waits.spine right_held _) ?_)
          rw [pending_spine, rest_eq]

/-- A traversal gives out what the recursion selects. -/
theorem collects_select (place : Pair → Ordering) (held : Held stock nodes shape) :
    Collects (Traversal.start ⟨shape.root⟩ (stock.slab nodes) place)
      (Traversal.next? (stock.slab nodes) place)
      (Tree.selectBelow (stock.slab nodes) place (stock.slab nodes).depthBound shape.root) := by
  have none_wait : Waits stock nodes [] := List.forall_mem_nil _
  have yields := yields_pending place (none_wait.spine held fun slot => place (stock.pairAt slot))
  rw [pending_spine, pending, List.append_nil] at yields
  exact ⟨_, _, descend_slab place held [] held.height_lt,
    selectBelow_slab place held held.height_lt, yields⟩

end Shape

/-! ## Iterators over a map -/

/-- The iterators over a map give out the lists of its entries. -/
structure Map.Iterates (map : Map) : Prop where
  entries : Collects map.scan map.scanNext? map.entries
  sorted : Collects (map.traverse fun _ => .eq) (map.traverseNext? fun _ => .eq) map.sorted
  range : ∀ probe query, Collects (map.traverse (query probe)) (map.traverseNext? (query probe))
    (map.range probe query)

namespace State

/-- A traversal of a state gives out the entries that the search selects. -/
theorem yields_traverse (state : State) (map : Map) (place : Pair → Ordering) :
    ∃ start, (state.on map).traverse place = .ok start ∧
      Yields ((state.on map).traverseNext? place) start
        ((state.shape.select fun slot => place (state.stock.pairAt slot)).map
          state.stock.entryAt) := by
  obtain ⟨start, slots, starts, selected, yields⟩ := Shape.collects_select place state.held
  obtain rfl := Except.ok.inj
    (selected.symm.trans (Shape.selectBelow_slab place state.held state.held.height_lt))
  refine ⟨start, starts, yields.entries fun slot mem => Map.entry_eq rfl ?_⟩
  exact mem_stock (mem_matching.mp ((Shape.select_sublist _ _).subset mem)).1

theorem iterates_on (state : State) (map : Map) : (state.on map).Iterates where
  entries := by
    have scan := @Stock.yields_scan state.stock [] _ rfl state.shape.nodes
    exact ⟨_, _, state.stock.firstLive_slab state.shape.nodes, state.entries_on map,
      scan.entries fun slot mem => Map.entry_eq rfl (Stock.mem_slots_of_live mem)⟩
  sorted := by
    obtain ⟨start, starts, yields⟩ := state.yields_traverse map fun _ => .eq
    rw [Shape.select_all] at yields
    exact ⟨start, _, starts, state.sorted_on map, yields⟩
  range probe query := by
    obtain ⟨start, starts, yields⟩ := state.yields_traverse map (query probe)
    exact ⟨start, _, starts, state.range_on map probe query, yields⟩

end State

/-- On every reachable map the iterators give out what the recursions collect: the live entries in
slab order, in the map's own order, and those that any query matches. -/
theorem Reachable.iterates {map : Map} (reachable : Reachable map) : map.Iterates := by
  obtain ⟨state, described⟩ := reachable.exists_state
  rw [← described.same]
  exact state.iterates_on map

end PackedMap
