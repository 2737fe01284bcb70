import PackedMap.Map.Query
import PackedMap.Proofs.Slab.Packing
import PackedMap.Proofs.Tree.Search

/-!
# States of a map

A state is a stock with a balanced tree over its live entries.  It determines the contents of a map:
both counters, the root and every byte of the slab.  What a map answers is read off its state.
-/

namespace PackedMap

/-- The contents that a stock and a tree determine. -/
def Contents.of (stock : Stock) (shape : Shape) : Contents where
  size := shape.slots.length
  tombstones := stock.tombstones
  tree := ⟨shape.root⟩
  slab := stock.slab shape.nodes

theorem Contents.snapshot_of (stock : Stock) (shape : Shape) :
    (Contents.of stock shape).snapshot = .of stock shape :=
  congrArg (fun slab => { Contents.of stock shape with slab }) (stock.snapshot_slab shape.nodes)

/-- A map with the contents of a stock and a tree. -/
def Map.holding (map : Map) (stock : Stock) (shape : Shape) : Map :=
  { map with toContents := .of stock shape }

/-- What a free hook reports of some entries. -/
def Map.freed (map : Map) (entries : List Entry) : List Event :=
  if map.freeHook then entries.map .freed else []

/-- The entry at a slot of a stock. -/
def Stock.entryAt (stock : Stock) (slot : Slot) : Entry := ⟨slot, stock.pairAt slot⟩

theorem Map.entry_eq {map : Map} {stock : Stock} {nodes : Slot → Node} {slot : Slot}
    (slab_eq : map.slab = stock.slab nodes) (mem : slot ∈ stock.slots) :
    map.entry slot = .ok (stock.entryAt slot) := by
  rw [Map.entry, slab_eq, Stock.pair_eq_pairAt mem]
  rfl

theorem Map.freeing_eq {map : Map} {stock : Stock} {nodes : Slot → Node} {slots : List Slot}
    (slab_eq : map.slab = stock.slab nodes) (inside : ∀ slot ∈ slots, slot ∈ stock.slots) :
    map.freeing slots = .ok (map.freed (slots.map stock.entryAt)) := by
  have each : ∀ slot ∈ slots, (do return .freed (← map.entry slot) : Checked Event) =
      .ok (.freed (stock.entryAt slot)) := by
    intro slot mem
    rw [Map.entry_eq slab_eq (inside slot mem)]
    rfl
  rw [Map.freeing, Map.freed, List.map_map]
  cases map.freeHook with
  | false => rfl
  | true => exact Checked.mapM_eq_ok each

/-- A slot at or behind the end of a slab is outside. -/
theorem Slab.contains_outside {slab : Slab} {slot : Slot}
    (outside : slab.endSlot.index ≤ slot.index) : slab.contains (some slot) = false := by
  rw [Slab.contains, decide_eq_false_iff_not]
  exact UInt32.not_lt.mpr outside

/-- A cursor at or behind the end of the slab has no next entry. -/
theorem Map.next?_outside {map : Map} {last : Slot}
    (outside : map.slab.endSlot.index ≤ last.index) : map.next? (some last) = .ok none := by
  simp [Map.next?, Slab.contains_outside outside]

/-- A stock with a balanced tree over its live entries. -/
structure State where
  /-- The cells with their bounds. -/
  stock : Stock
  /-- The tree over the live cells. -/
  shape : Shape
  balanced : shape.Balanced
  live : shape.slots.Perm stock.liveSlots

namespace State

/-- A map in a given state. -/
def on (state : State) (map : Map) : Map := map.holding state.stock state.shape

/-- The pairs of the live entries, in tree order. -/
def pairs (state : State) : List Pair := state.shape.slots.map state.stock.pairAt

/-- The live entries in tree order. -/
def entries (state : State) : List Entry := state.shape.slots.map state.stock.entryAt

/-- Where a comparator sends a search for a probe at each entry. -/
def seek (state : State) (order : Comparator) (probe : Pair) (slot : Slot) : Ordering :=
  order probe (state.stock.pairAt slot)

/-- The tree is in the order of a comparator. -/
def Sorted (state : State) (order : Comparator) : Prop := Increasing order state.pairs

variable {state : State} {slot : Slot}

theorem ids_entries (state : State) : state.entries.map Entry.id = state.shape.slots := by
  rw [entries, List.map_map]
  exact List.map_id _

theorem pairs_entries (state : State) : state.entries.map Entry.pair = state.pairs := by
  rw [entries, List.map_map]
  rfl

theorem mem_live : slot ∈ state.shape.slots ↔ slot ∈ state.stock.liveSlots := state.live.mem_iff

theorem mem_stock (mem : slot ∈ state.shape.slots) : slot ∈ state.stock.slots :=
  Stock.mem_slots_of_live (mem_live.mp mem)

theorem distinct (state : State) : state.shape.slots.Nodup :=
  state.live.nodup_iff.mpr state.stock.liveSlots_nodup

theorem held (state : State) : Held state.stock state.shape.nodes state.shape :=
  Held.overlay state.distinct (fun _ mem => mem_stock mem) _

theorem last_notMem (state : State) : state.stock.last ∉ state.shape.slots :=
  fun mem => state.stock.last_notMem (mem_stock mem)

@[simp]
theorem order_on (state : State) (map : Map) : (state.on map).order = map.order := rfl

theorem slots_pairwise {order : Comparator} (sorted : state.Sorted order) :
    state.shape.slots.Pairwise fun a b =>
      order (state.stock.pairAt a) (state.stock.pairAt b) = .lt :=
  List.pairwise_map.mp sorted

/-- A lawful comparator sweeps a tree in its order. -/
theorem sweeps_of_coarser {order query : Comparator} [Std.TransCmp query]
    (sorted : state.Sorted order) (coarser : ∀ a b, query a b = .gt → order a b = .gt)
    (probe : Pair) : Sweeps (state.seek query probe) state.shape.slots := by
  have swept := sweeps_map.mp (sorted.sweeps_of_coarser coarser probe)
  exact swept

theorem sweeps {order : Comparator} [Std.TransCmp order] (sorted : state.Sorted order)
    (probe : Pair) : Sweeps (state.seek order probe) state.shape.slots := by
  have swept := sweeps_map.mp (Increasing.sweeps sorted probe)
  exact swept

/-- There are no more live entries than units. -/
theorem length_slots_le (state : State) (map : Map) :
    state.shape.slots.length ≤ (state.on map).slab.units := by
  have live := state.live.length_eq
  have cells := state.stock.length_liveSlots
  have total := Cell.length_le_total state.stock.cells
  have units := state.stock.units_slab state.shape.nodes
  calc state.shape.slots.length ≤ state.stock.cells.length := by omega
    _ ≤ Cell.total state.stock.cells := total
    _ = (state.on map).slab.units := units.symm

/-! ## Queries -/

section Query

variable (state : State) (map : Map)

theorem mapM_entry_on {slots : List Slot} (inside : ∀ slot ∈ slots, slot ∈ state.stock.slots) :
    slots.mapM (state.on map).entry = .ok (slots.map state.stock.entryAt) :=
  Checked.mapM_eq_ok fun slot mem => Map.entry_eq rfl (inside slot mem)

theorem sorted_on : (state.on map).sorted = .ok state.entries := by
  have order_eq := Shape.inOrder_slab state.held
  rw [Map.sorted, show (state.on map).tree = ⟨state.shape.root⟩ from rfl,
    show (state.on map).slab = state.stock.slab state.shape.nodes from rfl, order_eq]
  exact state.mapM_entry_on map fun slot mem => mem_stock mem

theorem entries_on : (state.on map).entries =
    .ok (state.stock.liveSlots.map state.stock.entryAt) := by
  have live_eq := state.stock.liveSlots_slab state.shape.nodes
  rw [Map.entries, show (state.on map).slab = state.stock.slab state.shape.nodes from rfl, live_eq]
  exact state.mapM_entry_on map fun slot mem => Stock.mem_slots_of_live mem

/-- At the end of a map's life the free hook is called with every live entry. -/
theorem dispose_on : (state.on map).dispose =
    .ok (map.freed (state.stock.liveSlots.map state.stock.entryAt)) := by
  have live_eq := state.stock.liveSlots_slab state.shape.nodes
  rw [Map.dispose, show (state.on map).slab = state.stock.slab state.shape.nodes from rfl, live_eq]
  exact @Map.freeing_eq (state.on map) _ _ _ rfl fun slot mem => Stock.mem_slots_of_live mem

theorem find_on (probe : Pair) (query : Comparator) :
    (state.on map).tree.find (state.on map).slab probe query =
      .ok (state.shape.find (state.seek query probe)) :=
  Shape.find_slab probe query state.held

theorem mapM_entry?_on {slot? : Option Slot} (inside : ∀ slot ∈ slot?, slot ∈ state.stock.slots) :
    slot?.mapM (state.on map).entry = .ok (slot?.map state.stock.entryAt) := by
  cases slot? with
  | none => rfl
  | some slot =>
      have read := @Map.entry_eq (state.on map) state.stock state.shape.nodes slot rfl
        (inside slot rfl)
      rw [Option.mapM_some, read]
      rfl

/-- A search gives out the entry that it meets first. -/
theorem find?_on (probe : Pair) (query : Comparator) :
    (state.on map).find? probe query =
      .ok ((state.shape.find (state.seek query probe)).map state.stock.entryAt) := by
  rw [Map.find?]
  refine (Checked.bind_eq (state.find_on map probe query) _).trans ?_
  exact state.mapM_entry?_on map fun slot found =>
    mem_stock (mem_matching.mp (Shape.find_mem found)).1

theorem contains_on {slot : Slot} (mem : slot ∈ state.stock.slots) :
    (state.on map).slab.contains (some slot) = true := by
  have before := UInt32.lt_iff_toNat_lt.mpr (Stock.lt_last mem)
  rw [Slab.contains, show (state.on map).slab = state.stock.slab state.shape.nodes from rfl,
    Stock.endSlot_slab]
  exact decide_eq_true before

/-- A walk over all entries starts with the first live one. -/
theorem next?_first : (state.on map).next? none =
    .ok (state.stock.liveSlots.head?.map state.stock.entryAt) := by
  have found := state.stock.firstLive_slab state.shape.nodes
  rw [Map.next?]
  refine (Checked.bind_eq found _).trans ?_
  exact state.mapM_entry?_on map fun slot first =>
    Stock.mem_slots_of_live (List.mem_of_mem_head? first)

/-- Behind a cursor a walk over all entries goes on with the next live one in slab order. -/
theorem next?_behind {last : Slot} (mem : last ∈ state.stock.slots) :
    (state.on map).next? (some last) =
      .ok ((state.stock.liveSlots.find? fun slot => last.index < slot.index).map
        state.stock.entryAt) := by
  obtain ⟨cell, placed⟩ := Stock.exists_cell mem
  have next_eq := Stock.next_slab placed state.shape.nodes
  have found := Stock.firstLive_behind placed state.shape.nodes
  rw [Map.next?]
  simp only [state.contains_on map mem, if_true]
  refine (Checked.bind_eq next_eq _).trans ((Checked.bind_eq found _).trans ?_)
  exact state.mapM_entry?_on map fun slot next =>
    Stock.mem_slots_of_live (List.mem_of_find?_eq_some next)

theorem locate_on (probe : Pair) (query : Comparator) :
    (state.on map).tree.locate (state.on map).slab probe query =
      .ok (state.shape.locate (state.seek query probe) none none) :=
  Shape.locate_slab probe query state.held

end Query

end State
end PackedMap
