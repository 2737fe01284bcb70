import PackedMap.Proofs.Comparator
import PackedMap.Proofs.Reachable

/-!
# Intact maps

What holds of a map between any two operations: the entries tile the slab, the tree reaches every
live entry once and no tombstone, both counters are right, the tree is balanced with exact balances,
and its order is that of the native comparator.
-/

namespace PackedMap

/-- A map is intact, with what its slab stores, the shape of its tree, and its entries in order. -/
structure Map.Intact (map : Map) (records : List (Slot × Record)) (shape : Shape)
    (entries : List Entry) : Prop where
  stored : map.slab.records = .ok records
  tiled : map.slab.Tiles ⟨0⟩ (records.map Prod.fst)
  linked : map.tree.shape map.slab = .ok shape
  once : shape.slots.Nodup
  live : ∀ slot, slot ∈ shape.slots ↔
    ∃ record, (slot, record) ∈ records ∧ record.tombstone = false
  size_eq : map.size = records.countP fun stored => !stored.2.tombstone
  tombstones_eq : map.tombstones = records.countP fun stored => stored.2.tombstone
  balanced : shape.Balanced
  sorted : map.sorted = .ok entries
  inOrder : entries.map Entry.id = shape.slots
  increasing : Increasing map.order (entries.map Entry.pair)

namespace State

/-- What a slab stores for a state. -/
def records (state : State) : List (Slot × Record) :=
  state.stock.placed.map fun entry => (entry.1, entry.2.record (state.shape.nodes entry.1))

theorem records_on (state : State) (map : Map) :
    (state.on map).slab.records = .ok state.records := by
  refine Stock.records_slab state.shape.nodes fun slot _ side => ?_
  exact Held.storable (fun _ mem => mem_stock mem) (fun other side => by simp) slot side

theorem slots_records (state : State) : state.records.map Prod.fst = state.stock.slots := by
  rw [records, List.map_map]
  rfl

theorem length_slots (state : State) :
    state.shape.slots.length = state.records.countP fun stored => !stored.2.tombstone := by
  rw [state.live.length_eq, Stock.liveSlots, List.length_map, ← List.countP_eq_length_filter,
    records, List.countP_map]
  rfl

theorem tombstones_records (state : State) :
    state.stock.tombstones = state.records.countP fun stored => stored.2.tombstone := by
  rw [Stock.tombstones_eq, records, List.countP_map]
  rfl

theorem mem_records {state : State} {slot : Slot} :
    slot ∈ state.shape.slots ↔
      ∃ record, (slot, record) ∈ state.records ∧ record.tombstone = false := by
  rw [mem_live, Stock.mem_liveSlots]
  constructor
  · rintro ⟨cell, placed, alive⟩
    exact ⟨_, List.mem_map.mpr ⟨(slot, cell), placed, rfl⟩, alive⟩
  · rintro ⟨record, mem, alive⟩
    obtain ⟨⟨other, cell⟩, placed, same⟩ := List.mem_map.mp mem
    obtain ⟨rfl, rfl⟩ := Prod.mk.inj same
    exact ⟨cell, placed, alive⟩

/-- A map in a sorted state is intact. -/
theorem intact_on (state : State) (map : Map) (sorted : state.Sorted map.order) :
    (state.on map).Intact state.records state.shape state.entries where
  stored := state.records_on map
  tiled := by
    rw [slots_records]
    exact state.stock.tiles_slab state.shape.nodes
  linked := Shape.shape_slab state.held
  once := state.distinct
  live := fun _ => mem_records
  size_eq := state.length_slots
  tombstones_eq := state.tombstones_records
  balanced := state.balanced
  sorted := state.sorted_on map
  inOrder := state.ids_entries
  increasing := by
    rw [pairs_entries]
    exact sorted

end State

/-- Every reachable map is intact, and no operation on it fails an internal check. -/
theorem reachable_intact {map : Map} (reachable : Reachable map) :
    (∃ records shape entries, map.Intact records shape entries) ∧
      (∀ change : Change, ∃ outcome, change.run map = .ok outcome) ∧
      (∀ source, Reachable source → ∃ outcome, map.merge source = .ok outcome) ∧
      ∃ duplicate, map.duplicate = .ok duplicate := by
  obtain ⟨state, described⟩ := reachable.exists_state
  refine ⟨?_, fun change => ?_, fun source source_reachable => ?_, ?_⟩
  · have intact := state.intact_on map described.sorted
    rw [described.same] at intact
    exact ⟨_, _, _, intact⟩
  · obtain ⟨reply, events, after, -, -, run⟩ := described.change change
    exact ⟨_, run⟩
  · obtain ⟨other, source_described⟩ := source_reachable.exists_state
    obtain ⟨result, events, after, run, -⟩ := described.merge source_described
    exact ⟨_, run⟩
  · obtain ⟨events, after, run, -⟩ := described.duplicate
    exact ⟨_, run⟩

/-- Additions that turn the tree, an erasure that turns it once more, and an addition for which there
is no room. -/
def turningRun : List Change :=
  [.add ⟨[97], []⟩ .empty, .add ⟨[98], []⟩ .empty, .add ⟨[99], []⟩ .empty, .add ⟨[100], []⟩ .empty,
    .erase ⟨[97], []⟩ none .empty, .add ⟨[101], []⟩ .empty]

/-- A map with room for four entries. -/
def fourRoomed : Map := .empty .byKey ⟨0, 128, none, false⟩

theorem reachable_intact_turned : Reachable (fourRoomed.after turningRun) ∧
    fourRoomed.replies turningRun = .ok [.addition .added, .addition .added, .addition .added,
      .addition .added, .flag true, .refused ⟨160, 128⟩] ∧
    (fourRoomed.after turningRun).tombstones = 1 ∧
    ∃ records entries, (fourRoomed.after turningRun).Intact records
      (.node ⟨8⟩ .even (.node ⟨4⟩ .even .nil .nil) (.node ⟨12⟩ .even .nil .nil)) entries := by
  have reachable : Reachable (fourRoomed.after turningRun) := (Reachable.empty .byKey _).after _
  have linked : (fourRoomed.after turningRun).tree.shape (fourRoomed.after turningRun).slab =
      .ok (.node ⟨8⟩ .even (.node ⟨4⟩ .even .nil .nil) (.node ⟨12⟩ .even .nil .nil)) := by
    decide +kernel
  obtain ⟨records, shape, entries, intact⟩ := (reachable_intact reachable).1
  obtain rfl := Except.ok.inj (intact.linked.symm.trans linked)
  exact ⟨reachable, by decide +kernel, by decide +kernel, records, entries, intact⟩

end PackedMap
