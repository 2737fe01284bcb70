import PackedMap.Proofs.Comparator
import PackedMap.Proofs.Reachable

/-!
# The layout of a compacted map

A compaction leaves the pairs in their order, and a slab that these pairs alone determine: the
entries stand in it back to back in the order of the map, the tree over them halves them again and
again, and the capacity is what a batch of these entries asks for.  So a second compaction finds
everything in its place.
-/

namespace PackedMap

/-- A map whose slab holds its live entries alone, back to back in its own order, under the tree
that is built from them in this order. -/
structure Map.Packed (map : Map) (entries : List Entry) : Prop where
  sorted : map.sorted = .ok entries
  increasing : Increasing map.order (entries.map Entry.pair)
  inSlabOrder : map.entries = .ok entries
  tiled : map.slab.Tiles ⟨0⟩ (entries.map Entry.id)
  placed : ∀ front entry back, entries = front ++ entry :: back →
    entry.id.index.toNat = Pair.totalUnits (front.map Entry.pair)
  size_eq : map.size = entries.length
  tombstones_eq : map.tombstones = 0
  built : Tree.ofSorted map.slab (entries.map Entry.id) = .ok (map.tree, map.slab)
  linked : map.tree.shape map.slab = .ok (.ofSorted (entries.map Entry.id))
  height_eq : (Shape.ofSorted (entries.map Entry.id)).height = entries.length.size
  capacity_eq : map.slab.capacity =
    unitSize * ((31 * entries.length + Pair.totalSize (entries.map Entry.pair)) / unitSize)
  used_eq : map.slab.used = Pair.totalUnits (entries.map Entry.pair) * unitSize
  used_le : map.slab.used ≤ map.slab.capacity

/-- What a compaction that is not refused makes of a map with some entries. -/
structure Map.Compacts (map : Map) (entries : List Entry) (amount : Nat) (later : Map) : Prop where
  amount_eq : amount = map.tombstones
  settings_eq : later = { map with toContents := later.toContents }
  limit_eq : later.slab.limit = map.slab.limit
  size_eq : later.size = map.size
  packs : ∃ packed, later.Packed packed ∧ packed.map Entry.pair = entries.map Entry.pair
  again : later.compact = .ok ⟨.ok 0, later, []⟩

/-- The entry behind some others of a slab stands at the number of their units. -/
theorem Stock.index_of_entries {stock : Stock} {front back : List Entry} {entry : Entry}
    (split : stock.slots.map stock.entryAt = front ++ entry :: back) :
    entry.id.index.toNat = Pair.totalUnits (front.map Entry.pair) := by
  have entries_eq : stock.slots.map stock.entryAt =
      stock.placed.map fun placed => ⟨placed.1, placed.2.pair⟩ := by
    rw [slots, List.map_map]
    exact List.map_congr_left fun placed mem => congrArg _ (pairAt_eq mem)
  rw [entries_eq] at split
  obtain ⟨before, rest, placed_eq, rfl, rest_eq⟩ := List.map_eq_append_iff.mp split
  obtain ⟨⟨slot, cell⟩, after, rfl, rfl, -⟩ := List.map_eq_cons_iff.mp rest_eq
  have units_eq : Cell.total (before.map Prod.snd) = Pair.totalUnits
      ((before.map fun placed => (⟨placed.1, placed.2.pair⟩ : Entry)).map Entry.pair) := by
    rw [Cell.total_eq, List.map_map, List.map_map]
    rfl
  have few : Cell.total (before.map Prod.snd) ≤ Cell.total stock.cells := by
    rw [← Cell.map_snd_tiling 0 stock.cells, ← placed, placed_eq, List.map_append,
      Cell.total_append]
    exact Nat.le_add_right ..
  have small := stock.total_small
  have slot_eq := Cell.slot_of_tiling_eq placed_eq
  rw [Nat.zero_add] at slot_eq
  rw [← units_eq, slot_eq, Slot.toNat_ofUnits (by omega)]

namespace State

variable {state : State}

/-- What a compaction leaves is determined by the pairs and the limit. -/
theorem compacted_congr {other : State} (pairs_eq : state.pairs = other.pairs)
    (limit_eq : state.stock.limit = other.stock.limit)
    (fits : Stock.packedSize state.pairs ≤ state.stock.limit)
    (fits' : Stock.packedSize other.pairs ≤ other.stock.limit) :
    state.compacted fits = other.compacted fits' := by
  have stock_eq : state.stock.packed state.pairs fits = other.stock.packed other.pairs fits' := by
    simp only [Stock.packed, pairs_eq, limit_eq]
  simp only [compacted, stock_eq]

section Compacted

variable (fits : Stock.packedSize state.pairs ≤ state.stock.limit)

/-- The tree of a compacted state is over all entries, in the order of the slab. -/
theorem slots_compacted : (state.compacted fits).shape.slots = (state.compacted fits).stock.slots :=
  Shape.slots_ofSorted _

/-- A map in a compacted state is packed. -/
theorem packed_on {map : Map} (sorted : state.Sorted map.order) :
    ((state.compacted fits).on map).Packed (state.compacted fits).entries where
  sorted := (state.compacted fits).sorted_on map
  increasing := by
    rw [pairs_entries, pairs_compacted]
    exact sorted
  inSlabOrder := by
    have all : (state.compacted fits).stock.liveSlots = (state.compacted fits).stock.slots :=
      Stock.liveSlots_packed
    rw [entries_on, entries, slots_compacted, all]
  tiled := by
    rw [ids_entries, slots_compacted]
    exact (state.compacted fits).stock.tiles_slab _
  placed _ _ _ split := by
    rw [entries, slots_compacted] at split
    exact Stock.index_of_entries split
  size_eq := (List.length_map ..).symm
  tombstones_eq := Stock.tombstones_packed
  built := by
    have distinct := (state.compacted fits).distinct
    have built := Shape.ofSorted_slab _ distinct (fun _ mem => mem_stock mem)
      (state.compacted fits).shape.nodes
    have same : Shape.ofSorted (state.compacted fits).shape.slots =
        (state.compacted fits).shape := congrArg Shape.ofSorted (slots_compacted fits)
    rw [same, (state.compacted fits).held.stored.overlay_eq distinct] at built
    rw [ids_entries]
    exact built
  linked := by
    rw [ids_entries, slots_compacted]
    exact Shape.shape_slab (state.compacted fits).held
  height_eq := by rw [Shape.height_ofSorted_eq, List.length_map]
  capacity_eq := by
    have length_eq : (state.compacted fits).entries.length = state.pairs.length := by
      rw [← pairs_compacted fits, ← pairs_entries, List.length_map]
    rw [pairs_entries, pairs_compacted, length_eq]
    rfl
  used_eq := by
    rw [pairs_entries, pairs_compacted, ← Stock.total_map_live]
    exact Stock.used_slab ..
  used_le := by
    refine Nat.le_trans (Nat.le_of_eq (Stock.used_slab ..)) ?_
    exact (state.compacted fits).stock.used_le

/-- A compacted map stays as it is when it is compacted again. -/
theorem compact_again (map : Map) :
    ((state.compacted fits).on map).compact =
      .ok ⟨.ok 0, (state.compacted fits).on map, []⟩ := by
  have again : Stock.packedSize (state.compacted fits).pairs ≤
      (state.compacted fits).stock.limit := by
    rw [pairs_compacted]
    exact fits
  have none : (state.compacted fits).stock.tombstones = 0 := Stock.tombstones_packed
  rw [compact_on, dif_pos again, none, compacted_congr (pairs_compacted fits) rfl again fits]

theorem compacts_on {map : Map} (sorted : state.Sorted map.order) :
    (state.on map).Compacts state.entries state.stock.tombstones
      ((state.compacted fits).on map) where
  amount_eq := rfl
  settings_eq := rfl
  limit_eq := rfl
  size_eq := by
    have lengths := congrArg List.length (pairs_compacted fits)
    rw [length_pairs, length_pairs] at lengths
    exact lengths
  packs := by
    refine ⟨_, packed_on fits sorted, ?_⟩
    rw [pairs_entries, pairs_entries, pairs_compacted]
  again := compact_again fits map

end Compacted

end State

/-- A compaction of a reachable map is refused exactly if the new slab would pass the limit, and
then it changes nothing.  Else it gives the number of tombstones and leaves the same pairs in the
same order in a packed map, in which a second compaction has nothing to do.  It runs no hook. -/
theorem compaction_packs {map : Map} (reachable : Reachable map) :
    ∃ outcome entries, map.compact = .ok outcome ∧ map.sorted = .ok entries ∧
      outcome.events = [] ∧
      ((∃ error, outcome.result = .error error) ↔ map.slab.limit <
        unitSize * ((31 * map.size + Pair.totalSize (entries.map Entry.pair)) / unitSize)) ∧
      (∀ error, outcome.result = .error error → outcome.map = map) ∧
      ∀ amount, outcome.result = .ok amount → map.Compacts entries amount outcome.map := by
  obtain ⟨state, described⟩ := reachable.exists_state
  have run := state.compact_on map
  have read := state.sorted_on map
  have asked : unitSize * ((31 * (state.on map).size +
      Pair.totalSize (state.entries.map Entry.pair)) / unitSize) =
        Stock.packedSize state.pairs := by
    rw [state.pairs_entries, Stock.packedSize, State.length_pairs]
    rfl
  have limit_eq : (state.on map).slab.limit = state.stock.limit := rfl
  by_cases fits : Stock.packedSize state.pairs ≤ state.stock.limit
  · have compacts := state.compacts_on fits described.sorted
    rw [dif_pos fits] at run
    rw [described.same] at run read asked limit_eq compacts
    refine ⟨_, _, run, read, rfl, ?_, fun _ refused => (by cases refused), fun amount told => ?_⟩
    · rw [asked, limit_eq]
      exact iff_of_false (fun ⟨_, refused⟩ => by cases refused) (Nat.not_lt.mpr fits)
    · obtain rfl := Except.ok.inj told
      exact compacts
  · rw [dif_neg fits] at run
    rw [described.same] at run read asked limit_eq
    refine ⟨_, _, run, read, rfl, ?_, fun _ _ => rfl, fun _ told => (by cases told)⟩
    rw [asked, limit_eq]
    exact iff_of_true ⟨_, rfl⟩ (Nat.not_le.mp fits)

/-- A map with a tombstone between two entries, which are not in the order of the keys. -/
def cluttered : Map := (Map.empty .byKey ⟨0, 400, none, true⟩).after
  [.add ⟨[3], []⟩ .empty, .add ⟨[1], [7]⟩ .empty,
    .add ⟨[1], [8, 8, 8, 8, 8, 8, 8, 8]⟩ .replace]

theorem compaction_packs_cluttered : Reachable cluttered ∧ cluttered.tombstones = 1 ∧
    ∃ outcome packed, cluttered.compact = .ok outcome ∧ outcome.result = .ok 1 ∧
      outcome.map.Packed packed ∧
      packed.map Entry.pair = [⟨[1], [8, 8, 8, 8, 8, 8, 8, 8]⟩, ⟨[3], []⟩] := by
  have reachable : Reachable cluttered := (Reachable.empty .byKey ⟨0, 400, none, true⟩).after _
  have told : cluttered.compact.map Outcome.result = .ok (.ok 1) := by decide +kernel
  have listed : cluttered.sorted.map (List.map Entry.pair) =
      .ok [⟨[1], [8, 8, 8, 8, 8, 8, 8, 8]⟩, ⟨[3], []⟩] := by decide +kernel
  obtain ⟨outcome, entries, run, read, -, -, -, packs⟩ := compaction_packs reachable
  rw [run] at told
  rw [read] at listed
  have result_eq : outcome.result = .ok 1 := Except.ok.inj told
  have compacts := packs 1 result_eq
  obtain ⟨packed, is_packed, pairs_eq⟩ := compacts.packs
  exact ⟨reachable, compacts.amount_eq.symm, outcome, packed, run, result_eq, is_packed,
    pairs_eq.trans (Except.ok.inj listed)⟩

end PackedMap
