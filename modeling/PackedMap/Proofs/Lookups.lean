import PackedMap.Proofs.Drift
import PackedMap.Proofs.Intact
import PackedMap.Proofs.Map.Matching

/-!
# Lookups under any comparator

A search for one match, a search for neighbours, a search of a range and a deletion are four
descents of their own.  A comparator that is no order may lead them past matches, but it leads all
four the same way down to the first match that it meets, and each of them goes on from there.  A
deletion then leads anew to the entry that was met, under the native comparator, and finds it.
-/

namespace PackedMap

/-- The cell of a record. -/
def Record.cell (record : Record) : Cell := ⟨record.pair, record.tombstone⟩

/-- A live entry of a map is a tombstone in a later map, and that is all that the slots, the pairs
and the states of the two maps differ in. -/
def Map.Entombs (map : Map) (entry : Entry) (later : Map) : Prop :=
  ∃ before after, map.slab.records = .ok before ∧ later.slab.records = .ok after ∧
    (∃ record, (entry.id, record) ∈ before ∧ record.cell = .live entry.pair) ∧
    after.map (fun stored => (stored.1, stored.2.cell)) = before.map fun stored =>
      (stored.1, if stored.1 = entry.id then stored.2.cell.entomb else stored.2.cell)

/-- The lookups for a probe and the deletion of a match decide on the same entry, or all on none. -/
structure Map.Decides (map : Map) (probe : Pair) (query : Comparator) (hit : Option Entry) :
    Prop where
  found : map.find? probe query = .ok hit
  located : ∃ near, map.neighbors probe query = .ok (hit.map Entry.id, near)
  first : ∃ first, map.nextMatch? none probe query = .ok first ∧ first.isSome = hit.isSome
  range : ∃ found, map.range probe query = .ok found ∧ (found ≠ [] ↔ hit.isSome = true) ∧
    ∀ entry ∈ hit, entry ∈ found
  erased : ∃ outcome, map.erase probe query .empty = .ok outcome ∧
    outcome.result = hit.isSome ∧ ∀ entry ∈ hit, map.Entombs entry outcome.map

namespace State

variable {state : State} {map : Map} {slot : Slot} {left : Shape × Bool}

theorem cells_records (state : State) :
    state.records.map (fun stored => (stored.1, stored.2.cell)) = state.stock.placed := by
  rw [records, List.map_map]
  exact List.map_id _

theorem entombs_on {order : Comparator}
    (removed : state.shape.remove (state.stock.place order slot) slot = some left) :
    (state.on map).Entombs (state.stock.entryAt slot) ((state.unlink removed).on map) := by
  refine ⟨state.records, (state.unlink removed).records, state.records_on map,
    (state.unlink removed).records_on map, ?_, ?_⟩
  · have mem := Shape.mem_of_remove state.balanced removed
    obtain ⟨cell, placed, alive⟩ := Stock.mem_liveSlots.mp (mem_live.mp mem)
    refine ⟨cell.record (state.shape.nodes slot), List.mem_map.mpr ⟨(slot, cell), placed, rfl⟩, ?_⟩
    have pair_eq := Stock.pairAt_eq placed
    rw [Stock.entryAt, pair_eq]
    exact congrArg (Cell.mk cell.pair) alive
  · have entombed := state.stock.placed_alter slot Cell.units_entomb
    have after_eq := (state.unlink removed).cells_records
    rw [after_eq, show (state.unlink removed).stock.placed = _ from entombed, ← cells_records,
      List.map_map]
    rfl

theorem decides_on [Std.TransCmp map.order] (sorted : state.Sorted map.order) (probe : Pair)
    (query : Comparator) :
    (state.on map).Decides probe query
      ((state.shape.find (state.seek query probe)).map state.stock.entryAt) where
  found := state.find?_on map probe query
  located := by
    have run := state.locate_on map probe query
    have met := Shape.locate_fst (state.seek query probe) state.shape none none
    refine ⟨_, run.trans (congrArg Except.ok (Prod.ext ?_ rfl))⟩
    rw [met, Option.map_map]
    exact (congrFun Option.map_id _).symm
  first := by
    have told := (Shape.locate_first (state.seek query probe) state.shape none none).1
    rw [Shape.locate_fst] at told
    refine ⟨_, state.nextMatch?_first map probe query, ?_⟩
    rw [Option.isSome_map, Option.isSome_map, told]
  range := by
    refine ⟨_, state.range_on map probe query, ?_⟩
    cases found : state.shape.find (state.seek query probe) with
    | none => simp [Shape.select_eq_nil found]
    | some slot =>
        have mem := Shape.find_mem_select found
        have entry_mem : state.stock.entryAt slot ∈
            (state.shape.select (state.seek query probe)).map state.stock.entryAt :=
          List.mem_map_of_mem mem
        refine ⟨iff_of_true (List.ne_nil_of_mem entry_mem) rfl, fun entry same => ?_⟩
        obtain rfl := Option.some.inj same
        exact entry_mem
  erased := by
    cases found : state.shape.find (state.seek query probe) with
    | none => exact ⟨_, erase_missed map .empty found, rfl, fun entry same => by cases same⟩
    | some slot =>
        have mem := (mem_matching.mp (Shape.find_mem found)).1
        obtain ⟨left, removed⟩ := state.exists_unlink sorted mem
        have erased := erase_found .empty found removed
        rw [settle_still _ rfl] at erased
        refine ⟨_, erased, rfl, fun entry same => ?_⟩
        obtain rfl := Option.some.inj same
        exact entombs_on removed

end State

/-- Whatever function stands in the place of a comparator, all lookups of a reachable map decide on
the same entry, and a deletion lays a tombstone over that entry and no other. -/
theorem lookups_agree {map : Map} (reachable : Reachable map) (probe : Pair) (query : Comparator) :
    ∃ hit, map.Decides probe query hit := by
  obtain ⟨state, described⟩ := reachable.exists_state
  have lawful := described.lawful
  have decides := State.decides_on described.sorted probe query
  rw [described.same] at decides
  exact ⟨_, decides⟩

/-- A map whose values do not follow its keys. -/
def unruly : Map := (Map.empty .byKey .default).after
  [.add ⟨[2], [4]⟩ .empty, .add ⟨[1], [5]⟩ .empty, .add ⟨[3], [5]⟩ .empty]

-- the values 5, 4, 5 stand in no order, and one of the two matches is never met
theorem lookups_agree_unruly :
    Reachable unruly ∧ unruly.Decides ⟨[], [5]⟩ .byValue (some ⟨⟨8⟩, ⟨[3], [5]⟩⟩) := by
  have reachable : Reachable unruly := (Reachable.empty .byKey _).after _
  have computed : unruly.find? ⟨[], [5]⟩ .byValue = .ok (some ⟨⟨8⟩, ⟨[3], [5]⟩⟩) := by
    decide +kernel
  obtain ⟨hit, decides⟩ := lookups_agree reachable ⟨[], [5]⟩ .byValue
  obtain rfl := Except.ok.inj (decides.found.symm.trans computed)
  exact ⟨reachable, decides⟩

end PackedMap
