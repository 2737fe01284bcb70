import PackedMap.Proofs.Intact
import PackedMap.Proofs.Map.Matching

/-!
# Matches of a probe

The matches of a probe can be had as a range, one by one behind a cursor, or as a single hit.  Where
the comparator of the query sweeps the entries, all of these agree with a scan of the whole map.
Under any other function in its place they may miss matches, but they give live entries only, each
one a match, and every walk comes to its end.
-/

namespace PackedMap

/-- The queries for the matches of a probe agree on them. -/
structure Map.AgreesOn (map : Map) (probe : Pair) (query : Comparator) (found : List Entry) :
    Prop where
  range : map.range probe query = .ok found
  walk : map.allMatches probe query = .ok found
  hit : ∃ hit, map.find? probe query = .ok hit ∧ (hit.isSome ↔ found ≠ []) ∧
    ∀ entry ∈ hit, entry ∈ found

/-- What the queries for the matches of a probe give, whatever the comparator answers.  The entries
are the live ones in native order, and the records those of all entries. -/
structure Map.Confines (map : Map) (records : List (Slot × Record)) (entries : List Entry)
    (probe : Pair) (query : Comparator) : Prop where
  hit : ∃ hit, map.find? probe query = .ok hit ∧
    ∀ entry ∈ hit, entry ∈ entries ∧ query probe entry.pair = .eq
  range : ∃ found, map.range probe query = .ok found ∧ found.Sublist entries ∧ found.Nodup ∧
    ∀ entry ∈ found, query probe entry.pair = .eq
  first : ∃ hit, map.nextMatch? none probe query = .ok hit ∧
    ∀ entry ∈ hit, entry ∈ entries ∧ query probe entry.pair = .eq
  behind : ∀ last record, (last, record) ∈ records →
    map.nextMatch? (some last) probe query =
      .ok ((entries.find? fun entry => map.order record.pair entry.pair = .lt).filter
        fun entry => query probe entry.pair = .eq)
  outside : ∀ last : Slot, map.slab.endSlot.index ≤ last.index →
    map.nextMatch? (some last) probe query = .ok none
  walk : ∃ found, map.allMatches probe query = .ok found ∧
    (∀ calls, map.size < calls → map.matchesFrom probe query calls none = .ok found) ∧
    found.length ≤ map.size ∧
    (found.Pairwise fun a b => map.order a.pair b.pair = .lt) ∧
    ∀ entry ∈ found, entry ∈ entries ∧ query probe entry.pair = .eq

namespace State

variable {state : State} {map : Map} {probe : Pair} {query : Comparator}

/-- The matches among the slots of a tree are those among its entries. -/
theorem map_entryAt_matching (state : State) (probe : Pair) (query : Comparator) :
    (matching (state.seek query probe) state.shape.slots).map state.stock.entryAt =
      state.entries.filter fun entry => query probe entry.pair = .eq := by
  rw [entries, List.filter_map]
  rfl

/-- The first slot after a pair holds the first entry after it. -/
theorem head?_above (state : State) (order : Comparator) (pair : Pair) :
    (above (state.seek order pair) state.shape.slots).head?.map state.stock.entryAt =
      state.entries.find? fun entry => order pair entry.pair = .lt := by
  rw [above, List.head?_filter, entries, List.find?_map]
  rfl

theorem sweeps_entries :
    Sweeps (query probe) (state.entries.map Entry.pair) ↔
      Sweeps (state.seek query probe) state.shape.slots := by
  rw [entries, List.map_map]
  exact sweeps_map

theorem agreesOn_on [Std.TransCmp map.order] (sorted : state.Sorted map.order)
    (swept : Sweeps (state.seek query probe) state.shape.slots) :
    (state.on map).AgreesOn probe query
      (state.entries.filter fun entry => query probe entry.pair = .eq) where
  range := by
    have selected := state.range_on map probe query
    rwa [Shape.select_eq swept, map_entryAt_matching] at selected
  walk := by
    have few := Nat.lt_add_one_of_le (state.length_slots_le map)
    have met := walk_eq_matching sorted swept few
    rwa [map_entryAt_matching] at met
  hit := by
    refine ⟨_, state.find?_on map probe query, ?_, ?_⟩
    · rw [← map_entryAt_matching]
      cases found : state.shape.find (state.seek query probe) with
      | none => simp [Shape.find_eq_none swept found]
      | some slot =>
          have mem := Shape.find_mem found
          simp [List.ne_nil_of_mem mem]
    · intro entry mem
      rw [← map_entryAt_matching]
      obtain ⟨slot, found, rfl⟩ := Option.map_eq_some_iff.mp mem
      exact List.mem_map_of_mem (Shape.find_mem found)

/-- Matches that a search meets are live entries. -/
theorem mem_entries_of_matching {slot : Slot}
    (mem : slot ∈ matching (state.seek query probe) state.shape.slots) :
    state.stock.entryAt slot ∈ state.entries ∧
      query probe (state.stock.entryAt slot).pair = .eq := by
  obtain ⟨live, equal⟩ := mem_matching.mp mem
  exact ⟨List.mem_map_of_mem live, equal⟩

theorem entries_pairwise {order : Comparator} (sorted : state.Sorted order) :
    state.entries.Pairwise fun a b => order a.pair b.pair = .lt :=
  List.pairwise_map.mpr (slots_pairwise sorted)

theorem entries_nodup (state : State) : state.entries.Nodup := by
  refine List.Nodup.map (fun a b same => ?_) state.distinct
  exact congrArg Entry.id same

theorem confines_on [Std.TransCmp map.order] (sorted : state.Sorted map.order) (probe : Pair)
    (query : Comparator) :
    (state.on map).Confines state.records state.entries probe query where
  hit := by
    refine ⟨_, state.find?_on map probe query, fun entry mem => ?_⟩
    obtain ⟨slot, found, rfl⟩ := Option.map_eq_some_iff.mp mem
    exact mem_entries_of_matching (Shape.find_mem found)
  range := by
    have met := Shape.select_sublist (state.seek query probe) state.shape
    have part : ((state.shape.select (state.seek query probe)).map state.stock.entryAt).Sublist
        state.entries := (met.trans List.filter_sublist).map _
    refine ⟨_, state.range_on map probe query, part, state.entries_nodup.sublist part, ?_⟩
    intro entry mem
    obtain ⟨slot, selected, rfl⟩ := List.mem_map.mp mem
    exact (mem_entries_of_matching (met.subset selected)).2
  first := by
    obtain ⟨-, matched⟩ := Shape.locate_first (state.seek query probe) state.shape none none
    refine ⟨_, state.nextMatch?_first map probe query, fun entry mem => ?_⟩
    obtain ⟨slot, first, rfl⟩ := Option.map_eq_some_iff.mp mem
    exact mem_entries_of_matching (matched slot first)
  behind := by
    intro last record mem
    obtain ⟨⟨slot, cell⟩, placed, same⟩ := List.mem_map.mp mem
    obtain ⟨rfl, rfl⟩ := Prod.mk.inj same
    have called := nextMatch?_behind sorted (Stock.mem_slots placed) probe query
    rw [head?_above, Stock.pairAt_eq placed] at called
    exact called
  outside last beyond := Map.nextMatch?_outside beyond probe query
  walk := by
    obtain ⟨found, ends, part, matched⟩ := exists_walk sorted probe query
    have few := Nat.lt_add_one_of_le (state.length_slots_le map)
    have short := part.length_le
    rw [entries, List.length_map] at short
    exact ⟨found, ends _ few, ends, short, (entries_pairwise sorted).sublist part,
      fun entry mem => ⟨part.subset mem, matched entry mem⟩⟩

end State

/-- Where a query sweeps the entries of a reachable map, its range, its walk and its hit agree with
a scan of all entries; and every lawful comparator that coarsens the native one sweeps them. -/
theorem queries_agree {map : Map} (reachable : Reachable map) :
    ∃ entries, map.sorted = .ok entries ∧
      (∀ probe query, Sweeps (query probe) (entries.map Entry.pair) →
        map.AgreesOn probe query (entries.filter fun entry => query probe entry.pair = .eq)) ∧
      ∀ query : Comparator, [Std.TransCmp query] → query.Coarsens map.order →
        ∀ probe, Sweeps (query probe) (entries.map Entry.pair) := by
  obtain ⟨state, described⟩ := reachable.exists_state
  have lawful := described.lawful
  have sorted := described.sorted
  have read := state.sorted_on map
  rw [described.same] at read
  refine ⟨state.entries, read, fun probe query swept => ?_, fun query _ coarsens probe => ?_⟩
  · have agree := State.agreesOn_on sorted (State.sweeps_entries.mp swept)
    rwa [described.same] at agree
  · have swept := State.sweeps_of_coarser sorted (fun _ _ => coarsens.gt) probe
    exact State.sweeps_entries.mpr swept

/-- A map with two keys that differ in case only, and one that follows them. -/
def letters : Map := (Map.empty .folded .default).after
  [.add ⟨[98], []⟩ .empty, .add ⟨[97], []⟩ .empty, .add ⟨[65], []⟩ .empty]

theorem queries_agree_letters : Reachable letters ∧
    letters.AgreesOn ⟨[97], []⟩ .caseless [⟨⟨8⟩, ⟨[65], []⟩⟩, ⟨⟨4⟩, ⟨[97], []⟩⟩] := by
  have started : Reachable (.empty .folded .default) := .empty _ _
  have reachable : Reachable letters := started.after _
  have computed : letters.sorted =
      .ok [⟨⟨8⟩, ⟨[65], []⟩⟩, ⟨⟨4⟩, ⟨[97], []⟩⟩, ⟨⟨0⟩, ⟨[98], []⟩⟩] := by decide +kernel
  have coarsens : Comparator.caseless.Coarsens letters.order := by
    rw [letters, started.order_after]
    exact Comparator.coarsens_compareLex .caseless .byKey
  obtain ⟨entries, read, agree, sweep⟩ := queries_agree reachable
  obtain rfl := Except.ok.inj (read.symm.trans computed)
  have agreed := agree _ _ (sweep .caseless coarsens ⟨[97], []⟩)
  constructor
  · exact reachable
  · exact agreed

/-- Under any function in the place of a comparator the queries of a reachable map give live matches
only, a cursor moves on in native order, and a walk ends after at most all entries. -/
theorem queries_confined {map : Map} (reachable : Reachable map) :
    ∃ records shape entries, map.Intact records shape entries ∧
      ∀ probe query, map.Confines records entries probe query := by
  obtain ⟨state, described⟩ := reachable.exists_state
  have lawful := described.lawful
  refine ⟨state.records, state.shape, state.entries, ?_, fun probe query => ?_⟩
  · have intact := state.intact_on map described.sorted
    rwa [described.same] at intact
  · have confines := State.confines_on described.sorted probe query
    rwa [described.same] at confines

/-- A map in whose order a sign stands between the two cases of a letter. -/
def signs : Map := (Map.empty .byKey .default).after
  [.add ⟨[91], []⟩ .empty, .add ⟨[66], []⟩ .empty, .add ⟨[98], []⟩ .empty]

theorem queries_confined_signs : Reachable signs ∧
    signs.allMatches ⟨[98], []⟩ .caseless = .ok [⟨⟨8⟩, ⟨[98], []⟩⟩] ∧
    ∃ records shape entries, signs.Intact records shape entries ∧
      signs.Confines records entries ⟨[98], []⟩ .caseless := by
  have reachable : Reachable signs := (Reachable.empty .byKey .default).after _
  obtain ⟨records, shape, entries, intact, confines⟩ := queries_confined reachable
  exact ⟨reachable, by decide +kernel, records, shape, entries, intact, confines _ _⟩

end PackedMap
