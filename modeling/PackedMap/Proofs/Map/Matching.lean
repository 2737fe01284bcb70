import Mathlib.Data.List.TakeWhile
import PackedMap.Proofs.Map.State

/-!
# Matches in a state

What the queries for the matches of a probe give in a sorted state.  The comparator of the query may
be any function: it decides which entries count as matches, but the walk from one match to the next
moves in native order, which it cannot influence.
-/

namespace PackedMap

/-- A cursor at or behind the end of the slab has no next match. -/
theorem Map.nextMatch?_outside {map : Map} {last : Slot}
    (outside : map.slab.endSlot.index ≤ last.index) (probe : Pair) (query : Comparator) :
    map.nextMatch? (some last) probe query = .ok none := by
  simp [Map.nextMatch?, Slab.contains_outside outside]

namespace State

variable {state : State} {map : Map} {probe : Pair} {query : Comparator}

/-- A range is what the search meets. -/
theorem range_on (state : State) (map : Map) (probe : Pair) (query : Comparator) :
    (state.on map).range probe query =
      .ok ((state.shape.select (state.seek query probe)).map state.stock.entryAt) := by
  have selected := Shape.range_slab probe query state.held
  rw [Map.range]
  refine (Checked.bind_eq selected _).trans ?_
  refine state.mapM_entry_on map fun slot mem => ?_
  have matched := (Shape.select_sublist _ _).subset mem
  exact mem_stock (mem_matching.mp matched).1

/-- A call without a cursor gives the first match that the search meets, if it meets any. -/
theorem nextMatch?_first (state : State) (map : Map) (probe : Pair) (query : Comparator) :
    (state.on map).nextMatch? none probe query =
      .ok ((state.shape.locate (state.seek query probe) none none).2.first.map
        state.stock.entryAt) := by
  have located := state.locate_on map probe query
  obtain ⟨met, matched⟩ := Shape.locate_first (state.seek query probe) state.shape none none
  rw [Map.nextMatch?]
  refine (Checked.bind_eq located _).trans ?_
  generalize state.shape.locate (state.seek query probe) none none = result at *
  obtain ⟨found, near⟩ := result
  cases found with
  | none =>
      have missed : near.first = none := by simpa using met.symm
      rw [missed]
      rfl
  | some slot =>
      exact state.mapM_entry?_on map fun first mem =>
        mem_stock (mem_matching.mp (matched first mem)).1

/-- A call behind a cursor looks at one entry only, the first after it in native order. -/
theorem nextMatch?_behind [Std.TransCmp map.order] (sorted : state.Sorted map.order) {last : Slot}
    (mem : last ∈ state.stock.slots) (probe : Pair) (query : Comparator) :
    (state.on map).nextMatch? (some last) probe query =
      .ok (((above (state.seek map.order (state.stock.pairAt last)) state.shape.slots).head?.map
        state.stock.entryAt).filter fun entry => query probe entry.pair = .eq) := by
  have swept := sweeps sorted (state.stock.pairAt last)
  have located := state.locate_on map (state.stock.pairAt last) map.order
  rw [Shape.locate_eq swept] at located
  have inside := state.contains_on map mem
  have read : (state.on map).slab.pair last = .ok (state.stock.pairAt last) :=
    Stock.pair_eq_pairAt mem state.shape.nodes
  rw [Map.nextMatch?]
  simp only [inside, if_true, read, Checked.ok_bind]
  refine (Checked.bind_eq located _).trans ?_
  simp only [Option.or_none]
  cases behind :
      (above (state.seek map.order (state.stock.pairAt last)) state.shape.slots).head? with
  | none => rfl
  | some next =>
      have next_mem := mem_above.mp (List.mem_of_mem_head? behind)
      have entry_eq := @Map.entry_eq (state.on map) state.stock state.shape.nodes next rfl
        (mem_stock next_mem.1)
      refine (Checked.bind_eq entry_eq _).trans ?_
      simp [Option.filter]

/-- In a sorted tree the entries that come after one of them are those behind it. -/
theorem above_eq_behind {order : Comparator} [Std.TransCmp order] (sorted : state.Sorted order)
    {front back : List Slot} {slot : Slot} (split : state.shape.slots = front ++ slot :: back) :
    above (state.seek order (state.stock.pairAt slot)) state.shape.slots = back := by
  have swept := sweeps sorted (state.stock.pairAt slot)
  have pairwise := slots_pairwise sorted
  rw [split] at swept pairwise ⊢
  have here : state.seek order (state.stock.pairAt slot) slot = .eq := Std.ReflCmp.compare_self
  rw [(swept.split_eq here).2.2]
  have less := (List.pairwise_cons.mp (List.pairwise_append.mp pairwise).2.1).1
  exact List.filter_eq_self.mpr fun other mem => decide_eq_true (less other mem)

/-- Behind an entry a walk meets the entries after it, as long as they match. -/
theorem matchesFrom_behind [Std.TransCmp map.order] (sorted : state.Sorted map.order)
    (probe : Pair) (query : Comparator) {front back : List Slot} {slot : Slot}
    (split : state.shape.slots = front ++ slot :: back) {fuel : Nat} (enough : back.length < fuel) :
    (state.on map).matchesFrom probe query fuel (some slot) =
      .ok ((back.map state.stock.entryAt).takeWhile fun entry => query probe entry.pair = .eq) := by
  induction back generalizing front slot fuel with
  | nil =>
      obtain ⟨fuel, rfl⟩ := Nat.exists_eq_add_of_lt enough
      have mem : slot ∈ state.stock.slots := mem_stock (by simp [split])
      have called := nextMatch?_behind sorted mem probe query
      rw [above_eq_behind sorted split] at called
      exact Checked.bind_eq called _
  | cons next rest ih =>
      obtain ⟨fuel, rfl⟩ : ∃ less, fuel = less + 1 := ⟨fuel - 1, by omega⟩
      have mem : slot ∈ state.stock.slots := mem_stock (by simp [split])
      have called := nextMatch?_behind sorted mem probe query
      rw [above_eq_behind sorted split] at called
      have later := @ih (front ++ [slot]) next (by simp [split]) fuel (by simpa using enough)
      rw [Map.matchesFrom, List.map_cons]
      refine (Checked.bind_eq called _).trans ?_
      by_cases matched : query probe (state.stock.entryAt next).pair = .eq
      · simp only [List.head?_cons, Option.map_some, Option.filter, matched, decide_true, if_true,
          List.takeWhile_cons]
        exact Checked.bind_eq later _
      · simp [Option.filter, matched]

/-- A walk over all matches stops at the first entry in native order that is none. -/
theorem exists_walk [Std.TransCmp map.order] (sorted : state.Sorted map.order) (probe : Pair)
    (query : Comparator) :
    ∃ found : List Entry,
      (∀ fuel, state.shape.slots.length < fuel →
        (state.on map).matchesFrom probe query fuel none = .ok found) ∧
      found.Sublist state.entries ∧ ∀ entry ∈ found, query probe entry.pair = .eq := by
  have called := state.nextMatch?_first map probe query
  obtain ⟨-, matched⟩ := Shape.locate_first (state.seek query probe) state.shape none none
  cases first : (state.shape.locate (state.seek query probe) none none).2.first with
  | none =>
      refine ⟨[], fun fuel enough => ?_, List.nil_sublist _, List.forall_mem_nil _⟩
      obtain ⟨fuel, rfl⟩ := Nat.exists_eq_add_of_lt enough
      rw [first] at called
      exact Checked.bind_eq called _
  | some slot =>
      obtain ⟨mem, equal⟩ := mem_matching.mp (matched slot first)
      obtain ⟨front, back, split⟩ := List.append_of_mem mem
      have length_eq : state.shape.slots.length = front.length + (back.length + 1) := by
        rw [split, List.length_append, List.length_cons]
      refine ⟨state.stock.entryAt slot :: (back.map state.stock.entryAt).takeWhile
        fun entry => query probe entry.pair = .eq, fun fuel enough => ?_, ?_, ?_⟩
      · obtain ⟨fuel, rfl⟩ : ∃ less, fuel = less + 1 := ⟨fuel - 1, by omega⟩
        have later := matchesFrom_behind sorted probe query split (by omega : back.length < fuel)
        rw [first] at called
        exact (Checked.bind_eq called _).trans (Checked.bind_eq later _)
      · rw [entries, split, List.map_append, List.map_cons]
        exact ((List.takeWhile_sublist _).cons_cons _).trans (List.sublist_append_right ..)
      · refine List.forall_mem_cons.mpr ⟨equal, fun entry met => ?_⟩
        have passes := List.mem_takeWhile_imp met
        exact of_decide_eq_true passes

/-- Where the query sweeps the entries, a walk meets exactly the matches. -/
theorem walk_eq_matching [Std.TransCmp map.order] (sorted : state.Sorted map.order)
    (swept : Sweeps (state.seek query probe) state.shape.slots) {fuel : Nat}
    (enough : state.shape.slots.length < fuel) :
    (state.on map).matchesFrom probe query fuel none =
      .ok ((matching (state.seek query probe) state.shape.slots).map state.stock.entryAt) := by
  obtain ⟨fuel, rfl⟩ : ∃ less, fuel = less + 1 := ⟨fuel - 1, by omega⟩
  have called := state.nextMatch?_first map probe query
  have parts := swept.eq_append
  rw [Shape.locate_eq swept] at called
  have less : ∀ slot ∈ above (state.seek query probe) state.shape.slots,
      query probe (state.stock.entryAt slot).pair = .lt := fun slot mem => (mem_above.mp mem).2
  have equal : ∀ slot ∈ matching (state.seek query probe) state.shape.slots,
      query probe (state.stock.entryAt slot).pair = .eq := fun slot mem => (mem_matching.mp mem).2
  cases split : matching (state.seek query probe) state.shape.slots with
  | nil =>
      rw [split] at called
      exact Checked.bind_eq called _
  | cons first rest =>
      rw [split] at called parts equal
      rw [List.append_assoc, List.cons_append] at parts
      have few : (rest ++ above (state.seek query probe) state.shape.slots).length < fuel := by
        have length_eq := congrArg List.length parts
        rw [List.length_append, List.length_cons] at length_eq
        omega
      have later := matchesFrom_behind sorted probe query parts few
      have stops : ((above (state.seek query probe) state.shape.slots).map
          state.stock.entryAt).takeWhile (fun entry => query probe entry.pair = .eq) = [] := by
        cases behind : above (state.seek query probe) state.shape.slots with
        | nil => rfl
        | cons next later =>
            have not_equal := less next (behind ▸ List.mem_cons_self)
            simp [not_equal]
      have goes_on : ∀ entry ∈ rest.map state.stock.entryAt,
          decide (query probe entry.pair = .eq) = true := by
        intro entry mem
        obtain ⟨slot, slot_mem, rfl⟩ := List.mem_map.mp mem
        exact decide_eq_true (equal slot (List.mem_cons_of_mem _ slot_mem))
      rw [List.map_append, List.takeWhile_append_of_pos goes_on, stops, List.append_nil] at later
      exact (Checked.bind_eq called _).trans (Checked.bind_eq later _)

end State
end PackedMap
