import PackedMap.Proofs.Comparator
import PackedMap.Proofs.Drift

/-!
# A replacement as a deletion and an addition

A replacement appends the new entry, meets the one in its way, takes that one out and starts anew in
the tree that is left.  A deletion under the native comparator meets the same entry, and an addition
after it appends the new one behind a tombstone instead of a live entry.  A tombstone takes as much
room as the entry did, so nothing tells the two ways apart.
-/

namespace PackedMap

attribute [ext] Stock State

namespace Stock

variable {stock : Stock} {slot : Slot} {pair : Pair}

theorem last_entomb : (stock.entomb slot).last = stock.last := by
  rw [last, total_entomb, last]

/-- A tombstone leaves the need for room as it was. -/
theorem needed_entomb (entries bytes : Nat) :
    (stock.entomb slot).needed entries bytes = stock.needed entries bytes := by
  rw [needed, total_entomb, needed]

/-- An entry is appended behind a tombstone as behind a live entry. -/
theorem extend_entomb (fits : stock.needed 1 pair.size ≤ stock.limit)
    (fits' : (stock.entomb slot).needed 1 pair.size ≤ (stock.entomb slot).limit)
    (mem : slot ∈ stock.slots) :
    (stock.entomb slot).extend pair fits' = (stock.extend pair fits).entomb slot := by
  -- the new cell comes to stand at none of the old slots
  have apart : stock.last ≠ slot := fun same => stock.last_notMem (same ▸ mem)
  apply Stock.ext
  · have appended : ((stock.extend pair fits).entomb slot).cells =
        (stock.extend pair fits).placed.map
          fun entry => changeAt slot Cell.entomb entry.1 entry.2 := rfl
    rw [appended, placed_extend, List.map_append, List.map_singleton, changeAt, if_neg apart]
    rfl
  · have needed_eq := @needed_entomb stock slot 1 pair.size
    exact congrArg stock.grownCapacity needed_eq
  · rfl

end Stock

namespace State

variable {state : State} {order : Comparator} {pair : Pair} {holder : Slot}
  {left after : Shape × Bool}

/-- A replacement leaves what a deletion and then an addition leave. -/
theorem exists_link_eq_replace (fits : state.stock.needed 1 pair.size ≤ state.stock.limit)
    (removed : state.shape.remove (state.stock.place order holder) holder = some left)
    (inserted : left.1.insert (state.seek order pair) state.stock.last = .ok after) :
    ∃ (fits' : (state.unlink removed).stock.needed 1 pair.size ≤
          (state.unlink removed).stock.limit)
      (inserted' : (state.unlink removed).shape.insert ((state.unlink removed).seek order pair)
          (state.unlink removed).stock.last = .ok after),
      (state.unlink removed).link pair fits' inserted' =
        state.replace pair fits removed inserted := by
  have stock_eq : (state.unlink removed).stock = state.stock.entomb holder := rfl
  have fits' : (state.unlink removed).stock.needed 1 pair.size ≤
      (state.unlink removed).stock.limit := by
    rw [stock_eq, Stock.needed_entomb]
    exact fits
  have seek_eq : (state.unlink removed).seek order pair = state.seek order pair := by
    funext slot
    rw [seek, stock_eq, Stock.pairAt_entomb, seek]
  have inserted' : (state.unlink removed).shape.insert ((state.unlink removed).seek order pair)
      (state.unlink removed).stock.last = .ok after := by
    rw [seek_eq, stock_eq, Stock.last_entomb]
    exact inserted
  have holder_mem := Shape.mem_of_remove state.balanced removed
  refine ⟨fits', inserted', ?_⟩
  apply State.ext
  · exact Stock.extend_entomb fits fits' (mem_stock holder_mem)
  · rfl

end State

/-- Where an addition replaces an entry, a deletion of what compares equal finds an entry, a plain
addition after it goes through, and both together leave the same map and the same reports. -/
theorem replacement_eq_erase_add {map : Map} {pair : Pair}
    {replaced : Outcome (Except CapacityError Addition)} (reachable : Reachable map)
    (run : map.add pair .replace = .ok replaced) (took : replaced.result = .ok .replaced) :
    ∃ erased added, map.erase pair map.order .empty = .ok erased ∧ erased.result = true ∧
      erased.map.add pair .empty = .ok added ∧ added.result = .ok .added ∧
      added.map = replaced.map ∧ erased.events ++ added.events = replaced.events := by
  obtain ⟨state, described⟩ := reachable.exists_state
  obtain ⟨result, events, after, step, run'⟩ := described.add pair .replace
  obtain rfl := Except.ok.inj (run.symm.trans run')
  obtain rfl : result = .ok .replaced := took
  cases step with
  | @replaced _ _ holder left linked fits removed inserted occupied goes =>
      -- what stopped the insertion is what a search stops at
      have found := Shape.find_of_insert_error occupied
      have erased := State.erase_found .empty found removed
      obtain ⟨fits', inserted', link_eq⟩ := State.exists_link_eq_replace fits removed inserted
      have linked : ((state.unlink removed).on map).addEntry pair .empty = _ :=
        State.addEntry_linked .empty fits' inserted'
      rw [described.same, State.settle_still _ rfl] at erased
      rw [link_eq] at linked
      refine ⟨_, ⟨.ok .added, (state.replace pair fits removed inserted).on map, []⟩, erased, rfl,
        Checked.bind_eq linked _, rfl, ?_, List.append_nil _⟩
      rw [State.settle_still _ rfl]

/-- A map that reports what it gives up, with a tree of three entries. -/
def trio : Map :=
  (Map.empty .byKey ⟨0, 200, none, true⟩).after
    [.add ⟨[2], [7]⟩ .empty, .add ⟨[1], []⟩ .empty, .add ⟨[3], []⟩ .empty]

theorem replacement_eq_erase_add_trio :
    ∃ replaced erased added, Reachable trio ∧ trio.add ⟨[2], [8, 9]⟩ .replace = .ok replaced ∧
      replaced.result = .ok .replaced ∧
      trio.erase ⟨[2], [8, 9]⟩ trio.order .empty = .ok erased ∧
      erased.map.add ⟨[2], [8, 9]⟩ .empty = .ok added ∧ added.map = replaced.map := by
  have reachable : Reachable trio := (Reachable.empty .byKey _).after _
  obtain ⟨state, described⟩ := reachable.exists_state
  obtain ⟨result, events, after, -, run⟩ := described.add ⟨[2], [8, 9]⟩ .replace
  have took : (trio.add ⟨[2], [8, 9]⟩ .replace).map Outcome.result = .ok (.ok .replaced) := by
    decide +kernel
  rw [run] at took
  have took := Except.ok.inj took
  obtain ⟨erased, added, first, -, second, -, same, -⟩ :=
    replacement_eq_erase_add reachable run took
  exact ⟨_, erased, added, reachable, run, took, first, second, same⟩

end PackedMap
