import PackedMap.Proofs.Map.Room
import PackedMap.Proofs.Tree.Insert
import PackedMap.Proofs.Tree.Remove

/-!
# Additions and deletions of a state

Adding, replacing and deleting an entry as operations on states.  None of them fails an internal
check; the answer, the state afterwards and the reports of the free hook are told by the state
before.
-/

namespace PackedMap

namespace Shape

/-- A changed tree hides the nodes of the tree before. -/
theorem overlay_nodes {before after : Shape} (distinct : after.slots.Nodup)
    (covered : ∀ slot ∈ before.slots, slot ∈ after.slots) :
    after.overlay before.nodes = after.nodes := overlay_overlay distinct covered

/-- A tree without one of its entries leaves that entry's node stale until it is detached. -/
theorem detach_nodes {before after : Shape} {slot : Slot} (distinct : after.slots.Nodup)
    (absent : slot ∉ after.slots)
    (covered : ∀ other ∈ before.slots, other = slot ∨ other ∈ after.slots) :
    Stock.assign (after.overlay before.nodes) slot .detached = after.nodes := by
  refine Stored.eq_overlay ?_ distinct fun other outside => ?_
  · exact (stored_overlay distinct _).congr fun other mem =>
      Stock.assign_other fun same => absent (same ▸ mem)
  · by_cases same : other = slot
    · rw [same, Stock.assign_same]
    · rw [Stock.assign_other same, overlay_of_notMem outside]
      exact nodes_of_notMem fun mem => (covered other mem).elim same outside

end Shape

namespace State

variable {order : Comparator} {pair : Pair} {slot holder : Slot} {after left : Shape × Bool}

/-! ## Additions -/

/-- The state with a new entry, where a search with the given answers found room for it. -/
def link (state : State) (pair : Pair) (fits : state.stock.needed 1 pair.size ≤ state.stock.limit)
    {place : Slot → Ordering}
    (inserted : state.shape.insert place state.stock.last = .ok after) : State where
  stock := state.stock.extend pair fits
  shape := after.1
  balanced := (Shape.insert_raised state.balanced inserted).balanced
  live := by
    rw [Stock.liveSlots_extend]
    exact (Shape.perm_insert state.balanced inserted).trans
      ((state.live.cons _).trans (List.perm_append_singleton ..).symm)

/-- The tree of a state after its slab was extended by an entry not linked in yet. -/
theorem held_extend (state : State) {pair : Pair}
    (fits : state.stock.needed 1 pair.size ≤ state.stock.limit) :
    Held (state.stock.extend pair fits) state.shape.nodes state.shape where
  stored := state.held.stored
  distinct := state.distinct
  inside slot mem := by
    rw [Stock.slots_extend]
    exact List.mem_append_left _ (mem_stock mem)

/-- Inserting an entry that stands in the slab outside the tree. -/
theorem insert_new {stock : Stock} {shape : Shape} {new : Slot} {place : Slot → Ordering}
    (held : Held stock shape.nodes shape) (balanced : shape.Balanced) (new_mem : new ∈ stock.slots)
    (fresh : new ∉ shape.slots) (agree : ∀ other ∈ shape.slots,
      stock.place order new other = place other) :
    Tree.insert ⟨shape.root⟩ (stock.slab shape.nodes) new order =
      match shape.insert place new with
      | .error holder => .ok (some holder, ⟨shape.root⟩, stock.slab shape.nodes)
      | .ok (after, _) => .ok (none, ⟨after.root⟩, stock.slab after.nodes) := by
  have run := Shape.insert_slab order held balanced new_mem fresh (Shape.overlay_of_notMem fresh)
  rw [run, Shape.insert_congr agree]
  cases inserted : shape.insert place new with
  | error holder => rfl
  | ok after =>
      have perm := Shape.perm_insert balanced inserted
      have distinct : after.1.slots.Nodup := by
        rw [perm.nodup_iff, List.nodup_cons]
        exact ⟨fresh, held.distinct⟩
      simp only [Shape.overlay_nodes distinct fun other mem =>
        perm.mem_iff.mpr (List.mem_cons_of_mem _ mem)]

theorem ne_last {state : State} (mem : slot ∈ state.shape.slots) : slot ≠ state.stock.last :=
  fun same => state.last_notMem (same ▸ mem)

theorem insert_extend (state : State) (order : Comparator) {pair : Pair}
    (fits : state.stock.needed 1 pair.size ≤ state.stock.limit) :
    Tree.insert ⟨state.shape.root⟩ ((state.stock.extend pair fits).slab state.shape.nodes)
        state.stock.last order =
      match state.shape.insert (state.seek order pair) state.stock.last with
      | .error holder =>
          .ok (some holder, ⟨state.shape.root⟩,
            (state.stock.extend pair fits).slab state.shape.nodes)
      | .ok (after, _) =>
          .ok (none, ⟨after.root⟩, (state.stock.extend pair fits).slab after.nodes) := by
  refine insert_new (state.held_extend fits) state.balanced ?_ state.last_notMem fun other mem => ?_
  · rw [Stock.slots_extend]
    exact List.mem_append_right _ List.mem_cons_self
  · rw [Stock.place, Stock.pairAt_extend_last, Stock.pairAt_extend_other (ne_last mem), seek]

section Add

variable {state : State} {map : Map} {flags : Flags}

/-- An addition is refused exactly when the slab could not hold the entry. -/
theorem addEntry_refused (map : Map) (flags : Flags)
    (full : ¬ state.stock.needed 1 pair.size ≤ state.stock.limit) :
    (state.on map).addEntry pair flags =
      .ok ⟨.error (state.refusal (state.stock.needed 1 pair.size)), state.on map, []⟩ := by
  have room := state.stock.reservePair_slab state.shape.nodes pair
  rw [if_neg full] at room
  rw [Map.addEntry, show (state.on map).slab = state.stock.slab state.shape.nodes from rfl, room]
  rfl

/-- What an addition that is not refused does first. -/
theorem addEntry_fits (map : Map)
    (fits : state.stock.needed 1 pair.size ≤ state.stock.limit) :
    (state.on map).slab.reservePair pair =
        .ok ((state.stock.grow (state.stock.needed 1 pair.size)).slab state.shape.nodes) ∧
      ((state.stock.grow (state.stock.needed 1 pair.size)).slab state.shape.nodes).push pair =
        .ok (state.stock.last, (state.stock.extend pair fits).slab state.shape.nodes) := by
  have room := state.stock.reservePair_slab state.shape.nodes pair
  rw [if_pos fits] at room
  exact ⟨room, Stock.push_grow_slab (Shape.overlay_of_notMem state.last_notMem) fits⟩

theorem addEntry_linked (flags : Flags)
    (fits : state.stock.needed 1 pair.size ≤ state.stock.limit)
    (inserted : state.shape.insert (state.seek map.order pair) state.stock.last = .ok after) :
    (state.on map).addEntry pair flags =
      .ok ⟨.ok (.added, state.stock.last), (state.link pair fits inserted).on map, []⟩ := by
  obtain ⟨room, pushed⟩ := addEntry_fits map fits
  have run := state.insert_extend map.order fits
  rw [inserted] at run
  have tree_eq : (state.on map).tree = ⟨state.shape.root⟩ := rfl
  have size_eq : (state.on map).size + 1 = after.1.slots.length := by
    rw [(Shape.perm_insert state.balanced inserted).length_eq]
    rfl
  have tombstones_eq : (state.on map).tombstones = (state.stock.extend pair fits).tombstones :=
    Stock.tombstones_extend.symm
  simp only [Map.addEntry, room, pushed, Checked.ok_bind, order_on, tree_eq, run,
    Checked.pure_eq_ok, size_eq, tombstones_eq]
  rfl

theorem addEntry_occupied (fits : state.stock.needed 1 pair.size ≤ state.stock.limit)
    (occupied : state.shape.insert (state.seek map.order pair) state.stock.last = .error holder)
    (stays : flags.contains .replace = false) :
    (state.on map).addEntry pair flags =
      .ok ⟨.ok (.alreadyPresent, holder),
        (state.grow (state.stock.needed 1 pair.size)).on map, []⟩ := by
  obtain ⟨room, pushed⟩ := addEntry_fits map fits
  have run := state.insert_extend map.order fits
  rw [occupied] at run
  have tree_eq : (state.on map).tree = ⟨state.shape.root⟩ := rfl
  have truncated := Stock.truncate_extend state.shape.nodes fits
  simp only [Map.addEntry, room, pushed, Checked.ok_bind, order_on, tree_eq, run, stays,
    Checked.pure_eq_ok, Bool.false_eq_true, if_false, truncated]
  rfl

end Add

/-! ## Unlinking -/

theorem retire_eq {map : Map} {stock : Stock} {nodes : Slot → Node}
    (slab_eq : map.slab = stock.slab nodes) (live : slot ∈ stock.liveSlots)
    (detached : nodes slot = .detached) (some_size : map.size ≠ 0) :
    map.retire slot = .ok ({ map with
        slab := (stock.entomb slot).slab nodes
        size := map.size - 1
        tombstones := map.tombstones + 1 }, map.freed [stock.entryAt slot]) := by
  obtain ⟨cell, placed, alive⟩ := Stock.mem_liveSlots.mp live
  have freeing_eq : map.freeing [slot] = .ok (map.freed [stock.entryAt slot]) :=
    Map.freeing_eq slab_eq (List.forall_mem_singleton.mpr (Stock.mem_slots_of_live live))
  have entombed := Stock.layTombstone_slab placed alive nodes
  rw [← detached, Stock.assign_self] at entombed
  simp only [Map.retire, freeing_eq, slab_eq, entombed, Checked.ok_bind, some_size, if_false,
    Checked.pure_eq_ok]
  rfl

/-- Unlinking an entry leaves the smaller tree and a tombstone. -/
theorem unlink_holding {map : Map} {stock : Stock} {shape : Shape}
    (held : Held stock shape.nodes shape) (balanced : shape.Balanced)
    (live : slot ∈ stock.liveSlots)
    (removed : shape.remove (stock.place map.order slot) slot = some after) :
    (map.holding stock shape).unlink slot =
      .ok (map.holding (stock.entomb slot) after.1, map.freed [stock.entryAt slot]) := by
  obtain ⟨⟨front, back, slots_eq, after_eq⟩, -⟩ := Shape.remove_spec balanced removed
  have distinct := held.distinct
  rw [slots_eq, List.nodup_middle, List.nodup_cons, ← after_eq] at distinct
  obtain ⟨absent, after_nodup⟩ := distinct
  have covered : ∀ other ∈ shape.slots, other = slot ∨ other ∈ after.1.slots := by
    intro other here
    rw [slots_eq] at here
    rw [after_eq]
    simpa [or_left_comm] using here
  have run := Shape.remove_slab map.order held balanced (Stock.mem_slots_of_live live)
  rw [removed] at run
  simp only [Shape.detach_nodes after_nodup absent covered] at run
  have some_size : shape.slots.length ≠ 0 := by
    rw [slots_eq]
    simp
  have retired := @retire_eq slot { map.holding stock shape with
    tree := ⟨after.1.root⟩, slab := stock.slab after.1.nodes } stock after.1.nodes rfl live
    (Shape.nodes_of_notMem absent) some_size
  have size_eq : (map.holding stock shape).size - 1 = after.1.slots.length := by
    rw [show (map.holding stock shape).size = shape.slots.length from rfl, slots_eq, after_eq]
    simp
  have tombstones_eq : (map.holding stock shape).tombstones + 1 =
      (stock.entomb slot).tombstones := (Stock.entomb_spec live).2.symm
  rw [size_eq, tombstones_eq] at retired
  rw [Map.unlink, show (map.holding stock shape).tree = ⟨shape.root⟩ from rfl,
    show (map.holding stock shape).slab = stock.slab shape.nodes from rfl]
  exact (Checked.bind_eq run _).trans retired

/-- The state without one entry, which becomes a tombstone. -/
def unlink (state : State)
    (removed : state.shape.remove (state.stock.place order slot) slot = some after) : State where
  stock := state.stock.entomb slot
  shape := after.1
  balanced := (Shape.remove_spec state.balanced removed).2.balanced
  live := by
    obtain ⟨⟨front, back, slots_eq, after_eq⟩, -⟩ := Shape.remove_spec state.balanced removed
    have live : slot ∈ state.stock.liveSlots := mem_live.mp (by simp [slots_eq])
    have split : state.shape.slots.Perm (slot :: after.1.slots) := by
      rw [slots_eq, after_eq]
      exact List.perm_middle
    exact (split.symm.trans (state.live.trans (Stock.entomb_spec live).1)).cons_inv

theorem unlink_on (state : State) {map : Map}
    (removed : state.shape.remove (state.stock.place map.order slot) slot = some after) :
    (state.on map).unlink slot =
      .ok ((state.unlink removed).on map, map.freed [state.stock.entryAt slot]) := by
  have live := mem_live.mp (Shape.mem_of_remove state.balanced removed)
  exact unlink_holding state.held state.balanced live removed

/-- A lawful comparator leads to every entry of a tree in its order. -/
theorem exists_unlink (state : State) [Std.TransCmp order] (sorted : state.Sorted order)
    (mem : slot ∈ state.shape.slots) :
    ∃ after, state.shape.remove (state.stock.place order slot) slot = some after :=
  Shape.exists_remove_of_increasing sorted mem

/-! ## Replacement -/

section Replace

variable {state : State}

theorem left_slots
    (removed : state.shape.remove (state.stock.place order holder) holder = some left) :
    state.shape.slots.Perm (holder :: left.1.slots) ∧ left.1.slots.Sublist state.shape.slots := by
  obtain ⟨⟨front, back, slots_eq, left_eq⟩, -⟩ := Shape.remove_spec state.balanced removed
  refine ⟨?_, Shape.sublist_remove state.balanced removed⟩
  rw [slots_eq, left_eq]
  exact List.perm_middle

/-- The state with a new entry in the place of one that goes. -/
def replace (state : State) (pair : Pair)
    (fits : state.stock.needed 1 pair.size ≤ state.stock.limit)
    (removed : state.shape.remove (state.stock.place order holder) holder = some left)
    (inserted : left.1.insert (state.seek order pair) state.stock.last = .ok after) : State where
  stock := (state.stock.extend pair fits).entomb holder
  shape := after.1
  balanced :=
    (Shape.insert_raised (Shape.remove_spec state.balanced removed).2.balanced inserted).balanced
  live := by
    obtain ⟨split, -⟩ := left_slots removed
    have left_balanced := (Shape.remove_spec state.balanced removed).2.balanced
    have live : holder ∈ (state.stock.extend pair fits).liveSlots := by
      rw [Stock.liveSlots_extend]
      exact List.mem_append_left _ (mem_live.mp (split.mem_iff.mpr List.mem_cons_self))
    have whole : (holder :: after.1.slots).Perm
        (holder :: ((state.stock.extend pair fits).entomb holder).liveSlots) := by
      refine List.Perm.trans ?_ (Stock.entomb_spec live).1
      rw [Stock.liveSlots_extend]
      refine ((Shape.perm_insert left_balanced inserted).cons holder).trans ?_
      refine (List.Perm.swap ..).trans ?_
      exact ((split.symm.trans state.live).cons _).trans (List.perm_append_singleton ..).symm
    exact whole.cons_inv

/-- Beside a new entry at the end, the one in the way is unlinked as before. -/
theorem unlink_extend {map : Map} (fits : state.stock.needed 1 pair.size ≤ state.stock.limit)
    (removed : state.shape.remove (state.stock.place map.order holder) holder = some left) :
    (map.holding (state.stock.extend pair fits) state.shape).unlink holder =
      .ok (map.holding ((state.stock.extend pair fits).entomb holder) left.1,
        map.freed [state.stock.entryAt holder]) := by
  have holder_mem := Shape.mem_of_remove state.balanced removed
  have extended_removed : state.shape.remove
      ((state.stock.extend pair fits).place map.order holder) holder = some left := by
    rw [← removed]
    refine Shape.remove_congr fun other mem => ?_
    rw [Stock.place, Stock.place, Stock.pairAt_extend_other (ne_last mem),
      Stock.pairAt_extend_other (ne_last holder_mem)]
  have live : holder ∈ (state.stock.extend pair fits).liveSlots := by
    rw [Stock.liveSlots_extend]
    exact List.mem_append_left _ (mem_live.mp holder_mem)
  have entry_eq : (state.stock.extend pair fits).entryAt holder = state.stock.entryAt holder := by
    rw [Stock.entryAt, Stock.entryAt, Stock.pairAt_extend_other (ne_last holder_mem)]
  rw [← entry_eq]
  exact unlink_holding (state.held_extend fits) state.balanced live extended_removed

/-- The new entry goes into the tree that the one in the way has left. -/
theorem insert_entomb (fits : state.stock.needed 1 pair.size ≤ state.stock.limit)
    (removed : state.shape.remove (state.stock.place order holder) holder = some left)
    (inserted : left.1.insert (state.seek order pair) state.stock.last = .ok after) :
    Tree.insert ⟨left.1.root⟩
        (((state.stock.extend pair fits).entomb holder).slab left.1.nodes) state.stock.last
        order =
      .ok (none, ⟨after.1.root⟩,
        ((state.stock.extend pair fits).entomb holder).slab after.1.nodes) := by
  obtain ⟨-, fewer⟩ := left_slots removed
  have left_balanced := (Shape.remove_spec state.balanced removed).2.balanced
  have left_held : Held ((state.stock.extend pair fits).entomb holder) left.1.nodes left.1 := by
    refine Held.overlay (state.distinct.sublist fewer) (fun other mem => ?_) _
    rw [Stock.slots_entomb]
    exact (state.held_extend fits).inside other (fewer.subset mem)
  have new_mem : state.stock.last ∈ ((state.stock.extend pair fits).entomb holder).slots := by
    rw [Stock.slots_entomb, Stock.slots_extend]
    exact List.mem_append_right _ List.mem_cons_self
  have agree : ∀ other ∈ left.1.slots,
      ((state.stock.extend pair fits).entomb holder).place order state.stock.last other =
        state.seek order pair other := by
    intro other mem
    rw [Stock.place, Stock.pairAt_entomb, Stock.pairAt_extend_last,
      Stock.pairAt_extend_other (ne_last (fewer.subset mem)), seek]
  have run := insert_new left_held left_balanced new_mem
    (fun mem => state.last_notMem (fewer.subset mem)) agree
  rwa [inserted] at run

theorem addEntry_replaced {map : Map} {flags : Flags}
    (fits : state.stock.needed 1 pair.size ≤ state.stock.limit)
    (occupied : state.shape.insert (state.seek map.order pair) state.stock.last = .error holder)
    (goes : flags.contains .replace = true)
    (removed : state.shape.remove (state.stock.place map.order holder) holder = some left)
    (inserted : left.1.insert (state.seek map.order pair) state.stock.last = .ok after) :
    (state.on map).addEntry pair flags =
      .ok ⟨.ok (.replaced, state.stock.last),
        ((state.replace pair fits removed inserted).settle flags).on map,
        map.freed [state.stock.entryAt holder]⟩ := by
  obtain ⟨room, pushed⟩ := addEntry_fits map fits
  have first := state.insert_extend map.order fits
  rw [occupied] at first
  have unlinked := unlink_extend fits removed
  have second := insert_entomb fits removed inserted
  have left_balanced := (Shape.remove_spec state.balanced removed).2.balanced
  have size_eq : left.1.slots.length + 1 = after.1.slots.length :=
    (Shape.perm_insert left_balanced inserted).length_eq.symm
  have tree_eq : (state.on map).tree = ⟨state.shape.root⟩ := rfl
  have tombstones_eq : (state.on map).tombstones = (state.stock.extend pair fits).tombstones :=
    Stock.tombstones_extend.symm
  simp only [Map.addEntry, room, pushed, Checked.ok_bind, order_on, tree_eq, first, goes, if_true,
    tombstones_eq]
  refine (Checked.bind_eq unlinked _).trans ((Checked.bind_eq second _).trans ?_)
  simp only [Option.isSome_none, Bool.false_eq_true, if_false,
    show (map.holding ((state.stock.extend pair fits).entomb holder) left.1).size =
      left.1.slots.length from rfl, size_eq]
  exact Checked.bind_eq (compactIfDue_on (state.replace pair fits removed inserted) map flags) _

/-- Where a lawful comparator finds a match in the way, the match can be replaced. -/
theorem exists_replace (state : State) [Std.TransCmp order] (sorted : state.Sorted order)
    (occupied : state.shape.insert (state.seek order pair) state.stock.last = .error holder) :
    ∃ left after,
      state.shape.remove (state.stock.place order holder) holder = some left ∧
        left.1.insert (state.seek order pair) state.stock.last = .ok after := by
  obtain ⟨mem, equal⟩ := mem_matching.mp (Shape.insert_error occupied)
  obtain ⟨left, removed⟩ := state.exists_unlink sorted mem
  obtain ⟨split, fewer⟩ := left_slots removed
  refine ⟨left, ?_⟩
  cases inserted : left.1.insert (state.seek order pair) state.stock.last with
  | ok after => exact ⟨after, removed, rfl⟩
  | error other =>
      -- a second match would be equal to the first one
      exfalso
      obtain ⟨other_mem, other_equal⟩ := mem_matching.mp (Shape.insert_error inserted)
      have between : order (state.stock.pairAt holder) (state.stock.pairAt other) = .eq :=
        Std.TransCmp.eq_trans (Std.OrientedCmp.eq_symm equal) other_equal
      have same := Increasing.eq_of_equal sorted mem (fewer.subset other_mem) between
      have distinct := split.nodup_iff.mp state.distinct
      exact (List.nodup_cons.mp distinct).1 (same ▸ other_mem)

end Replace

/-! ## Deletion -/

section Erase

variable {state : State} {map : Map} {probe : Pair} {query : Comparator} {flags : Flags}

theorem erase_missed (map : Map) (flags : Flags)
    (missed : state.shape.find (state.seek query probe) = none) :
    (state.on map).erase probe query flags = .ok ⟨false, state.on map, []⟩ := by
  rw [Map.erase, find_on, missed]
  rfl

theorem erase_found (flags : Flags)
    (found : state.shape.find (state.seek query probe) = some slot)
    (removed : state.shape.remove (state.stock.place map.order slot) slot = some after) :
    (state.on map).erase probe query flags =
      .ok ⟨true, ((state.unlink removed).settle flags).on map,
        map.freed [state.stock.entryAt slot]⟩ := by
  rw [Map.erase, find_on, found]
  refine (Checked.bind_eq rfl _).trans ((Checked.bind_eq (unlink_on state removed) _).trans ?_)
  simp only [compactIfDue_on, Checked.ok_bind, Checked.pure_eq_ok]

end Erase

end State
end PackedMap
