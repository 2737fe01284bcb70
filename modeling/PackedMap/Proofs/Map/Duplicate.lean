import PackedMap.Proofs.Map.Copying

/-!
# Duplicates

A duplicate keeps the cells and the tree of a state, gives up spare room, and runs the copy hook
over each live entry once.
-/

namespace PackedMap

namespace Stock

variable {stock : Stock} {slot other : Slot} {cell : Cell} {bytes : Bytes}

/-- The stock with bytes laid over the value at a slot. -/
def rewrite (stock : Stock) (slot : Slot) (bytes : Bytes) : Stock :=
  stock.alter slot (Cell.lay · bytes) (Cell.units_lay · bytes)

theorem pairAt_rewrite (mem : slot ∈ stock.slots)
    (length_eq : bytes.length = (stock.pairAt slot).value.length) :
    (stock.rewrite slot bytes).pairAt slot = ⟨(stock.pairAt slot).key, bytes⟩ := by
  obtain ⟨cell, placed⟩ := exists_cell mem
  have here := pairAt_eq placed
  rw [here] at length_eq
  have found := cellAt_eq_some.mpr placed
  rw [here, pairAt, rewrite, cellAt_alter, found, Option.map_some, Option.map_some,
    Option.getD_some, changeAt, if_pos rfl, Cell.lay_of_length length_eq]
  rfl

theorem pairAt_rewrite_other (bytes : Bytes) (differ : other ≠ slot) :
    (stock.rewrite slot bytes).pairAt other = stock.pairAt other :=
  pairAt_alter_other differ

theorem slots_rewrite (slot : Slot) (bytes : Bytes) :
    (stock.rewrite slot bytes).slots = stock.slots :=
  slots_alter ..

theorem live_rewrite (mem : slot ∈ stock.slots) (bytes : Bytes) :
    (stock.rewrite slot bytes).liveSlots = stock.liveSlots ∧
      (stock.rewrite slot bytes).tombstones = stock.tombstones := by
  obtain ⟨cell, placed⟩ := exists_cell mem
  exact liveSlots_alter placed rfl

end Stock

namespace State

variable {state : State} {map : Map} {slot : Slot} {source : Entry}

/-- The state with bytes laid over the value at a slot. -/
def rewrite (state : State) (mem : slot ∈ state.stock.slots) (bytes : Bytes) : State where
  stock := state.stock.rewrite slot bytes
  shape := state.shape
  balanced := state.balanced
  live := by
    rw [(Stock.live_rewrite mem bytes).1]
    exact state.live

/-- The copy hook changes one value and nothing else. -/
theorem runCopyHook_on (hook : Option CopyHook) (mem : slot ∈ state.stock.slots)
    (pair_eq : source.pair = state.stock.pairAt slot) :
    ∃ after : State, after.shape = state.shape ∧ after.stock.slots = state.stock.slots ∧
      after.stock.tombstones = state.stock.tombstones ∧
      after.stock.pairAt slot = source.copied hook ∧
      (∀ other ≠ slot, after.stock.pairAt other = state.stock.pairAt other) ∧
      (state.on map).slab.runCopyHook hook slot source =
        .ok ((after.on map).slab, copying hook [source]) := by
  cases hook with
  | none => exact ⟨state, rfl, rfl, rfl, pair_eq.symm, fun _ _ => rfl, rfl⟩
  | some hook =>
      obtain ⟨cell, placed⟩ := Stock.exists_cell mem
      have value_eq : cell.pair.value = source.pair.value := by
        rw [pair_eq, Stock.pairAt_eq placed]
      have length_eq : (hook.apply source.pair.value source).length =
          (state.stock.pairAt slot).value.length := by
        rw [hook.length_apply, pair_eq]
      refine ⟨state.rewrite mem (hook.apply source.pair.value source), rfl,
        Stock.slots_rewrite .., (Stock.live_rewrite mem _).2, ?_,
        fun other differ => Stock.pairAt_rewrite_other _ differ, ?_⟩
      · rw [rewrite, Stock.pairAt_rewrite mem length_eq, ← pair_eq]
        rfl
      · have read := Stock.value_slab placed state.shape.nodes
        have written := Stock.setValue_slab placed state.shape.nodes
          (hook.apply source.pair.value source)
        rw [value_eq] at read
        exact (Checked.bind_eq read _).trans (Checked.bind_eq written _)

theorem changeCopies_none (sources : List Entry) (slab : Slab) :
    Map.changeCopies none sources slab = .ok (slab, []) := by
  induction sources with
  | nil => rfl
  | cons source rest ih => exact Checked.bind_eq ih _

/-- A copy hook runs over some entries, each of which still has the pair that the hook is given. -/
theorem changeCopies_on (hook : Option CopyHook) (original : Stock) {todo : List Slot}
    (distinct : todo.Nodup) (state : State) (inside : ∀ slot ∈ todo, slot ∈ state.stock.slots)
    (same : ∀ slot ∈ todo, state.stock.pairAt slot = original.pairAt slot) :
    ∃ after : State, after.shape = state.shape ∧ after.stock.slots = state.stock.slots ∧
      after.stock.tombstones = state.stock.tombstones ∧
      (∀ slot ∈ todo, after.stock.pairAt slot = (original.entryAt slot).copied hook) ∧
      (∀ other ∉ todo, after.stock.pairAt other = state.stock.pairAt other) ∧
      Map.changeCopies hook (todo.map original.entryAt) (state.on map).slab =
        .ok ((after.on map).slab, copying hook (todo.map original.entryAt)) := by
  induction todo generalizing state with
  | nil =>
      refine ⟨state, rfl, rfl, rfl, by simp, fun _ _ => rfl, ?_⟩
      cases hook <;> rfl
  | cons slot rest ih =>
      obtain ⟨absent, rest_distinct⟩ := List.nodup_cons.mp distinct
      have differ : ∀ other ∈ rest, other ≠ slot := fun other mem equal => absent (equal ▸ mem)
      obtain ⟨mid, mid_shape, mid_slots, mid_tombstones, here, others, run⟩ :=
        @runCopyHook_on state map slot (original.entryAt slot) hook
          (inside slot List.mem_cons_self) (same slot List.mem_cons_self).symm
      obtain ⟨after, after_shape, after_slots, after_tombstones, copied, untouched, later⟩ :=
        ih rest_distinct mid
          (fun other mem => mid_slots ▸ inside other (List.mem_cons_of_mem _ mem))
          (fun other mem => (others other (differ other mem)).trans
            (same other (List.mem_cons_of_mem _ mem)))
      refine ⟨after, after_shape.trans mid_shape, after_slots.trans mid_slots,
        after_tombstones.trans mid_tombstones, ?_, ?_, ?_⟩
      · exact List.forall_mem_cons.mpr ⟨(untouched slot absent).trans here, copied⟩
      · intro other outside
        obtain ⟨other_ne, other_absent⟩ := List.ne_and_not_mem_of_not_mem_cons outside
        exact (untouched other other_absent).trans (others other other_ne)
      · rw [List.map_cons, Map.changeCopies, copying_cons]
        refine (Checked.bind_eq run _).trans ?_
        exact Checked.bind_eq later _

/-- A duplicate has the same slots, and the same tree over copies of the entries. -/
theorem duplicate_on (state : State) (map : Map) :
    ∃ after : State, after.shape = state.shape ∧ after.stock.slots = state.stock.slots ∧
      (∀ slot ∈ state.shape.slots,
        after.stock.pairAt slot = (state.stock.entryAt slot).copied map.copyHook) ∧
      (state.on map).duplicate =
        .ok (after.on map, copying map.copyHook state.liveEntries) := by
  obtain ⟨after, shape_eq, slots_eq, tombstones_eq, copied, -, run⟩ :=
    @changeCopies_on map map.copyHook state.stock state.stock.liveSlots
      state.stock.liveSlots_nodup state.shrink (fun slot mem => Stock.mem_slots_of_live mem)
      (fun slot _ => rfl)
  refine ⟨after, shape_eq, slots_eq, fun slot mem => copied slot (mem_live.mp mem), ?_⟩
  have slab_eq : (state.on map).slab.shrink = (state.shrink.on map).slab :=
    state.stock.shrink_slab state.shape.nodes
  have after_eq : { state.on map with slab := (after.on map).slab } = after.on map := by
    simp only [on, Map.holding, Contents.of, shape_eq, tombstones_eq]
    rfl
  rw [Map.duplicate]
  refine (Checked.bind_eq (state.entries_on map) _).trans ?_
  rw [slab_eq]
  refine (Checked.bind_eq run _).trans ?_
  exact congrArg (fun copy => Except.ok (copy, copying map.copyHook state.liveEntries)) after_eq

/-- Without a copy hook a duplicate is the map itself without spare room. -/
theorem duplicate_hookless (state : State) (hookless : map.copyHook = none) :
    (state.on map).duplicate = .ok (state.shrink.on map, []) := by
  have read := state.entries_on map
  have slab_eq : (state.on map).slab.shrink = (state.shrink.on map).slab :=
    state.stock.shrink_slab state.shape.nodes
  have copied (sources : List Entry) : Map.changeCopies map.copyHook sources
      (state.on map).slab.shrink = .ok ((state.shrink.on map).slab, []) := by
    rw [hookless, slab_eq, changeCopies_none]
  rw [Map.duplicate]
  exact (Checked.bind_eq read _).trans (Checked.bind_eq (copied _) _)

theorem ignores_right {order : Comparator} [Std.OrientedCmp order] {hook : Option CopyHook}
    (ignores : order.Ignores hook) (probe : Pair) (source : Entry) :
    order probe (source.copied hook) = order probe source.pair := by
  rw [@Std.OrientedCmp.eq_swap _ order, ignores, ← @Std.OrientedCmp.eq_swap _ order]

/-- Copies that a comparator tells apart no further than their originals are in the same order. -/
theorem sorted_of_copied {order : Comparator} [Std.OrientedCmp order] {hook : Option CopyHook}
    {after : State} (ignores : order.Ignores hook) (shape_eq : after.shape = state.shape)
    (copied : ∀ slot ∈ state.shape.slots,
      after.stock.pairAt slot = (state.stock.entryAt slot).copied hook)
    (sorted : state.Sorted order) : after.Sorted order := by
  have pairs_eq : after.pairs =
      state.shape.slots.map fun slot => (state.stock.entryAt slot).copied hook := by
    rw [pairs, shape_eq]
    exact List.map_congr_left copied
  rw [Sorted, pairs_eq]
  refine List.pairwise_map.mpr ((slots_pairwise sorted).imp fun {a b} less => ?_)
  rw [ignores, ignores_right ignores]
  exact less

end State
end PackedMap
