import PackedMap.Proofs.Map.Update

/-!
# Maps in the middle of an addition

An addition appends the new entry to the slab before it links it into the tree.  If an entry that
compares equal is in the way and is to be replaced, that one is unlinked first.  Meanwhile the new
entry stands beside a balanced tree of other entries.
-/

namespace PackedMap

/-- What a map holds in the middle of an addition, when the new entry is in the slab and not yet in
the tree. -/
inductive Map.Admitting (map : Map) (pair : Pair) (new : Slot) : Map → Prop
  | appended {reserved slab : Slab} :
      map.slab.reservePair pair = .ok reserved →
      reserved.push pair = .ok (new, slab) →
      Admitting map pair new { map with slab }
  | vacated {reserved slab found : Slab} {holder : Slot} {tree : Tree} {left : Map}
      {events : List Event} :
      map.slab.reservePair pair = .ok reserved →
      reserved.push pair = .ok (new, slab) →
      map.tree.insert slab new map.order = .ok (some holder, tree, found) →
      ({ map with tree, slab := found }).unlink holder = .ok (left, events) →
      Admitting map pair new left

namespace State

variable {state : State} {map between : Map} {pair : Pair} {new holder : Slot}

/-- A tree beside a new entry, in a slab with that entry at its end. -/
structure Awaits (state : State) (pair : Pair) (stock : Stock) (rest : Shape) : Prop where
  limit_eq : stock.limit = state.stock.limit
  placed : (state.stock.last, .live pair) ∈ stock.placed
  fewer : rest.slots.Sublist state.shape.slots
  inside : ∀ slot ∈ rest.slots, slot ∈ stock.slots
  balanced : rest.Balanced

theorem Awaits.fresh {stock : Stock} {rest : Shape} (awaits : state.Awaits pair stock rest) :
    state.stock.last ∉ rest.slots :=
  fun mem => state.last_notMem (awaits.fewer.subset mem)

theorem Awaits.held {stock : Stock} {rest : Shape} (awaits : state.Awaits pair stock rest) :
    Held stock rest.nodes rest :=
  .overlay (state.distinct.sublist awaits.fewer) awaits.inside _

theorem awaits_extend (fits : state.stock.needed 1 pair.size ≤ state.stock.limit) :
    state.Awaits pair (state.stock.extend pair fits) state.shape where
  limit_eq := rfl
  placed := Stock.mem_placed_extend fits
  fewer := .refl _
  inside := (state.held_extend fits).inside
  balanced := state.balanced

theorem awaits_entomb (fits : state.stock.needed 1 pair.size ≤ state.stock.limit)
    (mem : holder ∈ state.shape.slots) {place : Slot → Ordering} {rest : Shape × Bool}
    (removed : state.shape.remove place holder = some rest) :
    state.Awaits pair ((state.stock.extend pair fits).entomb holder) rest.1 where
  limit_eq := rfl
  placed := by
    rw [Stock.entomb, Stock.placed_alter]
    refine List.mem_map.mpr ⟨_, Stock.mem_placed_extend fits, ?_⟩
    rw [Stock.changeAt, if_neg (ne_last mem).symm]
  fewer := Shape.sublist_remove state.balanced removed
  inside slot slot_mem := by
    rw [Stock.slots_entomb]
    exact (state.held_extend fits).inside slot
      ((Shape.sublist_remove state.balanced removed).subset slot_mem)
  balanced := (Shape.remove_spec state.balanced removed).2.balanced

/-- A reservation that is granted leaves room for the entry, which comes to stand at the end. -/
theorem pushed_eq {reserved slab : Slab}
    (granted : (state.on map).slab.reservePair pair = .ok reserved)
    (appended : reserved.push pair = .ok (new, slab)) :
    ∃ fits : state.stock.needed 1 pair.size ≤ state.stock.limit,
      new = state.stock.last ∧ slab = (state.stock.extend pair fits).slab state.shape.nodes := by
  have room := state.stock.reservePair_slab state.shape.nodes pair
  rw [show (state.on map).slab = state.stock.slab state.shape.nodes from rfl, room] at granted
  split at granted
  · next fits =>
      obtain ⟨-, pushed⟩ := addEntry_fits map fits
      obtain rfl := Except.ok.inj granted
      obtain ⟨rfl, rfl⟩ := Prod.mk.inj (Except.ok.inj (appended.symm.trans pushed))
      exact ⟨fits, rfl, rfl⟩
  · cases granted

/-- An entry in the way can only be unlinked where the comparator leads to it. -/
theorem unlinked_eq {left : Map} {events : List Event}
    (fits : state.stock.needed 1 pair.size ≤ state.stock.limit)
    (mem : holder ∈ state.shape.slots)
    (unlinked : (map.holding (state.stock.extend pair fits) state.shape).unlink holder =
      .ok (left, events)) :
    ∃ rest : Shape × Bool,
      state.shape.remove (state.stock.place map.order holder) holder = some rest ∧
        left = map.holding ((state.stock.extend pair fits).entomb holder) rest.1 := by
  cases removed : state.shape.remove (state.stock.place map.order holder) holder with
  | some rest =>
      rw [unlink_extend fits removed] at unlinked
      obtain ⟨rfl, -⟩ := Prod.mk.inj (Except.ok.inj unlinked)
      exact ⟨rest, rfl, rfl⟩
  | none =>
      have agree : ∀ other ∈ state.shape.slots,
          (state.stock.extend pair fits).place map.order holder other =
            state.stock.place map.order holder other := by
        intro other other_mem
        rw [Stock.place, Stock.place, Stock.pairAt_extend_other (ne_last mem),
          Stock.pairAt_extend_other (ne_last other_mem)]
      have run := Shape.remove_slab map.order (state.held_extend fits) state.balanced
        ((state.held_extend fits).inside holder mem)
      rw [Shape.remove_congr agree, removed] at run
      rw [Map.unlink] at unlinked
      obtain ⟨result, ran, lost⟩ := Checked.bind_eq_ok.mp unlinked
      obtain rfl := Except.ok.inj (ran.symm.trans run)
      cases lost

/-- An insertion that meets an entry in the way meets one of the tree, and changes nothing. -/
theorem occupied_eq {found : Slab} {tree : Tree}
    (fits : state.stock.needed 1 pair.size ≤ state.stock.limit)
    (met : Tree.insert ⟨state.shape.root⟩ ((state.stock.extend pair fits).slab state.shape.nodes)
      state.stock.last map.order = .ok (some holder, tree, found)) :
    holder ∈ state.shape.slots ∧
      { state.on map with tree, slab := found } =
        map.holding (state.stock.extend pair fits) state.shape := by
  rw [state.insert_extend map.order fits] at met
  cases occupied : state.shape.insert (state.seek map.order pair) state.stock.last with
  | ok after =>
      rw [occupied] at met
      simp at met
  | error other =>
      rw [occupied] at met
      simp only [Except.ok.injEq, Prod.mk.injEq, Option.some.injEq] at met
      obtain ⟨rfl, rfl, rfl⟩ := met
      have tombstones_eq : state.stock.tombstones = (state.stock.extend pair fits).tombstones :=
        Stock.tombstones_extend.symm
      refine ⟨(mem_matching.mp (Shape.insert_error occupied)).1, ?_⟩
      simp only [on, Map.holding, Contents.of, tombstones_eq]

/-- In the middle of an addition the new entry stands at the end of the slab, beside a balanced tree
of other entries. -/
theorem exists_of_admitting (admitting : (state.on map).Admitting pair new between) :
    new = state.stock.last ∧ ∃ stock rest, state.Awaits pair stock rest ∧
      between.slab = stock.slab rest.nodes ∧ between.tree = ⟨rest.root⟩ := by
  cases admitting with
  | appended granted appended =>
      obtain ⟨fits, rfl, rfl⟩ := pushed_eq granted appended
      exact ⟨rfl, _, _, awaits_extend fits, rfl, rfl⟩
  | vacated granted appended met unlinked =>
      obtain ⟨fits, rfl, rfl⟩ := pushed_eq granted appended
      obtain ⟨mem, holding_eq⟩ := @occupied_eq state map pair _ _ _ fits met
      rw [holding_eq] at unlinked
      obtain ⟨rest, removed, rfl⟩ := unlinked_eq fits mem unlinked
      exact ⟨rfl, _, _, awaits_entomb fits mem removed, rfl, rfl⟩

end State
end PackedMap
