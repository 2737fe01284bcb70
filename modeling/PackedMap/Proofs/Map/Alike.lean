import PackedMap.Proofs.Map.Bare
import PackedMap.Proofs.Reachable

/-!
# States that differ in capacity

Two states with the same cells, the same tree and the same limit take every step alike: no answer
and no report depends on the capacity, and what they leave again differs in capacity at most.
-/

namespace PackedMap

/-- A state has the cells, the tree and the limit of another one. -/
structure State.Alike (state state' : State) : Prop where
  shape_eq : state'.shape = state.shape
  cells_eq : state'.stock.cells = state.stock.cells
  limit_eq : state'.stock.limit = state.stock.limit

namespace State

variable {state state' after : State} {map map' : Map} {change : Change} {reply : Reply}
  {events : List Event}

/-! ## What is alike in both states -/

theorem Alike.refl (state : State) : state.Alike state := ⟨rfl, rfl, rfl⟩

theorem Alike.bare (alike : state.Alike state') (map : Map) :
    (state'.on map).bare = (state.on map).bare := by
  obtain ⟨⟨cells, capacity, limit, _, _, _⟩, shape, _, _⟩ := state'
  obtain ⟨rfl, rfl, rfl⟩ := alike
  rfl

theorem Alike.pairs_eq (alike : state.Alike state') : state'.pairs = state.pairs := by
  obtain ⟨⟨cells, capacity, limit, _, _, _⟩, shape, _, _⟩ := state'
  obtain ⟨rfl, rfl, rfl⟩ := alike
  rfl

theorem Alike.tombstones_eq (alike : state.Alike state') :
    state'.stock.tombstones = state.stock.tombstones :=
  congrArg (List.countP Cell.tombstone) alike.cells_eq

theorem Alike.last_eq (alike : state.Alike state') : state'.stock.last = state.stock.last := by
  rw [Stock.last, Stock.last, alike.cells_eq]

theorem Alike.fits_iff (alike : state.Alike state') {entries bytes : Nat} :
    state'.stock.needed entries bytes ≤ state'.stock.limit ↔
      state.stock.needed entries bytes ≤ state.stock.limit := by
  rw [Stock.needed, Stock.needed, alike.cells_eq, alike.limit_eq]

theorem Alike.refusal_eq (alike : state.Alike state') (entries bytes : Nat) :
    state'.refusal (state'.stock.needed entries bytes) =
      state.refusal (state.stock.needed entries bytes) := by
  rw [refusal, refusal, Stock.needed, Stock.needed, alike.cells_eq, alike.limit_eq]

theorem Alike.insert_eq (alike : state.Alike state') (order : Comparator) (pair : Pair) :
    state'.shape.insert (state'.seek order pair) state'.stock.last =
      state.shape.insert (state.seek order pair) state.stock.last := by
  obtain ⟨⟨cells, capacity, limit, _, _, _⟩, shape, _, _⟩ := state'
  obtain ⟨rfl, rfl, rfl⟩ := alike
  rfl

theorem Alike.link {pair : Pair} {linked : Shape × Bool} {place place' : Slot → Ordering}
    (alike : state.Alike state') (fits : state.stock.needed 1 pair.size ≤ state.stock.limit)
    (fits' : state'.stock.needed 1 pair.size ≤ state'.stock.limit)
    (inserted : state.shape.insert place state.stock.last = .ok linked)
    (inserted' : state'.shape.insert place' state'.stock.last = .ok linked) :
    (state.link pair fits inserted).Alike (state'.link pair fits' inserted') :=
  ⟨rfl, congrArg (· ++ [Cell.live pair]) alike.cells_eq, alike.limit_eq⟩

theorem Alike.grow (alike : state.Alike state') {needed needed' : Nat} :
    (state.grow needed).Alike (state'.grow needed') :=
  ⟨alike.shape_eq, alike.cells_eq, alike.limit_eq⟩

theorem Alike.compacted (alike : state.Alike state')
    (fits : Stock.packedSize state.pairs ≤ state.stock.limit)
    (fits' : Stock.packedSize state'.pairs ≤ state'.stock.limit) :
    (state.compacted fits).Alike (state'.compacted fits') := by
  obtain ⟨⟨cells, capacity, limit, _, _, _⟩, shape, _, _⟩ := state'
  obtain ⟨rfl, rfl, rfl⟩ := alike
  exact ⟨rfl, rfl, rfl⟩

/-! ## Changes -/

/-- Whether a compaction is due, and whether it is refused, does not depend on the capacity. -/
theorem Alike.settle (alike : state.Alike state') (flags : Flags) :
    (state.settle flags).Alike (state'.settle flags) := by
  have fits_iff : Stock.packedSize state'.pairs ≤ state'.stock.limit ↔
      Stock.packedSize state.pairs ≤ state.stock.limit := by
    rw [alike.pairs_eq, alike.limit_eq]
  unfold State.settle
  rw [alike.shape_eq, alike.tombstones_eq]
  by_cases fits : Stock.packedSize state.pairs ≤ state.stock.limit
  · rw [dif_pos fits, dif_pos (fits_iff.mpr fits)]
    split
    · exact alike.compacted fits (fits_iff.mpr fits)
    · exact alike
  · rw [dif_neg fits, dif_neg (fits_iff.not.mpr fits)]
    split <;> exact alike

theorem Step.alike (step : Step map state change reply events after)
    (alike : state.Alike state') :
    ∃ after', Step map state' change reply events after' ∧ after.Alike after' := by
  -- Only the capacity is left to differ, and no guard of a step mentions it.
  obtain ⟨⟨cells, capacity, limit, _, _, _⟩, shape, _, _⟩ := state'
  obtain ⟨rfl, rfl, rfl⟩ := alike
  cases step with
  | refused full => exact ⟨_, .refused full, rfl, rfl, rfl⟩
  | added fits inserted => exact ⟨_, .added (by exact fits) (by exact inserted), rfl, rfl, rfl⟩
  | kept fits occupied stays => exact ⟨_, .kept fits occupied stays, rfl, rfl, rfl⟩
  | replaced fits removed inserted occupied goes =>
      refine ⟨_, .replaced (by exact fits) (by exact removed) (by exact inserted) occupied goes, ?_⟩
      refine Alike.settle ?_ _
      exact ⟨rfl, rfl, rfl⟩
  | missed missed => exact ⟨_, .missed missed, rfl, rfl, rfl⟩
  | erased removed found =>
      refine ⟨_, .erased (by exact removed) found, ?_⟩
      refine Alike.settle ?_ _
      exact ⟨rfl, rfl, rfl⟩
  | compacted fits => exact ⟨_, .compacted (by exact fits), rfl, rfl, rfl⟩
  | uncompacted full => exact ⟨_, .uncompacted full, rfl, rfl, rfl⟩
  | reserved fits => exact ⟨_, .reserved fits, rfl, rfl, rfl⟩
  | unreserved full => exact ⟨_, .unreserved full, rfl, rfl, rfl⟩
  | shrunk => exact ⟨_, .shrunk, rfl, rfl, rfl⟩

/-! ## Copies -/

section Copies

variable {hook : Option CopyHook} {order : Comparator} {source source' : Map} {sources : List Entry}
  {copies : List (Slot × Entry)}

theorem Copies.alike (run : Copies order hook state sources copies after)
    (alike : state.Alike state') :
    ∃ after', Copies order hook state' sources copies after' ∧ after.Alike after' := by
  induction run generalizing state' with
  | nil state => exact ⟨state', .nil state', alike⟩
  | @added state after source rest copies linked fits inserted _ ih =>
      have fits' := alike.fits_iff.mpr fits
      have inserted' := (alike.insert_eq order source.pair).trans inserted
      obtain ⟨after', later, ended⟩ :=
        ih (alike.link (fits_copied hook fits) (fits_copied hook fits') inserted inserted')
      have added := Copies.added fits' inserted' later
      rw [alike.last_eq] at added
      exact ⟨after', added, ended⟩
  | left fits occupied _ ih =>
      have occupied' := (alike.insert_eq order _).trans occupied
      obtain ⟨after', later, ended⟩ := ih alike.grow
      exact ⟨after', .left (alike.fits_iff.mpr fits) occupied' later, ended⟩

/-- A merge of the same entries into both states ends alike, or is refused with the same error. -/
theorem Alike.merge (alike : state.Alike state') (hook_eq : source'.copyHook = source.copyHook)
    (read : source.entries = .ok sources) (read' : source'.entries = .ok sources)
    (ignores : map.order.Ignores source.copyHook) [Std.TransCmp map.order]
    (sorted : state.Sorted map.order) :
    ∃ result events, ∃ after after' : State, after.Alike after' ∧ after.Sorted map.order ∧
      (state.on map).merge source = .ok ⟨result, after.on map, events⟩ ∧
      (state'.on map).merge source' = .ok ⟨result, after'.on map, events⟩ := by
  rcases exists_copies map.order source.copyHook sources state with
    ⟨copies, after, run⟩ | ⟨before, refused, rest, copies, after, rfl, run, full⟩
  · obtain ⟨after', run', ended⟩ := run.alike alike
    have merged := run.merge_ends read
    rw [← hook_eq] at run'
    have merged' := run'.merge_ends read'
    rw [hook_eq] at merged'
    exact ⟨_, _, after, after', ended, run.sorted ignores sorted, merged, merged'⟩
  · obtain ⟨after', run', ended⟩ := run.alike alike
    have merged := run.merge_refused full read
    rw [← hook_eq] at run'
    have merged' := run'.merge_refused (ended.fits_iff.not.mpr full) read'
    rw [hook_eq, ended.refusal_eq] at merged'
    exact ⟨_, _, state, state', alike, sorted, merged, merged'⟩

end Copies

/-! ## Spare room -/

theorem Alike.shrunk (alike : state.Alike state') : state.Alike state'.shrink :=
  ⟨alike.shape_eq, alike.cells_eq, alike.limit_eq⟩

/-- A reservation, granted or refused, leaves a state alike. -/
theorem Alike.reserve (alike : state.Alike state') (map : Map) (entries bytes : UInt64) :
    ∃ reply, ∃ after' : State, state.Alike after' ∧
      (Change.reserve entries bytes).run (state'.on map) = .ok ⟨reply, after'.on map, []⟩ := by
  by_cases fits : state'.stock.needed entries.toNat bytes.toNat ≤ state'.stock.limit
  · exact ⟨_, state'.grow _, ⟨alike.shape_eq, alike.cells_eq, alike.limit_eq⟩,
      (Step.reserved fits).run⟩
  · exact ⟨_, state', alike, (Step.unreserved fits).run⟩

end State
end PackedMap
