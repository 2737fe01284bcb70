import PackedMap.Proofs.Merging

/-!
# When a compaction is refused

A compaction asks for the room of all live entries in one batch, and a batch is granted up to seven
bytes for each entry more than the entries take.  So it may be refused although all that it writes
has room under the limit, and although a merge into an empty map, which asks for one entry after
another, goes through.  Tombstones make up for the difference: each of them frees a header at least.
-/

namespace PackedMap
namespace State

variable {state after : State} {order : Comparator} {hook : Option CopyHook} {map : Map}

/-- The copies take no more units than all sources. -/
theorem Copies.total_le {sources : List Entry} {copies : List (Slot × Entry)}
    (run : Copies order hook state sources copies after) :
    Cell.total after.stock.cells ≤
      Cell.total state.stock.cells + Pair.totalUnits (sources.map Entry.pair) := by
  induction run with
  | nil state => exact Nat.le_add_right ..
  | @added state after source rest copies linked fits inserted _ ih =>
      have linked_total := Stock.total_extend (fits_copied hook fits)
      rw [show (Cell.live (source.copied hook)).units = source.pair.units from units_copied]
        at linked_total
      rw [link, linked_total] at ih
      rw [List.map_cons, Pair.totalUnits, ← Nat.add_assoc]
      exact ih
  | left fits occupied _ ih =>
      refine Nat.le_trans ih (Nat.add_le_add_left ?_ _)
      rw [List.map_cons, Pair.totalUnits]
      exact Nat.le_add_left ..

/-- The live entries take as many units in any order. -/
theorem totalUnits_liveEntries (state : State) :
    Pair.totalUnits (state.liveEntries.map Entry.pair) = Pair.totalUnits state.pairs := by
  have perm := (state.perm_liveEntries.map Entry.pair).map Cell.live
  rw [← Stock.total_map_live, Cell.total_perm perm, Stock.total_map_live, pairs_entries]

/-- A merge into an empty map is not refused where the limit has room for all entries. -/
theorem Describes.merge_empty (described : state.Describes map) (order : Comparator)
    [Std.TransCmp order] (config : Config)
    (room : Pair.totalUnits state.pairs * unitSize ≤ config.limit) :
    ∃ merged, (Map.empty order config).merge map = .ok merged ∧ merged.result = .ok () := by
  rcases (describes_empty order config).merge_cases described with
    ⟨copies, after, -, run⟩ | ⟨before, refused, rest, copies, after, split, added, full, -⟩
  · exact ⟨_, run, rfl⟩
  · refine absurd ?_ full
    have fits : Cell.total after.stock.cells + refused.pair.units ≤
        Pair.totalUnits state.pairs := by
      have taken := added.total_le
      rw [← totalUnits_liveEntries, split, List.map_append, List.map_cons,
        Pair.totalUnits_append, Pair.totalUnits]
      simp only [State.empty, Stock.empty, Cell.total] at taken
      omega
    have limit_eq : after.stock.limit = min config.limit Slab.greatestLimit := added.limit_eq
    have limit_le : config.limit ≤ Slab.greatestLimit := Nat.min_le_right ..
    have bytes := Nat.mul_le_mul_right unitSize fits
    rw [Nat.add_mul] at bytes
    rw [Stock.needed_one, limit_eq, Nat.min_eq_left limit_le, Nat.mul_comm unitSize]
    exact Nat.le_trans bytes room

/-- The room that a compaction asks for can be counted in 64-bit words. -/
theorem refusal_packedSize (state : State) : state.refusal (Stock.packedSize state.pairs) =
    ⟨Stock.packedSize state.pairs, state.stock.limit⟩ := by
  have asked := Stock.packedSize_le state.pairs
  have bytes := Stock.totalSize_le_total state.pairs
  have total := state.total_pairs_le
  have small := state.stock.total_small
  rw [Stock.total_map_live] at bytes total
  have counted : Stock.packedSize state.pairs ≤ UInt64.size - 1 := by
    simp only [Header.size, unitSize, UInt64.size] at *
    omega
  rw [refusal, Nat.min_eq_left counted]

end State

/-- A compaction of a reachable map is refused exactly if a batch of all live entries passes the
limit, and then it changes nothing.  The entries themselves always fit, with a header to spare for
each tombstone, so that a merge into an empty map under the same limit is not refused; and the batch
fits as well unless the tombstones are few. -/
theorem compaction_refused_iff {map : Map} (reachable : Reachable map) :
    ∃ outcome entries, map.compact = .ok outcome ∧ map.sorted = .ok entries ∧
      (∀ error, outcome.result = .error error ↔
        map.slab.limit < Stock.packedSize (entries.map Entry.pair) ∧
          error = ⟨Stock.packedSize (entries.map Entry.pair), map.slab.limit⟩) ∧
      (∀ error, outcome.result = .error error → outcome.map = map ∧ outcome.events = []) ∧
      Pair.totalUnits (entries.map Entry.pair) * unitSize + Header.size * map.tombstones ≤
        map.slab.limit ∧
      (∃ merged, (Map.empty map.order ⟨0, map.slab.limit, none, false⟩).merge map = .ok merged ∧
        merged.result = .ok ()) ∧
      (7 * map.size / unitSize ≤ 3 * map.tombstones → outcome.result = .ok map.tombstones) := by
  obtain ⟨state, described⟩ := reachable.exists_state
  have lawful := described.lawful
  have room := Nat.le_trans state.total_pairs_le
    (Nat.le_trans state.stock.used_le state.stock.capacity_le)
  rw [Stock.total_map_live] at room
  have limit_eq : Config.limit ⟨0, state.stock.limit, none, false⟩ = state.stock.limit :=
    Nat.min_eq_left state.stock.limit_le
  have merges := described.merge_empty map.order ⟨0, state.stock.limit, none, false⟩
    (Nat.le_trans (Nat.le_add_right ..) (limit_eq ▸ room))
  rw [← described.same] at merges ⊢
  have run := state.compact_on map
  rw [state.refusal_packedSize] at run
  by_cases fits : Stock.packedSize state.pairs ≤ state.stock.limit
  · rw [dif_pos fits] at run
    refine ⟨_, _, run, state.sorted_on map, ?_⟩
    rw [state.pairs_entries]
    refine ⟨fun error => ?_, fun _ told => (by cases told), room, merges, fun _ => rfl⟩
    exact iff_of_false (fun told => by cases told) fun full => Nat.not_lt.mpr fits full.1
  · rw [dif_neg fits] at run
    refine ⟨_, _, run, state.sorted_on map, ?_⟩
    rw [state.pairs_entries]
    refine ⟨fun error => ?_, fun _ _ => ⟨rfl, rfl⟩, room, merges,
      fun few => absurd (State.packedSize_le_of_room few) fits⟩
    rw [Except.error.injEq, eq_comm]
    exact (and_iff_right (Nat.not_le.mp fits)).symm

/-- A map that is full up to its limit, with five entries of four units each and one tombstone. -/
def crammed : Map := (Map.empty .byKey ⟨0, 184, none, false⟩).after
  ([.add ⟨[], []⟩ .empty] ++
    [1, 2, 3, 4, 5].map (fun byte => .add ⟨[byte], List.replicate 7 0⟩ .empty) ++
    [.erase ⟨[], []⟩ none .empty])

theorem reachable_crammed : Reachable crammed :=
  (Reachable.empty .byKey ⟨0, 184, none, false⟩).after _

/-- The bytes that the entries of the crammed map take, the bytes that a compaction asks for, and
what it comes to. -/
theorem crammed_bytes : crammed.slab.limit = 184 ∧
    crammed.sorted.map (fun entries => (Pair.totalUnits (entries.map Entry.pair) * unitSize,
      Stock.packedSize (entries.map Entry.pair))) = .ok (160, 192) ∧
    crammed.compact.map Outcome.result = .ok (.error ⟨192, 184⟩) := by
  decide +kernel

/-- A compaction of a reachable map may be refused although its entries fit. -/
theorem crammed_refused : Reachable crammed ∧ ∃ outcome entries,
    crammed.compact = .ok outcome ∧ outcome.result = .error ⟨192, 184⟩ ∧
      crammed.sorted = .ok entries ∧
      Pair.totalUnits (entries.map Entry.pair) * unitSize = 160 := by
  obtain ⟨-, bytes, told⟩ := crammed_bytes
  obtain ⟨entries, read, taken⟩ := Checked.exists_of_map_eq_ok bytes
  obtain ⟨outcome, run, refused⟩ := Checked.exists_of_map_eq_ok told
  exact ⟨reachable_crammed, outcome, entries, run, refused, read, congrArg Prod.fst taken⟩

theorem compaction_refused_iff_crammed : Reachable crammed ∧
    (∃ outcome, crammed.compact = .ok outcome ∧ outcome.result = .error ⟨192, 184⟩ ∧
      outcome.map = crammed ∧ outcome.events = []) ∧
    ∃ merged, (Map.empty crammed.order ⟨0, crammed.slab.limit, none, false⟩).merge crammed =
      .ok merged ∧ merged.result = .ok () := by
  obtain ⟨outcome, entries, run, read, refused_iff, kept, -, merges, -⟩ :=
    compaction_refused_iff reachable_crammed
  obtain ⟨limit_eq, bytes, -⟩ := crammed_bytes
  rw [read] at bytes
  have asked_eq : Stock.packedSize (entries.map Entry.pair) = 192 :=
    congrArg Prod.snd (Except.ok.inj bytes)
  have refused : outcome.result = .error ⟨192, 184⟩ := by
    rw [refused_iff, asked_eq, limit_eq]
    exact ⟨by decide, rfl⟩
  exact ⟨reachable_crammed, ⟨outcome, run, refused, kept _ refused⟩, merges⟩

end PackedMap
