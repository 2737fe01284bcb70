import PackedMap.Map.Update
import PackedMap.Proofs.Map.State
import PackedMap.Proofs.Tree.Sorted

/-!
# Room and compaction of a state

Reserving room and giving it back keep the cells and the tree.  Compaction keeps the pairs and their
order, and drops the tombstones; it is refused if the limit leaves no room for the batch.
-/

namespace PackedMap
namespace State

/-! ## Room -/

/-- The state with the same cells in other bounds. -/
def rehouse (state : State) (stock : Stock) (same : stock.cells = state.stock.cells) : State where
  stock := stock
  shape := state.shape
  balanced := state.balanced
  live := by
    have placed_eq : stock.placed = state.stock.placed := congrArg (Cell.tiling 0) same
    rw [Stock.liveSlots, placed_eq]
    exact state.live

/-- The state with room for a number of bytes. -/
def grow (state : State) (needed : Nat) : State := state.rehouse (state.stock.grow needed) rfl

/-- The state without spare room. -/
def shrink (state : State) : State := state.rehouse state.stock.shrink rfl

/-- The error of a request for a number of bytes beyond the limit. -/
def refusal (state : State) (needed : Nat) : CapacityError :=
  ⟨min needed (UInt64.size - 1), state.stock.limit⟩

theorem reserve_on (state : State) (map : Map) (entries bytes : UInt64) :
    (state.on map).reserve entries bytes =
      if state.stock.needed entries.toNat bytes.toNat ≤ state.stock.limit then
        .ok (Slab.advance entries.toNat bytes.toNat,
          (state.grow (state.stock.needed entries.toNat bytes.toNat)).on map)
      else
        .error (state.refusal (state.stock.needed entries.toNat bytes.toNat)) := by
  have run := Stock.reserve_slab state.stock state.shape.nodes entries bytes
  rw [Map.reserve, show (state.on map).slab = state.stock.slab state.shape.nodes from rfl, run]
  split <;> rfl

theorem shrink_on (state : State) (map : Map) : (state.on map).shrink = state.shrink.on map :=
  congrArg (fun slab => ({ state.on map with slab } : Map))
    (state.stock.shrink_slab state.shape.nodes)

/-! ## Compaction -/

section Compact

variable {state : State}

theorem length_pairs (state : State) : state.pairs.length = state.shape.slots.length :=
  List.length_map ..

/-- The state with the live entries alone, written anew in tree order. -/
def compacted (state : State) (fits : Stock.packedSize state.pairs ≤ state.stock.limit) :
    State where
  stock := state.stock.packed state.pairs fits
  shape := Shape.ofSorted (state.stock.packed state.pairs fits).slots
  balanced := Shape.balanced_ofSorted _
  live := by rw [Shape.slots_ofSorted, Stock.liveSlots_packed]

theorem pairs_compacted (fits : Stock.packedSize state.pairs ≤ state.stock.limit) :
    (state.compacted fits).pairs = state.pairs := by
  rw [pairs, compacted, Shape.slots_ofSorted, Stock.pairs_packed]

/-- The live entries take no more units than there are, with a header to spare for each
tombstone. -/
theorem total_pairs_le (state : State) :
    Cell.total (state.pairs.map Cell.live) * unitSize + Header.size * state.stock.tombstones ≤
      Cell.total state.stock.cells * unitSize := by
  have perm : state.pairs.Perm (state.stock.liveSlots.map state.stock.pairAt) := state.live.map _
  rw [Cell.total_perm (perm.map Cell.live), Stock.live_cells]
  exact Stock.total_live state.stock.cells

/-- Live entries and their bytes can be counted in 64-bit words. -/
theorem pairs_counted (state : State) :
    state.pairs.length < UInt64.size ∧ Pair.totalSize state.pairs < UInt64.size := by
  have small := state.stock.total_small
  have total := state.total_pairs_le
  have bytes := Stock.totalSize_le_total state.pairs
  simp only [Header.size, unitSize, UInt64.size] at *
  omega

/-- A compaction fits where the tombstones take as much room as packing the live entries may ask for
beyond their own. -/
theorem packedSize_le_of_room
    (room : 7 * state.shape.slots.length / unitSize ≤ 3 * state.stock.tombstones) :
    Stock.packedSize state.pairs ≤ state.stock.limit := by
  have total := state.total_pairs_le
  have used := Nat.le_trans state.stock.used_le state.stock.capacity_le
  have asked := Stock.packedSize_le state.pairs
  rw [length_pairs, ← Stock.total_map_live] at asked
  simp only [Header.size, unitSize] at *
  omega

/-- Where tombstones outnumber the live entries, the room they take is more than what packing the
live entries asks for beyond their own. -/
theorem packedSize_le_of_due (due : state.shape.slots.length < state.stock.tombstones) :
    Stock.packedSize state.pairs ≤ state.stock.limit :=
  packedSize_le_of_room (by simp only [unitSize]; omega)

theorem compact_on (state : State) (map : Map) :
    (state.on map).compact =
      if fits : Stock.packedSize state.pairs ≤ state.stock.limit then
        .ok ⟨.ok state.stock.tombstones, (state.compacted fits).on map, []⟩
      else
        .ok ⟨.error (state.refusal (Stock.packedSize state.pairs)), state.on map, []⟩ := by
  have order_eq := Shape.inOrder_slab state.held
  have pairs_eq : state.shape.slots.mapM (state.stock.slab state.shape.nodes).pair =
      .ok state.pairs :=
    Checked.mapM_eq_ok fun slot mem => Stock.pair_eq_pairAt (mem_stock mem) state.shape.nodes
  obtain ⟨counted, sized⟩ := state.pairs_counted
  have room := state.stock.reserve_vacant state.shape.nodes counted sized
  rw [length_pairs] at room
  rw [Map.compact, show (state.on map).tree = ⟨state.shape.root⟩ from rfl,
    show (state.on map).slab = state.stock.slab state.shape.nodes from rfl,
    show (state.on map).size = state.shape.slots.length from rfl]
  refine (Checked.bind_eq order_eq _).trans ((Checked.bind_eq pairs_eq _).trans ?_)
  simp only [room]
  by_cases fits : Stock.packedSize state.pairs ≤ state.stock.limit
  · have distinct := (state.stock.packed state.pairs fits).slots_nodup
    have packed := state.stock.pushAll_vacant fits
    have built := Shape.ofSorted_slab _ distinct (fun _ mem => mem) fun _ => .detached
    have size_eq : (state.compacted fits).shape.slots.length = state.shape.slots.length := by
      rw [← length_pairs, ← length_pairs, pairs_compacted]
    have tombstones_eq : (state.compacted fits).stock.tombstones = 0 := Stock.tombstones_packed
    have after_eq : (state.compacted fits).on map = { state.on map with
        tree := ⟨(state.compacted fits).shape.root⟩
        slab := (state.compacted fits).stock.slab (state.compacted fits).shape.nodes
        tombstones := 0 } := by
      rw [on, Map.holding, Contents.of, size_eq, tombstones_eq]
      rfl
    simp only [fits, if_true, dif_pos, packed, built, Checked.ok_bind, Checked.pure_eq_ok, after_eq]
    rfl
  · rw [dif_neg fits]
    simp only [fits, if_false]
    rfl

/-- The state after a compaction that is due, or the same state. -/
def settle (state : State) (flags : Flags) : State :=
  if flags.contains .allowCompaction &&
      decide (state.shape.slots.length < state.stock.tombstones) then
    if fits : Stock.packedSize state.pairs ≤ state.stock.limit then state.compacted fits else state
  else
    state

/-- A compaction that is due is never refused. -/
theorem settle_due {flags : Flags} (allowed : flags.contains .allowCompaction = true)
    (due : state.shape.slots.length < state.stock.tombstones) :
    state.settle flags = state.compacted (packedSize_le_of_due due) := by
  rw [settle, allowed, decide_eq_true due, Bool.and_self, if_pos rfl,
    dif_pos (packedSize_le_of_due due)]

theorem settle_idle {flags : Flags}
    (idle : ¬ state.shape.slots.length < state.stock.tombstones) : state.settle flags = state := by
  rw [settle, decide_eq_false idle, Bool.and_false]
  rfl

theorem pairs_settle (state : State) (flags : Flags) :
    (state.settle flags).pairs = state.pairs := by
  unfold settle
  split_ifs with due fits
  · exact pairs_compacted fits
  · rfl
  · rfl

/-- A state that settles takes no more units. -/
theorem total_settle_le (state : State) (flags : Flags) :
    Cell.total (state.settle flags).stock.cells ≤ Cell.total state.stock.cells := by
  have total := state.total_pairs_le
  unfold settle
  split_ifs with due fits
  · rw [show (state.compacted fits).stock.cells = state.pairs.map Cell.live from rfl]
    simp only [unitSize] at total
    omega
  · exact Nat.le_refl _
  · exact Nat.le_refl _

theorem limit_settle (state : State) (flags : Flags) :
    (state.settle flags).stock.limit = state.stock.limit := by
  unfold settle
  split_ifs <;> rfl

theorem compactIfDue_on (state : State) (map : Map) (flags : Flags) :
    (state.on map).compactIfDue flags = .ok ((state.settle flags).on map) := by
  rw [Map.compactIfDue, settle, compact_on,
    show (state.on map).size = state.shape.slots.length from rfl,
    show (state.on map).tombstones = state.stock.tombstones from rfl]
  split_ifs <;> rfl

end Compact

end State
end PackedMap
