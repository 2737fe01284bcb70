import PackedMap.Proofs.Map.Cost
import PackedMap.Proofs.Comparator

/-!
# Reservations

Room that was reserved for a batch of entries is there for them, however their bytes are spread over
the entries, however many of them turn out to be present already, and whatever is deleted in
between.  Every entry takes what a batch of one entry is granted, and what is granted to the parts
of a batch is granted to the whole.
-/

namespace PackedMap

/-- The pair that a change is to add. -/
def Change.addition? : Change → Option Pair
  | .add pair _ => some pair
  | .erase _ _ _ | .compact | .reserve _ _ | .shrink => none

/-- The pairs that some changes are to add. -/
def additions (changes : List Change) : List Pair := changes.filterMap Change.addition?

/-- Some additions and deletions keep within a reservation for a number of entries with a total
number of data bytes. -/
structure Change.Within (entries bytes : UInt64) (changes : List Change) : Prop where
  updates : ∀ change ∈ changes, change.Updates
  few : (additions changes).length ≤ entries.toNat
  small : Pair.totalSize (additions changes) ≤ bytes.toNat

/-- Of some changes, carried out one after another, none compacts the map that it comes to. -/
def Map.Spares (map : Map) : List Change → Prop
  | [] => True
  | change :: rest => change.Spares map ∧ (map.after [change]).Spares rest

/-! ## Batches -/

theorem totalSize_append (front back : List Pair) :
    Pair.totalSize (front ++ back) = Pair.totalSize front + Pair.totalSize back := by
  induction front with
  | nil => simp [Pair.totalSize]
  | cons pair front ih => simp [Pair.totalSize, ih, Nat.add_assoc]

theorem Change.Within.of_append {entries bytes : UInt64} {front back : List Change}
    (within : Change.Within entries bytes (front ++ back)) :
    Change.Within entries bytes front := by
  obtain ⟨updates, few, small⟩ := within
  rw [additions, List.filterMap_append] at few small
  rw [List.length_append] at few
  rw [totalSize_append] at small
  exact ⟨fun change mem => updates change (List.mem_append_left _ mem),
    Nat.le_trans (Nat.le_add_right ..) few, Nat.le_trans (Nat.le_add_right ..) small⟩

namespace State

variable {state after : State} {map : Map} {change : Change} {changes : List Change} {reply : Reply}
  {events : List Event}

/-- Units that are granted to the additions among some changes as one batch. -/
def batch (changes : List Change) : Nat :=
  Slab.advance (additions changes).length (Pair.totalSize (additions changes))

/-- A change takes from a batch no less than it appends. -/
theorem units_add_batch_le (change : Change) (rest : List Change) :
    change.units + batch rest ≤ batch (change :: rest) := by
  cases change with
  | add pair flags =>
      have split := Slab.advance_add_le 1 pair.size (additions rest).length
        (Pair.totalSize (additions rest))
      rw [Stock.advance_one, Nat.add_comm 1] at split
      exact split
  | erase | compact | reserve | shrink => exact Nat.le_of_eq (Nat.zero_add _)

/-- Bytes in use once a state has taken up a batch. -/
def filled (state : State) (changes : List Change) : Nat :=
  (Cell.total state.stock.cells + batch changes) * unitSize

/-- What a change may append goes off the batch, so that the bytes in use at its end do not grow on
the way. -/
theorem Step.filled_le (step : Step map state change reply events after)
    (updates : change.Updates) (rest : List Change) :
    after.filled rest ≤ state.filled (change :: rest) := by
  have total := (step.total updates).1
  have cost := change.cost_le_units reply
  have split := units_add_batch_le change rest
  exact Nat.mul_le_mul_right _ (by omega)

theorem needed_le_filled (state : State) (pair : Pair) (flags : Flags) (rest : List Change) :
    state.stock.needed 1 pair.size ≤ state.filled (.add pair flags :: rest) := by
  have split := units_add_batch_le (.add pair flags) rest
  rw [Change.units] at split
  rw [Stock.needed, Stock.advance_one, Nat.mul_comm, ← Nat.add_mul, Nat.add_comm]
  exact Nat.mul_le_mul_right _ (by omega)

theorem filled_le_needed {entries bytes : UInt64} (state : State)
    (within : Change.Within entries bytes changes) :
    state.filled changes ≤ state.stock.needed entries.toNat bytes.toNat := by
  have batch_le : batch changes ≤ Slab.advance entries.toNat bytes.toNat :=
    Slab.advance_mono within.few within.small
  rw [Stock.needed, Nat.mul_comm, ← Nat.add_mul, Nat.add_comm]
  exact Nat.mul_le_mul_right _ (Nat.add_le_add_left batch_le _)

theorem accepts_of_filled {rest : List Change}
    (room : state.filled (change :: rest) ≤ state.stock.limit) : state.Accepts change := by
  cases change with
  | add pair flags => exact Nat.le_trans (state.needed_le_filled pair flags rest) room
  | erase | compact | reserve | shrink => trivial

/-- Where the batch fits into the capacity, a change that does not compact leaves the capacity as
it is. -/
theorem Step.capacity_eq (step : Step map state change reply events after)
    (updates : change.Updates) (still : change.Still) {rest : List Change}
    (room : state.filled (change :: rest) ≤ state.stock.capacity) :
    after.stock.capacity = state.stock.capacity := by
  have enough {pair : Pair} {flags : Flags}
      (here : state.filled (.add pair flags :: rest) ≤ state.stock.capacity) :
      state.stock.grownCapacity (state.stock.needed 1 pair.size) = state.stock.capacity :=
    if_pos (Nat.le_trans (state.needed_le_filled pair flags rest) here)
  cases step with
  | refused | missed => rfl
  | added | kept => exact enough room
  | replaced =>
      rw [settle_still _ still]
      exact enough room
  | erased =>
      rw [settle_still _ still]
      rfl
  | compacted | uncompacted | reserved | unreserved | shrunk => exact updates.elim

namespace Describes

/-- None of some additions and deletions is refused if the limit has room for the batch. -/
theorem accepts (described : state.Describes map) (updates : ∀ change ∈ changes, change.Updates)
    (room : state.filled changes ≤ state.stock.limit) : map.accepts changes = true := by
  induction changes generalizing state map with
  | nil => rfl
  | cons change rest ih =>
      obtain ⟨here, later⟩ := List.forall_mem_cons.mp updates
      obtain ⟨reply, events, after, step, left, run⟩ := described.change change
      have granted := (step.accepted here).mpr (accepts_of_filled room)
      have filled := step.filled_le here rest
      rw [← step.limit_eq] at room
      rw [Map.accepts, run]
      simp only [granted, Bool.not_false, Bool.true_and]
      exact ih left later (Nat.le_trans filled room)

/-- Additions and deletions that do not compact leave the capacity as it is if it has room for the
batch, and append no more than that. -/
theorem after_batch (described : state.Describes map)
    (updates : ∀ change ∈ changes, change.Updates) (spares : map.Spares changes)
    (room : state.filled changes ≤ state.stock.capacity) :
    ∃ after : State, after.Describes (map.after changes) ∧
      after.stock.capacity = state.stock.capacity ∧
      Cell.total after.stock.cells ≤ Cell.total state.stock.cells + batch changes := by
  induction changes generalizing state map with
  | nil => exact ⟨state, described, rfl, Nat.le_add_right ..⟩
  | cons change rest ih =>
      obtain ⟨here, later⟩ := List.forall_mem_cons.mp updates
      obtain ⟨spared, goes_on⟩ := spares
      obtain ⟨reply, events, middle, step, left, run⟩ := described.spared spared
      have batch_eq : batch (change.sparing :: rest) = batch (change :: rest) := by
        cases change <;> rfl
      have room' : state.filled (change.sparing :: rest) ≤ state.stock.capacity := by
        rwa [filled, batch_eq]
      have capacity := step.capacity_eq here.sparing spared.still room'
      have filled := step.filled_le here.sparing rest
      have total := (step.total here.sparing).1
      have cost := change.sparing.cost_le_units reply
      have split := units_add_batch_le change.sparing rest
      rw [Map.after, run] at goes_on ⊢
      obtain ⟨after, ended, capacity_eq, total_le⟩ := ih left later goes_on (by omega)
      exact ⟨after, ended, capacity_eq.trans capacity, by omega⟩

end Describes
end State

/-- A reservation is honoured: additions within it are never refused, and as long as nothing
compacts the map they leave the capacity as it is and take no more units than were granted. -/
theorem reservation_honoured {map reserved : Map} {entries bytes : UInt64} {granted : Nat}
    {changes : List Change} (reachable : Reachable map)
    (run : map.reserve entries bytes = .ok (granted, reserved))
    (within : Change.Within entries bytes changes) :
    reserved.accepts changes = true ∧
      ∀ front, front <+: changes → reserved.Spares front →
        (reserved.after front).slab.capacity = reserved.slab.capacity ∧
          (reserved.after front).slab.units ≤ reserved.slab.units + granted := by
  obtain ⟨state, described⟩ := reachable.exists_state
  have reserving := state.reserve_on map entries bytes
  rw [described.same, run] at reserving
  split at reserving
  · next fits =>
      obtain ⟨rfl, rfl⟩ := Prod.mk.inj (Except.ok.inj reserving)
      have roomy := Stock.needed_le_grow fits
      have filled := state.filled_le_needed within
      let grown := state.grow (state.stock.needed entries.toNat bytes.toNat)
      have left : grown.Describes (grown.on map) := described.on described.sorted
      refine ⟨left.accepts within.updates (Nat.le_trans filled fits), ?_⟩
      rintro front ⟨back, rfl⟩ spares
      have part := within.of_append
      have room := Nat.le_trans (state.filled_le_needed part) roomy
      obtain ⟨after, ended, capacity_eq, total_le⟩ := left.after_batch part.updates spares room
      have batch_le : State.batch front ≤ Slab.advance entries.toNat bytes.toNat :=
        Slab.advance_mono part.few part.small
      rw [← ended.same]
      refine ⟨capacity_eq, ?_⟩
      calc (after.stock.slab after.shape.nodes).units = Cell.total after.stock.cells :=
            Stock.units_slab ..
        _ ≤ Cell.total state.stock.cells + State.batch front := total_le
        _ ≤ Cell.total state.stock.cells + Slab.advance entries.toNat bytes.toNat :=
            Nat.add_le_add_left batch_le _
        _ = (state.stock.slab state.shape.nodes).units + _ := by rw [Stock.units_slab]
  · cases reserving

/-- Additions and a deletion that take all the room of a reservation for three entries. -/
def fillingRun : List Change :=
  [.add ⟨[107], [118]⟩ .empty, .erase ⟨[107], []⟩ none .empty, .add ⟨[107], [119]⟩ .empty,
    .add ⟨[107], [120]⟩ .replace]

theorem reservation_honoured_filled : Reachable (.empty .byKey .default) ∧
    ∃ reserved, (Map.empty .byKey .default).reserve 3 6 = .ok (12, reserved) ∧
      Change.Within 3 6 fillingRun ∧ reserved.Spares fillingRun ∧
      reserved.accepts fillingRun = true ∧
      (reserved.after fillingRun).slab.capacity = reserved.slab.capacity ∧
      (reserved.after fillingRun).slab.units ≤ reserved.slab.units + 12 := by
  have reachable : Reachable (.empty .byKey .default) := .empty .byKey .default
  have within : Change.Within 3 6 fillingRun := by
    refine ⟨?_, by decide, by decide⟩
    simp [fillingRun, Change.Updates]
  obtain ⟨reserved, run⟩ : ∃ reserved,
      (Map.empty .byKey .default).reserve 3 6 = .ok (12, reserved) := ⟨_, rfl⟩
  have spares : reserved.Spares fillingRun := ⟨rfl, rfl, rfl, rfl, trivial⟩
  obtain ⟨accepted, honoured⟩ := reservation_honoured reachable run within
  obtain ⟨capacity_eq, units_le⟩ := honoured fillingRun (List.prefix_refl _) spares
  exact ⟨reachable, reserved, run, within, spares, accepted, capacity_eq, units_le⟩

end PackedMap
