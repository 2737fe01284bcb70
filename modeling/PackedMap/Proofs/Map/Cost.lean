import PackedMap.Proofs.Drift

/-!
# What additions and deletions cost

An addition appends the units of one entry or none at all, and it is refused exactly where the limit
leaves no room for them.  A deletion appends nothing.  Where either of them compacts the map, that
only gives units back.
-/

namespace PackedMap

/-- A reply is a refusal. -/
def Reply.isRefusal : Reply → Bool
  | .refused _ => true
  | _ => false

/-- A map is not refused any of some changes, carried out one after another. -/
def Map.accepts (map : Map) : List Change → Bool
  | [] => true
  | change :: rest =>
      match change.run map with
      | .ok outcome => !outcome.result.isRefusal && outcome.map.accepts rest
      | .error _ => false

namespace Change

/-- A change is an addition or a deletion. -/
def Updates : Change → Prop
  | .add _ _ | .erase _ _ _ => True
  | .compact | .reserve _ _ | .shrink => False

/-- Units of the entry that a change is to append to the slab. -/
def units : Change → Nat
  | .add pair _ => (Cell.live pair).units
  | .erase _ _ _ | .compact | .reserve _ _ | .shrink => 0

/-- Units that a change appends to the slab, told by the reply. -/
def cost (change : Change) : Reply → Nat
  | .addition .added | .addition .replaced => change.units
  | _ => 0

theorem cost_le_units (change : Change) (reply : Reply) : change.cost reply ≤ change.units := by
  unfold cost
  split
  · exact Nat.le_refl _
  · exact Nat.le_refl _
  · exact Nat.zero_le _

theorem cost_sparing (change : Change) (reply : Reply) :
    change.sparing.cost reply = change.cost reply := by
  cases change <;> rfl

theorem Updates.sparing {change : Change} (updates : change.Updates) : change.sparing.Updates := by
  cases change <;> exact updates

end Change

namespace State

variable {state after : State} {map : Map} {change : Change} {reply : Reply} {events : List Event}

/-- The slab has room for what a change may append. -/
def Accepts (state : State) : Change → Prop
  | .add pair _ => state.stock.needed 1 pair.size ≤ state.stock.limit
  | .erase _ _ _ | .compact | .reserve _ _ | .shrink => True

theorem Step.accepted (step : Step map state change reply events after)
    (updates : change.Updates) : reply.isRefusal = false ↔ state.Accepts change := by
  cases step with
  | refused full =>
      constructor
      · intro granted
        cases granted
      · intro fits
        exact absurd fits full
  | added fits | kept fits | replaced fits => exact ⟨fun _ => fits, fun _ => rfl⟩
  | missed | erased => exact ⟨fun _ => trivial, fun _ => rfl⟩
  | compacted | uncompacted | reserved | unreserved | shrunk => exact updates.elim

/-- No change moves the limit. -/
theorem Step.limit_eq (step : Step map state change reply events after) :
    after.stock.limit = state.stock.limit := by
  cases step with
  | replaced | erased =>
      rw [limit_settle]
      rfl
  | refused | added | kept | missed => rfl
  | compacted | uncompacted | reserved | unreserved | shrunk => rfl

/-- An addition or a deletion appends what its reply tells, and a compaction only takes from
that. -/
theorem Step.total (step : Step map state change reply events after) (updates : change.Updates) :
    Cell.total after.stock.cells ≤ Cell.total state.stock.cells + change.cost reply ∧
      (change.Still →
        Cell.total after.stock.cells = Cell.total state.stock.cells + change.cost reply) := by
  cases step with
  | refused | kept | missed => exact ⟨Nat.le_refl _, fun _ => rfl⟩
  | added fits inserted =>
      have total := Stock.total_extend fits
      exact ⟨Nat.le_of_eq total, fun _ => total⟩
  | @replaced pair flags holder left linked fits removed inserted =>
      have total : Cell.total (state.replace pair fits removed inserted).stock.cells =
          Cell.total state.stock.cells + (Cell.live pair).units :=
        Stock.total_entomb.trans (Stock.total_extend fits)
      constructor
      · exact Nat.le_trans (total_settle_le _ flags) (Nat.le_of_eq total)
      · intro still
        rw [settle_still _ still]
        exact total
  | @erased probe query flags slot linked removed =>
      have total : Cell.total (state.unlink removed).stock.cells = Cell.total state.stock.cells :=
        Stock.total_entomb
      constructor
      · exact Nat.le_trans (total_settle_le _ flags) (Nat.le_of_eq total)
      · intro still
        rw [settle_still _ still]
        exact total
  | compacted | uncompacted | reserved | unreserved | shrunk => exact updates.elim

end State
end PackedMap
