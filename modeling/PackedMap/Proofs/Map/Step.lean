import PackedMap.Proofs.Map.Sorted
import PackedMap.Session.Basic

/-!
# Steps

All that a change can do to a state, with its answer and the reports of the free hook.  Under a
lawful comparator every change of a sorted state is one of these steps; what is true of all changes
is shown by looking at each step once.
-/

namespace PackedMap
namespace State

/-- What a change does to a state. -/
inductive Step (map : Map) (state : State) : Change → Reply → List Event → State → Prop
  | refused {pair : Pair} {flags : Flags} :
      ¬ state.stock.needed 1 pair.size ≤ state.stock.limit →
      Step map state (.add pair flags)
        (.refused (state.refusal (state.stock.needed 1 pair.size))) [] state
  | added {pair : Pair} {flags : Flags} {after : Shape × Bool}
      (fits : state.stock.needed 1 pair.size ≤ state.stock.limit)
      (inserted : state.shape.insert (state.seek map.order pair) state.stock.last = .ok after) :
      Step map state (.add pair flags) (.addition .added) [] (state.link pair fits inserted)
  | kept {pair : Pair} {flags : Flags} {holder : Slot} :
      state.stock.needed 1 pair.size ≤ state.stock.limit →
      state.shape.insert (state.seek map.order pair) state.stock.last = .error holder →
      flags.contains .replace = false →
      Step map state (.add pair flags) (.addition .alreadyPresent) []
        (state.grow (state.stock.needed 1 pair.size))
  | replaced {pair : Pair} {flags : Flags} {holder : Slot} {left after : Shape × Bool}
      (fits : state.stock.needed 1 pair.size ≤ state.stock.limit)
      (removed : state.shape.remove (state.stock.place map.order holder) holder = some left)
      (inserted : left.1.insert (state.seek map.order pair) state.stock.last = .ok after) :
      state.shape.insert (state.seek map.order pair) state.stock.last = .error holder →
      flags.contains .replace = true →
      Step map state (.add pair flags) (.addition .replaced)
        (map.freed [state.stock.entryAt holder])
        ((state.replace pair fits removed inserted).settle flags)
  | missed {probe : Pair} {query : Option Comparator} {flags : Flags} :
      state.shape.find (state.seek (map.orderOr query) probe) = none →
      Step map state (.erase probe query flags) (.flag false) [] state
  | erased {probe : Pair} {query : Option Comparator} {flags : Flags} {slot : Slot}
      {after : Shape × Bool}
      (removed : state.shape.remove (state.stock.place map.order slot) slot = some after) :
      state.shape.find (state.seek (map.orderOr query) probe) = some slot →
      Step map state (.erase probe query flags) (.flag true)
        (map.freed [state.stock.entryAt slot]) ((state.unlink removed).settle flags)
  | compacted (fits : Stock.packedSize state.pairs ≤ state.stock.limit) :
      Step map state .compact (.amount state.stock.tombstones) [] (state.compacted fits)
  | uncompacted :
      ¬ Stock.packedSize state.pairs ≤ state.stock.limit →
      Step map state .compact (.refused (state.refusal (Stock.packedSize state.pairs))) [] state
  | reserved {entries bytes : UInt64} :
      state.stock.needed entries.toNat bytes.toNat ≤ state.stock.limit →
      Step map state (.reserve entries bytes)
        (.amount (Slab.advance entries.toNat bytes.toNat)) []
        (state.grow (state.stock.needed entries.toNat bytes.toNat))
  | unreserved {entries bytes : UInt64} :
      ¬ state.stock.needed entries.toNat bytes.toNat ≤ state.stock.limit →
      Step map state (.reserve entries bytes)
        (.refused (state.refusal (state.stock.needed entries.toNat bytes.toNat))) [] state
  | shrunk : Step map state .shrink .nothing [] state.shrink

variable {state after : State} {map : Map} {change : Change} {reply : Reply} {events : List Event}

/-- A step tells how the change runs. -/
theorem Step.run (step : Step map state change reply events after) :
    change.run (state.on map) = .ok ⟨reply, after.on map, events⟩ := by
  cases step with
  | @refused pair flags full =>
      rw [Change.run, Map.add, addEntry_refused map flags full]
      rfl
  | @added pair flags linked fits inserted =>
      rw [Change.run, Map.add, addEntry_linked flags fits inserted]
      rfl
  | kept fits occupied stays =>
      rw [Change.run, Map.add, addEntry_occupied fits occupied stays]
      rfl
  | replaced fits removed inserted occupied goes =>
      rw [Change.run, Map.add, addEntry_replaced fits occupied goes removed inserted]
      rfl
  | @missed probe query flags missed =>
      rw [Change.run, show (state.on map).orderOr query = map.orderOr query from rfl,
        erase_missed map flags missed]
      rfl
  | @erased probe query flags slot linked removed found =>
      rw [Change.run, show (state.on map).orderOr query = map.orderOr query from rfl,
        erase_found flags found removed]
      rfl
  | compacted fits =>
      rw [Change.run, compact_on, dif_pos fits]
      rfl
  | uncompacted full =>
      rw [Change.run, compact_on, dif_neg full]
      rfl
  | reserved fits =>
      rw [Change.run, reserve_on, if_pos fits]
      rfl
  | unreserved full =>
      rw [Change.run, reserve_on, if_neg full]
      rfl
  | shrunk =>
      rw [Change.run, shrink_on]
      rfl

/-- Every change of a sorted state is a step. -/
theorem exists_step [Std.TransCmp map.order] (sorted : state.Sorted map.order) (change : Change) :
    ∃ reply events after, Step map state change reply events after := by
  cases change with
  | add pair flags =>
      by_cases fits : state.stock.needed 1 pair.size ≤ state.stock.limit
      · cases inserted : state.shape.insert (state.seek map.order pair) state.stock.last with
        | ok linked => exact ⟨_, _, _, .added fits inserted⟩
        | error holder =>
            cases goes : flags.contains .replace with
            | false => exact ⟨_, _, _, .kept fits inserted goes⟩
            | true =>
                obtain ⟨left, linked, removed, again⟩ := state.exists_replace sorted inserted
                exact ⟨_, _, _, .replaced fits removed again inserted goes⟩
      · exact ⟨_, _, _, .refused fits⟩
  | erase probe query flags =>
      cases found : state.shape.find (state.seek (map.orderOr query) probe) with
      | none => exact ⟨_, _, _, .missed found⟩
      | some slot =>
          have mem := (mem_matching.mp (Shape.find_mem found)).1
          obtain ⟨linked, removed⟩ := state.exists_unlink sorted mem
          exact ⟨_, _, _, .erased removed found⟩
  | compact =>
      by_cases fits : Stock.packedSize state.pairs ≤ state.stock.limit
      · exact ⟨_, _, _, .compacted fits⟩
      · exact ⟨_, _, _, .uncompacted fits⟩
  | reserve entries bytes =>
      by_cases fits : state.stock.needed entries.toNat bytes.toNat ≤ state.stock.limit
      · exact ⟨_, _, _, .reserved fits⟩
      · exact ⟨_, _, _, .unreserved fits⟩
  | shrink => exact ⟨_, _, _, .shrunk⟩

/-- Every step keeps a state sorted. -/
theorem Step.sorted [Std.TransCmp map.order] (step : Step map state change reply events after)
    (sorted : state.Sorted map.order) : after.Sorted map.order := by
  cases step with
  | refused | missed | uncompacted | unreserved | kept | reserved | shrunk => exact sorted
  | added fits inserted => exact sorted_link fits inserted sorted
  | replaced fits removed inserted occupied =>
      rw [Sorted, pairs_settle]
      exact sorted_replace sorted occupied
  | erased removed =>
      rw [Sorted, pairs_settle]
      exact sorted_unlink removed sorted
  | compacted fits =>
      rw [Sorted, pairs_compacted]
      exact sorted

end State
end PackedMap
