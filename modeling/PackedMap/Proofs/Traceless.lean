import PackedMap.Proofs.Comparator
import PackedMap.Proofs.Map.Cost

/-!
# Additions and deletions that come to nothing

Room for a new entry is reserved before anything else happens, so a refusal needs no undoing.  An
equal entry is met only when the new one is already in the slab; it is cut off again, and all that
can be seen of it is the room.  A deletion that finds nothing has only read.
-/

namespace PackedMap

/-- Bytes in use once an entry is appended. -/
def Map.usedWith (map : Map) (pair : Pair) : Nat := map.slab.used + unitSize * pair.units

/-- An addition is refused exactly where the entry would pass the limit, whatever else the map
contains.  If it adds nothing, it leaves no trace but room. -/
structure Map.AddsCleanly (map : Map) (pair : Pair)
    (outcome : Outcome (Except CapacityError Addition)) : Prop where
  refused_iff : (∃ refused, outcome.result = .error refused) ↔ map.slab.limit < map.usedWith pair
  refused : ∀ refused, outcome.result = .error refused → outcome.map = map ∧ outcome.events = []
  kept : outcome.result = .ok .alreadyPresent →
    outcome.map =
        { map with slab := { map.slab with capacity := outcome.map.slab.capacity } } ∧
      map.slab.capacity ≤ outcome.map.slab.capacity ∧ outcome.events = []

namespace State

variable {state after : State} {map : Map} {pair : Pair} {flags : Flags} {events : List Event}
  {result : Except CapacityError Addition}

/-- More room shows in the capacity only. -/
theorem grow_on (state : State) (map : Map) (needed : Nat) :
    (state.grow needed).on map =
      { state.on map with slab :=
        { (state.on map).slab with capacity := state.stock.grownCapacity needed } } := rfl

theorem Describes.fits_iff (described : state.Describes map) (pair : Pair) :
    state.stock.needed 1 pair.size ≤ state.stock.limit ↔
      map.usedWith pair ≤ map.slab.limit := by
  rw [Stock.needed_one, Map.usedWith, described.used_eq, described.limit_eq]

theorem Step.refuses_iff
    (step : Step map state (.add pair flags) (.ofExcept .addition result) events after) :
    (∃ refused, result = .error refused) ↔
      ¬ state.stock.needed 1 pair.size ≤ state.stock.limit := by
  have accepted := step.accepted trivial
  cases result with
  | error refused =>
      have full := mt accepted.mpr Bool.noConfusion
      exact iff_of_true ⟨refused, rfl⟩ full
  | ok ending =>
      have fits := accepted.mp rfl
      refine iff_of_false ?_ (not_not_intro fits)
      rintro ⟨refused, told⟩
      cases told

theorem Step.addsCleanly (described : state.Describes map)
    (step : Step map state (.add pair flags) (.ofExcept .addition result) events after) :
    map.AddsCleanly pair ⟨result, after.on map, events⟩ where
  refused_iff := by
    rw [step.refuses_iff, described.fits_iff, Nat.not_le]
  refused := by
    rintro refused rfl
    cases step with
    | refused full => exact ⟨described.same, rfl⟩
  kept := by
    rintro rfl
    cases step with
    | kept fits occupied stays =>
        have grown := state.grow_on map (state.stock.needed 1 pair.size)
        have larger := (state.stock.grownCapacity_bounds (state.stock.needed 1 pair.size)).1
        have capacity_eq : (state.on map).slab.capacity = state.stock.capacity := rfl
        rw [← capacity_eq] at larger
        rw [described.same] at grown larger
        exact ⟨grown, larger, rfl⟩

end State

/-- Whatever the flags are and whatever the map contains, an addition is refused exactly where the
entry would pass the limit, and then nothing at all has changed.  Nor does an addition that finds an
equal entry change anything but the capacity, or a deletion that finds no entry anything. -/
theorem idle_updates_traceless {map : Map} (reachable : Reachable map) :
    (∀ pair flags, ∃ outcome, map.add pair flags = .ok outcome ∧ map.AddsCleanly pair outcome) ∧
      ∀ probe query flags, ∃ outcome, map.erase probe query flags = .ok outcome ∧
        (outcome.result = false → outcome.map = map ∧ outcome.events = []) := by
  obtain ⟨state, described⟩ := reachable.exists_state
  constructor
  · intro pair flags
    obtain ⟨result, events, after, step, run⟩ := described.add pair flags
    exact ⟨_, run, step.addsCleanly described⟩
  · intro probe query flags
    obtain ⟨result, events, after, step, run⟩ := described.erase probe query flags
    refine ⟨_, run, ?_⟩
    rintro rfl
    cases step with
    | missed none => exact ⟨described.same, rfl⟩

/-- A map with three entries and no room for a fourth one. -/
def crowded : Map :=
  (Map.empty .byKey ⟨0, 100, none, true⟩).after
    [.add ⟨[1], [2]⟩ .empty, .add ⟨[2], []⟩ .empty, .add ⟨[3], []⟩ .empty]

-- even an addition that is to replace an entry is refused, and that entry is still there
theorem idle_updates_traceless_crowded :
    Reachable crowded ∧
      crowded.find? ⟨[1], []⟩ .byKey = .ok (some ⟨⟨0⟩, ⟨[1], [2]⟩⟩) ∧
      ∃ outcome refused, crowded.add ⟨[1], [9]⟩ .replace = .ok outcome ∧
        outcome.result = .error refused ∧ outcome.map = crowded ∧ outcome.events = [] := by
  have reachable : Reachable crowded := (Reachable.empty .byKey _).after _
  have full : crowded.slab.limit < crowded.usedWith ⟨[1], [9]⟩ := by decide +kernel
  obtain ⟨outcome, run, clean⟩ := (idle_updates_traceless reachable).1 ⟨[1], [9]⟩ .replace
  obtain ⟨refused, told⟩ := clean.refused_iff.mpr full
  exact ⟨reachable, by decide +kernel, outcome, refused, run, told, clean.refused refused told⟩

end PackedMap
