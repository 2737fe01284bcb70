import PackedMap.Proofs.Comparator
import PackedMap.Proofs.Drift

/-!
# Compactions that are due

A deletion or a replacement that may compact leaves no more tombstones than live entries.  The
compaction that it takes is never refused: packing the live entries asks for at most seven bytes
more for each of them than they take, and the tombstones, which are more, take a header each.
-/

namespace PackedMap

/-- The switches of a change. -/
def Change.flags : Change → Flags
  | .add _ flags | .erase _ _ flags => flags
  | .compact | .reserve _ _ | .shrink => .empty

/-- What a map becomes where a compaction is allowed: the same map, or the compacted one if that is
due. -/
structure Map.Settles (map later : Map) : Prop where
  few : later.tombstones ≤ later.size
  idle : map.tombstones ≤ map.size → later = map
  due : map.size < map.tombstones → ∃ packed, map.compact = .ok packed ∧
    packed.result = .ok map.tombstones ∧ later = packed.map

namespace State

variable {state after : State} {map : Map} {change : Change} {reply : Reply} {events : List Event}

theorem compact_due (map : Map) (due : state.shape.slots.length < state.stock.tombstones) :
    (state.on map).compact = .ok ⟨.ok state.stock.tombstones,
      (state.compacted (packedSize_le_of_due due)).on map, []⟩ := by
  rw [compact_on, dif_pos (packedSize_le_of_due due)]

/-- A state settles as its map does. -/
theorem settles_on (state : State) (map : Map) {flags : Flags}
    (allowed : flags.contains .allowCompaction = true) :
    (state.on map).Settles ((state.settle flags).on map) := by
  by_cases due : state.shape.slots.length < state.stock.tombstones
  · rw [settle_due allowed due]
    have fresh : ((state.compacted (packedSize_le_of_due due)).on map).tombstones = 0 :=
      Stock.tombstones_packed
    constructor
    · rw [fresh]
      exact Nat.zero_le _
    · intro idle
      exact absurd due (Nat.not_lt.mpr idle)
    · intro _
      exact ⟨_, state.compact_due map due, rfl, rfl⟩
  · rw [settle_idle due]
    constructor
    · exact Nat.not_lt.mp due
    · intro _
      rfl
    · intro due'
      exact absurd due' due

/-- Leave to compact makes no difference to a change but that the state settles after an entry was
deleted or replaced. -/
theorem Step.spared (step : Step map state change reply events after) :
    ∃ spared, Step map state change.sparing reply events spared ∧
      (reply.retires = true → after = spared.settle change.flags) := by
  cases step with
  | refused full => exact ⟨_, .refused full, fun retires => by cases retires⟩
  | added fits inserted => exact ⟨_, .added fits inserted, fun retires => by cases retires⟩
  | @kept pair flags holder fits occupied stays =>
      have stays' := flags.replace_without.trans stays
      exact ⟨_, .kept fits occupied stays', fun retires => by cases retires⟩
  | @replaced pair flags holder left linked fits removed inserted occupied goes =>
      have again : Step map state (.add pair (flags.without .allowCompaction))
          (.addition .replaced) (map.freed [state.stock.entryAt holder])
          ((state.replace pair fits removed inserted).settle (flags.without .allowCompaction)) :=
        .replaced fits removed inserted occupied (flags.replace_without.trans goes)
      rw [settle_still _ flags.contains_without] at again
      exact ⟨_, again, fun _ => rfl⟩
  | missed none => exact ⟨_, .missed none, fun retires => by cases retires⟩
  | @erased probe query flags slot linked removed found =>
      have again : Step map state (.erase probe query (flags.without .allowCompaction))
          (.flag true) (map.freed [state.stock.entryAt slot])
          ((state.unlink removed).settle (flags.without .allowCompaction)) := .erased removed found
      rw [settle_still _ flags.contains_without] at again
      exact ⟨_, again, fun _ => rfl⟩
  | compacted fits => exact ⟨_, .compacted fits, fun retires => by cases retires⟩
  | uncompacted full => exact ⟨_, .uncompacted full, fun retires => by cases retires⟩
  | reserved fits => exact ⟨_, .reserved fits, fun retires => by cases retires⟩
  | unreserved full => exact ⟨_, .unreserved full, fun retires => by cases retires⟩
  | shrunk => exact ⟨_, .shrunk, fun retires => by cases retires⟩

end State

/-- On a reachable map a compaction is not refused once tombstones outnumber the live entries, and
every deletion or replacement that may compact then does. -/
theorem reachable_settles {map : Map} (reachable : Reachable map) :
    (map.size < map.tombstones → ∃ packed, map.compact = .ok packed ∧
      packed.result = .ok map.tombstones) ∧
    ∀ change : Change, change.flags.contains .allowCompaction = true → ∃ outcome spared,
      change.run map = .ok outcome ∧ change.sparing.run map = .ok spared ∧
      outcome.result = spared.result ∧
      (outcome.result.retires = true → spared.map.Settles outcome.map) := by
  obtain ⟨state, described⟩ := reachable.exists_state
  constructor
  · intro due
    rw [← described.same] at due ⊢
    exact ⟨_, state.compact_due _ due, rfl⟩
  · intro change allowed
    obtain ⟨reply, events, after, step, -, run⟩ := described.change change
    obtain ⟨spared, spared_step, settled⟩ := step.spared
    have spared_run := spared_step.run
    rw [described.same] at spared_run
    refine ⟨_, _, run, spared_run, rfl, fun retires => ?_⟩
    have settles := spared.settles_on map allowed
    rw [← settled retires] at settles
    exact settles

/-- A map without room for a third entry beside a live one and a tombstone. -/
def brimful : Map := (Map.empty .byKey ⟨0, 64, none, false⟩).after
  [.add ⟨[107], [118]⟩ .empty, .add ⟨[107], [119]⟩ .replace]

theorem reachable_settles_brimful : Reachable brimful ∧ brimful.slab.used = brimful.slab.limit ∧
    ∃ outcome spared : Outcome Reply,
      Change.run brimful (.erase ⟨[107], []⟩ none .allowCompaction) = .ok outcome ∧
      outcome.result.retires = true ∧ spared.map.Settles outcome.map := by
  have reachable : Reachable brimful := (Reachable.empty .byKey ⟨0, 64, none, false⟩).after _
  have told : (Change.run brimful (.erase ⟨[107], []⟩ none .empty)).map Outcome.result =
    .ok (.flag true) := rfl
  obtain ⟨outcome, spared, run, spared_run, same, settles⟩ :=
    (reachable_settles reachable).2 (.erase ⟨[107], []⟩ none .allowCompaction) (by decide)
  have without : Flags.without .allowCompaction .allowCompaction = .empty := by decide
  rw [Change.sparing, without] at spared_run
  rw [spared_run] at told
  have retires : outcome.result.retires = true := by
    rw [same, show spared.result = .flag true from Except.ok.inj told]
    rfl
  exact ⟨reachable, by decide +kernel, outcome, spared, run, retires, settles retires⟩

end PackedMap
