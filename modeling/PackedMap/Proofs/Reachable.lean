import PackedMap.Proofs.Map.Duplicate
import PackedMap.Proofs.Map.Step

/-!
# Reachable maps

The maps that any finite run of operations leads to, from empty maps over lawful comparators.  A map
whose comparator looks at what a copy hook changes must not take copies from that hook.  Every
reachable map is in a sorted state, and no operation on it fails an internal check.
-/

namespace PackedMap

/-- The maps that operations lead to. -/
inductive Reachable : Map → Prop
  | empty (order : Comparator) [Std.TransCmp order] (config : Config) :
      Reachable (.empty order config)
  | change {map : Map} {outcome : Outcome Reply} (change : Change) :
      Reachable map →
      change.run map = .ok outcome →
      Reachable outcome.map
  | merge {map source : Map} {outcome : Outcome (Except CapacityError Unit)} :
      Reachable map →
      Reachable source →
      map.order.Ignores source.copyHook →
      map.merge source = .ok outcome →
      Reachable outcome.map
  | duplicate {map copy : Map} {events : List Event} :
      Reachable map →
      map.order.Ignores map.copyHook →
      map.duplicate = .ok (copy, events) →
      Reachable copy

/-- The state of an empty map. -/
def State.empty (initial limit : Nat) : State where
  stock := .empty initial limit
  shape := .nil
  balanced := trivial
  live := .refl _

/-- A map is in a state that is sorted under the map's own lawful comparator. -/
structure State.Describes (state : State) (map : Map) : Prop where
  lawful : Std.TransCmp map.order
  sorted : state.Sorted map.order
  same : state.on map = map

theorem State.describes_empty (order : Comparator) [lawful : Std.TransCmp order] (config : Config) :
    (State.empty config.initialCapacity config.limit).Describes (.empty order config) where
  lawful := lawful
  sorted := .nil
  same := rfl

namespace State.Describes

variable {state : State} {map : Map}

/-- A sorted state that a map is left in describes what is left. -/
theorem on (described : state.Describes map) {after : State} (sorted : after.Sorted map.order) :
    after.Describes (after.on map) where
  lawful := described.lawful
  sorted := sorted
  same := rfl

theorem change (described : state.Describes map) (change : Change) :
    ∃ reply events, ∃ after : State, Step map state change reply events after ∧
      after.Describes (after.on map) ∧ change.run map = .ok ⟨reply, after.on map, events⟩ := by
  have lawful := described.lawful
  obtain ⟨reply, events, after, step⟩ := exists_step described.sorted change
  have run := step.run
  rw [described.same] at run
  exact ⟨reply, events, after, step, described.on (step.sorted described.sorted), run⟩

theorem goesOn (described : state.Describes map) (change : Change) :
    ∃ outcome, change.run map = .ok outcome := by
  obtain ⟨reply, events, after, -, -, run⟩ := described.change change
  exact ⟨_, run⟩

/-- An addition goes through, and is a step. -/
theorem add (described : state.Describes map) (pair : Pair) (flags : Flags) :
    ∃ result events, ∃ after : State,
      Step map state (.add pair flags) (.ofExcept .addition result) events after ∧
        map.add pair flags = .ok ⟨result, after.on map, events⟩ := by
  obtain ⟨reply, events, after, step, -, run⟩ := described.change (.add pair flags)
  obtain ⟨⟨result, left, told⟩, added, answer⟩ := Checked.bind_eq_ok.mp run
  obtain ⟨rfl, rfl, rfl⟩ := Outcome.mk.inj (Except.ok.inj answer)
  exact ⟨result, _, after, step, added⟩

/-- A deletion goes through, and is a step. -/
theorem erase (described : state.Describes map) (probe : Pair) (query : Comparator)
    (flags : Flags) :
    ∃ result events, ∃ after : State,
      Step map state (.erase probe (some query) flags) (.flag result) events after ∧
        map.erase probe query flags = .ok ⟨result, after.on map, events⟩ := by
  obtain ⟨reply, events, after, step, -, run⟩ := described.change (.erase probe (some query) flags)
  obtain ⟨⟨result, left, told⟩, erased, answer⟩ := Checked.bind_eq_ok.mp run
  obtain ⟨rfl, rfl, rfl⟩ := Outcome.mk.inj (Except.ok.inj answer)
  exact ⟨result, _, after, step, erased⟩

theorem reads (described : state.Describes map) : map.entries = .ok state.liveEntries := by
  have read := state.entries_on map
  rwa [described.same] at read

theorem limit_eq (described : state.Describes map) : map.slab.limit = state.stock.limit :=
  congrArg (fun map : Map => map.slab.limit) described.same.symm

theorem used_eq (described : state.Describes map) :
    map.slab.used = Cell.total state.stock.cells * unitSize := by
  have used := state.stock.used_slab state.shape.nodes
  rw [← described.same]
  exact used

theorem disposes (described : state.Describes map) :
    map.dispose = .ok (map.freed state.liveEntries) := by
  have run := state.dispose_on map
  rwa [described.same] at run

/-- A merge comes to its end, or is refused and leaves the map as it was. -/
theorem merge_cases (described : state.Describes map) {other : State} {source : Map}
    (described' : other.Describes source) :
    (∃ copies after, Copies map.order source.copyHook state other.liveEntries copies after ∧
      map.merge source =
        .ok ⟨.ok (), after.on map, copying source.copyHook (copies.map Prod.snd)⟩) ∨
    ∃ before refused rest copies after, other.liveEntries = before ++ refused :: rest ∧
      Copies map.order source.copyHook state before copies after ∧
      ¬ after.stock.needed 1 refused.pair.size ≤ after.stock.limit ∧
      map.merge source =
        .ok ⟨.error (after.refusal (after.stock.needed 1 refused.pair.size)), state.on map,
          copying source.copyHook (copies.map Prod.snd) ++
            map.freed (copies.map (copyEntry source.copyHook))⟩ := by
  have run := merge_on state other map source
  have merge_eq : (state.on map).merge (other.on source) = map.merge source := by
    rw [described.same, described'.same]
  rwa [merge_eq] at run

theorem merge (described : state.Describes map) {other : State} {source : Map}
    (described' : other.Describes source) :
    ∃ result events, ∃ after : State, map.merge source = .ok ⟨result, after.on map, events⟩ ∧
      (map.order.Ignores source.copyHook → after.Describes (after.on map)) := by
  have lawful := described.lawful
  rcases described.merge_cases described' with
    ⟨copies, after, added, run⟩ | ⟨before, refused, rest, copies, after, -, -, -, run⟩
  · exact ⟨_, _, after, run, fun ignores => described.on (added.sorted ignores described.sorted)⟩
  · exact ⟨_, _, state, run, fun _ => described.on described.sorted⟩

/-- A duplicate is in a state with the same tree over copies of the entries. -/
theorem duplicate_spec (described : state.Describes map) :
    ∃ after : State, after.shape = state.shape ∧ after.stock.slots = state.stock.slots ∧
      (∀ slot ∈ state.shape.slots,
        after.stock.pairAt slot = (state.stock.entryAt slot).copied map.copyHook) ∧
      map.duplicate = .ok (after.on map, copying map.copyHook state.liveEntries) ∧
      (map.order.Ignores map.copyHook → after.Describes (after.on map)) := by
  have lawful := described.lawful
  obtain ⟨after, shape_eq, slots_eq, copied, run⟩ := state.duplicate_on map
  rw [described.same] at run
  exact ⟨after, shape_eq, slots_eq, copied, run, fun ignores =>
    described.on (sorted_of_copied ignores shape_eq copied described.sorted)⟩

theorem duplicate (described : state.Describes map) :
    ∃ events, ∃ after : State, map.duplicate = .ok (after.on map, events) ∧
      (map.order.Ignores map.copyHook → after.Describes (after.on map)) := by
  obtain ⟨after, -, -, -, run, left⟩ := described.duplicate_spec
  exact ⟨_, after, run, left⟩

end State.Describes

/-- Every reachable map is in a sorted state. -/
theorem Reachable.exists_state {map : Map} (reachable : Reachable map) :
    ∃ state : State, state.Describes map := by
  induction reachable with
  | empty order config => exact ⟨_, State.describes_empty order config⟩
  | change change _ run ih =>
      obtain ⟨state, described⟩ := ih
      obtain ⟨reply, events, after, -, left, run'⟩ := described.change change
      obtain rfl := Except.ok.inj (run.symm.trans run')
      exact ⟨after, left⟩
  | merge _ _ ignores run ih source_ih =>
      obtain ⟨state, described⟩ := ih
      obtain ⟨other, described'⟩ := source_ih
      obtain ⟨result, events, after, run', left⟩ := described.merge described'
      obtain rfl := Except.ok.inj (run.symm.trans run')
      exact ⟨after, left ignores⟩
  | duplicate _ ignores run ih =>
      obtain ⟨state, described⟩ := ih
      obtain ⟨events, after, run', left⟩ := described.duplicate
      obtain ⟨rfl, -⟩ := Prod.mk.inj (Except.ok.inj (run.symm.trans run'))
      exact ⟨after, left ignores⟩

/-- The map that changes lead to, where a change that fails is left out. -/
def Map.after (map : Map) : List Change → Map
  | [] => map
  | change :: rest =>
      match change.run map with
      | .ok outcome => outcome.map.after rest
      | .error _ => map.after rest

/-- What a map answers to changes one after another. -/
def Map.replies (map : Map) : List Change → Checked (List Reply)
  | [] => return []
  | change :: rest => do
    let outcome ← change.run map
    return outcome.result :: (← outcome.map.replies rest)

theorem Reachable.after {map : Map} (reachable : Reachable map) (changes : List Change) :
    Reachable (map.after changes) := by
  induction changes generalizing map with
  | nil => exact reachable
  | cons change rest ih =>
      rw [Map.after]
      split
      · next outcome run => exact ih (reachable.change change run)
      · exact ih reachable

/-- Changes leave a reachable map's comparator as it is. -/
theorem Reachable.order_after {map : Map} (reachable : Reachable map) (changes : List Change) :
    (map.after changes).order = map.order := by
  induction changes generalizing map with
  | nil => rfl
  | cons change rest ih =>
      obtain ⟨state, described⟩ := reachable.exists_state
      obtain ⟨reply, events, after, -, -, run⟩ := described.change change
      rw [Map.after, run]
      exact ih (reachable.change change run)

end PackedMap
