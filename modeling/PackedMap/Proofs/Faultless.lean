import PackedMap.Proofs.Drift
import PackedMap.Proofs.Intact
import PackedMap.Proofs.Map.Matching

/-!
# No faults

The internal checks guard against links to nothing, balances out of range, appends without room,
entries unlinked or released twice, and reads outside the used bytes.  On a reachable map none of
them fails, whatever is done with it, as long as identities of entries are not used after a
compaction.
-/

namespace PackedMap

/-- One map leads to another one in which all identities of its entries are still good. -/
inductive Retains : Map → Map → Prop
  | refl (map : Map) : Retains map map
  | drift {earlier map later : Map} :
      Retains earlier map →
      Drifts map later →
      Retains earlier later
  | merge {earlier map source : Map} {outcome : Outcome (Except CapacityError Unit)} :
      Retains earlier map →
      Reachable source →
      map.order.Ignores source.copyHook →
      map.merge source = .ok outcome →
      Retains earlier outcome.map
  | duplicate {earlier map copy : Map} {events : List Event} :
      Retains earlier map →
      map.order.Ignores map.copyHook →
      map.duplicate = .ok (copy, events) →
      Retains earlier copy

/-- An identity may be used as a cursor of a map: it was given out with an entry and is still good,
or it lies past the end. -/
def Map.Allows (map : Map) (id : Slot) : Prop :=
  (∃ earlier entries, Reachable earlier ∧ Retains earlier map ∧ earlier.entries = .ok entries ∧
    ∃ entry ∈ entries, entry.id = id) ∨
  map.slab.endSlot.index ≤ id.index

/-- No internal check fails, whatever is done with a map. -/
structure Map.Faultless (map : Map) : Prop where
  change : ∀ change : Change, ∃ outcome, change.run map = .ok outcome
  merge : ∀ source, Reachable source → ∃ outcome, map.merge source = .ok outcome
  duplicate : ∃ copy, map.duplicate = .ok copy
  dispose : ∃ events, map.dispose = .ok events
  query : ∀ query : Query, ∃ reply, query.run map = .ok reply
  start : ∀ walk : Walk, ∃ entry, walk.next? map none = .ok entry
  goOn : ∀ id, map.Allows id → ∀ walk : Walk, ∃ entry, walk.next? map (some id) = .ok entry

namespace State

variable {state : State} {map : Map}

/-- Every query of a sorted state is answered. -/
theorem exists_reply [Std.TransCmp map.order] (sorted : state.Sorted map.order) (query : Query) :
    ∃ reply, query.run (state.on map) = .ok reply := by
  cases query with
  | find probe query => exact ⟨_, Checked.bind_eq (state.find?_on map probe _) _⟩
  | allMatches probe query =>
      obtain ⟨found, ends, -⟩ := exists_walk sorted probe (map.orderOr query)
      have few := Nat.lt_add_one_of_le (state.length_slots_le map)
      exact ⟨_, Checked.bind_eq (ends _ few) _⟩
  | range probe query => exact ⟨_, Checked.bind_eq (state.range_on map probe _) _⟩
  | neighbors probe query => exact ⟨_, Checked.bind_eq (state.locate_on map probe _) _⟩
  | compare a b query => exact ⟨_, rfl⟩
  | entries => exact ⟨_, Checked.bind_eq (state.entries_on map) _⟩
  | sorted => exact ⟨_, Checked.bind_eq (state.sorted_on map) _⟩
  | counts => exact ⟨_, rfl⟩
  | shape => exact ⟨_, Checked.bind_eq (Shape.shape_slab state.held) _⟩
  | records => exact ⟨_, Checked.bind_eq (state.records_on map) _⟩
  | inspect layout =>
      rw [Query.run, Map.inspect, state.sorted_on map]
      exact ⟨_, rfl⟩
  | inspectEntry probe query layout =>
      exact ⟨_, Checked.bind_eq (state.find?_on map probe _) _⟩

theorem exists_start (state : State) (map : Map) (walk : Walk) :
    ∃ entry, walk.next? (state.on map) none = .ok entry := by
  cases walk with
  | matching probe query => exact ⟨_, state.nextMatch?_first map probe _⟩
  | everything => exact ⟨_, state.next?_first map⟩

/-- A walk goes on from every entry of the slab, be it live or a tombstone. -/
theorem exists_goOn [Std.TransCmp map.order] (sorted : state.Sorted map.order) {id : Slot}
    (mem : id ∈ state.stock.slots) (walk : Walk) :
    ∃ entry, walk.next? (state.on map) (some id) = .ok entry := by
  cases walk with
  | matching probe query => exact ⟨_, nextMatch?_behind sorted mem probe _⟩
  | everything => exact ⟨_, state.next?_behind map mem⟩

/-- What retains identities keeps every slot. -/
theorem Describes.retains {earlier : Map} (described : state.Describes earlier)
    (retains : Retains earlier map) :
    ∃ after : State, after.Describes map ∧
      ∀ slot ∈ state.stock.slots, slot ∈ after.stock.slots := by
  induction retains with
  | refl => exact ⟨state, described, fun _ mem => mem⟩
  | drift _ drifts ih =>
      obtain ⟨middle, left, kept⟩ := ih
      obtain ⟨-, after, ended, keeps⟩ := left.drifts drifts
      exact ⟨after, ended, fun slot mem => keeps.slots slot (kept slot mem)⟩
  | merge _ source_reachable ignores run ih =>
      obtain ⟨middle, left, kept⟩ := ih
      obtain ⟨other, source_described⟩ := source_reachable.exists_state
      have lawful := left.lawful
      rcases left.merge_cases source_described with
        ⟨copies, after, added, run'⟩ | ⟨before, refused, rest, copies, after, -, -, -, run'⟩
      · cases run.symm.trans run'
        exact ⟨after, left.on (added.sorted ignores left.sorted),
          fun slot mem => added.keeps.slots slot (kept slot mem)⟩
      · cases run.symm.trans run'
        exact ⟨middle, left.on left.sorted, kept⟩
  | duplicate _ ignores run ih =>
      obtain ⟨middle, left, kept⟩ := ih
      obtain ⟨after, -, slots_eq, -, run', ended⟩ := left.duplicate_spec
      cases run.symm.trans run'
      exact ⟨after, ended ignores, fun slot mem => slots_eq ▸ kept slot mem⟩

end State

/-- A walk goes on from every identity that may be used. -/
theorem Map.Allows.exists_goOn {map : Map} {id : Slot} (allowed : map.Allows id) (walk : Walk) :
    ∃ entry, walk.next? map (some id) = .ok entry := by
  rcases allowed with ⟨earlier, entries, reachable, retains, read, entry, mem, rfl⟩ | outside
  · obtain ⟨before, described⟩ := reachable.exists_state
    obtain ⟨after, left, kept⟩ := described.retains retains
    have lawful := left.lawful
    have here : entry.id ∈ before.stock.slots := by
      obtain rfl := Except.ok.inj (read.symm.trans described.reads)
      obtain ⟨slot, live, rfl⟩ := List.mem_map.mp mem
      exact Stock.mem_slots_of_live live
    have goes_on := State.exists_goOn left.sorted (kept entry.id here) walk
    rwa [left.same] at goes_on
  · cases walk with
    | matching probe query => exact ⟨_, nextMatch?_outside outside probe _⟩
    | everything => exact ⟨_, next?_outside outside⟩

/-- On a reachable map no internal check fails: whatever is done next ends in a result. -/
theorem reachable_faultless {map : Map} (reachable : Reachable map) : map.Faultless := by
  obtain ⟨state, described⟩ := reachable.exists_state
  have lawful := described.lawful
  have replies := State.exists_reply described.sorted
  have starts := state.exists_start map
  rw [described.same] at replies starts
  constructor
  · exact described.goesOn
  · intro source source_reachable
    obtain ⟨other, source_described⟩ := source_reachable.exists_state
    obtain ⟨result, events, after, run, -⟩ := described.merge source_described
    exact ⟨_, run⟩
  · obtain ⟨events, after, run, -⟩ := described.duplicate
    exact ⟨_, run⟩
  · exact ⟨_, described.disposes⟩
  · exact replies
  · exact starts
  · intro id allowed walk
    exact allowed.exists_goOn walk

/-- A map with one entry. -/
def single : Map := (Map.empty .byKey .default).after [.add ⟨[107], [118]⟩ .empty]

/-- The map whose only entry is erased. -/
def spent : Map := single.after [.erase ⟨[107], []⟩ none .empty]

theorem reachable_faultless_spent : Reachable spent ∧ spent.tombstones = 1 ∧
    spent.Allows ⟨0⟩ ∧ ∃ entry, Walk.everything.next? spent (some ⟨0⟩) = .ok entry := by
  have before : Reachable single := (Reachable.empty .byKey .default).after _
  have spares : Change.Spares single (.erase ⟨[107], []⟩ none .empty) := rfl
  have allowed : spent.Allows ⟨0⟩ := .inl ⟨single, [⟨⟨0⟩, ⟨[107], [118]⟩⟩], before,
    .drift (.refl single) (.after spares), by decide +kernel, _, List.mem_cons_self, rfl⟩
  have reachable : Reachable spent := before.after _
  exact ⟨reachable, by decide +kernel, allowed,
    (reachable_faultless reachable).goOn ⟨0⟩ allowed .everything⟩

end PackedMap
