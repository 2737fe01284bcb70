import PackedMap.Proofs.MatchWalk

/-!
# Walks over all entries

A walk over all entries goes through the slab while the map changes.  Its cursor is a slot, and what
is still to come is what is live behind it: entries that go leave the list of these, and new ones
join it at its end.  So each entry that is live in the end has been met, and met once.
-/

namespace PackedMap

/-- A walk over all entries behind a cursor, with operations before each call.  It goes on as long
as there is an entry, or pauses. -/
inductive EntryWalk : Option Slot → Map → List Stop → Prop
  | pause (cursor : Option Slot) (map : Map) : EntryWalk cursor map []
  | last {cursor : Option Slot} {map later : Map} {answer : Checked (Option Entry)} :
      Passes map later →
      later.next? cursor = answer →
      (∀ entry, answer ≠ .ok (some entry)) →
      EntryWalk cursor map [⟨later, answer⟩]
  | next {cursor : Option Slot} {map later : Map} {entry : Entry} {rest : List Stop} :
      Passes map later →
      later.next? cursor = .ok (some entry) →
      EntryWalk (some entry.id) later rest →
      EntryWalk cursor map (⟨later, .ok (some entry)⟩ :: rest)

/-- A walk over all entries survives the operations on the way. -/
structure Endures (stops : List Stop) : Prop where
  answered : ∀ stop ∈ stops, ∃ found, stop.answer = .ok found
  change : ∀ stop ∈ stops, ∀ change, ∃ outcome, Change.run stop.map change = .ok outcome
  merge : ∀ stop ∈ stops, ∀ source sources, source.entries = .ok sources →
    ∃ outcome, stop.map.merge source = .ok outcome
  live : ∀ stop ∈ stops, ∀ entry, stop.answer = .ok (some entry) → stop.Holds entry
  increasing : (visited stops).Pairwise fun a b => a.id.index < b.id.index
  complete : ∀ stop ∈ stops, stop.answer = .ok none → ∀ entry, stop.Holds entry →
    (visited stops).count entry = 1

/-- A walk over all entries of one map to its end, without an operation on the way. -/
structure Tour (map : Map) (stops : List Stop) : Prop where
  walk : EntryWalk none map stops
  undisturbed : ∀ stop ∈ stops, stop.map = map
  ended : ∃ stop ∈ stops, stop.answer = .ok none

theorem EntryWalk.passes {cursor : Option Slot} {map : Map} {stops : List Stop}
    (walk : EntryWalk cursor map stops) : ∀ stop ∈ stops, Passes map stop.map := by
  induction walk with
  | pause cursor map => exact List.forall_mem_nil _
  | last passes called ended => exact List.forall_mem_singleton.mpr passes
  | next passes called _ ih =>
      exact List.forall_mem_cons.mpr ⟨passes, fun stop mem => passes.trans (ih stop mem)⟩

/-! ## Scans -/

/-- A slot stands behind a cursor, if there is one. -/
def ahead (cursor : Option Slot) (slot : Slot) : Bool :=
  cursor.all fun last => last.index < slot.index

/-- Each call of a walk gives the first entry behind the one before, among all that are live then or
later on, and none only if none is left. -/
inductive Scans : Option Slot → List Stop → Prop
  | pause (cursor : Option Slot) : Scans cursor []
  | last {cursor : Option Slot} {map : Map} :
      (∀ entry, Stop.Holds ⟨map, .ok none⟩ entry → ahead cursor entry.id = false) →
      Scans cursor [⟨map, .ok none⟩]
  | next {cursor : Option Slot} {map : Map} {entry : Entry} {rest : List Stop} :
      Stop.Holds ⟨map, .ok (some entry)⟩ entry →
      ahead cursor entry.id = true →
      (∀ stop ∈ rest, ∀ other, stop.Holds other → ahead cursor other.id = true →
        other = entry ∨ entry.id.index < other.id.index) →
      Scans (some entry.id) rest →
      Scans cursor (⟨map, .ok (some entry)⟩ :: rest)

namespace Scans

variable {cursor : Option Slot} {stops : List Stop}

theorem answered (scans : Scans cursor stops) :
    ∀ stop ∈ stops, ∃ found, stop.answer = .ok found := by
  induction scans with
  | pause cursor => exact List.forall_mem_nil _
  | last passed => exact List.forall_mem_singleton.mpr ⟨_, rfl⟩
  | next live behind first _ ih => exact List.forall_mem_cons.mpr ⟨⟨_, rfl⟩, ih⟩

theorem live (scans : Scans cursor stops) :
    ∀ stop ∈ stops, ∀ entry, stop.answer = .ok (some entry) → stop.Holds entry := by
  induction scans with
  | pause cursor => exact List.forall_mem_nil _
  | last passed => exact List.forall_mem_singleton.mpr fun entry answer => by cases answer
  | next live behind first _ ih =>
      refine List.forall_mem_cons.mpr ⟨fun entry answer => ?_, ih⟩
      obtain rfl := Option.some.inj (Except.ok.inj answer)
      exact live

/-- The entries met stand one behind another, all of them behind the cursor. -/
theorem increasing (scans : Scans cursor stops) :
    (∀ entry ∈ visited stops, ahead cursor entry.id = true) ∧
      (visited stops).Pairwise fun a b => a.id.index < b.id.index := by
  induction scans with
  | pause cursor => exact ⟨List.forall_mem_nil _, .nil⟩
  | last passed => exact ⟨List.forall_mem_nil _, .nil⟩
  | @next cursor map entry rest live behind first _ ih =>
      obtain ⟨later_behind, increasing⟩ := ih
      have after_entry : ∀ later ∈ visited rest, entry.id.index < later.id.index :=
        fun later mem => of_decide_eq_true (later_behind later mem)
      rw [Traces.visited_next]
      constructor
      · refine List.forall_mem_cons.mpr ⟨behind, fun later mem => ?_⟩
        cases cursor with
        | none => rfl
        | some last =>
            exact decide_eq_true
              (UInt32.lt_trans (of_decide_eq_true behind) (after_entry later mem))
      · exact List.pairwise_cons.mpr ⟨after_entry, increasing⟩

/-- What is live at the end of a walk and stands behind the cursor is met on the way. -/
theorem complete (scans : Scans cursor stops) {stop : Stop} (mem : stop ∈ stops)
    (ended : stop.answer = .ok none) {entry : Entry} (held : stop.Holds entry)
    (behind : ahead cursor entry.id = true) : entry ∈ visited stops := by
  induction scans with
  | pause cursor => cases mem
  | last passed =>
      obtain rfl := List.mem_singleton.mp mem
      rw [passed entry held] at behind
      cases behind
  | next live first_behind first _ ih =>
      rw [Traces.visited_next]
      rcases List.mem_cons.mp mem with rfl | later
      · cases ended
      · rcases first stop later entry held behind with rfl | after_first
        · exact List.mem_cons_self
        · exact List.mem_cons_of_mem _ (ih later (decide_eq_true after_first))

end Scans

/-! ## Calls -/

namespace State

variable {state after : State} {map : Map} {cursor : Option Slot} {slot : Slot} {stops : List Stop}

/-- A call gives the first live entry behind the cursor. -/
theorem next?_on (state : State) (map : Map) (valid : ∀ last ∈ cursor, last ∈ state.stock.slots) :
    (state.on map).next? cursor =
      .ok ((state.stock.liveSlots.find? (ahead cursor)).map state.stock.entryAt) := by
  cases cursor with
  | none =>
      have all : state.stock.liveSlots.find? (ahead none) = state.stock.liveSlots.head? := by
        have kept := List.filter_eq_self.mpr fun slot (_ : slot ∈ state.stock.liveSlots) =>
          show ahead none slot = true from rfl
        rw [← List.head?_filter, kept]
      rw [all]
      exact state.next?_first map
  | some last => exact state.next?_behind map (valid last rfl)

/-- Behind the first live entry after a cursor stands what stood after the cursor, but for that
entry. -/
theorem filter_ahead (found : state.stock.liveSlots.find? (ahead cursor) = some slot) :
    state.stock.liveSlots.filter (ahead cursor) =
      slot :: state.stock.liveSlots.filter (ahead (some slot)) := by
  have behind := List.find?_some found
  obtain ⟨rest, split⟩ : ∃ rest, state.stock.liveSlots.filter (ahead cursor) = slot :: rest := by
    rw [← List.head?_filter] at found
    exact List.head?_eq_some_iff.mp found
  have increasing := state.stock.liveSlots_increasing.filter (ahead cursor)
  rw [split] at increasing
  have after_slot := (List.pairwise_cons.mp increasing).1
  have further : ∀ other, ahead (some slot) other = true → ahead cursor other = true := by
    intro other later
    cases cursor with
    | none => rfl
    | some last =>
        exact decide_eq_true (UInt32.lt_trans (of_decide_eq_true behind) (of_decide_eq_true later))
  have rest_eq : state.stock.liveSlots.filter (ahead (some slot)) = rest := by
    have twice : state.stock.liveSlots.filter (ahead (some slot)) =
        (state.stock.liveSlots.filter (ahead cursor)).filter (ahead (some slot)) := by
      rw [List.filter_filter]
      refine List.filter_congr fun other _ => ?_
      cases later : ahead (some slot) other with
      | false => rfl
      | true => rw [further other later]; rfl
    rw [twice, split, List.filter_cons_of_neg (by simp [ahead])]
    exact List.filter_eq_self.mpr fun other mem => decide_eq_true (after_slot other mem)
  rw [split, rest_eq]

namespace Describes

theorem next? (described : state.Describes map)
    (valid : ∀ last ∈ cursor, last ∈ state.stock.slots) :
    map.next? cursor =
      .ok ((state.stock.liveSlots.find? (ahead cursor)).map state.stock.entryAt) := by
  have called := state.next?_on map valid
  rwa [described.same] at called

/-- The first live entry behind a cursor comes before all others that are live behind the cursor, be
it now or after operations that do not compact. -/
theorem first_of_found (described : state.Describes map)
    (found : state.stock.liveSlots.find? (ahead cursor) = some slot) {stop : Stop}
    (passes : Passes map stop.map) {other : Entry} (held : stop.Holds other)
    (behind : ahead cursor other.id = true) :
    other = state.stock.entryAt slot ∨ slot.index < other.id.index := by
  obtain ⟨-, after, gone, left, precedes⟩ := described.passes passes
  obtain ⟨later, mem, rfl⟩ := left.holds.mp held
  have live := List.mem_of_find?_eq_some found
  have inside := Stock.mem_slots_of_live live
  rcases precedes.old_or_new (mem_live.mp mem) with old | new
  · have among : later ∈ state.stock.liveSlots.filter (ahead cursor) :=
      List.mem_filter.mpr ⟨old, behind⟩
    rw [filter_ahead found] at among
    rcases List.mem_cons.mp among with rfl | after_slot
    · exact .inl (congrArg (Entry.mk later) (precedes.pairs later inside))
    · exact .inr (of_decide_eq_true (List.mem_filter.mp after_slot).2)
  · exact .inr (UInt32.lt_iff_toNat_lt.mpr (Nat.lt_of_lt_of_le (Stock.lt_last inside) new))

theorem scans (described : state.Describes map) (walk : EntryWalk cursor map stops)
    (valid : ∀ last ∈ cursor, last ∈ state.stock.slots) : Scans cursor stops := by
  -- The entry under the cursor may be gone: the cursor is good as long as its slot is a slot.
  induction walk generalizing state with
  | pause cursor map => exact .pause _
  | @last cursor map later answer passes called ended =>
      obtain ⟨-, after, gone, left, precedes⟩ := described.passes passes
      have call := left.next? fun last same => precedes.mem (valid last same)
      obtain rfl := called.symm.trans call
      cases found : after.stock.liveSlots.find? (ahead cursor) with
      | some slot =>
          rw [found] at ended
          exact absurd rfl (ended _)
      | none =>
          refine .last fun entry held => ?_
          obtain ⟨slot, mem, rfl⟩ := left.holds.mp held
          exact Bool.not_eq_true _ ▸ List.find?_eq_none.mp found slot (mem_live.mp mem)
  | @next cursor map later entry rest passes called walk ih =>
      obtain ⟨-, after, gone, left, precedes⟩ := described.passes passes
      have call := left.next? fun last same => precedes.mem (valid last same)
      obtain ⟨slot, found, rfl⟩ := Option.map_eq_some_iff.mp
        (Except.ok.inj (called.symm.trans call)).symm
      have live := List.mem_of_find?_eq_some found
      refine .next (left.holds.mpr ⟨slot, mem_live.mpr live, rfl⟩) (List.find?_some found) ?_ ?_
      · intro stop mem other held behind
        exact left.first_of_found found (walk.passes stop mem) held behind
      · apply ih left
        intro last same
        obtain rfl := Option.mem_some_iff.mp same
        exact Stock.mem_slots_of_live live

theorem endures (described : state.Describes map) (walk : EntryWalk none map stops) :
    Endures stops := by
  have scans := described.scans walk (by simp)
  constructor
  · exact scans.answered
  · intro stop mem
    obtain ⟨-, after, gone, left, -⟩ := described.passes (walk.passes stop mem)
    exact left.goesOn
  · intro stop mem source sources read
    obtain ⟨-, after, gone, left, -⟩ := described.passes (walk.passes stop mem)
    obtain ⟨result, events, later, run, -⟩ := left.merges read
    exact ⟨_, run⟩
  · exact scans.live
  · exact scans.increasing.2
  · intro stop mem ended entry held
    have distinct : (visited stops).Nodup := by
      refine scans.increasing.2.imp fun {a b} less same => ?_
      rw [same] at less
      exact UInt32.lt_irrefl _ less
    exact List.count_eq_one_of_mem distinct (scans.complete mem ended held rfl)

/-! ## Walks without operations -/

/-- A walk on one map meets what is live behind its cursor. -/
theorem visited_eq (described : state.Describes map) (walk : EntryWalk cursor map stops)
    (undisturbed : ∀ stop ∈ stops, stop.map = map) (ended : ∃ stop ∈ stops, stop.answer = .ok none)
    (valid : ∀ last ∈ cursor, last ∈ state.stock.slots) :
    visited stops = (state.stock.liveSlots.filter (ahead cursor)).map state.stock.entryAt := by
  induction walk with
  | pause cursor map =>
      obtain ⟨stop, mem, -⟩ := ended
      cases mem
  | @last cursor map later answer passes called _ =>
      obtain ⟨here, -⟩ := List.forall_mem_cons.mp undisturbed
      obtain ⟨stop, mem, no_answer⟩ := ended
      obtain rfl := List.mem_singleton.mp mem
      obtain rfl : later = map := here
      obtain rfl : answer = .ok none := no_answer
      have call := described.next? valid
      rw [called] at call
      have found := Option.map_eq_none_iff.mp (Except.ok.inj call).symm
      rw [List.filter_eq_nil_iff.mpr (List.find?_eq_none.mp found)]
      rfl
  | @next cursor map later entry rest passes called _ ih =>
      obtain ⟨here, behind⟩ := List.forall_mem_cons.mp undisturbed
      obtain rfl : later = map := here
      have call := described.next? valid
      obtain ⟨slot, found, rfl⟩ := Option.map_eq_some_iff.mp
        (Except.ok.inj (called.symm.trans call)).symm
      have later_ended : ∃ stop ∈ rest, stop.answer = .ok none := by
        obtain ⟨stop, mem, no_answer⟩ := ended
        rcases List.mem_cons.mp mem with rfl | later
        · cases no_answer
        · exact ⟨stop, later, no_answer⟩
      have visited_rest := ih described behind later_ended fun last same => by
        obtain rfl := Option.mem_some_iff.mp same
        exact Stock.mem_slots_of_live (List.mem_of_find?_eq_some found)
      rw [filter_ahead found, List.map_cons, Traces.visited_next, visited_rest]
      rfl

/-- From every cursor a walk on one map comes to its end. -/
theorem exists_walk (described : state.Describes map) {rest : List Slot}
    (left : state.stock.liveSlots.filter (ahead cursor) = rest)
    (valid : ∀ last ∈ cursor, last ∈ state.stock.slots) :
    ∃ stops, EntryWalk cursor map stops ∧ (∀ stop ∈ stops, stop.map = map) ∧
      ∃ stop ∈ stops, stop.answer = .ok none := by
  induction rest generalizing cursor with
  | nil =>
      have call := described.next? valid
      rw [← List.head?_filter, left] at call
      refine ⟨_, .last (.refl map) call (by simp), ?_, ?_⟩
      · exact List.forall_mem_singleton.mpr rfl
      · exact ⟨_, List.mem_cons_self, rfl⟩
  | cons slot rest ih =>
      have found : state.stock.liveSlots.find? (ahead cursor) = some slot := by
        rw [← List.head?_filter, left]
        rfl
      have call := described.next? valid
      rw [found] at call
      rw [filter_ahead found] at left
      obtain ⟨stops, walk, undisturbed, stop, mem, ended⟩ :=
        ih (List.cons.inj left).2 fun last same => by
          obtain rfl := Option.mem_some_iff.mp same
          exact Stock.mem_slots_of_live (List.mem_of_find?_eq_some found)
      refine ⟨_, .next (.refl map) call walk, ?_, stop, List.mem_cons_of_mem _ mem, ended⟩
      exact List.forall_mem_cons.mpr ⟨rfl, undisturbed⟩

theorem tours (described : state.Describes map) :
    (∃ stops, Tour map stops) ∧ ∀ stops, Tour map stops → visited stops = state.liveEntries := by
  constructor
  · obtain ⟨stops, walk, undisturbed, ended⟩ :=
      @exists_walk state map none described _ rfl (by simp)
    exact ⟨stops, walk, undisturbed, ended⟩
  · intro stops tour
    have all : state.stock.liveSlots.filter (ahead none) = state.stock.liveSlots :=
      List.filter_eq_self.mpr fun slot _ => rfl
    rw [described.visited_eq tour.walk tour.undisturbed tour.ended (by simp), all, liveEntries]

end Describes
end State

/-- A walk over all entries of a reachable map survives all operations that do not compact, and
without operations it meets the entries of the map in slab order. -/
theorem entryWalk_endures {map : Map} (reachable : Reachable map) :
    (∀ stops, EntryWalk none map stops → Endures stops) ∧
    ∃ entries sorted, map.entries = .ok entries ∧ map.sorted = .ok sorted ∧
      entries.Perm sorted ∧ entries.length = map.size ∧
      (∃ stops, Tour map stops) ∧ ∀ stops, Tour map stops → visited stops = entries := by
  obtain ⟨state, described⟩ := reachable.exists_state
  obtain ⟨exists_tour, tours⟩ := described.tours
  have sorted := state.sorted_on map
  have size_eq : (state.on map).size = state.shape.slots.length := rfl
  rw [described.same] at sorted size_eq
  have perm := state.perm_liveEntries
  refine ⟨fun stops walk => described.endures walk, state.liveEntries, state.entries,
    described.reads, sorted, perm, ?_, exists_tour, tours⟩
  rw [perm.length_eq, State.entries, List.length_map, size_eq]

/-- The map of two values without the entry that stands first in its slab. -/
def lastValue : Map := twoValues.after [.erase ⟨[107], [98]⟩ none .empty]

/-- The same map with a third value. -/
def nextValue : Map := lastValue.after [.add ⟨[107], [99]⟩ .empty]

theorem entryWalk_endures_erase : Reachable twoValues ∧ ∃ stops,
    EntryWalk none twoValues stops ∧
      (visited stops).map Entry.pair = [⟨[107], [98]⟩, ⟨[107], [97]⟩, ⟨[107], [99]⟩] ∧
      Endures stops := by
  have reachable : Reachable twoValues := (Reachable.empty .byKeyValue .default).after _
  have erase_spares : Change.Spares twoValues (.erase ⟨[107], [98]⟩ none .empty) := rfl
  have add_spares : Change.Spares lastValue (.add ⟨[107], [99]⟩ .empty) := rfl
  have passes : Passes twoValues nextValue :=
    (Drifts.after erase_spares).passes.trans (Drifts.after add_spares).passes
  have walk : EntryWalk none twoValues
      [⟨twoValues, .ok (some ⟨⟨0⟩, ⟨[107], [98]⟩⟩)⟩, ⟨nextValue, .ok (some ⟨⟨4⟩, ⟨[107], [97]⟩⟩)⟩,
        ⟨nextValue, .ok (some ⟨⟨8⟩, ⟨[107], [99]⟩⟩)⟩, ⟨nextValue, .ok none⟩] :=
    .next (.refl twoValues) (by decide +kernel)
      (.next passes (by decide +kernel)
        (.next (.refl nextValue) (by decide +kernel)
          (.last (.refl nextValue) (by decide +kernel) (by simp))))
  exact ⟨reachable, _, walk, rfl, (entryWalk_endures reachable).1 _ walk⟩

end PackedMap
