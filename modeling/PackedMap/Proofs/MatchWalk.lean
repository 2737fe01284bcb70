import PackedMap.Proofs.Comparator
import PackedMap.Proofs.Drift
import PackedMap.Proofs.Map.Matching

/-!
# Walks among changes

A walk from match to match goes on while the map changes.  Its cursor is a slot, which keeps its
pair as long as the map is not compacted, whatever becomes of the entry.  The matches of a coarser
comparator stand together in native order, so that the next entry after the cursor is a match if any
match is left.
-/

namespace PackedMap

/-- One call of a walk: the map at that time, and the answer. -/
structure Stop where
  /-- The map. -/
  map : Map
  /-- The next match, if there is one. -/
  answer : Checked (Option Entry)

/-- An entry is live at the time of a call. -/
def Stop.Holds (stop : Stop) (entry : Entry) : Prop :=
  ∃ entries, stop.map.entries = .ok entries ∧ entry ∈ entries

/-- The entries that a walk meets. -/
def visited (stops : List Stop) : List Entry :=
  stops.filterMap fun stop => stop.answer.toOption.join

/-- A walk from match to match behind a cursor, with changes before each call.  It goes on as long
as there is a match, or pauses. -/
inductive MatchWalk (probe : Pair) (query : Comparator) : Option Slot → Map → List Stop → Prop
  | pause (cursor : Option Slot) (map : Map) : MatchWalk probe query cursor map []
  | last {cursor : Option Slot} {map later : Map} {answer : Checked (Option Entry)} :
      Drifts map later →
      later.nextMatch? cursor probe query = answer →
      (∀ entry, answer ≠ .ok (some entry)) →
      MatchWalk probe query cursor map [⟨later, answer⟩]
  | next {cursor : Option Slot} {map later : Map} {entry : Entry} {rest : List Stop} :
      Drifts map later →
      later.nextMatch? cursor probe query = .ok (some entry) →
      MatchWalk probe query (some entry.id) later rest →
      MatchWalk probe query cursor map (⟨later, .ok (some entry)⟩ :: rest)

/-- A walk survives the changes on the way. -/
structure Survives (native query : Comparator) (probe : Pair) (stops : List Stop) : Prop where
  answered : ∀ stop ∈ stops, ∃ found, stop.answer = .ok found
  goesOn : ∀ stop ∈ stops, ∀ change, ∃ outcome, Change.run stop.map change = .ok outcome
  live : ∀ stop ∈ stops, ∀ entry, stop.answer = .ok (some entry) → stop.Holds entry
  matched : ∀ entry ∈ visited stops, query probe entry.pair = .eq
  increasing : (visited stops).Pairwise fun a b => native a.pair b.pair = .lt
  complete : (∃ stop ∈ stops, stop.answer = .ok none) → ∀ entry,
    (∀ stop ∈ stops, stop.Holds entry) → query probe entry.pair = .eq →
      (visited stops).count entry = 1
  notAgain : ∀ front back cursor, visited stops = front ++ cursor :: back →
    ∀ later ∈ back, native cursor.pair later.pair ≠ .eq

/-! ## Traces -/

/-- An entry comes after a bound, if there is one. -/
def Beyond (native : Comparator) (bound : Option Pair) (entry : Entry) : Prop :=
  ∀ first ∈ bound, native first entry.pair = .lt

/-- Each call of a walk gives the least match beyond the one before, and none only if none is
left. -/
inductive Traces (native query : Comparator) (probe : Pair) : Option Pair → List Stop → Prop
  | pause (bound : Option Pair) : Traces native query probe bound []
  | last {bound : Option Pair} {map : Map} :
      (∀ change, ∃ outcome, Change.run map change = .ok outcome) →
      (∀ entry, Stop.Holds ⟨map, .ok none⟩ entry → query probe entry.pair = .eq →
        ¬ Beyond native bound entry) →
      Traces native query probe bound [⟨map, .ok none⟩]
  | next {bound : Option Pair} {map : Map} {entry : Entry} {rest : List Stop} :
      (∀ change, ∃ outcome, Change.run map change = .ok outcome) →
      Stop.Holds ⟨map, .ok (some entry)⟩ entry →
      query probe entry.pair = .eq →
      Beyond native bound entry →
      (∀ other, Stop.Holds ⟨map, .ok (some entry)⟩ other → query probe other.pair = .eq →
        Beyond native bound other → other = entry ∨ native entry.pair other.pair = .lt) →
      Traces native query probe (some entry.pair) rest →
      Traces native query probe bound (⟨map, .ok (some entry)⟩ :: rest)

namespace Traces

variable {native query : Comparator} {probe : Pair} {bound : Option Pair} {stops : List Stop}

theorem visited_next (map : Map) (entry : Entry) (rest : List Stop) :
    visited (⟨map, .ok (some entry)⟩ :: rest) = entry :: visited rest := rfl

theorem answered (traces : Traces native query probe bound stops) :
    ∀ stop ∈ stops, ∃ found, stop.answer = .ok found := by
  induction traces with
  | pause bound => exact List.forall_mem_nil _
  | last goesOn none => exact List.forall_mem_singleton.mpr ⟨_, rfl⟩
  | next goesOn live matched beyond least rest ih =>
      exact List.forall_mem_cons.mpr ⟨⟨_, rfl⟩, ih⟩

theorem goesOn (traces : Traces native query probe bound stops) :
    ∀ stop ∈ stops, ∀ change, ∃ outcome, Change.run stop.map change = .ok outcome := by
  induction traces with
  | pause bound => exact List.forall_mem_nil _
  | last goesOn none => exact List.forall_mem_singleton.mpr goesOn
  | next goesOn live matched beyond least rest ih => exact List.forall_mem_cons.mpr ⟨goesOn, ih⟩

theorem live (traces : Traces native query probe bound stops) :
    ∀ stop ∈ stops, ∀ entry, stop.answer = .ok (some entry) → stop.Holds entry := by
  induction traces with
  | pause bound => exact List.forall_mem_nil _
  | last goesOn none => exact List.forall_mem_singleton.mpr fun entry answer => by cases answer
  | next goesOn live matched beyond least rest ih =>
      refine List.forall_mem_cons.mpr ⟨fun entry answer => ?_, ih⟩
      obtain rfl := Option.some.inj (Except.ok.inj answer)
      exact live

theorem matched (traces : Traces native query probe bound stops) :
    ∀ entry ∈ visited stops, query probe entry.pair = .eq := by
  induction traces with
  | pause bound => exact List.forall_mem_nil _
  | last goesOn none => exact List.forall_mem_nil _
  | next goesOn live matched beyond least rest ih => exact List.forall_mem_cons.mpr ⟨matched, ih⟩

/-- The entries met are in increasing order behind the bound. -/
theorem increasing [Std.TransCmp native] (traces : Traces native query probe bound stops) :
    (∀ entry ∈ visited stops, Beyond native bound entry) ∧
      (visited stops).Pairwise fun a b => native a.pair b.pair = .lt := by
  induction traces with
  | pause bound => exact ⟨List.forall_mem_nil _, .nil⟩
  | last goesOn none => exact ⟨List.forall_mem_nil _, .nil⟩
  | next goesOn live matched beyond least rest ih =>
      obtain ⟨behind, increasing⟩ := ih
      rw [visited_next]
      refine ⟨List.forall_mem_cons.mpr ⟨beyond, fun later mem first first_mem => ?_⟩,
        List.pairwise_cons.mpr ⟨fun later mem => behind later mem _ rfl, increasing⟩⟩
      exact Std.TransCmp.lt_trans (beyond first first_mem) (behind later mem _ rfl)

/-- A walk that came to its end met every match that was live at each call. -/
theorem complete (traces : Traces native query probe bound stops)
    (ended : ∃ stop ∈ stops, stop.answer = .ok none) {entry : Entry}
    (held : ∀ stop ∈ stops, stop.Holds entry) (matched : query probe entry.pair = .eq)
    (beyond : Beyond native bound entry) : entry ∈ visited stops := by
  induction traces with
  | pause bound =>
      obtain ⟨stop, mem, -⟩ := ended
      cases mem
  | last goesOn none => exact absurd beyond (none entry (held _ List.mem_cons_self) matched)
  | @next bound map first rest goesOn live first_matched first_beyond least later ih =>
      rw [visited_next]
      rcases least entry (held _ List.mem_cons_self) matched beyond with rfl | less
      · exact List.mem_cons_self
      · have later_held := fun stop mem => held stop (List.mem_cons_of_mem _ mem)
        refine List.mem_cons_of_mem _ (ih ?_ later_held fun bound mem => ?_)
        · obtain ⟨stop, mem, none⟩ := ended
          rcases List.mem_cons.mp mem with rfl | mem
          · cases none
          · exact ⟨stop, mem, none⟩
        · obtain rfl := Option.mem_some_iff.mp mem
          exact less

theorem survives [Std.TransCmp native] (traces : Traces native query probe none stops) :
    Survives native query probe stops where
  answered := traces.answered
  goesOn := traces.goesOn
  live := traces.live
  matched := traces.matched
  increasing := traces.increasing.2
  complete ended entry held matched := by
    have mem := traces.complete ended held matched (by simp [Beyond])
    have distinct : (visited stops).Nodup :=
      traces.increasing.2.imp fun {a b} less same => by
        have equal : native a.pair a.pair = .eq := Std.ReflCmp.compare_self
        rw [← same, equal] at less
        cases less
    exact List.count_eq_one_of_mem distinct mem
  notAgain front back cursor split later mem equal := by
    have increasing := traces.increasing.2
    rw [split] at increasing
    have less := (List.pairwise_cons.mp (List.pairwise_append.mp increasing).2.1).1 later mem
    rw [equal] at less
    cases less

end Traces

/-! ## Calls -/

/-- The first member of a list in increasing order that passes a test is the least one. -/
theorem least_of_filter {f : Slot → Pair} {native : Comparator} {slots rest : List Slot}
    {first : Slot} {test : Slot → Bool} (increasing : Increasing native (slots.map f))
    (split : slots.filter test = first :: rest) :
    first ∈ slots ∧ test first ∧
      ∀ other ∈ slots, test other → other = first ∨ native (f first) (f other) = .lt := by
  have passed : first ∈ slots.filter test := split ▸ List.mem_cons_self
  obtain ⟨mem, passes⟩ := List.mem_filter.mp passed
  refine ⟨mem, passes, fun other other_mem other_passes => ?_⟩
  have filtered : Increasing native ((slots.filter test).map f) :=
    increasing.sublist (List.filter_sublist.map f)
  rw [split, List.map_cons] at filtered
  have found := List.mem_filter.mpr ⟨other_mem, other_passes⟩
  rw [split] at found
  rcases List.mem_cons.mp found with same | later
  · exact .inl same
  · exact .inr ((List.pairwise_cons.mp filtered).1 _ (List.mem_map_of_mem later))

namespace State

variable {state : State} {map : Map} {query : Comparator} {probe : Pair}

theorem holds_on {answer : Checked (Option Entry)} {entry : Entry} :
    Stop.Holds ⟨state.on map, answer⟩ entry ↔
      ∃ slot ∈ state.shape.slots, state.stock.entryAt slot = entry := by
  rw [Stop.Holds]
  constructor
  · rintro ⟨entries, read, mem⟩
    obtain rfl := Except.ok.inj ((state.entries_on map).symm.trans read)
    obtain ⟨slot, live, same⟩ := List.mem_map.mp mem
    exact ⟨slot, mem_live.mpr live, same⟩
  · rintro ⟨slot, mem, rfl⟩
    exact ⟨_, state.entries_on map, List.mem_map_of_mem (mem_live.mp mem)⟩

/-- The next match behind a bound, told from a state. -/
def IsNext (state : State) (native query : Comparator) (probe : Pair) (bound : Option Pair) :
    Option Slot → Prop
  | none => ∀ slot ∈ state.shape.slots, query probe (state.stock.pairAt slot) = .eq →
      ¬ Beyond native bound (state.stock.entryAt slot)
  | some slot => slot ∈ state.shape.slots ∧ query probe (state.stock.pairAt slot) = .eq ∧
      Beyond native bound (state.stock.entryAt slot) ∧
      ∀ other ∈ state.shape.slots, query probe (state.stock.pairAt other) = .eq →
        Beyond native bound (state.stock.entryAt other) →
          other = slot ∨ native (state.stock.pairAt slot) (state.stock.pairAt other) = .lt

theorem exists_first [Std.TransCmp query] (sorted : state.Sorted map.order)
    (coarsens : query.Coarsens map.order) (probe : Pair) :
    ∃ found, state.IsNext map.order query probe none found ∧
      (state.on map).nextMatch? none probe query = .ok (found.map state.stock.entryAt) := by
  have swept := state.sweeps_of_coarser sorted (fun _ _ => coarsens.gt) probe
  have called := state.nextMatch?_first map probe query
  rw [Shape.locate_eq swept] at called
  refine ⟨(matching (state.seek query probe) state.shape.slots).head?, ?_, ?_⟩
  · cases split : matching (state.seek query probe) state.shape.slots with
    | nil =>
        intro slot mem equal
        have matched : slot ∈ matching (state.seek query probe) state.shape.slots :=
          mem_matching.mpr ⟨mem, equal⟩
        rw [split] at matched
        cases matched
    | cons first rest =>
        obtain ⟨mem, equal, least⟩ := least_of_filter sorted split
        exact ⟨mem, of_decide_eq_true equal, by simp [Beyond],
          fun other other_mem other_equal _ => least other other_mem (decide_eq_true other_equal)⟩
  · exact called

theorem exists_behind [Std.TransCmp map.order] [Std.TransCmp query]
    (sorted : state.Sorted map.order) (coarsens : query.Coarsens map.order) {last : Slot}
    (mem : last ∈ state.stock.slots) (matched : query probe (state.stock.pairAt last) = .eq) :
    ∃ found, state.IsNext map.order query probe (some (state.stock.pairAt last)) found ∧
      (state.on map).nextMatch? (some last) probe query =
        .ok (found.map state.stock.entryAt) := by
  have called := nextMatch?_behind sorted mem probe query
  have beyond_mem {slot : Slot} (slot_mem : slot ∈ state.shape.slots)
      (beyond : Beyond map.order (some (state.stock.pairAt last)) (state.stock.entryAt slot)) :
      slot ∈ above (state.seek map.order (state.stock.pairAt last)) state.shape.slots :=
    mem_above.mpr ⟨slot_mem, beyond _ rfl⟩
  cases split : above (state.seek map.order (state.stock.pairAt last)) state.shape.slots with
  | nil =>
      rw [split] at called
      refine ⟨none, fun slot slot_mem _ beyond => ?_, called⟩
      have later := beyond_mem slot_mem beyond
      rw [split] at later
      cases later
  | cons next rest =>
      rw [split] at called
      obtain ⟨next_mem, passes, least⟩ := least_of_filter sorted split
      have less : map.order (state.stock.pairAt last) (state.stock.pairAt next) = .lt :=
        of_decide_eq_true passes
      by_cases here : query probe (state.stock.entryAt next).pair = .eq
      · refine ⟨some next, ⟨next_mem, here, fun first first_mem => ?_, ?_⟩, ?_⟩
        · obtain rfl := Option.mem_some_iff.mp first_mem
          exact less
        · exact fun other other_mem _ beyond =>
            least other other_mem (decide_eq_true (beyond _ rfl))
        · simpa [Option.filter, here] using called
      · refine ⟨none, fun slot slot_mem equal beyond => ?_, ?_⟩
        · rcases least slot slot_mem (decide_eq_true (beyond _ rfl)) with rfl | behind
          · exact here equal
          · exact here (coarsens.between less behind matched equal)
        · simpa [Option.filter, here] using called

/-- Every call of a walk gives the next match behind the cursor. -/
theorem Describes.exists_next (described : state.Describes map) [Std.TransCmp query]
    (coarsens : query.Coarsens map.order) {cursor : Option Slot}
    (valid : ∀ last ∈ cursor, last ∈ state.stock.slots ∧
      query probe (state.stock.pairAt last) = .eq) :
    ∃ found, state.IsNext map.order query probe (cursor.map state.stock.pairAt) found ∧
      map.nextMatch? cursor probe query = .ok (found.map state.stock.entryAt) := by
  have lawful := described.lawful
  have same := described.same
  cases cursor with
  | none =>
      obtain ⟨found, next, call⟩ := exists_first described.sorted coarsens probe
      rw [same] at call
      exact ⟨found, next, call⟩
  | some last =>
      obtain ⟨mem, matched⟩ := valid last rfl
      obtain ⟨found, next, call⟩ := exists_behind described.sorted coarsens mem matched
      rw [same] at call
      exact ⟨found, next, call⟩

theorem Describes.holds (described : state.Describes map) {answer : Checked (Option Entry)}
    {entry : Entry} :
    Stop.Holds ⟨map, answer⟩ entry ↔
      ∃ slot ∈ state.shape.slots, state.stock.entryAt slot = entry := by
  have holds := @holds_on state map answer entry
  rwa [described.same] at holds

/-- Changes that do not compact leave the cursor of a walk where it was. -/
theorem Keeps.cursor {before after : State} (keeps : before.Keeps after) {cursor : Option Slot}
    (valid : ∀ last ∈ cursor, last ∈ before.stock.slots ∧
      query probe (before.stock.pairAt last) = .eq) :
    (∀ last ∈ cursor, last ∈ after.stock.slots ∧
      query probe (after.stock.pairAt last) = .eq) ∧
      cursor.map after.stock.pairAt = cursor.map before.stock.pairAt := by
  cases cursor with
  | none => simp
  | some last =>
      obtain ⟨mem, matched⟩ := valid last rfl
      have pair_eq := keeps.pairs last mem
      refine ⟨fun other same => ?_, congrArg some pair_eq⟩
      obtain rfl := Option.mem_some_iff.mp same
      exact ⟨keeps.slots last mem, pair_eq ▸ matched⟩

theorem Describes.traces (described : state.Describes map) {native : Comparator}
    (order_eq : map.order = native) [Std.TransCmp query] (coarsens : query.Coarsens native)
    {cursor : Option Slot} {stops : List Stop} (walk : MatchWalk probe query cursor map stops)
    (valid : ∀ last ∈ cursor, last ∈ state.stock.slots ∧
      query probe (state.stock.pairAt last) = .eq) :
    Traces native query probe (cursor.map state.stock.pairAt) stops := by
  induction walk generalizing state with
  | pause cursor map => exact .pause _
  | @last cursor map later answer drifts called ended =>
      obtain ⟨later_order, after, left, keeps⟩ := described.drifts drifts
      obtain ⟨still_valid, bound_eq⟩ := keeps.cursor valid
      have later_eq := later_order.trans order_eq
      obtain ⟨found, next, call⟩ := left.exists_next (later_eq ▸ coarsens) still_valid
      rw [later_eq, bound_eq] at next
      obtain rfl := called.symm.trans call
      cases found with
      | some slot => exact absurd rfl (ended _)
      | none =>
          refine .last left.goesOn fun entry held equal beyond => ?_
          obtain ⟨slot, mem, rfl⟩ := left.holds.mp held
          exact next slot mem equal beyond
  | @next cursor map later entry rest drifts called _ ih =>
      obtain ⟨later_order, after, left, keeps⟩ := described.drifts drifts
      obtain ⟨still_valid, bound_eq⟩ := keeps.cursor valid
      have later_eq := later_order.trans order_eq
      obtain ⟨found, next, call⟩ := left.exists_next (later_eq ▸ coarsens) still_valid
      rw [later_eq, bound_eq] at next
      obtain ⟨slot, rfl, rfl⟩ := Option.map_eq_some_iff.mp
        (Except.ok.inj (called.symm.trans call)).symm
      obtain ⟨mem, matched, beyond, least⟩ := next
      refine .next left.goesOn (left.holds.mpr ⟨slot, mem, rfl⟩) matched beyond ?_ ?_
      · intro other held equal other_beyond
        obtain ⟨other_slot, other_mem, rfl⟩ := left.holds.mp held
        exact (least other_slot other_mem equal other_beyond).imp_left (congrArg _)
      · refine ih left later_eq fun last same => ?_
        obtain rfl := Option.mem_some_iff.mp same
        exact ⟨mem_stock mem, matched⟩

end State

/-- A walk over the matches of a comparator that coarsens the native one survives all changes that
do not compact. -/
theorem matchWalk_survives {map : Map} (reachable : Reachable map) {query : Comparator}
    [Std.TransCmp query] (coarsens : query.Coarsens map.order) {probe : Pair} {stops : List Stop}
    (walk : MatchWalk probe query none map stops) : Survives map.order query probe stops := by
  obtain ⟨state, described⟩ := reachable.exists_state
  have lawful := described.lawful
  exact (described.traces rfl coarsens walk (by simp)).survives

/-- A map with two values of one key. -/
def twoValues : Map := (Map.empty .byKeyValue .default).after
  [.add ⟨[107], [98]⟩ .empty, .add ⟨[107], [97]⟩ .empty]

/-- The map of two values without the lesser one. -/
def oneValue : Map := twoValues.after [.erase ⟨[107], [97]⟩ none .empty]

theorem matchWalk_survives_erase : Reachable twoValues ∧ ∃ stops,
    MatchWalk ⟨[107], []⟩ .byKey none twoValues stops ∧
      (visited stops).map Entry.pair = [⟨[107], [97]⟩, ⟨[107], [98]⟩] ∧
      Survives .byKeyValue .byKey ⟨[107], []⟩ stops := by
  have reachable : Reachable twoValues := (Reachable.empty .byKeyValue .default).after _
  have spares : Change.Spares twoValues (.erase ⟨[107], [97]⟩ none .empty) := rfl
  have drifts : Drifts twoValues oneValue := .after spares
  have walk : MatchWalk ⟨[107], []⟩ .byKey none twoValues
      [⟨twoValues, .ok (some ⟨⟨4⟩, ⟨[107], [97]⟩⟩)⟩, ⟨oneValue, .ok (some ⟨⟨0⟩, ⟨[107], [98]⟩⟩)⟩,
        ⟨oneValue, .ok none⟩] :=
    .next (.refl twoValues) (by decide +kernel)
      (.next drifts (by decide +kernel) (.last (.refl oneValue) (by decide +kernel) (by simp)))
  exact ⟨reachable, _, walk, rfl,
    matchWalk_survives reachable (Comparator.coarsens_compareLex _ _) walk⟩

end PackedMap
