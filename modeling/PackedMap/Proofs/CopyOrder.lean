import PackedMap.Proofs.Transparency

/-!
# Copy hooks and the order

A copy hook may change what the order of a map looks at, once the copy has its place in the tree.  A
duplicate is in order exactly where the copies are in the order of their originals, and the target
of a merge exactly where every copy stands to the pairs before it as its source does.  In order,
every entry is found and deleted by its own bytes; out of order, entries are lost to searches.
-/

namespace PackedMap

/-- The walk over a map goes strictly up under the map's own comparator. -/
def Map.Ordered (map : Map) : Prop :=
  ∃ entries, map.sorted = .ok entries ∧ Increasing map.order (entries.map Entry.pair)

/-- Every entry of a map is found and deleted by its own bytes under the map's own comparator. -/
def Map.FindsOwn (map : Map) : Prop :=
  ∃ entries, map.sorted = .ok entries ∧ ∀ entry ∈ entries,
    map.find? entry.pair map.order = .ok (some entry) ∧
      ∀ flags, ∃ outcome, Change.run map (.erase entry.pair none flags) = .ok outcome ∧
        outcome.result = .flag true ∧
        outcome.map.Lists ((entries.map Entry.pair).filter fun old =>
          map.order entry.pair old ≠ .eq)

/-- Copies of some entries, added to a sorted list one after another, each stand to the pairs before
them as their sources do.  A source that equals one of those pairs is not copied. -/
def Comparator.Suits (order : Comparator) (hook : Option CopyHook) :
    List Pair → List Entry → Prop
  | _, [] => True
  | pairs, source :: rest =>
      if matching (order source.pair) pairs = [] then
        (∀ old ∈ pairs, order (source.copied hook) old = order source.pair old) ∧
          order.Suits hook (insertSorted order (source.copied hook) pairs) rest
      else
        order.Suits hook pairs rest

/-! ## Pairs in another's place -/

section Place

variable {order : Comparator} {probe pair : Pair} {pairs : List Pair}

/-- A pair that stands to a list as a probe does goes where the probe belongs. -/
theorem placed_eq_insertSorted (agrees : ∀ old ∈ pairs, order pair old = order probe old) :
    below (order probe) pairs ++ pair :: above (order probe) pairs =
      insertSorted order pair pairs := by
  have below_eq : below (order probe) pairs = below (order pair) pairs :=
    List.filter_congr fun old mem => by rw [agrees old mem]
  have above_eq : above (order probe) pairs = above (order pair) pairs :=
    List.filter_congr fun old mem => by rw [agrees old mem]
  rw [below_eq, above_eq, insertSorted]

/-- A pair in the place of a probe that matches nothing leaves a list in order exactly where it
stands to the list as the probe does. -/
theorem increasing_placed_iff [Std.TransCmp order] (increasing : Increasing order pairs)
    (none : matching (order probe) pairs = []) :
    Increasing order (below (order probe) pairs ++ pair :: above (order probe) pairs) ↔
      ∀ old ∈ pairs, order pair old = order probe old := by
  constructor
  · intro placed old mem
    obtain ⟨-, later, across⟩ := List.pairwise_append.mp placed
    cases answer : order probe old with
    | lt => exact (List.pairwise_cons.mp later).1 old (mem_above.mpr ⟨mem, answer⟩)
    | eq =>
        have matched := mem_matching.mpr ⟨mem, answer⟩
        rw [none] at matched
        exact absurd matched List.not_mem_nil
    | gt =>
        have less := across old (mem_below.mpr ⟨mem, answer⟩) pair List.mem_cons_self
        exact Std.OrientedCmp.gt_of_lt less
  · intro agrees
    rw [placed_eq_insertSorted agrees]
    exact increasing_insertSorted increasing

end Place

namespace State

variable {state other after : State} {map source : Map}

/-! ## Entries of their own bytes -/

theorem find_own {order : Comparator} [Std.TransCmp order] (sorted : state.Sorted order)
    {slot : Slot} (mem : slot ∈ state.shape.slots) :
    state.shape.find (state.seek order (state.stock.pairAt slot)) = some slot := by
  have here : slot ∈ matching (state.seek order (state.stock.pairAt slot)) state.shape.slots :=
    mem_matching.mpr ⟨mem, Std.ReflCmp.compare_self⟩
  cases found : state.shape.find (state.seek order (state.stock.pairAt slot)) with
  | none =>
      rw [Shape.find_eq_none (sweeps sorted _) found] at here
      exact absurd here List.not_mem_nil
  | some first =>
      obtain ⟨first_mem, equal⟩ := mem_matching.mp (Shape.find_mem found)
      rw [Increasing.eq_of_equal sorted mem first_mem equal]

theorem Describes.findsOwn (described : state.Describes map) : map.FindsOwn := by
  have lawful := described.lawful
  have walk := state.sorted_on map
  rw [described.same] at walk
  refine ⟨state.entries, walk, fun entry mem => ?_⟩
  obtain ⟨slot, slot_mem, rfl⟩ := List.mem_map.mp mem
  have own := find_own described.sorted slot_mem
  constructor
  · have found := state.find?_on map (state.stock.pairAt slot) map.order
    rw [described.same, own] at found
    exact found
  · intro flags
    obtain ⟨linked, removed⟩ := state.exists_unlink described.sorted slot_mem
    have step : Step map state (.erase (state.stock.pairAt slot) none flags) _ _ _ :=
      .erased removed own
    have acted := step.act_eq rfl described.sorted rfl
    have run := step.run
    have left := described.on (step.sorted described.sorted)
    have lists := left.lists
    rw [described.same] at run
    rw [act] at acted
    split at acted
    · cases (Prod.mk.inj acted).1
    · rw [← (Prod.mk.inj acted).2] at lists
      refine ⟨_, run, rfl, ?_⟩
      rw [pairs_entries]
      exact lists

theorem ordered_on : (state.on map).Ordered ↔ state.Sorted map.order := by
  have walk := state.sorted_on map
  constructor
  · rintro ⟨entries, read, increasing⟩
    obtain rfl := Except.ok.inj (walk.symm.trans read)
    rwa [pairs_entries] at increasing
  · intro sorted
    exact ⟨_, walk, state.pairs_entries.symm ▸ sorted⟩

/-! ## Copies -/

/-- A duplicate is in order exactly where the copies are. -/
theorem Describes.duplicate_ordered (described : state.Describes map) {entries : List Entry}
    (walk : map.sorted = .ok entries) :
    ∃ copy events, map.duplicate = .ok (copy, events) ∧
      (copy.Ordered ↔ Increasing map.order (entries.map (Entry.copied map.copyHook))) ∧
      (copy.Ordered → copy.FindsOwn) := by
  obtain ⟨after, shape_eq, -, copied, run, -⟩ := described.duplicate_spec
  have walked := state.sorted_on map
  rw [described.same, walk] at walked
  obtain rfl := Except.ok.inj walked
  have pairs_eq : after.pairs = state.entries.map (Entry.copied map.copyHook) := by
    rw [pairs, shape_eq, entries, List.map_map]
    exact List.map_congr_left copied
  refine ⟨_, _, run, ?_, fun ordered => (described.on (ordered_on.mp ordered)).findsOwn⟩
  rw [ordered_on, Sorted, pairs_eq]

/-- A merge leaves the pairs of a state in their order. -/
theorem Copies.sublist {order : Comparator} {hook : Option CopyHook} {sources : List Entry}
    {copies : List (Slot × Entry)} (run : Copies order hook state sources copies after) :
    state.pairs.Sublist after.pairs := by
  induction run with
  | nil state => exact List.Sublist.refl _
  | @added state after source rest copies linked fits inserted _ ih =>
      refine List.Sublist.trans ?_ ih
      obtain ⟨front, back, slots_eq, linked_eq⟩ := Shape.slots_insert state.balanced inserted
      have kept : (front ++ back).map (state.stock.extend _ (fits_copied hook fits)).pairAt =
          (front ++ back).map state.stock.pairAt := map_extend fun _ mem => slots_eq ▸ mem
      rw [pairs, slots_eq, ← kept, pairs, link, linked_eq]
      exact ((List.Sublist.refl front).append (List.sublist_cons_self _ back)).map _
  | left fits occupied _ ih => exact ih

/-- A merge keeps a state sorted exactly where the copies suit its order. -/
theorem Copies.sorted_iff {order : Comparator} [Std.TransCmp order] {hook : Option CopyHook}
    {sources : List Entry} {copies : List (Slot × Entry)}
    (run : Copies order hook state sources copies after) (sorted : state.Sorted order) :
    after.Sorted order ↔ order.Suits hook state.pairs sources := by
  induction run with
  | nil state => exact iff_of_true sorted trivial
  | @added state after source rest copies linked fits inserted later ih =>
      obtain ⟨pairs_eq, none⟩ := pairs_link_at (fits_copied hook fits) inserted sorted
      have placed : (state.link _ (fits_copied hook fits) inserted).Sorted order ↔ _ :=
        pairs_eq ▸ increasing_placed_iff sorted none
      rw [Comparator.Suits, if_pos none]
      constructor
      · intro ended
        have linked_sorted : (state.link _ (fits_copied hook fits) inserted).Sorted order :=
          ended.sublist later.sublist
        have agrees := placed.mp linked_sorted
        have suits := (ih linked_sorted).mp ended
        rw [pairs_eq, placed_eq_insertSorted agrees] at suits
        exact ⟨agrees, suits⟩
      · rintro ⟨agrees, suits⟩
        rw [← placed_eq_insertSorted agrees, ← pairs_eq] at suits
        exact (ih (placed.mpr agrees)).mpr suits
  | left fits occupied _ ih =>
      have matched := matching_eq sorted (Shape.insert_error occupied)
      rw [Comparator.Suits, if_neg (by simp [matched])]
      exact ih sorted

/-- The target of a merge is in order exactly where the copies suit it; a merge that is refused
leaves it as it was. -/
theorem Describes.merge_ordered (described : state.Describes map)
    (described' : other.Describes source) {entries sources : List Entry}
    (walk : map.sorted = .ok entries) (read : source.entries = .ok sources) :
    ∃ outcome, map.merge source = .ok outcome ∧
      (outcome.result = .ok () → (outcome.map.Ordered ↔
        map.order.Suits source.copyHook (entries.map Entry.pair) sources)) ∧
      (outcome.map.Ordered → outcome.map.FindsOwn) := by
  have lawful := described.lawful
  have walked := state.sorted_on map
  rw [described.same, walk] at walked
  obtain rfl := Except.ok.inj walked
  obtain rfl := Except.ok.inj (described'.reads.symm.trans read)
  rw [pairs_entries]
  rcases described.merge_cases described' with
    ⟨copies, after, added, run⟩ | ⟨before, refused, rest, copies, after, -, -, -, run⟩
  · refine ⟨_, run, fun _ => ?_, fun ordered => (described.on (ordered_on.mp ordered)).findsOwn⟩
    rw [ordered_on]
    exact added.sorted_iff described.sorted
  · refine ⟨_, run, fun ended => ?_, fun _ => (described.on described.sorted).findsOwn⟩
    cases ended

end State

/-- What a copy hook does to the order of maps.  A duplicate of a map in order is in order exactly
where the copies of its entries are, and the target of a merge that is not refused exactly where the
copies suit it; in order, both find and delete every entry by its own bytes. -/
theorem copies_ordered_iff {state other : State} {map source : Map}
    (described : state.Describes map) (described' : other.Describes source)
    {entries sources : List Entry} (walk : map.sorted = .ok entries)
    (read : source.entries = .ok sources) :
    (∃ copy events, map.duplicate = .ok (copy, events) ∧
      (copy.Ordered ↔ Increasing map.order (entries.map (Entry.copied map.copyHook))) ∧
      (copy.Ordered → copy.FindsOwn)) ∧
    ∃ outcome, map.merge source = .ok outcome ∧
      (outcome.result = .ok () → (outcome.map.Ordered ↔
        map.order.Suits source.copyHook (entries.map Entry.pair) sources)) ∧
      (outcome.map.Ordered → outcome.map.FindsOwn) :=
  ⟨described.duplicate_ordered walk, described.merge_ordered described' walk read⟩

/-- The settings of a map that asks for copies with reversed values. -/
def reversing : Config := { Config.default with copyHook := some .reverse }

/-- Two values of one key, whose order is the other way round once they are reversed. -/
def mirrored : Map := (Map.empty .byKeyValue reversing).after
  [.add ⟨[107], [49, 50]⟩ .empty, .add ⟨[107], [51, 48]⟩ .empty]

theorem copies_ordered_iff_mirrored : ∃ state : State, state.Describes mirrored ∧
    ∃ entries, mirrored.sorted = .ok entries ∧ mirrored.entries = .ok entries ∧
      (∃ copy events, mirrored.duplicate = .ok (copy, events) ∧
        (copy.Ordered ↔
          Increasing mirrored.order (entries.map (Entry.copied mirrored.copyHook))) ∧
        (copy.Ordered → copy.FindsOwn)) ∧
      ∃ outcome, mirrored.merge mirrored = .ok outcome ∧
        (outcome.result = .ok () → (outcome.map.Ordered ↔
          mirrored.order.Suits mirrored.copyHook (entries.map Entry.pair) entries)) ∧
        (outcome.map.Ordered → outcome.map.FindsOwn) := by
  have start : Reachable (.empty .byKeyValue reversing) := .empty ..
  have reachable : Reachable mirrored := start.after _
  obtain ⟨state, described⟩ := reachable.exists_state
  have walk : mirrored.sorted =
      .ok [⟨⟨0⟩, ⟨[107], [49, 50]⟩⟩, ⟨⟨4⟩, ⟨[107], [51, 48]⟩⟩] := by decide +kernel
  have read : mirrored.entries =
      .ok [⟨⟨0⟩, ⟨[107], [49, 50]⟩⟩, ⟨⟨4⟩, ⟨[107], [51, 48]⟩⟩] := by decide +kernel
  exact ⟨state, described, _, walk, read, copies_ordered_iff described described walk read⟩

/-- The entries of `mirrored`, as its copy hook leaves them. -/
def mirrorings : List Entry :=
  [⟨⟨0⟩, ⟨[107], [50, 49]⟩⟩, ⟨⟨4⟩, ⟨[107], [48, 51]⟩⟩]

theorem mirrorings_unordered {map : Map} (order_eq : map.order = .byKeyValue)
    (walk : map.sorted = .ok mirrorings)
    (missed : map.find? ⟨[107], [48, 51]⟩ map.order = .ok none) :
    ¬ map.Ordered ∧ ¬ map.FindsOwn := by
  constructor
  · rintro ⟨entries, again, increasing⟩
    obtain rfl := Except.ok.inj (walk.symm.trans again)
    rw [order_eq] at increasing
    revert increasing
    show ¬ List.Pairwise _ _
    decide
  · rintro ⟨entries, again, finds⟩
    obtain rfl := Except.ok.inj (walk.symm.trans again)
    have found := (finds ⟨⟨4⟩, ⟨[107], [48, 51]⟩⟩ (by decide)).1
    rw [missed] at found
    cases found

/-- Neither a duplicate nor the target of a merge need be in order or find what it holds. -/
theorem mirrored_unordered : Reachable mirrored ∧
    (∃ copy events, mirrored.duplicate = .ok (copy, events) ∧
      ¬ copy.Ordered ∧ ¬ copy.FindsOwn) ∧
    ∃ outcome, (Map.empty .byKeyValue .default).merge mirrored = .ok outcome ∧
      outcome.result = .ok () ∧ ¬ outcome.map.Ordered ∧ ¬ outcome.map.FindsOwn := by
  have start : Reachable (.empty .byKeyValue reversing) := .empty ..
  have reachable : Reachable mirrored := start.after _
  have order_eq : mirrored.order = .byKeyValue := start.order_after _
  obtain ⟨state, described⟩ := reachable.exists_state
  refine ⟨reachable, ?_, ?_⟩
  · obtain ⟨events, after, run, -⟩ := described.duplicate
    have walk : (do (← mirrored.duplicate).1.sorted) = .ok mirrorings := by decide +kernel
    have missed : (do
        let copied ← mirrored.duplicate
        copied.1.find? ⟨[107], [48, 51]⟩ copied.1.order) = .ok none := by decide +kernel
    rw [run] at walk missed
    have copy_order : (after.on mirrored).order = .byKeyValue :=
      (after.order_on mirrored).trans order_eq
    obtain ⟨unordered, lost⟩ := mirrorings_unordered copy_order walk missed
    exact ⟨_, _, run, unordered, lost⟩
  · obtain ⟨result, events, after, run, -⟩ :=
      (State.describes_empty .byKeyValue .default).merge described
    have granted : (do return (← (Map.empty .byKeyValue .default).merge mirrored).result) =
        (.ok (.ok ()) : Checked _) := by decide +kernel
    have walk : (do (← (Map.empty .byKeyValue .default).merge mirrored).map.sorted) =
        .ok mirrorings := by decide +kernel
    have missed : (do
        let outcome ← (Map.empty .byKeyValue .default).merge mirrored
        outcome.map.find? ⟨[107], [48, 51]⟩ outcome.map.order) = .ok none := by decide +kernel
    rw [run] at granted walk missed
    obtain ⟨unordered, lost⟩ := mirrorings_unordered rfl walk missed
    exact ⟨_, run, Except.ok.inj granted, unordered, lost⟩

end PackedMap
