import PackedMap.Proofs.Comparator
import PackedMap.Proofs.Reachable

/-!
# What a merge adds

A merge goes through the live entries of its source in slab order, and admits those that equal no
pair present in the target when their turn comes, whether that pair is an old one or a copy made on
the way.  The target takes a copy of each and keeps all it had.  An entry that is not admitted needs
room for its turn as well, and so a merge is refused exactly where the turn of some entry finds too
little.
-/

namespace PackedMap

/-- The entries that are admitted one after another: those that equal no pair present when their
turn comes.  A copy of each joins the pairs. -/
def Comparator.admitted (order : Comparator) (hook : Option CopyHook) :
    List Pair → List Entry → List Entry
  | _, [] => []
  | present, source :: rest =>
      if ∀ old ∈ present, order source.pair old ≠ .eq then
        source :: order.admitted hook (present ++ [source.copied hook]) rest
      else
        order.admitted hook present rest

/-- What a merge that is not refused makes of a map with some live entries.  The copies stand behind
all that was in the slab before, and nothing else does. -/
structure Map.Absorbs (map : Map) (hook : Option CopyHook) (old admitted : List Entry)
    (outcome : Outcome (Except CapacityError Unit)) : Prop where
  settings_eq : outcome.map = { map with toContents := outcome.map.toContents }
  appended : ∃ copies slots, copies.map Entry.pair = admitted.map (Entry.copied hook) ∧
    outcome.map.entries = .ok (old ++ copies) ∧ map.slab.slots = .ok slots ∧
    outcome.map.slab.slots = .ok (slots ++ copies.map Entry.id)
  size_eq : outcome.map.size = map.size + admitted.length
  tombstones_eq : outcome.map.tombstones = map.tombstones
  events_eq : outcome.events = copying hook admitted

theorem units_copied {hook : Option CopyHook} {source : Entry} :
    (source.copied hook).units = source.pair.units := by
  cases hook with
  | none => rfl
  | some hook => simp only [Entry.copied, Pair.units, hook.length_apply]

namespace State

variable {state after : State} {order : Comparator} {hook : Option CopyHook} {pair : Pair}
  {sources : List Entry} {copies : List (Slot × Entry)}

/-- The live entries of a state have the pairs of its tree. -/
theorem mem_livePairs : pair ∈ state.liveEntries.map Entry.pair ↔ pair ∈ state.pairs := by
  rw [← pairs_entries]
  exact (state.perm_liveEntries.map Entry.pair).mem_iff

namespace Copies

theorem tombstones_eq (run : Copies order hook state sources copies after) :
    after.stock.tombstones = state.stock.tombstones := by
  induction run with
  | nil state => rfl
  | added fits inserted _ ih =>
      exact ih.trans (@Stock.tombstones_extend _ _ (fits_copied hook fits))
  | left fits occupied _ ih => exact ih

/-- The copies take as many units as their sources. -/
theorem total_eq (run : Copies order hook state sources copies after) :
    Cell.total after.stock.cells = Cell.total state.stock.cells +
      Pair.totalUnits ((copies.map Prod.snd).map Entry.pair) := by
  induction run with
  | nil state => rfl
  | @added state after source rest copies linked fits inserted _ ih =>
      have linked_total := Stock.total_extend (fits_copied hook fits)
      rw [show (Cell.live (source.copied hook)).units = source.pair.units from units_copied]
        at linked_total
      rw [ih, link, linked_total, Nat.add_assoc, List.map_cons, List.map_cons, Pair.totalUnits]
  | left fits occupied _ ih => exact ih

/-- Of sources in two parts those of the first part have their turn first. -/
theorem exists_split {front back : List Entry}
    (run : Copies order hook state (front ++ back) copies after) :
    ∃ middle first second, Copies order hook state front first middle ∧
      Copies order hook middle back second after := by
  induction front generalizing state copies with
  | nil => exact ⟨state, [], copies, .nil state, run⟩
  | cons source front ih =>
      cases run with
      | added fits inserted later =>
          obtain ⟨middle, first, second, before, behind⟩ := ih later
          exact ⟨middle, _, second, .added fits inserted before, behind⟩
      | left fits occupied later =>
          obtain ⟨middle, first, second, before, behind⟩ := ih later
          exact ⟨middle, first, second, .left fits occupied before, behind⟩

/-- In a tree in its order a merge copies the sources that are admitted. -/
theorem sources_eq [Std.TransCmp order] (run : Copies order hook state sources copies after)
    (ignores : order.Ignores hook) (sorted : state.Sorted order) :
    copies.map Prod.snd = order.admitted hook (state.liveEntries.map Entry.pair) sources := by
  induction run with
  | nil state => rfl
  | @added state after source rest copies linked fits inserted _ ih =>
      have none := (pairs_link_at (fits_copied hook fits) inserted sorted).2
      have unequal : ∀ old ∈ state.liveEntries.map Entry.pair, order source.pair old ≠ .eq := by
        intro old mem equal
        have matched := mem_matching.mpr ⟨mem_livePairs.mp mem, equal⟩
        rw [none] at matched
        exact List.not_mem_nil matched
      have later := ih (sorted_link_copied ignores fits inserted sorted)
      rw [liveEntries_link, List.map_append] at later
      rw [List.map_cons, Comparator.admitted, if_pos unequal, later]
      rfl
  | @left state after source rest copies holder fits occupied _ ih =>
      obtain ⟨mem, equal⟩ := mem_matching.mp (Shape.insert_error occupied)
      have present : state.stock.pairAt holder ∈ state.liveEntries.map Entry.pair :=
        mem_livePairs.mpr (List.mem_map_of_mem mem)
      rw [Comparator.admitted, if_neg fun unequal => unequal _ present equal]
      exact ih sorted

/-- What the next entry needs once some sources had their turns. -/
theorem needed_eq [Std.TransCmp order] (run : Copies order hook state sources copies after)
    (ignores : order.Ignores hook) (sorted : state.Sorted order) (next : Pair) :
    after.stock.needed 1 next.size = Cell.total state.stock.cells * unitSize +
      unitSize * Pair.totalUnits
        ((order.admitted hook (state.liveEntries.map Entry.pair) sources).map Entry.pair) +
      unitSize * next.units := by
  rw [Stock.needed_one, run.total_eq, run.sources_eq ignores sorted, Nat.add_mul,
    Nat.mul_comm unitSize (Pair.totalUnits _)]

/-- The turn of every source finds the room that it needs. -/
theorem room [Std.TransCmp order] {before rest : List Entry} {entry : Entry}
    (run : Copies order hook state (before ++ entry :: rest) copies after)
    (ignores : order.Ignores hook) (sorted : state.Sorted order) :
    Cell.total state.stock.cells * unitSize + unitSize * Pair.totalUnits
        ((order.admitted hook (state.liveEntries.map Entry.pair) before).map Entry.pair) +
      unitSize * entry.pair.units ≤ state.stock.limit := by
  obtain ⟨middle, first, second, reached, turn⟩ := run.exists_split
  rw [← reached.needed_eq ignores sorted, ← reached.limit_eq]
  cases turn with
  | added fits => exact fits
  | left fits => exact fits

theorem absorbs_on {map : Map} [Std.TransCmp map.order]
    (run : Copies map.order hook state sources copies after) (ignores : map.order.Ignores hook)
    (sorted : state.Sorted map.order) :
    (state.on map).Absorbs hook state.liveEntries
      (map.order.admitted hook (state.liveEntries.map Entry.pair) sources)
      ⟨.ok (), after.on map, copying hook (copies.map Prod.snd)⟩ := by
  have live_eq := run.liveEntries_eq
  rw [← run.sources_eq ignores sorted]
  constructor
  · rfl
  · refine ⟨copies.map (copyEntry hook), state.stock.slots, ?_, ?_,
      state.stock.slots_slab state.shape.nodes, ?_⟩
    · rw [List.map_map, List.map_map]
      rfl
    · rw [← live_eq]
      exact after.entries_on map
    · refine (after.stock.slots_slab after.shape.nodes).trans ?_
      rw [run.slots, List.map_map]
      rfl
  · have lengths := congrArg List.length live_eq
    rw [liveEntries, liveEntries, List.length_append, List.length_map, List.length_map,
      List.length_map, ← after.live.length_eq, ← state.live.length_eq] at lengths
    rw [List.length_map]
    exact lengths
  · exact run.tombstones_eq
  · rfl

end Copies

theorem isTombstone_on (map : Map) {entry : Entry} (mem : entry ∈ state.liveEntries) :
    (state.on map).slab.isTombstone entry.id = .ok false := by
  obtain ⟨slot, live, rfl⟩ := List.mem_map.mp mem
  obtain ⟨cell, placed, alive⟩ := Stock.mem_liveSlots.mp live
  exact alive ▸ Stock.isTombstone_slab placed state.shape.nodes

end State

/-- A merge in a session leaves all other maps as they are. -/
theorem Session.step_merge {session : Session} {name other : String} {map source : Map}
    {outcome : Outcome (Except CapacityError Unit)} (here : session.map? name = some map)
    (there : session.map? other = some source) (run : map.merge source = .ok outcome) :
    ∃ answer after, session.step (.merge name other) = .ok (answer, after) ∧
      answer.events = outcome.events ∧ after.map? name = some outcome.map ∧
      ∀ third ≠ name, after.map? third = session.map? third := by
  have stepped : session.step (.merge name other) =
      .ok ((session.putMap name outcome.map).answer name
        (.ofExcept (fun _ => .done) outcome.result) outcome.events) := by
    simp only [step, here, there, run]
    rfl
  refine ⟨_, _, stepped, rfl, ?_, fun third differ => ?_⟩
  · rw [map?_putMap, if_pos rfl]
  · rw [map?_putMap, if_neg differ]

/-- A merge takes a copy of each entry that its source admits, in the slab order of the source, and
nothing else.  It is refused exactly if the turn of some entry, admitted or not, finds less room
than the entry needs.  The copy hook runs once for each copy, and no other map changes. -/
theorem merge_exact {map source : Map} (reachable : Reachable map)
    (source_reachable : Reachable source) (ignores : map.order.Ignores source.copyHook) :
    ∃ outcome old sources, map.merge source = .ok outcome ∧ map.entries = .ok old ∧
      source.entries = .ok sources ∧
      (∀ entry ∈ sources, source.slab.isTombstone entry.id = .ok false) ∧
      (outcome.result = .ok () → map.Absorbs source.copyHook old
        (map.order.admitted source.copyHook (old.map Entry.pair) sources) outcome) ∧
      ((∃ error, outcome.result = .error error) ↔
        ∃ before entry rest, sources = before ++ entry :: rest ∧
          map.slab.limit < map.slab.used + unitSize * Pair.totalUnits
              ((map.order.admitted source.copyHook (old.map Entry.pair) before).map Entry.pair) +
            unitSize * entry.pair.units) ∧
      ∀ (session : Session) (name other : String), session.map? name = some map →
        session.map? other = some source →
        ∃ answer after, session.step (.merge name other) = .ok (answer, after) ∧
          answer.events = outcome.events ∧ after.map? name = some outcome.map ∧
          ∀ third ≠ name, after.map? third = session.map? third := by
  obtain ⟨state, described⟩ := reachable.exists_state
  obtain ⟨other, described'⟩ := source_reachable.exists_state
  have lawful := described.lawful
  have live : ∀ entry ∈ other.liveEntries, source.slab.isTombstone entry.id = .ok false := by
    intro entry mem
    have told := State.isTombstone_on source mem
    rwa [described'.same] at told
  rcases described.merge_cases described' with
    ⟨copies, after, added, run⟩ | ⟨before, refused, rest, copies, after, split, added, full, run⟩
  · have absorbs := added.absorbs_on ignores described.sorted
    rw [described.same] at absorbs
    refine ⟨_, _, _, run, described.reads, described'.reads, live, fun _ => absorbs, ?_,
      fun session name other here there => session.step_merge here there run⟩
    rw [described.limit_eq, described.used_eq]
    refine iff_of_false (fun ⟨_, failed⟩ => by cases failed) ?_
    rintro ⟨before, entry, rest, split, lacking⟩
    rw [split] at added
    exact Nat.not_le.mpr lacking (added.room ignores described.sorted)
  · refine ⟨_, _, _, run, described.reads, described'.reads, live, fun ended => (by cases ended),
      ?_, fun session name other here there => session.step_merge here there run⟩
    rw [described.limit_eq, described.used_eq]
    refine iff_of_true ⟨_, rfl⟩ ⟨before, refused, rest, split, ?_⟩
    rw [← added.needed_eq ignores described.sorted, ← added.limit_eq]
    exact Nat.not_le.mp full

/-- A map that does not tell capitals from small letters, with an entry and a tombstone. -/
def caselessTarget : Map := (Map.empty .caseless ⟨0, 200, none, true⟩).after
  [.add ⟨[97], []⟩ .empty, .add ⟨[97], [1]⟩ .replace]

/-- A map that does tell them apart, with a tombstone and with entries that are equal without regard
to case. -/
def casedSource : Map := (Map.empty .byKey ⟨0, 400, some .upper, true⟩).after
  [.add ⟨[98], [98]⟩ .empty, .add ⟨[66], []⟩ .empty, .add ⟨[66], [99]⟩ .replace,
    .add ⟨[101], [101]⟩ .empty]

theorem merge_exact_caselessTarget : Reachable caselessTarget ∧ Reachable casedSource ∧
    caselessTarget.order.Ignores casedSource.copyHook ∧
    ∃ outcome, caselessTarget.merge casedSource = .ok outcome ∧ outcome.result = .ok () ∧
      caselessTarget.Absorbs casedSource.copyHook [⟨⟨4⟩, ⟨[97], [1]⟩⟩]
        [⟨⟨0⟩, ⟨[98], [98]⟩⟩, ⟨⟨12⟩, ⟨[101], [101]⟩⟩] outcome := by
  have start : Reachable (.empty .caseless ⟨0, 200, none, true⟩) := .empty ..
  have target : Reachable caselessTarget := start.after _
  have source : Reachable casedSource :=
    (Reachable.empty .byKey ⟨0, 400, some .upper, true⟩).after _
  have order_eq : caselessTarget.order = .caseless := start.order_after _
  have ignores : caselessTarget.order.Ignores casedSource.copyHook := by
    rw [order_eq]
    intro entry
    cases casedSource.copyHook <;> rfl
  have told : (caselessTarget.merge casedSource).map Outcome.result = .ok (.ok ()) := by
    decide +kernel
  have held : caselessTarget.entries = .ok [⟨⟨4⟩, ⟨[97], [1]⟩⟩] := by decide +kernel
  have offered : casedSource.entries = .ok [⟨⟨0⟩, ⟨[98], [98]⟩⟩, ⟨⟨8⟩, ⟨[66], [99]⟩⟩,
      ⟨⟨12⟩, ⟨[101], [101]⟩⟩] := by decide +kernel
  have admitted_eq (hook : Option CopyHook) : Comparator.caseless.admitted hook
      [⟨[97], [1]⟩] [⟨⟨0⟩, ⟨[98], [98]⟩⟩, ⟨⟨8⟩, ⟨[66], [99]⟩⟩, ⟨⟨12⟩, ⟨[101], [101]⟩⟩] =
        [⟨⟨0⟩, ⟨[98], [98]⟩⟩, ⟨⟨12⟩, ⟨[101], [101]⟩⟩] := by
    cases hook <;> rfl
  obtain ⟨outcome, old, sources, run, read, source_read, -, absorbs, -⟩ :=
    merge_exact target source ignores
  rw [run] at told
  obtain rfl := Except.ok.inj (read.symm.trans held)
  obtain rfl := Except.ok.inj (source_read.symm.trans offered)
  have result_eq : outcome.result = .ok () := Except.ok.inj told
  rw [order_eq, List.map_singleton, admitted_eq] at absorbs
  exact ⟨target, source, ignores, outcome, run, result_eq, absorbs result_eq⟩

end PackedMap
