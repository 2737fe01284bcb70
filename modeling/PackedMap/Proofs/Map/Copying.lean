import PackedMap.Map.Merge
import PackedMap.Proofs.Map.Sorted

/-!
# Copies

A merge adds copies of entries one after another, each changed by the copy hook once it is in the
slab.  The cells that a merge appends are those of the copies it added, in their order, so that a
return to the state before finds exactly them.
-/

namespace PackedMap

/-- The pair of an entry's copy, as the copy hook leaves it. -/
def Entry.copied (hook : Option CopyHook) (source : Entry) : Pair :=
  match hook with
  | none => source.pair
  | some hook => ⟨source.pair.key, hook.apply source.pair.value source⟩

/-- What a copy hook reports of the entries whose copies it changes. -/
def copying (hook : Option CopyHook) (sources : List Entry) : List Event :=
  if hook.isSome then sources.map .copied else []

/-- A comparator does not look at what a copy hook changes. -/
def Comparator.Ignores (order : Comparator) (hook : Option CopyHook) : Prop :=
  ∀ source : Entry, order (source.copied hook) = order source.pair

variable {hook : Option CopyHook} {source : Entry}

@[simp]
theorem size_copied : (source.copied hook).size = source.pair.size := by
  cases hook with
  | none => rfl
  | some hook => simp [Entry.copied, Pair.size, hook.length_apply]

theorem copying_cons (hook : Option CopyHook) (source : Entry) (rest : List Entry) :
    copying hook (source :: rest) = copying hook [source] ++ copying hook rest := by
  cases hook <;> rfl

namespace Stock

variable {stock : Stock} {pair : Pair} {bytes : Bytes}

/-- Changing the value of the entry appended last, in the same length, is as good as appending the
changed entry. -/
theorem setValue_extend (fits : stock.needed 1 pair.size ≤ stock.limit)
    (fits' : stock.needed 1 (Pair.size ⟨pair.key, bytes⟩) ≤ stock.limit)
    (length_eq : bytes.length = pair.value.length) (nodes : Slot → Node) :
    ((stock.extend pair fits).slab nodes).setValue stock.last bytes =
      .ok ((stock.extend ⟨pair.key, bytes⟩ fits').slab nodes) := by
  have front_eq : stock.placed.map (fun entry =>
      (entry.1, changeAt stock.last (Cell.lay · bytes) entry.1 entry.2)) = stock.placed := by
    refine (List.map_congr_left fun entry here => ?_).trans (List.map_id _)
    have differ : entry.1 ≠ stock.last := fun same => stock.last_notMem (same ▸ mem_slots here)
    simp [changeAt, differ]
  have laid : Cell.lay (.live pair) bytes = .live ⟨pair.key, bytes⟩ := by
    simp [Cell.lay, Cell.withValue, Cell.live, ← length_eq]
  have size_eq : Pair.size ⟨pair.key, bytes⟩ = pair.size := by
    simp [Pair.size, length_eq]
  rw [setValue_slab (mem_placed_extend fits), slab, placed_alter, placed_extend, List.map_append,
    front_eq, List.map_singleton, changeAt, if_pos rfl, laid, slab, placed_extend]
  simp only [extend, size_eq]
  rfl

end Stock

namespace State

variable {state : State} {map : Map}

/-! ## Merging -/

theorem fits_copied (hook : Option CopyHook)
    (fits : state.stock.needed 1 source.pair.size ≤ state.stock.limit) :
    state.stock.needed 1 (source.copied hook).size ≤ state.stock.limit := by
  rw [size_copied]
  exact fits

/-- The copy hook changes the entry that was just linked in. -/
theorem runCopyHook_link (hook : Option CopyHook) {place : Slot → Ordering} {after : Shape × Bool}
    (fits : state.stock.needed 1 source.pair.size ≤ state.stock.limit)
    (inserted : state.shape.insert place state.stock.last = .ok after) :
    ((state.link source.pair fits inserted).on map).slab.runCopyHook hook state.stock.last source =
      .ok (((state.link (source.copied hook) (fits_copied hook fits) inserted).on map).slab,
        copying hook [source]) := by
  cases hook with
  | none => rfl
  | some hook =>
      have read := Stock.value_slab (Stock.mem_placed_extend fits) after.1.nodes
      have written := Stock.setValue_extend fits (fits_copied (some hook) fits)
        (hook.length_apply source.pair.value source) after.1.nodes
      exact (Checked.bind_eq read _).trans (Checked.bind_eq written _)

theorem link_with_slab {first second : Pair} {place : Slot → Ordering} {after : Shape × Bool}
    (fits : state.stock.needed 1 first.size ≤ state.stock.limit)
    (fits' : state.stock.needed 1 second.size ≤ state.stock.limit)
    (inserted : state.shape.insert place state.stock.last = .ok after) :
    { (state.link first fits inserted).on map with
        slab := ((state.link second fits' inserted).on map).slab } =
      (state.link second fits' inserted).on map := by
  have first_eq := @Stock.tombstones_extend state.stock first fits
  have second_eq := @Stock.tombstones_extend state.stock second fits'
  simp only [on, Map.holding, Contents.of, link, first_eq, second_eq]

/-- The copies that a merge adds to a state before it ends or is refused, each with its slot, its
source and the state it leads to. -/
inductive Copies (order : Comparator) (hook : Option CopyHook) :
    State → List Entry → List (Slot × Entry) → State → Prop
  | nil (state : State) : Copies order hook state [] [] state
  | added {state after : State} {source : Entry} {rest : List Entry} {copies : List (Slot × Entry)}
      {linked : Shape × Bool} (fits : state.stock.needed 1 source.pair.size ≤ state.stock.limit)
      (inserted : state.shape.insert (state.seek order source.pair) state.stock.last = .ok linked) :
      Copies order hook (state.link (source.copied hook) (fits_copied hook fits) inserted) rest
        copies after →
      Copies order hook state (source :: rest) ((state.stock.last, source) :: copies) after
  | left {state after : State} {source : Entry} {rest : List Entry} {copies : List (Slot × Entry)}
      {holder : Slot} (fits : state.stock.needed 1 source.pair.size ≤ state.stock.limit) :
      state.shape.insert (state.seek order source.pair) state.stock.last = .error holder →
      Copies order hook (state.grow (state.stock.needed 1 source.pair.size)) rest copies after →
      Copies order hook state (source :: rest) copies after

/-- The entry that a copy makes. -/
def copyEntry (hook : Option CopyHook) (copy : Slot × Entry) : Entry :=
  ⟨copy.1, copy.2.copied hook⟩

/-- A merge appends one live cell for each copy that it adds. -/
theorem Copies.appended {order : Comparator} {sources : List Entry} {copies : List (Slot × Entry)}
    {after : State} (run : Copies order hook state sources copies after) :
    ∃ back, after.stock.cells = state.stock.cells ++ back ∧
      (Cell.tiling (Cell.total state.stock.cells) back).map
          (fun entry => (⟨entry.1, entry.2.pair⟩ : Entry)) = copies.map (copyEntry hook) ∧
      ∀ cell ∈ back, cell.tombstone = false := by
  induction run with
  | nil state => exact ⟨[], by simp, rfl, by simp⟩
  | @added state after source rest copies linked fits inserted _ ih =>
      obtain ⟨back, cells_eq, entries_eq, live⟩ := ih
      have linked_cells :
          (state.link (source.copied hook) (fits_copied hook fits) inserted).stock.cells =
            state.stock.cells ++ [.live (source.copied hook)] := rfl
      rw [linked_cells] at cells_eq entries_eq
      refine ⟨.live (source.copied hook) :: back, ?_, ?_, ?_⟩
      · rw [cells_eq, List.append_assoc, List.singleton_append]
      · rw [Cell.tiling, List.map_cons, List.map_cons, ← entries_eq, Cell.total_append]
        rfl
      · exact List.forall_mem_cons.mpr ⟨rfl, live⟩
  | left fits occupied _ ih => exact ih

theorem Copies.slots {order : Comparator} {sources : List Entry} {copies : List (Slot × Entry)}
    {after : State} (run : Copies order hook state sources copies after) :
    after.stock.slots = state.stock.slots ++ copies.map Prod.fst := by
  induction run with
  | nil state => exact (List.append_nil _).symm
  | @added state after source rest copies linked fits inserted _ ih =>
      rw [ih, link, Stock.slots_extend, List.map_cons, List.append_assoc, List.singleton_append]
  | left fits occupied _ ih => exact ih

theorem Copies.limit_eq {order : Comparator} {sources : List Entry} {copies : List (Slot × Entry)}
    {after : State} (run : Copies order hook state sources copies after) :
    after.stock.limit = state.stock.limit := by
  induction run with
  | nil state => rfl
  | added fits inserted _ ih => exact ih
  | left fits occupied _ ih => exact ih

/-- Every source is copied or left out, unless one is refused. -/
theorem exists_copies (order : Comparator) (hook : Option CopyHook) (sources : List Entry)
    (state : State) :
    (∃ copies after, Copies order hook state sources copies after) ∨
    ∃ before refused rest copies after, sources = before ++ refused :: rest ∧
      Copies order hook state before copies after ∧
      ¬ after.stock.needed 1 refused.pair.size ≤ after.stock.limit := by
  induction sources generalizing state with
  | nil => exact .inl ⟨[], state, .nil state⟩
  | cons source rest ih =>
      by_cases fits : state.stock.needed 1 source.pair.size ≤ state.stock.limit
      · cases inserted : state.shape.insert (state.seek order source.pair) state.stock.last with
        | ok linked =>
            rcases ih (state.link (source.copied hook) (fits_copied hook fits) inserted) with
              ⟨copies, after, run⟩ | ⟨before, refused, later, copies, after, rfl, run, full⟩
            · exact .inl ⟨_, after, .added fits inserted run⟩
            · exact .inr ⟨source :: before, refused, later, _, after, rfl,
                .added fits inserted run, full⟩
        | error holder =>
            rcases ih (state.grow (state.stock.needed 1 source.pair.size)) with
              ⟨copies, after, run⟩ | ⟨before, refused, later, copies, after, rfl, run, full⟩
            · exact .inl ⟨copies, after, .left fits inserted run⟩
            · exact .inr ⟨source :: before, refused, later, copies, after, rfl,
                .left fits inserted run, full⟩
      · exact .inr ⟨[], source, rest, [], state, rfl, .nil state, fits⟩

section AddCopies

variable {earlier : Contents} {rest : List Entry}

theorem addCopies_added {linked : Shape × Bool}
    (fits : state.stock.needed 1 source.pair.size ≤ state.stock.limit)
    (inserted : state.shape.insert (state.seek map.order source.pair) state.stock.last =
      .ok linked) :
    Map.addCopies hook earlier (source :: rest) (state.on map) = do
      let outcome ← Map.addCopies hook earlier rest
        ((state.link (source.copied hook) (fits_copied hook fits) inserted).on map)
      return outcome.after (copying hook [source]) := by
  have run := addEntry_linked .empty fits inserted
  have changed := @runCopyHook_link source state map hook _ _ fits inserted
  rw [Map.addCopies]
  refine (Checked.bind_eq run _).trans ?_
  refine (Checked.bind_eq changed _).trans ?_
  exact congrArg (fun stored => do
    let outcome ← Map.addCopies hook earlier rest stored
    return outcome.after (copying hook [source]))
    (link_with_slab fits (fits_copied hook fits) inserted)

theorem addCopies_left {holder : Slot}
    (fits : state.stock.needed 1 source.pair.size ≤ state.stock.limit)
    (occupied : state.shape.insert (state.seek map.order source.pair) state.stock.last =
      .error holder) :
    Map.addCopies hook earlier (source :: rest) (state.on map) =
      Map.addCopies hook earlier rest
        ((state.grow (state.stock.needed 1 source.pair.size)).on map) := by
  have run := @addEntry_occupied source.pair holder state map .empty fits occupied rfl
  rw [Map.addCopies]
  exact Checked.bind_eq run _

theorem addCopies_refused (full : ¬ state.stock.needed 1 source.pair.size ≤ state.stock.limit) :
    Map.addCopies hook earlier (source :: rest) (state.on map) = do
      let (restored, events) ← (state.on map).restore earlier
      return ⟨.error (state.refusal (state.stock.needed 1 source.pair.size)), restored,
        events⟩ := by
  have run := addEntry_refused map .empty full
  rw [Map.addCopies]
  exact Checked.bind_eq run _

/-- Once some sources are done with, a merge goes on with the others. -/
theorem Copies.addCopies_append {copies : List (Slot × Entry)} {sources : List Entry}
    {after : State} (run : Copies map.order hook state sources copies after) (earlier : Contents)
    (rest : List Entry) :
    Map.addCopies hook earlier (sources ++ rest) (state.on map) = do
      let outcome ← Map.addCopies hook earlier rest (after.on map)
      return outcome.after (copying hook (copies.map Prod.snd)) := by
  induction run with
  | nil state =>
      rw [List.nil_append, List.map_nil]
      cases Map.addCopies hook earlier rest (state.on map) with
      | error fault => rfl
      | ok outcome => cases hook <;> rfl
  | @added state after source sources copies linked fits inserted _ ih =>
      rw [List.cons_append, addCopies_added fits inserted, ih, List.map_cons,
        copying_cons hook source (copies.map Prod.snd)]
      cases Map.addCopies hook earlier rest (after.on map) with
      | error fault => rfl
      | ok outcome =>
          simp only [Checked.ok_bind, Checked.pure_eq_ok, Outcome.after, List.append_assoc]
  | left fits occupied _ ih =>
      rw [List.cons_append, addCopies_left fits occupied, ih]

end AddCopies

/-- A return to a state before the last additions gives up the entries appended since. -/
theorem restore_on {earlier : State} {back : List Cell}
    (cells_eq : state.stock.cells = earlier.stock.cells ++ back)
    (live : ∀ cell ∈ back, cell.tombstone = false) :
    (state.on map).restore (.of earlier.stock earlier.shape) =
      .ok (earlier.on map, map.freed ((Cell.tiling (Cell.total earlier.stock.cells) back).map
        fun entry => ⟨entry.1, entry.2.pair⟩)) := by
  have inside : ∀ entry ∈ Cell.tiling (Cell.total earlier.stock.cells) back,
      entry ∈ state.stock.placed := by
    intro entry mem
    rw [Stock.placed_eq_append cells_eq]
    exact List.mem_append_right _ mem
  have found := Stock.liveFrom_slab state.shape.nodes earlier.stock.cells back cells_eq
  have all_live : (Cell.tiling (Cell.total earlier.stock.cells) back).filter
      (fun entry => !entry.2.tombstone) = Cell.tiling (Cell.total earlier.stock.cells) back := by
    refine List.filter_eq_self.mpr fun entry mem => ?_
    have cell_mem := List.mem_map_of_mem (f := Prod.snd) mem
    rw [Cell.map_snd_tiling] at cell_mem
    simp [live entry.2 cell_mem]
  rw [all_live] at found
  have freed := @Map.freeing_eq (state.on map) state.stock state.shape.nodes
    ((Cell.tiling (Cell.total earlier.stock.cells) back).map Prod.fst) rfl fun slot mem => by
      obtain ⟨entry, entry_mem, rfl⟩ := List.mem_map.mp mem
      exact Stock.mem_slots (inside entry entry_mem)
  have entries_eq : ((Cell.tiling (Cell.total earlier.stock.cells) back).map Prod.fst).map
      state.stock.entryAt = (Cell.tiling (Cell.total earlier.stock.cells) back).map
        fun entry => ⟨entry.1, entry.2.pair⟩ := by
    rw [List.map_map]
    refine List.map_congr_left fun entry mem => ?_
    rw [Function.comp_apply, Stock.entryAt, Stock.pairAt_eq (inside entry mem)]
  rw [entries_eq] at freed
  have end_eq : (Contents.of earlier.stock earlier.shape).slab.endSlot = earlier.stock.last :=
    Stock.endSlot_slab ..
  rw [Map.restore, end_eq]
  refine (Checked.bind_eq found _).trans ?_
  exact Checked.bind_eq freed _

/-- The live entries of a state in slab order. -/
def liveEntries (state : State) : List Entry := state.stock.liveSlots.map state.stock.entryAt

theorem perm_liveEntries (state : State) : state.liveEntries.Perm state.entries :=
  (state.live.map _).symm

/-- A new entry stands behind all others. -/
theorem liveEntries_link {pair : Pair}
    (fits : state.stock.needed 1 pair.size ≤ state.stock.limit)
    {place : Slot → Ordering} {linked : Shape × Bool}
    (inserted : state.shape.insert place state.stock.last = .ok linked) :
    (state.link pair fits inserted).liveEntries =
      state.liveEntries ++ [⟨state.stock.last, pair⟩] := by
  have kept : state.stock.liveSlots.map (state.stock.extend pair fits).entryAt =
      state.stock.liveSlots.map state.stock.entryAt :=
    List.map_congr_left fun slot mem => by
      rw [Stock.entryAt, Stock.entryAt, Stock.pairAt_extend_other (ne_last (mem_live.mpr mem))]
  rw [liveEntries, link, Stock.liveSlots_extend, List.map_append, kept, List.map_singleton,
    Stock.entryAt, Stock.pairAt_extend_last, liveEntries]

/-- The copies join the live entries at the end. -/
theorem Copies.liveEntries_eq {order : Comparator} {sources : List Entry}
    {copies : List (Slot × Entry)} {after : State}
    (run : Copies order hook state sources copies after) :
    after.liveEntries = state.liveEntries ++ copies.map (copyEntry hook) := by
  induction run with
  | nil state => exact (List.append_nil _).symm
  | added fits inserted _ ih =>
      rw [ih, liveEntries_link, List.append_assoc]
      rfl
  | left fits occupied _ ih => exact ih

section Merge

variable {source : Map} {sources before rest : List Entry} {refused : Entry}
  {copies : List (Slot × Entry)} {after : State}

/-- A merge that has room for every copy ends with all of them added. -/
theorem Copies.merge_ends (run : Copies map.order source.copyHook state sources copies after)
    (read : source.entries = .ok sources) :
    (state.on map).merge source =
      .ok ⟨.ok (), after.on map, copying source.copyHook (copies.map Prod.snd)⟩ := by
  have added := run.addCopies_append (Contents.of state.stock state.shape).snapshot []
  rw [List.append_nil] at added
  refine (Checked.bind_eq read _).trans (added.trans ?_)
  simp only [Map.addCopies, Checked.pure_eq_ok, Checked.ok_bind, Outcome.after, List.append_nil]

/-- A merge that lacks room for one copy gives up those before it and leaves the state as it was. -/
theorem Copies.merge_refused (run : Copies map.order source.copyHook state before copies after)
    (full : ¬ after.stock.needed 1 refused.pair.size ≤ after.stock.limit)
    (read : source.entries = .ok (before ++ refused :: rest)) :
    (state.on map).merge source =
      .ok ⟨.error (after.refusal (after.stock.needed 1 refused.pair.size)), state.on map,
        copying source.copyHook (copies.map Prod.snd) ++
          map.freed (copies.map (copyEntry source.copyHook))⟩ := by
  obtain ⟨back, cells_eq, entries_eq, live⟩ := run.appended
  have restored := @restore_on after map state back cells_eq live
  rw [entries_eq, ← Contents.snapshot_of] at restored
  have added := run.addCopies_append (Contents.of state.stock state.shape).snapshot
    (refused :: rest)
  rw [addCopies_refused full, restored] at added
  exact (Checked.bind_eq read _).trans added

/-- Whatever entries a merge reads, it ends with all copies added, or is refused in the middle and
leaves the state as it was. -/
theorem merge_reading (state : State) (map : Map) (read : source.entries = .ok sources) :
    (∃ copies after, Copies map.order source.copyHook state sources copies after ∧
      (state.on map).merge source =
        .ok ⟨.ok (), after.on map, copying source.copyHook (copies.map Prod.snd)⟩) ∨
    ∃ before refused rest copies after, sources = before ++ refused :: rest ∧
      Copies map.order source.copyHook state before copies after ∧
      ¬ after.stock.needed 1 refused.pair.size ≤ after.stock.limit ∧
      (state.on map).merge source =
        .ok ⟨.error (after.refusal (after.stock.needed 1 refused.pair.size)), state.on map,
          copying source.copyHook (copies.map Prod.snd) ++
            map.freed (copies.map (copyEntry source.copyHook))⟩ := by
  rcases exists_copies map.order source.copyHook sources state with
    ⟨copies, after, run⟩ | ⟨before, refused, rest, copies, after, rfl, run, full⟩
  · exact .inl ⟨copies, after, run, run.merge_ends read⟩
  · exact .inr ⟨before, refused, rest, copies, after, rfl, run, full, run.merge_refused full read⟩

end Merge

/-- A merge ends with all copies added, or is refused in the middle and leaves the state as it
was. -/
theorem merge_on (state other : State) (map source : Map) :
    (∃ copies after, Copies map.order source.copyHook state other.liveEntries copies after ∧
      (state.on map).merge (other.on source) =
        .ok ⟨.ok (), after.on map, copying source.copyHook (copies.map Prod.snd)⟩) ∨
    ∃ before refused rest copies after, other.liveEntries = before ++ refused :: rest ∧
      Copies map.order source.copyHook state before copies after ∧
      ¬ after.stock.needed 1 refused.pair.size ≤ after.stock.limit ∧
      (state.on map).merge (other.on source) =
        .ok ⟨.error (after.refusal (after.stock.needed 1 refused.pair.size)), state.on map,
          copying source.copyHook (copies.map Prod.snd) ++
            map.freed (copies.map (copyEntry source.copyHook))⟩ :=
  merge_reading state map (other.entries_on source)

/-- The copy of an entry may take the place of the entry where the comparator does not look at what
the copy hook changes. -/
theorem sorted_link_copied {order : Comparator} [Std.TransCmp order] {linked : Shape × Bool}
    (ignores : order.Ignores hook)
    (fits : state.stock.needed 1 source.pair.size ≤ state.stock.limit)
    (inserted : state.shape.insert (state.seek order source.pair) state.stock.last = .ok linked)
    (sorted : state.Sorted order) :
    (state.link (source.copied hook) (fits_copied hook fits) inserted).Sorted order := by
  have seek_eq : state.seek order (source.copied hook) = state.seek order source.pair := by
    funext slot
    rw [seek, ignores, seek]
  rw [← seek_eq] at inserted
  exact sorted_link (fits_copied hook fits) inserted sorted

/-- A comparator that does not look at what the copy hook changes stays that of the tree. -/
theorem Copies.sorted {order : Comparator} [Std.TransCmp order] {sources : List Entry}
    {copies : List (Slot × Entry)} {after : State}
    (run : Copies order hook state sources copies after) (ignores : order.Ignores hook)
    (sorted : state.Sorted order) : after.Sorted order := by
  induction run with
  | nil state => exact sorted
  | added fits inserted _ ih => exact ih (sorted_link_copied ignores fits inserted sorted)
  | left fits occupied _ ih => exact ih sorted

end State
end PackedMap
