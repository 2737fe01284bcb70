import PackedMap.Proofs.Comparator
import PackedMap.Proofs.Drift
import PackedMap.Proofs.Intact

/-!
# Stability

What a slab stores stays where it is.  Whatever an operation does to the tree, the pairs of all
entries, tombstones included, keep their slots, and no entry changes its state but the one that the
operation deletes or replaces.
-/

namespace PackedMap

/-- What a map stores is still stored after an operation, with the entry that the operation took
out, if it took out one. -/
structure Map.StaysIn (map later : Map) (gone : Option Entry)
    (stored after : List (Slot × Record)) : Prop where
  before_eq : map.slab.records = .ok stored
  after_eq : later.slab.records = .ok after
  kept : ∀ slot record, (slot, record) ∈ stored → ∃ record', (slot, record') ∈ after ∧
    record'.pair = record.pair ∧
    (record'.tombstone = true ↔ record.tombstone = true ∨ ∃ entry ∈ gone, entry.id = slot)
  gone : ∀ entry ∈ gone, ∃ record, (entry.id, record) ∈ stored ∧ record.tombstone = false ∧
    record.pair = entry.pair
  new : ∃ slots, after.map Prod.fst = stored.map Prod.fst ++ slots ∧
    (slots.Pairwise fun a b => a.index < b.index) ∧
    ∀ slot ∈ slots, map.slab.endSlot.index ≤ slot.index ∧ slot.index < later.slab.endSlot.index
  ends : map.slab.endSlot.index ≤ later.slab.endSlot.index

namespace State

variable {state after : State} {map : Map} {slot : Slot} {record : Record} {gone : Option Slot}

/-- What is stored at a slot is told by the pair there and by whether it is live. -/
theorem stored_at (mem : (slot, record) ∈ state.records) :
    slot ∈ state.stock.slots ∧ record.pair = state.stock.pairAt slot ∧
      (record.tombstone = true ↔ slot ∉ state.stock.liveSlots) := by
  obtain ⟨⟨other, cell⟩, placed, same⟩ := List.mem_map.mp mem
  obtain ⟨rfl, rfl⟩ := Prod.mk.inj same
  refine ⟨Stock.mem_slots placed, (Stock.pairAt_eq placed).symm, ?_⟩
  rw [show (cell.record (state.shape.nodes other)).tombstone = cell.tombstone from rfl,
    Stock.tombstone_eq placed]
  simp

theorem exists_stored (mem : slot ∈ state.stock.slots) :
    ∃ record, (slot, record) ∈ state.records := by
  rw [← state.slots_records] at mem
  obtain ⟨⟨_, record⟩, stored, rfl⟩ := List.mem_map.mp mem
  exact ⟨record, stored⟩

theorem endSlot_on (state : State) (map : Map) : (state.on map).slab.endSlot = state.stock.last :=
  Stock.endSlot_slab ..

/-- A state that follows another one stores what that one did. -/
theorem staysIn_on (precedes : state.stock.Precedes after.stock gone.toList)
    (live : ∀ slot ∈ gone, slot ∈ state.stock.liveSlots) :
    (state.on map).StaysIn (after.on map) (gone.map state.stock.entryAt) state.records
      after.records where
  before_eq := state.records_on map
  after_eq := after.records_on map
  kept slot record mem := by
    obtain ⟨here, pair_eq, dead⟩ := stored_at mem
    obtain ⟨record', stored⟩ := exists_stored (precedes.mem here)
    obtain ⟨-, pair_eq', dead'⟩ := stored_at stored
    refine ⟨record', stored, ?_, ?_⟩
    · rw [pair_eq', pair_eq, precedes.pairs slot here]
    · have went : slot ∈ gone.toList ↔
          ∃ entry ∈ gone.map state.stock.entryAt, entry.id = slot := by
        cases gone with
        | none => simp
        | some other => simp [Stock.entryAt, eq_comm]
      rw [dead', precedes.live slot here, dead, ← went]
      tauto
  gone entry mem := by
    obtain ⟨slot, went, rfl⟩ := Option.map_eq_some_iff.mp mem
    obtain ⟨record, stored⟩ := exists_stored (Stock.mem_slots_of_live (live slot went))
    obtain ⟨-, pair_eq, dead⟩ := stored_at stored
    refine ⟨record, stored, ?_, pair_eq⟩
    rw [← Bool.not_eq_true, dead, not_not]
    exact live slot went
  new := by
    obtain ⟨slots, slots_eq, behind⟩ := precedes.slots
    have increasing := after.stock.slots_increasing
    have before_last : ∀ slot ∈ slots, slot.index.toNat < after.stock.last.index.toNat := by
      intro slot mem
      apply Stock.lt_last
      rw [slots_eq]
      exact List.mem_append_right _ mem
    rw [slots_eq] at increasing
    refine ⟨slots, ?_, ?_, fun slot mem => ⟨?_, ?_⟩⟩
    · rw [slots_records, slots_records, slots_eq]
    · exact (List.pairwise_append.mp increasing).2.1.imp UInt32.lt_iff_toNat_lt.mpr
    · rw [endSlot_on]
      exact UInt32.le_iff_toNat_le.mpr (behind slot mem)
    · rw [endSlot_on]
      exact UInt32.lt_iff_toNat_lt.mpr (before_last slot mem)
  ends := by
    rw [endSlot_on, endSlot_on]
    exact UInt32.le_iff_toNat_le.mpr precedes.ends

end State

/-- On a reachable map nothing that is stored moves or changes as long as the map is not compacted,
except that one entry may become a tombstone, and new entries come at the end. -/
theorem reachable_staysIn {map : Map} (reachable : Reachable map) :
    (∀ change : Change, change.Spares map → ∃ outcome gone stored after,
      change.run map = .ok outcome ∧ change.retired map outcome.result = .ok gone ∧
        map.StaysIn outcome.map gone stored after) ∧
    ∀ source sources, source.entries = .ok sources → ∃ outcome stored after,
      map.merge source = .ok outcome ∧ map.StaysIn outcome.map none stored after := by
  obtain ⟨state, described⟩ := reachable.exists_state
  constructor
  · intro change spares
    obtain ⟨reply, events, after, step, -, run⟩ := described.spared spares
    obtain ⟨gone, retired, live, precedes⟩ := step.precedes spares.still
    have stays := @State.staysIn_on state after map gone precedes live
    rw [described.same] at retired stays
    rw [Change.retired_sparing] at retired
    exact ⟨_, _, _, _, run, retired, stays⟩
  · intro source sources read
    obtain ⟨result, events, after, run, precedes, -⟩ := described.merges read
    have stays := @State.staysIn_on state after map none precedes (by simp)
    rw [described.same] at stays
    exact ⟨_, _, _, run, stays⟩

/-- A map with a tombstone before its only live entry. -/
def renewed : Map := (Map.empty .byKey .default).after
  [.add ⟨[107], [118]⟩ .empty, .add ⟨[107], [119]⟩ .replace]

theorem reachable_staysIn_renewed : Reachable renewed ∧ renewed.tombstones = 1 ∧
    ∃ outcome stored after,
      Change.run renewed (.erase ⟨[107], []⟩ none .empty) = .ok outcome ∧
      renewed.StaysIn outcome.map (some ⟨⟨4⟩, ⟨[107], [119]⟩⟩) stored after := by
  have reachable : Reachable renewed := (Reachable.empty .byKey .default).after _
  have spares : Change.Spares renewed (.erase ⟨[107], []⟩ none .empty) := rfl
  have told : (Change.run renewed (.erase ⟨[107], []⟩ none .empty)).map Outcome.result =
    .ok (.flag true) := rfl
  have found : renewed.find? ⟨[107], []⟩ .byKey = .ok (some ⟨⟨4⟩, ⟨[107], [119]⟩⟩) := by
    decide +kernel
  obtain ⟨outcome, gone, stored, after, run, retired, stays⟩ :=
    (reachable_staysIn reachable).1 _ spares
  rw [run] at told
  rw [show outcome.result = .flag true from Except.ok.inj told] at retired
  obtain rfl := Except.ok.inj (retired.symm.trans found)
  exact ⟨reachable, by decide +kernel, outcome, stored, after, run, stays⟩

end PackedMap
