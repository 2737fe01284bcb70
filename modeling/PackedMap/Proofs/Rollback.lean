import PackedMap.Proofs.Comparator
import PackedMap.Proofs.Reachable

/-!
# Rollback

A refused merge leaves its target as if it had not been called, however many copies it had added.
On the way back the free hook is given each of those copies once, and nothing else.
-/

namespace PackedMap

/-- The additions of a merge before it ends or is refused: each copy, beside its source, as the copy
hook leaves it. -/
inductive Map.Copies (hook : Option CopyHook) :
    Map → List Entry → List (Entry × Entry) → Map → Prop
  | nil (map : Map) : Copies hook map [] [] map
  | added {map next after : Map} {source : Entry} {rest : List Entry}
      {copies : List (Entry × Entry)} {slot : Slot} {slab : Slab} {events : List Event} :
      map.addEntry source.pair .empty = .ok ⟨.ok (.added, slot), next, []⟩ →
      next.slab.runCopyHook hook slot source = .ok (slab, events) →
      Copies hook { next with slab } rest copies after →
      Copies hook map (source :: rest) ((source, ⟨slot, source.copied hook⟩) :: copies) after
  | left {map next after : Map} {source : Entry} {rest : List Entry}
      {copies : List (Entry × Entry)} {holder : Slot} :
      map.addEntry source.pair .empty = .ok ⟨.ok (.alreadyPresent, holder), next, []⟩ →
      Copies hook next rest copies after →
      Copies hook map (source :: rest) copies after

/-- What a refused merge leaves and reports. -/
structure RollsBack (map source : Map) (outcome : Outcome (Except CapacityError Unit))
    (error : CapacityError) (copies : List (Entry × Entry)) : Prop where
  unchanged : outcome.map = map
  refused : ∃ before entry rest last, source.entries = .ok (before ++ entry :: rest) ∧
    map.Copies source.copyHook before copies last ∧
    last.addEntry entry.pair .empty = .ok ⟨.error error, last, []⟩
  reported : outcome.events = copying source.copyHook (copies.map Prod.fst) ++
    map.freed (copies.map Prod.snd)
  new : ∃ slots, map.slab.slots = .ok slots ∧ (slots ++ copies.map fun copy => copy.2.id).Nodup

namespace State

variable {state after : State} {map : Map} {hook : Option CopyHook} {sources : List Entry}
  {copies : List (Slot × Entry)}

/-- A copy beside its source. -/
def withSource (hook : Option CopyHook) (copy : Slot × Entry) : Entry × Entry :=
  (copy.2, copyEntry hook copy)

theorem Copies.on (run : Copies map.order hook state sources copies after) :
    (state.on map).Copies hook sources (copies.map (withSource hook)) (after.on map) := by
  induction run with
  | nil state => exact .nil _
  | @added state after source rest copies linked fits inserted _ ih =>
      refine .added (addEntry_linked .empty fits inserted) (runCopyHook_link hook fits inserted) ?_
      exact (link_with_slab fits (fits_copied hook fits) inserted).symm ▸ ih
  | left fits occupied _ ih => exact .left (addEntry_occupied fits occupied rfl) ih

/-- However far a merge has come, it has led from a state to a state under the same limit. -/
theorem exists_of_copies {last : Map} {copied : List (Entry × Entry)}
    (run : (state.on map).Copies hook sources copied last) :
    ∃ after : State, last = after.on map ∧ after.stock.limit = state.stock.limit := by
  generalize start_eq : state.on map = start at run
  induction run generalizing state with
  | nil start => exact ⟨state, start_eq.symm, rfl⟩
  | @added start next last source rest copied slot slab events entered changed _ ih =>
      subst start_eq
      by_cases fits : state.stock.needed 1 source.pair.size ≤ state.stock.limit
      · cases inserted : state.shape.insert (state.seek map.order source.pair)
            state.stock.last with
        | ok linked =>
            rw [addEntry_linked .empty fits inserted] at entered
            simp only [Except.ok.injEq, Outcome.mk.injEq, Prod.mk.injEq] at entered
            obtain ⟨⟨-, rfl⟩, rfl, -⟩ := entered
            rw [runCopyHook_link hook fits inserted] at changed
            obtain ⟨rfl, -⟩ := Prod.mk.inj (Except.ok.inj changed)
            exact @ih (state.link _ (fits_copied hook fits) inserted)
              (link_with_slab fits (fits_copied hook fits) inserted).symm
        | error holder =>
            rw [addEntry_occupied fits inserted rfl] at entered
            simp at entered
      · rw [addEntry_refused map .empty fits] at entered
        simp at entered
  | @left start next last source rest copied holder entered _ ih =>
      subst start_eq
      by_cases fits : state.stock.needed 1 source.pair.size ≤ state.stock.limit
      · cases inserted : state.shape.insert (state.seek map.order source.pair)
            state.stock.last with
        | ok linked =>
            rw [addEntry_linked .empty fits inserted] at entered
            simp at entered
        | error other =>
            rw [addEntry_occupied fits inserted rfl] at entered
            simp only [Except.ok.injEq, Outcome.mk.injEq] at entered
            obtain ⟨-, rfl, -⟩ := entered
            exact @ih (state.grow (state.stock.needed 1 source.pair.size)) rfl
      · rw [addEntry_refused map .empty fits] at entered
        simp at entered

end State

/-- A merge runs to its end or is refused, and a refused one is invisible. -/
theorem merge_rollsBack {map source : Map} (reachable : Reachable map)
    (source_reachable : Reachable source) :
    ∃ outcome, map.merge source = .ok outcome ∧ ∀ error, outcome.result = .error error →
      ∃ copies, RollsBack map source outcome error copies := by
  obtain ⟨state, described⟩ := reachable.exists_state
  obtain ⟨other, source_described⟩ := source_reachable.exists_state
  have merged := State.merge_on state other map source
  rw [described.same, source_described.same] at merged
  rcases merged with
    ⟨copies, after, -, run⟩ | ⟨before, refused, rest, copies, after, split, added, full, run⟩
  · exact ⟨_, run, fun error failed => by cases failed⟩
  · refine ⟨_, run, fun error failed => ?_⟩
    obtain rfl := Except.error.inj failed
    have entries_eq := other.entries_on source
    have copied := added.on
    rw [source_described.same] at entries_eq
    rw [described.same] at copied
    refine ⟨copies.map (State.withSource source.copyHook), rfl,
      ⟨before, refused, rest, after.on map, ?_, copied, State.addEntry_refused map .empty full⟩,
      ?_, ?_⟩
    · rw [entries_eq, ← split]
      rfl
    · rw [List.map_map, List.map_map]
      rfl
    · refine ⟨state.stock.slots, ?_, ?_⟩
      · rw [← described.same]
        exact state.stock.slots_slab state.shape.nodes
      · have distinct := after.stock.slots_nodup
        rw [added.slots] at distinct
        rw [List.map_map]
        exact distinct

/-- A map with room for one small entry, which reports what it gives up. -/
def narrow : Map := .empty .byKey ⟨0, 40, none, true⟩

/-- Two small entries, whose copies are to be in capitals. -/
def wide : Map := (Map.empty .byKey ⟨0, 1000, some .upper, false⟩).after
  [.add ⟨[107], [118]⟩ .empty, .add ⟨[108], [119]⟩ .empty]

theorem merge_rollsBack_narrow : Reachable narrow ∧ Reachable wide ∧
    ∃ outcome copies, narrow.merge wide = .ok outcome ∧ outcome.result = .error ⟨64, 40⟩ ∧
      outcome.events = [.copied ⟨⟨0⟩, ⟨[107], [118]⟩⟩, .freed ⟨⟨0⟩, ⟨[107], [86]⟩⟩] ∧
      RollsBack narrow wide outcome ⟨64, 40⟩ copies := by
  have target : Reachable narrow := .empty .byKey ⟨0, 40, none, true⟩
  have source : Reachable wide := (Reachable.empty .byKey ⟨0, 1000, some .upper, false⟩).after _
  have computed : (narrow.merge wide).map (fun outcome => (outcome.result, outcome.events)) =
      .ok (.error ⟨64, 40⟩, [.copied ⟨⟨0⟩, ⟨[107], [118]⟩⟩, .freed ⟨⟨0⟩, ⟨[107], [86]⟩⟩]) := by
    decide +kernel
  obtain ⟨outcome, run, rolls⟩ := merge_rollsBack target source
  rw [run] at computed
  obtain ⟨result_eq, events_eq⟩ := Prod.mk.inj (Except.ok.inj computed)
  obtain ⟨copies, rolled⟩ := rolls _ result_eq
  exact ⟨target, source, outcome, copies, run, result_eq, events_eq, rolled⟩

end PackedMap
