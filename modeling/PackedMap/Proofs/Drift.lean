import PackedMap.Proofs.Reachable
import PackedMap.Proofs.Slab.Succession

/-!
# Operations that do not compact

Without a compaction every entry keeps its slot, and every slot its pair, that of a tombstone too.
New entries stand behind the old end, and at most one entry goes in one operation.
-/

namespace PackedMap

/-- A set of switches without those of another one. -/
def Flags.without (flags other : Flags) : Flags := ⟨flags.bits &&& ~~~other.bits⟩

/-- A change does not compact a map: it is no compaction, and it goes as if none were allowed. -/
def Change.Spares (map : Map) : Change → Prop
  | .add pair flags =>
      Change.run map (.add pair flags) =
        Change.run map (.add pair (flags.without .allowCompaction))
  | .erase probe query flags =>
      Change.run map (.erase probe query flags) =
        Change.run map (.erase probe query (flags.without .allowCompaction))
  | .compact => False
  | .reserve _ _ | .shrink => True

/-- The same change without leave to compact. -/
def Change.sparing : Change → Change
  | .add pair flags => .add pair (flags.without .allowCompaction)
  | .erase probe query flags => .erase probe query (flags.without .allowCompaction)
  | change => change

/-- A reply tells that an entry was deleted or replaced. -/
def Reply.retires : Reply → Bool
  | .addition .replaced | .flag true => true
  | _ => false

/-- The entry that is in the way of an addition, or the one that a deletion is after. -/
def Change.target (map : Map) : Change → Checked (Option Entry)
  | .add pair _ => map.find? pair map.order
  | .erase probe query _ => map.find? probe (map.orderOr query)
  | .compact | .reserve _ _ | .shrink => return none

/-- The entry that a change takes out of a map, told by the reply. -/
def Change.retired (map : Map) (change : Change) (reply : Reply) : Checked (Option Entry) :=
  if reply.retires then change.target map else return none

/-- Changes that do not compact lead from one map to another. -/
inductive Drifts : Map → Map → Prop
  | refl (map : Map) : Drifts map map
  | head {map later : Map} {change : Change} {outcome : Outcome Reply} :
      change.Spares map →
      change.run map = .ok outcome →
      Drifts outcome.map later →
      Drifts map later

/-- Operations that do not compact lead from one map to another.  Copies are taken from any map, if
its copy hook does not change what the order looks at. -/
inductive Passes : Map → Map → Prop
  | refl (map : Map) : Passes map map
  | change {map later : Map} {change : Change} {outcome : Outcome Reply} :
      change.Spares map →
      change.run map = .ok outcome →
      Passes outcome.map later →
      Passes map later
  | merge {map source later : Map} {sources : List Entry}
      {outcome : Outcome (Except CapacityError Unit)} :
      source.entries = .ok sources →
      map.order.Ignores source.copyHook →
      map.merge source = .ok outcome →
      Passes outcome.map later →
      Passes map later

theorem Drifts.after {map : Map} {change : Change} (spares : change.Spares map) :
    Drifts map (map.after [change]) := by
  rw [Map.after]
  split
  · next outcome run => exact .head spares run (.refl outcome.map)
  · exact .refl map

theorem Drifts.passes {map later : Map} (drifts : Drifts map later) : Passes map later := by
  induction drifts with
  | refl map => exact .refl map
  | head spares run _ ih => exact .change spares run ih

theorem Passes.trans {first second third : Map} (front : Passes first second)
    (back : Passes second third) : Passes first third := by
  induction front with
  | refl map => exact back
  | change spares run _ ih => exact .change spares run (ih back)
  | merge read ignores run _ ih => exact .merge read ignores run (ih back)

namespace Flags

@[simp]
theorem contains_without (flags : Flags) :
    (flags.without .allowCompaction).contains .allowCompaction = false := by
  have masked : flags.bits &&& ~~~1 &&& 1 = 0 := by
    rw [UInt8.and_assoc]
    exact UInt8.and_zero
  simp [contains, without, allowCompaction, masked]

@[simp]
theorem replace_without (flags : Flags) :
    (flags.without .allowCompaction).contains .replace = flags.contains .replace := by
  have kept : flags.bits &&& ~~~1 &&& 2 = flags.bits &&& 2 := by
    rw [UInt8.and_assoc]
    rfl
  simp only [contains, without, allowCompaction, replace, kept]

end Flags

namespace Change

/-- A change is no compaction and does not allow one. -/
def Still : Change → Prop
  | .add _ flags | .erase _ _ flags => flags.contains .allowCompaction = false
  | .compact => False
  | .reserve _ _ | .shrink => True

variable {map : Map} {change : Change}

theorem still_sparing (other : change ≠ .compact) : change.sparing.Still := by
  cases change with
  | add pair flags => exact flags.contains_without
  | erase probe query flags => exact flags.contains_without
  | compact => exact absurd rfl other
  | reserve | shrink => trivial

theorem Spares.still (spares : change.Spares map) : change.sparing.Still := by
  apply still_sparing
  rintro rfl
  exact spares

theorem Spares.run_eq (spares : change.Spares map) : change.run map = change.sparing.run map := by
  cases change with
  | add | erase => exact spares
  | compact => exact spares.elim
  | reserve | shrink => rfl

/-- Leave to compact does not tell which entry goes. -/
theorem retired_sparing (map : Map) (change : Change) (reply : Reply) :
    change.sparing.retired map reply = change.retired map reply := by
  cases change <;> rfl

end Change

namespace State

/-- Every slot of a state holds the same pair in another one. -/
structure Keeps (before after : State) : Prop where
  slots : ∀ slot ∈ before.stock.slots, slot ∈ after.stock.slots
  pairs : ∀ slot ∈ before.stock.slots, after.stock.pairAt slot = before.stock.pairAt slot

variable {state after : State} {map : Map} {change : Change} {reply : Reply} {events : List Event}

theorem Keeps.of_precedes {gone : List Slot} (precedes : state.stock.Precedes after.stock gone) :
    state.Keeps after :=
  ⟨fun _ mem => precedes.mem mem, precedes.pairs⟩

theorem settle_still (state : State) {flags : Flags}
    (still : flags.contains .allowCompaction = false) : state.settle flags = state := by
  rw [settle, still]
  rfl

/-- A merge only adds to a state. -/
theorem Copies.precedes {order : Comparator} {hook : Option CopyHook} {sources : List Entry}
    {copies : List (Slot × Entry)} (run : Copies order hook state sources copies after) :
    state.stock.Precedes after.stock [] := by
  obtain ⟨back, cells_eq, -, -⟩ := run.appended
  exact .of_append cells_eq

theorem Copies.keeps {order : Comparator} {hook : Option CopyHook} {sources : List Entry}
    {copies : List (Slot × Entry)} (run : Copies order hook state sources copies after) :
    state.Keeps after :=
  .of_precedes run.precedes

/-- Without a compaction a change takes out at most the entry that its reply tells of. -/
theorem Step.precedes (step : Step map state change reply events after) (still : change.Still) :
    ∃ gone : Option Slot,
      change.retired (state.on map) reply = .ok (gone.map state.stock.entryAt) ∧
      (∀ slot ∈ gone, slot ∈ state.stock.liveSlots) ∧
      state.stock.Precedes after.stock gone.toList := by
  cases step with
  | refused | missed | uncompacted | unreserved => exact ⟨none, rfl, by simp, .refl state.stock⟩
  | kept | reserved | shrunk => exact ⟨none, rfl, by simp, .of_append (List.append_nil _).symm⟩
  | added fits inserted => exact ⟨none, rfl, by simp, .of_append rfl⟩
  | @replaced pair flags holder left linked fits removed inserted occupied goes =>
      have found := Shape.find_of_insert_error occupied
      have live := mem_live.mp (mem_matching.mp (Shape.find_mem found)).1
      have extended : state.stock.Precedes (state.stock.extend pair fits) [] := .of_append rfl
      have still_live : holder ∈ (state.stock.extend pair fits).liveSlots := by
        rw [Stock.liveSlots_extend]
        exact List.mem_append_left _ live
      rw [settle_still _ still]
      refine ⟨some holder, ?_, ?_, extended.trans (.entomb still_live)⟩
      · rw [Change.retired, Reply.retires, if_pos rfl, Change.target, find?_on, order_on, found]
      · intro slot same
        exact Option.mem_some_iff.mp same ▸ live
  | @erased probe query flags slot linked removed found =>
      have live := mem_live.mp (mem_matching.mp (Shape.find_mem found)).1
      rw [settle_still _ still]
      refine ⟨some slot, ?_, ?_, .entomb live⟩
      · rw [Change.retired, Reply.retires, if_pos rfl, Change.target, find?_on,
          show (state.on map).orderOr query = map.orderOr query from rfl, found]
      · intro other same
        exact Option.mem_some_iff.mp same ▸ live
  | compacted => exact still.elim

namespace Describes

/-- A change that does not compact is a step without leave to. -/
theorem spared (described : state.Describes map) (spares : change.Spares map) :
    ∃ reply events, ∃ after : State, Step map state change.sparing reply events after ∧
      after.Describes (after.on map) ∧ change.run map = .ok ⟨reply, after.on map, events⟩ := by
  rw [spares.run_eq]
  exact described.change change.sparing

/-- Whatever is read from its source, a merge goes through and only adds to a map. -/
theorem merges (described : state.Describes map) {source : Map} {sources : List Entry}
    (read : source.entries = .ok sources) :
    ∃ result events, ∃ after : State, map.merge source = .ok ⟨result, after.on map, events⟩ ∧
      state.stock.Precedes after.stock [] ∧
      (map.order.Ignores source.copyHook → after.Describes (after.on map)) := by
  have lawful := described.lawful
  have merge_eq : (state.on map).merge source = map.merge source := by rw [described.same]
  have merged := merge_reading state map read
  rw [merge_eq] at merged
  rcases merged with
    ⟨copies, after, added, run⟩ | ⟨before, refused, rest, copies, after, -, -, -, run⟩
  · exact ⟨_, _, after, run, added.precedes,
      fun ignores => described.on (added.sorted ignores described.sorted)⟩
  · exact ⟨_, _, state, run, .refl state.stock, fun _ => described.on described.sorted⟩

/-- Operations that do not compact leave every entry where it was. -/
theorem passes {later : Map} (described : state.Describes map) (passes : Passes map later) :
    later.order = map.order ∧ ∃ (after : State) (gone : List Slot), after.Describes later ∧
      state.stock.Precedes after.stock gone := by
  induction passes generalizing state with
  | refl map => exact ⟨rfl, state, [], described, .refl state.stock⟩
  | change spares run _ ih =>
      obtain ⟨reply, events, middle, step, left, run'⟩ := described.spared spares
      obtain rfl := Except.ok.inj (run.symm.trans run')
      obtain ⟨order_eq, after, later_gone, ended, behind⟩ := ih left
      obtain ⟨gone, -, -, precedes⟩ := step.precedes spares.still
      exact ⟨order_eq, after, _, ended, precedes.trans behind⟩
  | merge read ignores run _ ih =>
      obtain ⟨result, events, middle, run', precedes, left⟩ := described.merges read
      obtain rfl := Except.ok.inj (run.symm.trans run')
      obtain ⟨order_eq, after, later_gone, ended, behind⟩ := ih (left ignores)
      exact ⟨order_eq, after, _, ended, precedes.trans behind⟩

theorem drifts {later : Map} (described : state.Describes map) (drifts : Drifts map later) :
    later.order = map.order ∧ ∃ after : State, after.Describes later ∧ state.Keeps after := by
  obtain ⟨order_eq, after, gone, left, precedes⟩ := described.passes drifts.passes
  exact ⟨order_eq, after, left, .of_precedes precedes⟩

end Describes

end State
end PackedMap
