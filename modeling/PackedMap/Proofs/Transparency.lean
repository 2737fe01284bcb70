import PackedMap.Proofs.Comparator
import PackedMap.Proofs.Map.Cost
import PackedMap.Proofs.SortedList

/-!
# Compaction is transparent

Two runs of additions and deletions, of which only the second one may compact, cannot be told apart
by what they answer or by what the map holds.  The second one never takes more room, so it is not
refused anything that the first one was granted.
-/

namespace PackedMap

/-- A change is an addition, or a deletion under the native comparator. -/
def Change.Native (order : Comparator) : Change → Prop
  | .add _ _ => True
  | .erase _ query _ => query.getD order = order
  | .compact | .reserve _ _ | .shrink => False

/-- To its user a map is like another one, and it takes no more room. -/
structure Map.Mirrors (plain map : Map) : Prop where
  order_eq : map.order = plain.order
  size_eq : map.size = plain.size
  sorted : ∃ entries entries', plain.sorted = .ok entries ∧ map.sorted = .ok entries' ∧
    entries'.map Entry.pair = entries.map Entry.pair
  finds : ∀ probe, ∃ found found', plain.find? probe plain.order = .ok found ∧
    map.find? probe map.order = .ok found' ∧ found'.map Entry.pair = found.map Entry.pair
  used_le : map.slab.used ≤ plain.slab.used

/-- A run of changes beside one in which no change may compact: after each change the answers are
the same, none of them is a refusal, and the second map is like the first. -/
inductive Map.Shadows : Map → Map → List Change → Prop
  | nil {plain map : Map} : Shadows plain map []
  | cons {plain map : Map} {change : Change} {rest : List Change}
      {outcome outcome' : Outcome Reply} :
      change.sparing.run plain = .ok outcome →
      change.run map = .ok outcome' →
      outcome'.result = outcome.result →
      outcome'.result.isRefusal = false →
      outcome.map.Mirrors outcome'.map →
      Shadows outcome.map outcome'.map rest →
      Shadows plain map (change :: rest)

/-! ## What a change does to a sorted list -/

/-- What an addition or a deletion answers and leaves of a sorted list of pairs. -/
def act (order : Comparator) (pairs : List Pair) : Change → Reply × List Pair
  | .add pair flags =>
      if matching (order pair) pairs = [] then (.addition .added, insertSorted order pair pairs)
      else if flags.contains .replace then (.addition .replaced, insertSorted order pair pairs)
      else (.addition .alreadyPresent, pairs)
  | .erase probe _ _ =>
      if matching (order probe) pairs = [] then (.flag false, pairs)
      else (.flag true, pairs.filter fun old => order probe old ≠ .eq)
  | .compact | .reserve _ _ | .shrink => (.nothing, pairs)

/-- Leave to compact does not count in what a change answers and leaves. -/
theorem act_sparing (order : Comparator) (pairs : List Pair) (change : Change) :
    act order pairs change.sparing = act order pairs change := by
  cases change with
  | add pair flags => simp only [Change.sparing, act, Flags.replace_without]
  | erase | compact | reserve | shrink => rfl

namespace Change.Native

variable {order : Comparator} {change : Change}

theorem updates (native : change.Native order) : change.Updates := by
  cases change with
  | add | erase => trivial
  | compact | reserve | shrink => exact native.elim

theorem sparing (native : change.Native order) : change.sparing.Native order := by
  cases change <;> exact native

theorem still (native : change.Native order) : change.sparing.Still := by
  apply still_sparing
  rintro rfl
  exact native

end Change.Native

namespace State

variable {state after : State} {map : Map} {change : Change} {reply : Reply} {events : List Event}

/-- A native change that is not refused acts on the pairs of a sorted state, and its answer is told
by them. -/
theorem Step.act_eq [Std.TransCmp map.order] (step : Step map state change reply events after)
    (native : change.Native map.order) (sorted : state.Sorted map.order)
    (granted : reply.isRefusal = false) :
    act map.order state.pairs change = (reply, after.pairs) := by
  cases step with
  | refused => cases granted
  | added fits inserted =>
      obtain ⟨pairs_eq, none⟩ := pairs_link fits inserted sorted
      rw [act, if_pos none, pairs_eq]
  | kept fits occupied stays =>
      have matched := matching_eq sorted (Shape.insert_error occupied)
      rw [act, if_neg (by simp [matched]), if_neg (by simp [stays])]
      rfl
  | replaced fits removed inserted occupied goes =>
      have matched := matching_eq sorted (Shape.insert_error occupied)
      rw [act, if_neg (by simp [matched]), if_pos goes, pairs_settle,
        pairs_replace sorted occupied]
  | @missed probe query flags missed =>
      rw [show map.orderOr query = map.order from native] at missed
      have none := Shape.find_eq_none (sweeps sorted probe) missed
      have pairs_none : matching (map.order probe) state.pairs = [] := by
        rw [pairs, ← map_matching]
        exact List.map_eq_nil_iff.mpr none
      rw [act, if_pos pairs_none]
  | @erased probe query flags slot linked removed found =>
      rw [show map.orderOr query = map.order from native] at found
      have matched := matching_eq sorted (Shape.find_mem found)
      obtain ⟨front, back, pairs_eq, left_eq⟩ := pairs_unlink removed
      rw [pairs_eq] at matched
      rw [act, pairs_eq, if_neg (by simp [matched]), filter_of_matching matched, pairs_settle,
        left_eq]
  | compacted | uncompacted | reserved | unreserved | shrunk => exact native.elim

/-! ## Runs side by side -/

/-- A state holds what another one holds, in no more room. -/
structure Covers (plain state : State) : Prop where
  pairs_eq : state.pairs = plain.pairs
  limit_eq : state.stock.limit = plain.stock.limit
  total_le : Cell.total state.stock.cells ≤ Cell.total plain.stock.cells

variable {plain : State}

/-- What a state has room for, another one that takes no more room has too. -/
theorem Covers.accepts (covers : plain.Covers state) (accepts : plain.Accepts change.sparing) :
    state.Accepts change := by
  have total := covers.total_le
  cases change with
  | add pair flags =>
      have fits : plain.stock.needed 1 pair.size ≤ plain.stock.limit := accepts
      rw [Accepts, covers.limit_eq]
      simp only [Stock.needed, unitSize] at fits ⊢
      omega
  | erase | compact | reserve | shrink => trivial

/-- A step that does not compact, beside one that may: if the former is granted, so is the latter,
with the same answer, and the two states stay alike. -/
theorem Covers.step {map' : Map} {reply' : Reply} {events' : List Event} {plain' after' : State}
    [Std.TransCmp map.order] (covers : plain.Covers state) (order_eq : map'.order = map.order)
    (sorted : plain.Sorted map.order) (native : change.Native map.order)
    (step : Step map plain change.sparing reply events plain')
    (step' : Step map' state change reply' events' after') (granted : reply.isRefusal = false) :
    reply' = reply ∧ plain'.Covers after' := by
  have native' : change.Native map'.order := order_eq ▸ native
  have lawful' : Std.TransCmp map'.order := order_eq ▸ inferInstance
  have sorted' : state.Sorted map'.order := by
    rw [Sorted, order_eq, covers.pairs_eq]
    exact sorted
  have accepts := covers.accepts ((step.accepted native.updates.sparing).mp granted)
  have acted := step.act_eq native.sparing sorted granted
  have acted' := step'.act_eq native' sorted' ((step'.accepted native'.updates).mpr accepts)
  rw [order_eq, covers.pairs_eq, ← act_sparing, acted] at acted'
  obtain ⟨rfl, pairs_eq⟩ := Prod.mk.inj acted'
  refine ⟨rfl, pairs_eq.symm, ?_, ?_⟩
  · rw [step'.limit_eq, step.limit_eq, covers.limit_eq]
  -- The plain step takes exactly what it appends, the other one no more than that.
  · have spent := (step.total native.updates.sparing).2 native.still
    have spent' := (step'.total native'.updates).1
    have total := covers.total_le
    rw [Change.cost_sparing] at spent
    omega

namespace Describes

theorem mirrors {map' : Map} (described : plain.Describes map) (described' : state.Describes map')
    (order_eq : map'.order = map.order) (covers : plain.Covers state) : map.Mirrors map' := by
  have lists := described.lists
  have lists' := described'.lists
  rw [covers.pairs_eq] at lists'
  have size_eq : state.shape.slots.length = plain.shape.slots.length := by
    rw [← length_pairs, ← length_pairs, covers.pairs_eq]
  have same := described.same
  have same' := described'.same
  constructor
  · exact order_eq
  · rw [← same, ← same']
    exact size_eq
  · obtain ⟨entries, read, entries_eq⟩ := lists.sorted
    obtain ⟨entries', read', entries_eq'⟩ := lists'.sorted
    exact ⟨entries, entries', read, read', entries_eq'.trans entries_eq.symm⟩
  · intro probe
    obtain ⟨found, search, found_eq⟩ := lists.finds probe
    obtain ⟨found', search', found_eq'⟩ := lists'.finds probe
    rw [order_eq, ← found_eq] at found_eq'
    have first_eq := congrArg List.head? found_eq'
    rw [Option.head?_toList, Option.head?_toList] at first_eq
    exact ⟨found, found', search, search', first_eq⟩
  · rw [← same, ← same']
    show (state.stock.slab _).used ≤ (plain.stock.slab _).used
    rw [Stock.used_slab, Stock.used_slab]
    exact Nat.mul_le_mul_right _ covers.total_le

/-- Where a run without compactions is not refused anything, neither is one with compactions, and
the two stay side by side. -/
theorem shadows {map' : Map} {changes : List Change} (described : plain.Describes map)
    (described' : state.Describes map') (order_eq : map'.order = map.order)
    (covers : plain.Covers state) (native : ∀ change ∈ changes, change.Native map.order)
    (accepted : map.accepts (changes.map Change.sparing) = true) : map.Shadows map' changes := by
  induction changes generalizing plain state map map' with
  | nil => exact .nil
  | cons change rest ih =>
      have lawful := described.lawful
      obtain ⟨here, later⟩ := List.forall_mem_cons.mp native
      obtain ⟨reply, events, after, step, left, run⟩ := described.change change.sparing
      obtain ⟨reply', events', after', step', left', run'⟩ := described'.change change
      rw [List.map_cons, Map.accepts, run] at accepted
      obtain ⟨granted, rest_accepted⟩ := Bool.and_eq_true_iff.mp accepted
      rw [Bool.not_eq_true'] at granted
      obtain ⟨rfl, covers'⟩ := covers.step order_eq described.sorted here step step' granted
      exact .cons run run' rfl granted (left.mirrors left' order_eq covers')
        (ih left left' order_eq covers' later rest_accepted)

end Describes
end State

/-- From an empty map on, leave to compact makes no difference to what additions and deletions
answer and to what the map holds, and it is never paid for with room. -/
theorem compaction_transparent (order : Comparator) [Std.TransCmp order] (config : Config)
    {changes : List Change} (native : ∀ change ∈ changes, change.Native order)
    (accepted : (Map.empty order config).accepts (changes.map Change.sparing) = true) :
    (Map.empty order config).Shadows (.empty order config) changes := by
  have described := State.describes_empty order config
  exact described.shadows described rfl ⟨rfl, rfl, Nat.le_refl _⟩ native accepted

/-- A run with a compaction at its third change, under a limit that leaves no room for more than
three entries. -/
def compactingRun : List Change :=
  [.add ⟨[107], [118]⟩ .empty, .add ⟨[107], [119]⟩ (.union .replace .allowCompaction),
    .erase ⟨[107], []⟩ none .allowCompaction, .add ⟨[108], [120]⟩ .empty]

theorem compaction_transparent_replaced :
    (∀ change ∈ compactingRun, change.Native .byKey) ∧
      (Map.empty .byKey ⟨0, 96, none, false⟩).accepts (compactingRun.map Change.sparing) = true ∧
      (Map.empty .byKey ⟨0, 96, none, false⟩).Shadows (.empty .byKey ⟨0, 96, none, false⟩)
        compactingRun := by
  have native : ∀ change ∈ compactingRun, change.Native .byKey := by
    simp [compactingRun, Change.Native]
  have accepted : (Map.empty .byKey ⟨0, 96, none, false⟩).accepts
      (compactingRun.map Change.sparing) = true := by decide +kernel
  exact ⟨native, accepted, compaction_transparent .byKey _ native accepted⟩

end PackedMap
