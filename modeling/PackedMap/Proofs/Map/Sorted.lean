import PackedMap.Proofs.Map.Update

/-!
# Sorted states

While the tree is in the order of a lawful comparator, every operation on a state is an operation on
the sorted list of its pairs: an addition puts the new pair between those before it and those after
it, and a deletion takes one pair out.  The order is kept.
-/

namespace PackedMap

variable {order : Comparator} {pair : Pair} {pairs : List Pair}

/-- A sorted list of pairs with a pair in the place of those equal to it. -/
def insertSorted (order : Comparator) (pair : Pair) (pairs : List Pair) : List Pair :=
  below (order pair) pairs ++ pair :: above (order pair) pairs

theorem increasing_insertSorted [Std.TransCmp order] (increasing : Increasing order pairs) :
    Increasing order (insertSorted order pair pairs) := by
  refine List.pairwise_append.mpr ⟨increasing.filter _, List.pairwise_cons.mpr
    ⟨fun other mem => (mem_above.mp mem).2, increasing.filter _⟩, fun a a_mem b b_mem => ?_⟩
  have less : order a pair = .lt := Std.OrientedCmp.lt_of_gt (mem_below.mp a_mem).2
  rcases List.mem_cons.mp b_mem with rfl | later
  · exact less
  · exact Std.TransCmp.lt_trans less (mem_above.mp later).2

/-- The place of a pair in a list is told by where a probe stands to the pairs. -/
theorem map_below {f : Slot → Pair} {place : Pair → Ordering} {slots : List Slot} :
    (below (fun slot => place (f slot)) slots).map f = below place (slots.map f) := by
  rw [below, below, List.filter_map]
  rfl

theorem map_matching {f : Slot → Pair} {place : Pair → Ordering} {slots : List Slot} :
    (matching (fun slot => place (f slot)) slots).map f = matching place (slots.map f) := by
  rw [matching, matching, List.filter_map]
  rfl

theorem map_above {f : Slot → Pair} {place : Pair → Ordering} {slots : List Slot} :
    (above (fun slot => place (f slot)) slots).map f = above place (slots.map f) := by
  rw [above, above, List.filter_map]
  rfl

namespace State

variable {state : State} {slot holder : Slot} {after left : Shape × Bool}

/-- Slots of a state read the same in a slab extended by another entry. -/
theorem map_extend {fits : state.stock.needed 1 pair.size ≤ state.stock.limit} {slots : List Slot}
    (inside : ∀ slot ∈ slots, slot ∈ state.shape.slots) :
    slots.map (state.stock.extend pair fits).pairAt = slots.map state.stock.pairAt :=
  List.map_congr_left fun slot mem => Stock.pairAt_extend_other (ne_last (inside slot mem))

/-- A pair that equals a probe is the only one. -/
theorem matching_eq [Std.TransCmp order] (sorted : state.Sorted order) {probe : Pair}
    (found : slot ∈ matching (state.seek order probe) state.shape.slots) :
    matching (order probe) state.pairs = [state.stock.pairAt slot] := by
  have mem : state.stock.pairAt slot ∈ matching (order probe) state.pairs := by
    rw [pairs, ← map_matching]
    exact List.mem_map_of_mem found
  have few := Increasing.matching_length sorted probe
  obtain ⟨only, only_eq⟩ := List.length_eq_one_iff.mp
    (Nat.le_antisymm few (List.length_pos_of_mem mem))
  rw [only_eq] at mem ⊢
  rw [List.mem_singleton.mp mem]

/-- The pairs of a sorted state around those that equal a probe. -/
theorem pairs_eq_append [Std.TransCmp order] (sorted : state.Sorted order) (probe : Pair) :
    state.pairs = below (order probe) state.pairs ++ matching (order probe) state.pairs ++
      above (order probe) state.pairs :=
  (Increasing.sweeps sorted probe).eq_append

section Link

variable (fits : state.stock.needed 1 pair.size ≤ state.stock.limit)
  (inserted : state.shape.insert (state.seek order pair) state.stock.last = .ok after)

/-- An entry put where a probe belongs comes to stand between what is before the probe and what is
after it. -/
theorem pairs_link_at [Std.TransCmp order] {probe : Pair}
    (inserted : state.shape.insert (state.seek order probe) state.stock.last = .ok after)
    (sorted : state.Sorted order) :
    (state.link pair fits inserted).pairs =
        below (order probe) state.pairs ++ pair :: above (order probe) state.pairs ∧
      matching (order probe) state.pairs = [] := by
  obtain ⟨slots_eq, none⟩ :=
    Shape.slots_insert_of_sweeps state.balanced (sweeps sorted probe) inserted
  constructor
  · rw [pairs, link, slots_eq, List.map_append, List.map_cons, Stock.pairAt_extend_last,
      map_extend fun _ mem => (mem_below.mp mem).1, map_extend fun _ mem => (mem_above.mp mem).1]
    exact congrArg₂ (fun front back => front ++ pair :: back) map_below map_above
  · rw [pairs, ← map_matching]
    exact List.map_eq_nil_iff.mpr none

theorem pairs_link [Std.TransCmp order] (sorted : state.Sorted order) :
    (state.link pair fits inserted).pairs = insertSorted order pair state.pairs ∧
      matching (order pair) state.pairs = [] :=
  pairs_link_at fits inserted sorted

theorem sorted_link [Std.TransCmp order] (sorted : state.Sorted order) :
    (state.link pair fits inserted).Sorted order := by
  rw [Sorted, (pairs_link fits inserted sorted).1]
  exact increasing_insertSorted sorted

end Link

section Unlink

variable (removed : state.shape.remove (state.stock.place order slot) slot = some left)

theorem pairs_unlink : ∃ front back, state.pairs = front ++ state.stock.pairAt slot :: back ∧
    (state.unlink removed).pairs = front ++ back := by
  obtain ⟨⟨front, back, slots_eq, left_eq⟩, -⟩ := Shape.remove_spec state.balanced removed
  refine ⟨front.map state.stock.pairAt, back.map state.stock.pairAt, ?_, ?_⟩
  · rw [pairs, slots_eq, List.map_append, List.map_cons]
  · rw [pairs, unlink, Stock.pairAt_entomb, left_eq, List.map_append]

theorem sorted_unlink {native : Comparator} (sorted : state.Sorted native) :
    (state.unlink removed).Sorted native := by
  obtain ⟨front, back, pairs_eq, left_eq⟩ := pairs_unlink removed
  rw [Sorted, pairs_eq] at sorted
  rw [Sorted, left_eq]
  exact sorted.sublist ((List.Sublist.refl front).append (List.sublist_cons_self _ back))

end Unlink

section Replace

variable {fits : state.stock.needed 1 pair.size ≤ state.stock.limit}
  {occupied : state.shape.insert (state.seek order pair) state.stock.last = .error holder}
  {removed : state.shape.remove (state.stock.place order holder) holder = some left}
  {inserted : left.1.insert (state.seek order pair) state.stock.last = .ok after}

theorem pairs_replace [Std.TransCmp order] (sorted : state.Sorted order)
    (occupied : state.shape.insert (state.seek order pair) state.stock.last = .error holder) :
    (state.replace pair fits removed inserted).pairs = insertSorted order pair state.pairs := by
  obtain ⟨front, back, pairs_eq, left_eq⟩ := pairs_unlink removed
  have equal : order pair (state.stock.pairAt holder) = .eq :=
    (mem_matching.mp (Shape.insert_error occupied)).2
  have swept := sweeps (sorted_unlink removed sorted) pair
  rw [show (state.unlink removed).shape = left.1 from rfl,
    show (state.unlink removed).seek order pair = state.seek order pair by
      funext other
      rw [seek, unlink, Stock.pairAt_entomb, seek]] at swept
  obtain ⟨slots_eq, -⟩ := Shape.slots_insert_of_sweeps
    (Shape.remove_spec state.balanced removed).2.balanced swept inserted
  have fewer := (left_slots removed).2
  have left_pairs : left.1.slots.map state.stock.pairAt = front ++ back := by
    rw [← left_eq, pairs, unlink, Stock.pairAt_entomb]
  rw [pairs, replace, Stock.pairAt_entomb, slots_eq, List.map_append, List.map_cons,
    Stock.pairAt_extend_last, map_extend fun _ mem => fewer.subset (mem_below.mp mem).1,
    map_extend fun _ mem => fewer.subset (mem_above.mp mem).1, insertSorted, pairs_eq]
  have below_eq : below (order pair) (front ++ state.stock.pairAt holder :: back) =
      below (order pair) (front ++ back) := by
    simp [below, equal]
  have above_eq : above (order pair) (front ++ state.stock.pairAt holder :: back) =
      above (order pair) (front ++ back) := by
    simp [above, equal]
  rw [below_eq, above_eq, ← left_pairs]
  exact congrArg₂ (fun front back => front ++ pair :: back) map_below map_above

theorem sorted_replace [Std.TransCmp order] (sorted : state.Sorted order)
    (occupied : state.shape.insert (state.seek order pair) state.stock.last = .error holder) :
    (state.replace pair fits removed inserted).Sorted order := by
  rw [Sorted, pairs_replace sorted occupied]
  exact increasing_insertSorted sorted

end Replace

end State
end PackedMap
