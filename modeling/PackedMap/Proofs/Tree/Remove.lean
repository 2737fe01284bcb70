import PackedMap.Proofs.Sweep
import PackedMap.Proofs.Tree.Rebalance
import PackedMap.Tree.Remove

/-!
# Removal from a tree

Removal as a function of trees, and its agreement with removal in the slab.  Whatever the
comparator, either nothing changes or exactly the wanted entry goes, and the tree stays balanced.  A
comparator that sweeps the tree and matches the wanted entry alone leads to it.
-/

namespace PackedMap
namespace Shape

/-- The first entry, with the tree without it and whether that is lower. -/
def removeFirst : Shape → Option (Slot × Shape × Bool)
  | nil => none
  | node slot balance left right =>
      match left.removeFirst with
      | none => some (slot, right, true)
      | some (first, below) => some (first, overShrunk .left slot balance below right)

/-- Two sides without the node over them, whose place the first entry of the right side takes. -/
def removeRoot (balance : Balance) (left right : Shape) : Shape × Bool :=
  match left, right.removeFirst with
  | nil, _ => (right, true)
  | left, none => (left, true)
  | left, some (successor, below) => overShrunk .right successor balance below left

/-- The tree without an entry, and whether it became lower, if the comparator leads there. -/
def remove (place : Slot → Ordering) (target : Slot) : Shape → Option (Shape × Bool)
  | nil => none
  | node slot balance left right =>
      if slot = target then some (removeRoot balance left right)
      else
        match Side.ofOrdering? (place slot) with
        | none => none
        | some side =>
            (side.pick (left.remove place target) (right.remove place target)).map fun below =>
              overShrunk side slot balance below (side.pick right left)

section Remove

variable {place : Slot → Ordering} {target slot first : Slot} {balance : Balance} {side : Side}
  {left right shape : Shape} {after : Shape × Bool}

theorem removeFirst_eq_none : shape.removeFirst = none ↔ shape = nil := by
  cases shape with
  | nil => simp [removeFirst]
  | node slot balance left right => cases taken : left.removeFirst <;> simp [removeFirst, taken]

theorem exists_root {result : Slot × Shape × Bool} (taken : shape.removeFirst = some result) :
    ∃ top, shape.root = some top := by
  cases shape with
  | nil => cases taken
  | node top => exact ⟨top, rfl⟩

/-- The first entry goes, and the tree stays balanced. -/
theorem removeFirst_spec (balanced : shape.Balanced)
    (taken : shape.removeFirst = some (first, after)) :
    shape.slots = first :: after.1.slots ∧ Lowered shape.height after := by
  induction shape generalizing after with
  | nil => cases taken
  | node slot balance left right left_ih _ =>
      rw [node_eq_join .left] at balanced
      obtain ⟨between, left_balanced, right_balanced⟩ := balanced_join.mp balanced
      rw [removeFirst] at taken
      cases recursive : left.removeFirst with
      | none =>
          obtain rfl := removeFirst_eq_none.mp recursive
          rw [recursive] at taken
          obtain ⟨rfl, rfl⟩ := Prod.mk.inj (Option.some.inj taken)
          exact ⟨rfl, right_balanced, by simp [height]⟩
      | some result =>
          obtain ⟨found, below⟩ := result
          rw [recursive] at taken
          obtain ⟨rfl, rfl⟩ := Prod.mk.inj (Option.some.inj taken)
          obtain ⟨slots_eq, lowered⟩ := left_ih left_balanced recursive
          refine ⟨?_, overShrunk_lowered between right_balanced lowered⟩
          have over_eq := slots_overShrunk slot between right_balanced lowered
          simp only [Side.pick] at over_eq
          rw [over_eq, slots, slots_eq]
          rfl

theorem removeRoot_nil (right : Shape) : removeRoot balance nil right = (right, true) := by
  rw [removeRoot]

theorem removeRoot_right_nil (left : Shape) : removeRoot balance left nil = (left, true) := by
  cases left <;> rfl

theorem removeRoot_some {successor : Slot} {below : Shape × Bool} (some_left : left ≠ nil)
    (taken : right.removeFirst = some (successor, below)) :
    removeRoot balance left right = overShrunk .right successor balance below left := by
  cases left with
  | nil => exact absurd rfl some_left
  | node => simp only [removeRoot, taken]

/-- The sides stay as they are in order, and the tree stays balanced. -/
theorem removeRoot_spec (balanced : (node slot balance left right).Balanced) :
    (removeRoot balance left right).1.slots = left.slots ++ right.slots ∧
      Lowered (node slot balance left right).height (removeRoot balance left right) := by
  rw [node_eq_join .right] at balanced ⊢
  obtain ⟨between, right_balanced, left_balanced⟩ := balanced_join.mp balanced
  rw [height_join]
  simp only [Side.pick] at between right_balanced left_balanced ⊢
  by_cases left_nil : left = nil
  · subst left_nil
    rw [removeRoot_nil]
    exact ⟨rfl, right_balanced, by simp [height]⟩
  cases taken : right.removeFirst with
  | none =>
      obtain rfl := removeFirst_eq_none.mp taken
      rw [removeRoot_right_nil]
      exact ⟨(List.append_nil _).symm, left_balanced, by simp [height]⟩
  | some result =>
      obtain ⟨successor, below⟩ := result
      obtain ⟨slots_eq, lowered⟩ := removeFirst_spec right_balanced taken
      rw [removeRoot_some left_nil taken]
      refine ⟨?_, overShrunk_lowered between left_balanced lowered⟩
      rw [slots_overShrunk _ between left_balanced lowered, slots_eq]
      rfl

theorem remove_target (left right : Shape) :
    (node target balance left right).remove place target =
      some (removeRoot balance left right) := by
  rw [remove, if_pos rfl]

theorem remove_stops (slot_ne : slot ≠ target) (stops : Side.ofOrdering? (place slot) = none) :
    (node slot balance left right).remove place target = none := by
  rw [remove, if_neg slot_ne, stops]

theorem remove_leads (slot_ne : slot ≠ target) (leads : Side.ofOrdering? (place slot) = some side) :
    (node slot balance left right).remove place target =
      ((side.pick left right).remove place target).map fun below =>
        overShrunk side slot balance below (side.pick right left) := by
  cases side <;> simp only [Side.pick, remove, if_neg slot_ne, leads]

/-- A removal looks at the entries of the tree only. -/
theorem remove_congr {place' : Slot → Ordering}
    (agree : ∀ other ∈ shape.slots, place' other = place other) :
    shape.remove place' target = shape.remove place target := by
  induction shape using Shape.induction with
  | nil => rfl
  | node slot balance left right ih =>
      by_cases here : slot = target
      · subst here
        rw [remove_target, remove_target]
      have same : place' slot = place slot := agree slot (by simp [slots])
      cases leads : Side.ofOrdering? (place slot) with
      | none => rw [remove_stops here leads, remove_stops here (same ▸ leads)]
      | some side =>
          rw [remove_leads here leads, remove_leads here (same ▸ leads),
            ih side fun other mem => agree other ?_]
          rw [node_eq_join side, mem_slots_join]
          exact .inr (.inl mem)

/-- Exactly the wanted entry goes, and the tree stays balanced. -/
theorem remove_spec (balanced : shape.Balanced)
    (removed : shape.remove place target = some after) :
    (∃ front back, shape.slots = front ++ target :: back ∧ after.1.slots = front ++ back) ∧
      Lowered shape.height after := by
  induction shape using Shape.induction generalizing after with
  | nil => cases removed
  | node slot balance left right ih =>
      by_cases here : slot = target
      · subst here
        rw [remove_target] at removed
        obtain rfl := Option.some.inj removed
        obtain ⟨slots_eq, lowered⟩ := removeRoot_spec balanced
        exact ⟨⟨left.slots, right.slots, rfl, slots_eq⟩, lowered⟩
      cases leads : Side.ofOrdering? (place slot) with
      | none =>
          rw [remove_stops here leads] at removed
          cases removed
      | some side =>
          rw [remove_leads here leads, Option.map_eq_some_iff] at removed
          obtain ⟨below, recursive, rfl⟩ := removed
          obtain ⟨between, near_balanced, far_balanced⟩ :=
            balanced_join.mp (node_eq_join side .. ▸ balanced)
          obtain ⟨⟨front, back, near_eq, below_eq⟩, lowered⟩ := ih side near_balanced recursive
          refine ⟨?_, ?_⟩
          · rw [slots_overShrunk slot between far_balanced lowered]
            cases side with
            | left =>
                simp only [Side.pick] at near_eq below_eq
                exact ⟨front, back ++ slot :: right.slots, by simp [slots, near_eq],
                  by simp [join, Side.pick, slots, below_eq]⟩
            | right =>
                simp only [Side.pick] at near_eq below_eq
                exact ⟨left.slots ++ slot :: front, back, by simp [slots, near_eq],
                  by simp [join, Side.pick, slots, below_eq]⟩
          · rw [node_eq_join side, height_join]
            exact overShrunk_lowered between far_balanced lowered

/-- A sweeping comparator leads to an entry that it matches if it matches no other one. -/
theorem exists_remove (sweeps : Sweeps place shape.slots) (mem : target ∈ shape.slots)
    (equal : place target = .eq)
    (alone : ∀ other ∈ shape.slots, place other = .eq → other = target) :
    ∃ after, shape.remove place target = some after := by
  induction shape using Shape.induction with
  | nil => cases mem
  | node slot balance left right ih =>
      by_cases here : slot = target
      · subst here
        exact ⟨_, remove_target left right⟩
      have side_of (side : Side) (leads : Side.ofOrdering? (place slot) = some side)
          (side_sweeps : Sweeps place (side.pick left right).slots)
          (side_mem : target ∈ (side.pick left right).slots) :
          ∃ after, (node slot balance left right).remove place target = some after := by
        obtain ⟨below, recursive⟩ := ih side side_sweeps side_mem fun other other_mem =>
          alone other (by
            rw [node_eq_join side, mem_slots_join]
            exact .inr (.inl other_mem))
        exact ⟨_, by rw [remove_leads here leads, recursive, Option.map_some]⟩
      rcases List.mem_append.mp mem with before | behind
      · cases answer : place slot with
        | lt => exact side_of .left (by rw [answer]; rfl) sweeps.parts.1 before
        | eq => exact absurd (alone slot (by simp [slots]) answer) here
        | gt => simp [(sweeps.before before).2 answer] at equal
      · rcases List.mem_cons.mp behind with same | behind
        · exact absurd same.symm here
        cases answer : place slot with
        | lt => simp [(sweeps.after behind).1 answer] at equal
        | eq => exact absurd (alone slot (by simp [slots]) answer) here
        | gt => exact side_of .right (by rw [answer]; rfl) sweeps.parts.2 behind

/-- A lawful comparator leads to every entry of a tree in its order. -/
theorem exists_remove_of_increasing {stock : Stock} {order : Comparator} [Std.TransCmp order]
    (increasing : Increasing order (shape.slots.map stock.pairAt)) (mem : target ∈ shape.slots) :
    ∃ after, shape.remove (stock.place order target) target = some after := by
  have sweeps := sweeps_map.mp (increasing.sweeps (stock.pairAt target))
  exact exists_remove sweeps mem (show order _ _ = .eq from Std.ReflCmp.compare_self)
    fun other other_mem equal => (increasing.eq_of_equal mem other_mem equal).symm

theorem mem_of_remove (balanced : shape.Balanced)
    (removed : shape.remove place target = some after) : target ∈ shape.slots := by
  obtain ⟨⟨front, back, slots_eq, -⟩, -⟩ := remove_spec balanced removed
  rw [slots_eq]
  exact List.mem_append_right _ List.mem_cons_self

theorem sublist_remove (balanced : shape.Balanced)
    (removed : shape.remove place target = some after) : after.1.slots.Sublist shape.slots := by
  obtain ⟨⟨front, back, slots_eq, after_eq⟩, -⟩ := remove_spec balanced removed
  rw [slots_eq, after_eq]
  exact (List.Sublist.refl front).append (List.sublist_cons_self target back)

end Remove

/-! ## Removal in the slab -/

section Slab

variable {stock : Stock} {nodes : Slot → Node} {slot target first : Slot} {balance : Balance}
  {left right shape : Shape} {after : Shape × Bool}

theorem removeFirst_slab (held : Held stock nodes shape) (balanced : shape.Balanced)
    (top : shape.root = some slot) (taken : shape.removeFirst = some (first, after)) {fuel : Nat}
    (enough : shape.height ≤ fuel) :
    Tree.removeFirst fuel (stock.slab nodes) slot =
      .ok (first, ⟨after.1.root, after.2⟩, stock.slab (after.1.overlay nodes)) := by
  induction shape generalizing slot after fuel with
  | nil => cases taken
  | node here balance left right left_ih _ =>
      obtain rfl := Option.some.inj top
      rw [node_eq_join .left] at held balanced enough
      rw [height_join] at enough
      simp only [Side.pick] at held balanced enough
      obtain ⟨between, left_balanced, right_balanced⟩ := balanced_join.mp balanced
      obtain ⟨fuel, rfl⟩ : ∃ rest, fuel = rest + 1 := ⟨fuel - 1, by omega⟩
      rw [Tree.removeFirst, held.child_near, Checked.ok_bind]
      rw [removeFirst] at taken
      cases recursive : left.removeFirst with
      | none =>
          obtain rfl := removeFirst_eq_none.mp recursive
          rw [recursive] at taken
          obtain ⟨rfl, rfl⟩ := Prod.mk.inj (Option.some.inj taken)
          have right_link : (stock.slab nodes).child here .right = .ok right.root := held.child_far
          have right_overlay := held.held_far.stored.overlay_eq held.held_far.distinct
          simp only [root, right_link, Checked.ok_bind, Checked.pure_eq_ok, right_overlay]
      | some result =>
          obtain ⟨found, below, shrunk⟩ := result
          rw [recursive] at taken
          obtain ⟨rfl, rfl⟩ := Prod.mk.inj (Option.some.inj taken)
          obtain ⟨slots_eq, lowered⟩ := removeFirst_spec left_balanced recursive
          obtain ⟨next, left_root⟩ := exists_root recursive
          have fewer : below.slots.Sublist left.slots := by
            rw [slots_eq]
            exact List.sublist_cons_self found below.slots
          have distinct : (join .left here balance below right).slots.Nodup :=
            nodup_join_sublist held.distinct fewer
          have inside := held.inside_sublist fewer
          have below_eq := left_ih held.held_near left_balanced left_root recursive
            (by omega : left.height ≤ fuel)
          simp only [left_root, below_eq, Checked.ok_bind, relink held distinct]
          cases shrunk with
          | false => rfl
          | true =>
              simp only [if_true, lowered_overlay distinct inside between right_balanced lowered,
                Checked.ok_bind, Checked.pure_eq_ok]

theorem successor_sublist {below : Shape} (right_eq : right.slots = first :: below.slots) :
    (node first balance left below).slots.Sublist (node slot balance left right).slots := by
  rw [slots, slots, right_eq]
  exact (List.Sublist.refl left.slots).append (List.sublist_cons_self slot _)

/-- The first entry of the right side takes the place of the root. -/
theorem assign_successor {below : Shape} (held : Held stock nodes (node slot balance left right))
    (right_eq : right.slots = first :: below.slots) :
    Stock.assign (below.overlay nodes) first ⟨left.root, below.root, balance⟩ =
      (node first balance left below).overlay nodes := by
  have distinct := held.distinct.sublist (successor_sublist right_eq)
  obtain ⟨⟨first_left, first_below⟩, -, below_nodup, apart⟩ :=
    (@nodup_join .left first balance left below).mp distinct
  refine Stored.eq_overlay ⟨Stock.assign_same .., ?_, ?_⟩ distinct fun other outside => ?_
  · refine Stored.congr held.stored.2.1 fun other mem => ?_
    have other_ne : other ≠ first := fun same => first_left (same ▸ mem)
    rw [Stock.assign_other other_ne, overlay_of_notMem (apart other mem)]
  · exact (stored_overlay below_nodup nodes).congr fun other mem =>
      Stock.assign_other fun same => first_below (same ▸ mem)
  · rw [slots, List.mem_append, List.mem_cons, not_or, not_or] at outside
    rw [Stock.assign_other outside.2.1, overlay_of_notMem outside.2.2]

theorem removeRoot_slab (held : Held stock nodes (node slot balance left right))
    (balanced : (node slot balance left right).Balanced) {fuel : Nat}
    (enough : right.height ≤ fuel) :
    Tree.removeRoot fuel (stock.slab nodes) slot =
      .ok (⟨(removeRoot balance left right).1.root, (removeRoot balance left right).2⟩,
        stock.slab ((removeRoot balance left right).1.overlay nodes)) := by
  have from_left : Held stock nodes (join .left slot balance left right) := held
  have from_right : Held stock nodes (join .right slot balance right left) := held
  rw [Tree.removeRoot, from_left.child_near, from_right.child_near, Checked.ok_bind,
    Checked.ok_bind]
  cases left with
  | nil =>
      have right_overlay := from_right.held_near.stored.overlay_eq from_right.held_near.distinct
      rw [removeRoot_nil, right_overlay]
      rfl
  | node top lean outer inner =>
      cases taken : right.removeFirst with
      | none =>
          obtain rfl := removeFirst_eq_none.mp taken
          have left_overlay := from_left.held_near.stored.overlay_eq from_left.held_near.distinct
          rw [removeRoot_right_nil, left_overlay]
          rfl
      | some result =>
          obtain ⟨between, right_balanced, left_balanced⟩ :=
            (@balanced_join .right slot balance right (node top lean outer inner)).mp balanced
          obtain ⟨successor, below, shrunk⟩ := result
          obtain ⟨slots_eq, lowered⟩ := removeFirst_spec right_balanced taken
          replace slots_eq : right.slots = successor :: below.slots := slots_eq
          obtain ⟨next, right_root⟩ := exists_root taken
          have run := removeFirst_slab from_right.held_near right_balanced right_root taken enough
          have successor_mem : successor ∈ stock.slots :=
            from_right.held_near.inside successor (slots_eq ▸ List.mem_cons_self)
          have slot_notMem := (nodup_join.mp from_right.distinct).1.1
          rw [slots_eq, List.mem_cons, not_or] at slot_notMem
          have slot_node : below.overlay nodes slot = nodes slot := overlay_of_notMem slot_notMem.2
          have balance_eq : (nodes slot).balance = balance := by
            rw [from_right.node_eq, Node.balance_sides]
          have fewer := @successor_sublist slot successor balance (node top lean outer inner) right
            below slots_eq
          have distinct := held.distinct.sublist fewer
          have inside := fun other mem => held.inside other (fewer.subset mem)
          have assigned :
              Stock.assign (below.overlay nodes) successor ⟨some top, below.root, balance⟩ =
              (join .right successor balance below (node top lean outer inner)).overlay nodes :=
            assign_successor held slots_eq
          rw [removeRoot_some (by simp) taken]
          simp only [right_root, root_node, run, Checked.ok_bind, Stock.setChild_slab successor_mem,
            Stock.balance_slab from_right.mem, Stock.setBalance_slab successor_mem,
            Stock.assign_same, Stock.assign_assign, Stock.assign_other slot_notMem.1, slot_node,
            balance_eq, Node.withChild, Node.withBalance, assigned]
          cases shrunk with
          | false => rfl
          | true =>
              simp only [if_true]
              exact lowered_overlay distinct inside between left_balanced lowered

/-- Removal in the slab finds nothing, or leaves the same tree. -/
theorem removeBelow_slab (order : Comparator) (held : Held stock nodes shape)
    (balanced : shape.Balanced) (target_mem : target ∈ stock.slots) {fuel : Nat}
    (enough : shape.height < fuel) :
    Tree.removeBelow order target fuel (stock.slab nodes) shape.root =
      match shape.remove (stock.place order target) target with
      | none => .ok (.absent, stock.slab nodes)
      | some (after, shrunk) =>
          .ok (.unlinked ⟨after.root, shrunk⟩, stock.slab (after.overlay nodes)) := by
  induction shape using Shape.induction generalizing fuel with
  | nil =>
      obtain ⟨fuel, rfl⟩ := Nat.exists_eq_add_of_lt enough
      rfl
  | node slot balance left right ih =>
      obtain ⟨fuel, rfl⟩ : ∃ rest, fuel = rest + 1 := ⟨fuel - 1, by omega⟩
      rw [root_node, Tree.removeBelow]
      by_cases here : slot = target
      · subst here
        have right_low : right.height ≤ fuel := by
          rw [height] at enough
          omega
        simp only [if_true, removeRoot_slab held balanced right_low, Checked.ok_bind, remove_target,
          Checked.pure_eq_ok]
      have slot_mem : slot ∈ stock.slots := held.inside slot (by simp [slots])
      have answer : order (stock.pairAt target) (stock.pairAt slot) =
          stock.place order target slot := rfl
      rw [if_neg here, Stock.pair_eq_pairAt target_mem, Checked.ok_bind,
        Stock.pair_eq_pairAt slot_mem, Checked.ok_bind, answer]
      cases leads : Side.ofOrdering? (stock.place order target slot) with
      | none => rw [remove_stops here leads, Checked.pure_eq_ok]
      | some side =>
          rw [remove_leads here leads]
          rw [node_eq_join side] at held balanced enough
          generalize side.pick right left = far at *
          have recursive := ih side
          generalize side.pick left right = near at *
          obtain ⟨between, near_balanced, far_balanced⟩ := balanced_join.mp balanced
          rw [height_join] at enough
          have below_eq := @recursive held.held_near near_balanced fuel (by omega)
          simp only [held.child_near, Checked.ok_bind, below_eq]
          cases result : near.remove (stock.place order target) target with
          | none => rfl
          | some below =>
              obtain ⟨after, shrunk⟩ := below
              have lowered := (remove_spec near_balanced result).2
              have fewer := sublist_remove near_balanced result
              have distinct : (join side slot balance after far).slots.Nodup :=
                nodup_join_sublist held.distinct fewer
              simp only [Option.map_some, relink held distinct, Checked.ok_bind]
              cases shrunk with
              | false => rfl
              | true =>
                  simp only [if_true, lowered_overlay distinct (held.inside_sublist fewer) between
                    far_balanced lowered, Checked.ok_bind, Checked.pure_eq_ok]

theorem remove_slab (order : Comparator) (held : Held stock nodes shape)
    (balanced : shape.Balanced) (target_mem : target ∈ stock.slots) :
    Tree.remove ⟨shape.root⟩ (stock.slab nodes) target order =
      match shape.remove (stock.place order target) target with
      | none => .ok (false, ⟨shape.root⟩, stock.slab nodes)
      | some (after, _) =>
          .ok (true, ⟨after.root⟩,
            stock.slab (Stock.assign (after.overlay nodes) target .detached)) := by
  rw [Tree.remove, removeBelow_slab order held balanced target_mem held.height_lt]
  cases shape.remove (stock.place order target) target with
  | none => rfl
  | some after => simp only [Checked.ok_bind, Stock.detach_slab target_mem, Checked.pure_eq_ok]

end Slab

end Shape
end PackedMap
