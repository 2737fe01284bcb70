import PackedMap.Proofs.Sweep
import PackedMap.Proofs.Tree.Rebalance
import PackedMap.Proofs.Tree.Search
import PackedMap.Tree.Insert

/-!
# Insertion into a tree

Insertion as a function of trees, and its agreement with insertion in the slab.  Whatever the
comparator, the new entry comes to stand somewhere among the others, which keep their order, and the
tree stays balanced.  Where the comparator sweeps the tree, the new entry comes between those before
it and those after it, or else it meets a match.
-/

namespace PackedMap
namespace Shape

/-- The tree with a new entry, and whether it became higher; or the match that is in the way. -/
def insert (place : Slot → Ordering) (new : Slot) : Shape → Except Slot (Shape × Bool)
  | nil => .ok (node new .even nil nil, true)
  | node slot balance left right =>
      match Side.ofOrdering? (place slot) with
      | none => .error slot
      | some side =>
          (side.pick (left.insert place new) (right.insert place new)).map fun below =>
            overGrown side slot balance below (side.pick right left)

section Insert

variable {place : Slot → Ordering} {new slot : Slot} {balance : Balance} {side : Side}
  {near far shape : Shape} {after : Shape × Bool}

theorem insert_stops (left right : Shape) (stops : Side.ofOrdering? (place slot) = none) :
    (node slot balance left right).insert place new = .error slot := by
  rw [insert, stops]

theorem insert_leads {left right : Shape} (leads : Side.ofOrdering? (place slot) = some side) :
    (node slot balance left right).insert place new =
      ((side.pick left right).insert place new).map fun below =>
        overGrown side slot balance below (side.pick right left) := by
  cases side <;> simp only [Side.pick, insert, leads]

theorem insert_ok {left right : Shape}
    (inserted : (node slot balance left right).insert place new = .ok after) :
    ∃ side below, Side.ofOrdering? (place slot) = some side ∧
      (side.pick left right).insert place new = .ok below ∧
      after = overGrown side slot balance below (side.pick right left) := by
  cases leads : Side.ofOrdering? (place slot) with
  | none =>
      rw [insert_stops left right leads] at inserted
      cases inserted
  | some side =>
      rw [insert_leads leads] at inserted
      obtain ⟨below, recursive, after_eq⟩ : ∃ below,
          (side.pick left right).insert place new = .ok below ∧
            after = overGrown side slot balance below (side.pick right left) := by
        cases recursive : (side.pick left right).insert place new with
        | error holder =>
            rw [recursive] at inserted
            cases inserted
        | ok below =>
            rw [recursive] at inserted
            exact ⟨below, rfl, (Except.ok.inj inserted).symm⟩
      exact ⟨side, below, rfl, recursive, after_eq⟩

/-- An insertion looks at the entries of the tree only. -/
theorem insert_congr {place' : Slot → Ordering}
    (agree : ∀ other ∈ shape.slots, place' other = place other) :
    shape.insert place' new = shape.insert place new := by
  induction shape using Shape.induction with
  | nil => rfl
  | node slot balance left right ih =>
      have here : place' slot = place slot := agree slot (by simp [slots])
      cases leads : Side.ofOrdering? (place slot) with
      | none => rw [insert_stops left right leads, insert_stops left right (here ▸ leads)]
      | some side =>
          rw [insert_leads leads, insert_leads (here ▸ leads),
            ih side fun other mem => agree other ?_]
          rw [node_eq_join side, mem_slots_join]
          exact .inr (.inl mem)

/-- The tree stays balanced, and its height is told. -/
theorem insert_raised (balanced : shape.Balanced) (inserted : shape.insert place new = .ok after) :
    Raised shape.height after := by
  induction shape using Shape.induction generalizing after with
  | nil =>
      obtain rfl := Except.ok.inj inserted
      exact ⟨⟨rfl, trivial, trivial⟩, rfl, fun _ positive => absurd positive (Nat.lt_irrefl 0)⟩
  | node slot balance left right ih =>
      obtain ⟨side, below, -, recursive, rfl⟩ := insert_ok inserted
      rw [node_eq_join side] at balanced ⊢
      obtain ⟨between, near_balanced, far_balanced⟩ := balanced_join.mp balanced
      rw [height_join]
      exact overGrown_raised between far_balanced (ih side near_balanced recursive)

/-- The slots of a node whose near side changed. -/
theorem slots_overGrown_insert {left right : Shape} {below : Shape × Bool}
    (balanced : (node slot balance left right).Balanced)
    (recursive : (side.pick left right).insert place new = .ok below) :
    (overGrown side slot balance below (side.pick right left)).1.slots =
      (join side slot balance below.1 (side.pick right left)).slots := by
  rw [node_eq_join side] at balanced
  obtain ⟨between, near_balanced, -⟩ := balanced_join.mp balanced
  exact slots_overGrown slot between (insert_raised near_balanced recursive)

/-- The new entry comes to stand somewhere among the others, which keep their order. -/
theorem slots_insert (balanced : shape.Balanced) (inserted : shape.insert place new = .ok after) :
    ∃ front back, shape.slots = front ++ back ∧ after.1.slots = front ++ new :: back := by
  induction shape using Shape.induction generalizing after with
  | nil =>
      obtain rfl := Except.ok.inj inserted
      exact ⟨[], [], rfl, rfl⟩
  | node slot balance left right ih =>
      obtain ⟨side, below, -, recursive, rfl⟩ := insert_ok inserted
      have near_balanced := (balanced_join.mp (node_eq_join side .. ▸ balanced)).2.1
      obtain ⟨front, back, near_eq, below_eq⟩ := ih side near_balanced recursive
      rw [slots_overGrown_insert balanced recursive]
      cases side with
      | left =>
          refine ⟨front, back ++ slot :: right.slots, ?_, ?_⟩
          · rw [slots, ← List.append_assoc, ← near_eq, Side.pick]
          · simp [join, Side.pick, slots, below_eq]
      | right =>
          refine ⟨left.slots ++ slot :: front, back, ?_, ?_⟩
          · rw [slots, List.append_assoc, List.cons_append, ← near_eq, Side.pick]
          · simp [join, Side.pick, slots, below_eq]

theorem perm_insert (balanced : shape.Balanced) (inserted : shape.insert place new = .ok after) :
    after.1.slots.Perm (new :: shape.slots) := by
  obtain ⟨front, back, slots_eq, after_eq⟩ := slots_insert balanced inserted
  rw [slots_eq, after_eq]
  exact List.perm_middle

/-- Under a sweeping comparator the new entry comes between those before it and those after it, and
no entry matches it. -/
theorem slots_insert_of_sweeps (balanced : shape.Balanced) (sweeps : Sweeps place shape.slots)
    (inserted : shape.insert place new = .ok after) :
    after.1.slots = below place shape.slots ++ new :: above place shape.slots ∧
      matching place shape.slots = [] := by
  induction shape using Shape.induction generalizing after with
  | nil =>
      obtain rfl := Except.ok.inj inserted
      exact ⟨rfl, rfl⟩
  | node slot balance left right ih =>
      obtain ⟨side, later, leads, recursive, rfl⟩ := insert_ok inserted
      have near_balanced := (balanced_join.mp (node_eq_join side .. ▸ balanced)).2.1
      rw [slots_overGrown_insert balanced recursive]
      cases side with
      | left =>
          have here : place slot = .lt := by
            cases answer : place slot <;> simp_all [Side.ofOrdering?]
          obtain ⟨slots_eq, none⟩ := ih .left near_balanced sweeps.parts.1 recursive
          obtain ⟨below_eq, matching_eq, above_eq⟩ := sweeps.split_lt here
          simp only [Side.pick] at slots_eq none
          simp only [slots, below_eq, matching_eq, above_eq, none, join, Side.pick, slots_eq]
          exact ⟨by simp, trivial⟩
      | right =>
          have here : place slot = .gt := by
            cases answer : place slot <;> simp_all [Side.ofOrdering?]
          obtain ⟨slots_eq, none⟩ := ih .right near_balanced sweeps.parts.2 recursive
          obtain ⟨below_eq, matching_eq, above_eq⟩ := sweeps.split_gt here
          simp only [Side.pick] at slots_eq none
          simp only [slots, below_eq, matching_eq, above_eq, none, join, Side.pick, slots_eq]
          exact ⟨by simp, trivial⟩

/-- A search takes the same way as an insertion. -/
theorem find_leads {left right : Shape} (leads : Side.ofOrdering? (place slot) = some side) :
    (node slot balance left right).find place = (side.pick left right).find place := by
  cases answer : place slot with
  | eq => simp [answer, Side.ofOrdering?] at leads
  | lt | gt =>
      simp only [answer, Side.ofOrdering?, Option.some.injEq] at leads
      simp [find, answer, ← leads, Side.pick]

/-- The entry in the way is the match that a search finds. -/
theorem find_of_insert_error {holder : Slot}
    (occupied : shape.insert place new = .error holder) : shape.find place = some holder := by
  induction shape using Shape.induction with
  | nil => cases occupied
  | node slot balance left right ih =>
      cases leads : Side.ofOrdering? (place slot) with
      | none =>
          rw [insert_stops left right leads] at occupied
          obtain rfl := Except.error.inj occupied
          have here : place slot = .eq := by
            cases answer : place slot <;> simp_all [Side.ofOrdering?]
          simp [find, here]
      | some side =>
          rw [find_leads leads]
          apply ih side
          rw [insert_leads leads] at occupied
          cases result : (side.pick left right).insert place new with
          | error other =>
              rw [result] at occupied
              exact congrArg Except.error (Except.error.inj occupied)
          | ok below =>
              rw [result] at occupied
              cases occupied

/-- The entry in the way is a match. -/
theorem insert_error {holder : Slot} (occupied : shape.insert place new = .error holder) :
    holder ∈ matching place shape.slots :=
  find_mem (find_of_insert_error occupied)

end Insert

/-! ## Insertion in the slab -/

section Slab

variable {stock : Stock} {nodes : Slot → Node} {new : Slot} {shape : Shape}

/-- Insertion in the slab finds the same match, or leaves the same tree. -/
theorem insertBelow_slab (order : Comparator) (held : Held stock nodes shape)
    (balanced : shape.Balanced) (new_mem : new ∈ stock.slots) (fresh : new ∉ shape.slots)
    (detached : nodes new = .detached) {fuel : Nat} (enough : shape.height < fuel) :
    Tree.insertBelow order new fuel (stock.slab nodes) shape.root =
      match shape.insert (stock.place order new) new with
      | .error holder => .ok (.occupied holder, stock.slab nodes)
      | .ok (after, grown) =>
          .ok (.linked ⟨after.root, grown⟩, stock.slab (after.overlay nodes)) := by
  induction shape using Shape.induction generalizing fuel with
  | nil =>
      obtain ⟨fuel, rfl⟩ := Nat.exists_eq_add_of_lt enough
      have alone : (node new .even nil nil).overlay nodes = nodes :=
        (congrArg (Stock.assign nodes new) detached.symm).trans (Stock.assign_self nodes new)
      simp only [root, Tree.insertBelow, insert, Checked.pure_eq_ok, alone]
  | node slot balance left right ih =>
      obtain ⟨fuel, rfl⟩ : ∃ rest, fuel = rest + 1 := ⟨fuel - 1, by omega⟩
      have slot_mem : slot ∈ stock.slots := held.inside slot (by simp [slots])
      have answer : order (stock.pairAt new) (stock.pairAt slot) = stock.place order new slot := rfl
      rw [root_node, Tree.insertBelow, Stock.pair_eq_pairAt new_mem, Checked.ok_bind,
        Stock.pair_eq_pairAt slot_mem, Checked.ok_bind, answer]
      cases leads : Side.ofOrdering? (stock.place order new slot) with
      | none => rw [insert_stops left right leads, Checked.pure_eq_ok]
      | some side =>
          rw [insert_leads leads]
          rw [node_eq_join side] at held balanced fresh enough
          generalize side.pick right left = far at *
          have recursive := ih side
          generalize side.pick left right = near at *
          obtain ⟨between, near_balanced, far_balanced⟩ := balanced_join.mp balanced
          rw [mem_slots_join, not_or, not_or] at fresh
          rw [height_join] at enough
          have below_eq := @recursive held.held_near near_balanced fresh.2.1 fuel (by omega)
          simp only [held.child_near, Checked.ok_bind, below_eq]
          cases result : near.insert (stock.place order new) new with
          | error holder => rfl
          | ok below =>
              obtain ⟨after, grown⟩ := below
              have raised := insert_raised near_balanced result
              have perm := perm_insert near_balanced result
              have distinct : (join side slot balance after far).slots.Nodup :=
                nodup_join_cons held.distinct perm fresh.2.1 fresh.1 fresh.2.2
              have inside : ∀ other ∈ (join side slot balance after far).slots,
                  other ∈ stock.slots := by
                intro other mem
                simp only [mem_slots_join, perm.mem_iff, List.mem_cons] at mem
                rcases mem with here | (rfl | near_mem) | far_mem
                · exact here ▸ held.mem
                · exact new_mem
                · exact held.held_near.inside other near_mem
                · exact held.held_far.inside other far_mem
              simp only [Except.map, relink held distinct, Checked.ok_bind]
              cases grown with
              | false => rfl
              | true =>
                  simp only [if_true, raised_overlay distinct inside between raised,
                    Checked.ok_bind, Checked.pure_eq_ok]

theorem insert_slab (order : Comparator) (held : Held stock nodes shape)
    (balanced : shape.Balanced) (new_mem : new ∈ stock.slots) (fresh : new ∉ shape.slots)
    (detached : nodes new = .detached) :
    Tree.insert ⟨shape.root⟩ (stock.slab nodes) new order =
      match shape.insert (stock.place order new) new with
      | .error holder => .ok (some holder, ⟨shape.root⟩, stock.slab nodes)
      | .ok (after, _) => .ok (none, ⟨after.root⟩, stock.slab (after.overlay nodes)) := by
  have below := insertBelow_slab order held balanced new_mem fresh detached held.height_lt
  simp only [Tree.insert, Stock.isDetached_slab new_mem detached, Checked.ok_bind, Bool.not_true,
    Bool.false_eq_true, if_false, below]
  cases shape.insert (stock.place order new) new <;> rfl

end Slab

end Shape
end PackedMap
