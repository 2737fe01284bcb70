import PackedMap.Proofs.Tree.Held
import PackedMap.Proofs.Tree.Rotation
import PackedMap.Tree.Rebalance

/-!
# Rotations in the slab

Lifting a child or a grandchild rewrites the nodes of two or three entries.  What it leaves in the
slab is the turned tree, laid over the nodes that were there.
-/

namespace PackedMap
namespace Shape

variable {stock : Stock} {nodes nodes' : Slot → Node} {side : Side}
  {slot child grandchild : Slot} {balance lean : Balance} {outer middle inner far : Shape}

/-- The two rewritten nodes of a lifted child make the lifted tree. -/
theorem eq_overlay_lifted {upper lower : Balance}
    (held : Held stock nodes (join side slot balance (join side child lean outer inner) far))
    (child_eq : nodes' child = .sides side outer.root (some slot) upper)
    (slot_eq : nodes' slot = .sides side inner.root far.root lower)
    (others : ∀ other, other ≠ slot → other ≠ child → nodes' other = nodes other) :
    nodes' = (join side child upper outer (join side slot lower inner far)).overlay nodes := by
  obtain ⟨⟨slot_near, slot_far⟩, near_nodup, far_nodup, apart⟩ := nodup_join.mp held.distinct
  obtain ⟨⟨child_outer, child_inner⟩, outer_nodup, inner_nodup, outer_apart⟩ :=
    nodup_join.mp near_nodup
  simp only [mem_slots_join, not_or] at slot_near
  have child_far := apart child (mem_slots_join.mpr (.inl rfl))
  have inner_apart (other : Slot) (mem : other ∈ inner.slots) : other ∉ far.slots :=
    apart other (mem_slots_join.mpr (.inr (.inr mem)))
  have keep {part : Shape} (stored : part.Stored nodes) (slot_notMem : slot ∉ part.slots)
      (child_notMem : child ∉ part.slots) : part.Stored nodes' :=
    stored.congr fun other mem => others other (fun same => slot_notMem (same ▸ mem))
      fun same => child_notMem (same ▸ mem)
  refine Stored.eq_overlay (stored_join.mpr ⟨child_eq, ?_, stored_join.mpr ⟨slot_eq, ?_, ?_⟩⟩) ?_
    fun other outside => ?_
  · exact keep held.held_near.held_near.stored slot_near.2.1 child_outer
  · exact keep held.held_near.held_far.stored slot_near.2.2 child_inner
  · exact keep held.held_far.stored slot_far child_far
  · refine nodup_join.mpr ⟨⟨child_outer, ?_⟩, outer_nodup,
      nodup_join.mpr ⟨⟨slot_near.2.2, slot_far⟩, inner_nodup, far_nodup, inner_apart⟩, ?_⟩
    · simp only [mem_slots_join, not_or]
      exact ⟨Ne.symm slot_near.1, child_inner, child_far⟩
    · intro other mem
      simp only [mem_slots_join, not_or]
      exact ⟨fun same => slot_near.2.1 (same ▸ mem), outer_apart other mem,
        apart other (mem_slots_join.mpr (.inr (.inl mem)))⟩
  · simp only [mem_slots_join, not_or] at outside
    exact others other outside.2.2.1 outside.1

/-- The tree with a lifted child differs in two nodes. -/
theorem overlay_lifted {upper lower : Balance}
    (held : Held stock nodes (join side slot balance (join side child lean outer inner) far)) :
    (join side child upper outer (join side slot lower inner far)).overlay nodes =
      Stock.assign (Stock.assign nodes slot (.sides side inner.root far.root lower)) child
        (.sides side outer.root (some slot) upper) := by
  have slot_ne : slot ≠ child := fun same =>
    (nodup_join.mp held.distinct).1.1 (mem_slots_join.mpr (.inl same))
  refine (eq_overlay_lifted held (Stock.assign_same ..) ?_ fun other other_slot other_child =>
    ?_).symm
  · rw [Stock.assign_other slot_ne, Stock.assign_same]
  · rw [Stock.assign_other other_child, Stock.assign_other other_slot]

theorem liftChild_slab
    (held : Held stock nodes (join side slot balance (join side child lean outer inner) far)) :
    Tree.liftChild (stock.slab nodes) slot side =
      .ok (child, stock.slab ((if lean = side.heavy then
        join side child .even outer (join side slot .even inner far)
      else
        join side child side.flip.heavy outer
          (join side slot side.heavy inner far)).overlay nodes)) := by
  have near := held.held_near
  have slot_ne : slot ≠ child := fun same =>
    (nodup_join.mp held.distinct).1.1 (mem_slots_join.mpr (.inl same))
  simp only [Tree.liftChild, held.childThere root_join, near.child_far, Checked.ok_bind,
    Stock.setChild_slab held.mem, Stock.setChild_slab near.mem, Stock.balance_slab near.mem,
    Stock.setBalance_slab held.mem, Stock.setBalance_slab near.mem, Stock.assign_same,
    Stock.assign_other slot_ne, Stock.assign_other slot_ne.symm, held.node_eq, near.node_eq,
    Node.withChild_sides, Node.withChild_flip_sides, Node.withBalance_sides, Node.balance_sides]
  split
  · refine congrArg (fun after => Except.ok (child, stock.slab after))
      (eq_overlay_lifted held (Stock.assign_same ..) ?_ fun other slot_ne' child_ne => ?_)
    · rw [Stock.assign_other slot_ne, Stock.assign_same]
    · simp only [Stock.assign_other slot_ne', Stock.assign_other child_ne]
  · refine congrArg (fun after => Except.ok (child, stock.slab after))
      (eq_overlay_lifted held (Stock.assign_same ..) ?_ fun other slot_ne' child_ne => ?_)
    · rw [Stock.assign_other slot_ne, Stock.assign_same]
    · simp only [Stock.assign_other slot_ne', Stock.assign_other child_ne]

/-- The three rewritten nodes of a lifted grandchild make the lifted tree. -/
theorem eq_overlay_lifted_inner {upper lower : Balance}
    (held : Held stock nodes (join side slot balance
      (join side child side.flip.heavy outer (join side grandchild lean middle inner)) far))
    (grandchild_eq : nodes' grandchild = .sides side (some child) (some slot) .even)
    (child_eq : nodes' child = .sides side outer.root middle.root upper)
    (slot_eq : nodes' slot = .sides side inner.root far.root lower)
    (others : ∀ other, other ≠ slot → other ≠ child → other ≠ grandchild →
      nodes' other = nodes other) :
    nodes' = (join side grandchild .even (join side child upper outer middle)
      (join side slot lower inner far)).overlay nodes := by
  have distinct := held.distinct
  have near := held.held_near
  have deep := near.held_far
  simp only [nodup_join, mem_slots_join, not_or, or_imp, forall_and, forall_eq] at distinct
  have keep {part : Shape} (stored : part.Stored nodes) (slot_notMem : slot ∉ part.slots)
      (child_notMem : child ∉ part.slots) (grandchild_notMem : grandchild ∉ part.slots) :
      part.Stored nodes' :=
    stored.congr fun other mem => others other (fun same => slot_notMem (same ▸ mem))
      (fun same => child_notMem (same ▸ mem)) fun same => grandchild_notMem (same ▸ mem)
  refine Stored.eq_overlay (stored_join.mpr ⟨grandchild_eq, stored_join.mpr ⟨child_eq, ?_, ?_⟩,
    stored_join.mpr ⟨slot_eq, ?_, ?_⟩⟩) ?_ fun other outside => ?_
  · refine keep near.held_near.stored ?_ ?_ ?_ <;> grind
  · refine keep deep.held_near.stored ?_ ?_ ?_ <;> grind
  · refine keep deep.held_far.stored ?_ ?_ ?_ <;> grind
  · refine keep held.held_far.stored ?_ ?_ ?_ <;> grind
  · simp only [nodup_join, mem_slots_join, not_or]
    grind
  · simp only [mem_slots_join, not_or] at outside
    exact others other outside.2.2.1 outside.2.1.1 outside.1

/-- The tree with a lifted grandchild differs in three nodes. -/
theorem overlay_lifted_inner {upper lower : Balance}
    (held : Held stock nodes (join side slot balance
      (join side child side.flip.heavy outer (join side grandchild lean middle inner)) far)) :
    (join side grandchild .even (join side child upper outer middle)
        (join side slot lower inner far)).overlay nodes =
      Stock.assign (Stock.assign (Stock.assign nodes slot
        (.sides side inner.root far.root lower)) child
        (.sides side outer.root middle.root upper)) grandchild
        (.sides side (some child) (some slot) .even) := by
  have distinct := held.distinct
  simp only [nodup_join, mem_slots_join, not_or] at distinct
  have slot_ne : slot ≠ child := distinct.1.1.1
  have slot_ne_deep : slot ≠ grandchild := distinct.1.1.2.2.1
  have child_ne : child ≠ grandchild := distinct.2.1.1.2.1
  refine (eq_overlay_lifted_inner held (Stock.assign_same ..) ?_ ?_ fun other other_slot
    other_child other_deep => ?_).symm
  · rw [Stock.assign_other child_ne, Stock.assign_same]
  · rw [Stock.assign_other slot_ne_deep, Stock.assign_other slot_ne, Stock.assign_same]
  · rw [Stock.assign_other other_deep, Stock.assign_other other_child,
      Stock.assign_other other_slot]

theorem liftGrandchild_slab
    (held : Held stock nodes (join side slot balance
      (join side child side.flip.heavy outer (join side grandchild lean middle inner)) far)) :
    Tree.liftGrandchild (stock.slab nodes) slot side =
      .ok (grandchild, stock.slab ((join side grandchild .even
        (join side child (if lean = side.flip.heavy then side.heavy else .even) outer middle)
        (join side slot (if lean = side.heavy then side.flip.heavy else .even)
          inner far)).overlay nodes)) := by
  have near := held.held_near
  have deep := near.held_far
  have distinct := held.distinct
  simp only [nodup_join, mem_slots_join, not_or] at distinct
  have slot_ne : slot ≠ child := distinct.1.1.1
  have slot_ne_deep : slot ≠ grandchild := distinct.1.1.2.2.1
  have child_ne : child ≠ grandchild := distinct.2.1.1.2.1
  have deep_there : (stock.slab nodes).childThere child side.flip = .ok grandchild := by
    have flipped := near
    rw [← join_flip] at flipped
    exact flipped.childThere root_join
  simp only [Tree.liftGrandchild, held.childThere root_join, deep_there, deep.child_near,
    deep.child_far, Checked.ok_bind, Stock.setChild_slab held.mem, Stock.setChild_slab near.mem,
    Stock.setChild_slab deep.mem, Stock.balance_slab deep.mem, Stock.setBalance_slab held.mem,
    Stock.setBalance_slab near.mem, Stock.setBalance_slab deep.mem, Stock.assign_same,
    Stock.assign_other slot_ne, Stock.assign_other slot_ne.symm, Stock.assign_other slot_ne_deep,
    Stock.assign_other slot_ne_deep.symm, Stock.assign_other child_ne,
    Stock.assign_other child_ne.symm, held.node_eq, near.node_eq, deep.node_eq,
    Node.withChild_sides, Node.withChild_flip_sides, Node.withBalance_sides, Node.balance_sides]
  refine congrArg (fun after => Except.ok (grandchild, stock.slab after))
    (eq_overlay_lifted_inner held (Stock.assign_same ..) ?_ ?_ fun other other_slot other_child
      other_deep => ?_)
  · rw [Stock.assign_other child_ne, Stock.assign_same]
  · rw [Stock.assign_other slot_ne_deep, Stock.assign_other slot_ne, Stock.assign_same]
  · simp only [Stock.assign_other other_slot, Stock.assign_other other_child,
      Stock.assign_other other_deep]

/-! ## Raising and lowering -/

variable {near : Shape} {level : Nat}

/-- The lift that a turn needs is told by the balance of the near side's root. -/
theorem exists_lift (held : Held stock nodes (join side slot balance near far))
    (balanced : near.Balanced) (tall : 2 ≤ near.height) :
    ∃ child lean top, near.root = some child ∧ (stock.slab nodes).balance child = .ok lean ∧
      (near.Leaning ↔ lean ≠ .even) ∧ (turn side slot near far).root = some top ∧
      (lean = side.flip.heavy → Tree.liftGrandchild (stock.slab nodes) slot side =
        .ok (top, stock.slab ((turn side slot near far).overlay nodes))) ∧
      (lean ≠ side.flip.heavy → Tree.liftChild (stock.slab nodes) slot side =
        .ok (top, stock.slab ((turn side slot near far).overlay nodes))) := by
  rcases turn_cases side balanced tall with
    ⟨child, outer, inner, rfl⟩ | ⟨child, outer, inner, rfl⟩ |
    ⟨child, grandchild, lean, outer, middle, inner, rfl⟩
  · refine ⟨child, side.heavy, child, rfl, held.held_near.balance_eq, Iff.rfl, ?_, ?_, fun _ => ?_⟩
    · rw [turn_heavy, root_join]
    · exact fun same => absurd same (Balance.heavy_ne_flip side)
    · rw [liftChild_slab held, if_pos rfl, turn_heavy]
  · refine ⟨child, .even, child, rfl, held.held_near.balance_eq, Iff.rfl, ?_, ?_, fun _ => ?_⟩
    · rw [turn_even, root_join]
    · exact fun same => absurd same (Balance.heavy_ne_even _).symm
    · rw [liftChild_slab held, if_neg (Balance.heavy_ne_even side).symm, turn_even]
  · refine ⟨child, side.flip.heavy, grandchild, rfl, held.held_near.balance_eq, Iff.rfl, ?_,
      fun _ => ?_, fun differ => absurd rfl differ⟩
    · rw [turn_inner, root_join]
    · rw [liftGrandchild_slab held, turn_inner]

/-- A tree with another balance at its root differs in the node of the root alone. -/
theorem overlay_balance (held : Held stock nodes (join side slot balance near far))
    (balance' : Balance) :
    (join side slot balance' near far).overlay nodes =
      Stock.assign nodes slot (.sides side near.root far.root balance') := by
  have distinct := nodup_join.mp held.distinct
  refine (Stored.eq_overlay (stored_join.mpr ⟨Stock.assign_same .., ?_, ?_⟩)
    (nodup_join.mpr distinct) fun other outside => ?_).symm
  · exact held.held_near.stored.congr fun other mem =>
      Stock.assign_other fun same => distinct.1.1 (same ▸ mem)
  · exact held.held_far.stored.congr fun other mem =>
      Stock.assign_other fun same => distinct.1.2 (same ▸ mem)
  · rw [mem_slots_join, not_or] at outside
    exact Stock.assign_other outside.1

/-- Setting the balance of a node changes it in the tree alone. -/
theorem setBalance_slab (held : Held stock nodes (join side slot balance near far))
    (balance' : Balance) :
    (stock.slab nodes).setBalance slot balance' =
      .ok (stock.slab ((join side slot balance' near far).overlay nodes)) := by
  rw [Stock.setBalance_slab held.mem, held.node_eq, Node.withBalance_sides,
    overlay_balance held]

theorem raised_slab (held : Held stock nodes (join side slot balance near far))
    (balanced : near.Balanced) (tall : balance = side.heavy → 2 ≤ near.height)
    (leaning : balance = side.heavy → near.Leaning) :
    Tree.raised (stock.slab nodes) slot side =
      .ok (⟨(raise side slot balance near far).1.root, (raise side slot balance near far).2⟩,
        stock.slab ((raise side slot balance near far).1.overlay nodes)) := by
  simp only [Tree.raised, held.balance_eq, Checked.ok_bind, raise]
  rcases balance.cases_side side with rfl | rfl | rfl
  · obtain ⟨child, lean, top, near_root, lean_eq, leaning_iff, top_root, inner, outer⟩ :=
      exists_lift held balanced (tall rfl)
    have lean_ne := leaning_iff.mp (leaning rfl)
    simp only [Balance.heavy_ne_flip, Balance.heavy_ne_even, if_false, held.childThere near_root,
      lean_eq, Checked.ok_bind, top_root]
    rcases lean.cases_side side with rfl | rfl | rfl
    · simp only [if_true, outer (Balance.heavy_ne_flip side), Checked.ok_bind,
        Checked.pure_eq_ok]
    · exact absurd rfl lean_ne
    · simp only [Balance.flip_ne_heavy, if_false, inner rfl, Checked.ok_bind, Checked.pure_eq_ok]
  · simp only [(Balance.heavy_ne_even _).symm, if_false, if_true, setBalance_slab held,
      Checked.ok_bind, Checked.pure_eq_ok, root_join]
  · simp only [if_true, setBalance_slab held, Checked.ok_bind, Checked.pure_eq_ok, root_join]

theorem lowered_slab (held : Held stock nodes (join side slot balance near far))
    (balanced : far.Balanced) (tall : balance = side.flip.heavy → 2 ≤ far.height) :
    Tree.lowered (stock.slab nodes) slot side =
      .ok (⟨(lower side slot balance near far).1.root, (lower side slot balance near far).2⟩,
        stock.slab ((lower side slot balance near far).1.overlay nodes)) := by
  simp only [Tree.lowered, held.balance_eq, Checked.ok_bind, lower]
  rcases balance.cases_side side with rfl | rfl | rfl
  · simp only [if_true, setBalance_slab held, Checked.ok_bind, Checked.pure_eq_ok, root_join]
  · simp only [(Balance.heavy_ne_even _).symm, if_false, if_true, setBalance_slab held,
      Checked.ok_bind, Checked.pure_eq_ok, root_join]
  · rw [← join_flip] at held
    obtain ⟨child, lean, top, far_root, lean_eq, leaning_iff, top_root, inner, outer⟩ :=
      exists_lift held balanced (tall rfl)
    simp only [Balance.flip_ne_heavy, Balance.heavy_ne_even, if_false, held.childThere far_root,
      lean_eq, Checked.ok_bind, top_root]
    by_cases leans_inside : lean = side.flip.flip.heavy
    · have leaning : far.Leaning := leaning_iff.mpr (leans_inside ▸ Balance.heavy_ne_even _)
      simp only [leans_inside, if_true, inner leans_inside, Checked.ok_bind, Checked.pure_eq_ok,
        leaning, decide_true]
    · simp only [leans_inside, if_false, outer leans_inside, Checked.ok_bind, Checked.pure_eq_ok,
        leaning_iff]
      rcases lean.cases_side side with rfl | rfl | rfl <;> cases side <;> rfl

/-- Raising a node over a grown side leaves the tree of that node, laid over the nodes before. -/
theorem raised_overlay {after : Shape} (distinct : (join side slot balance after far).slots.Nodup)
    (inside : ∀ other ∈ (join side slot balance after far).slots, other ∈ stock.slots)
    (between : balance.Between side level far.height)
    (raised : Raised level (after, true)) :
    Tree.raised (stock.slab ((join side slot balance after far).overlay nodes)) slot side =
      .ok (⟨(overGrown side slot balance (after, true) far).1.root,
          (overGrown side slot balance (after, true) far).2⟩,
        stock.slab ((overGrown side slot balance (after, true) far).1.overlay nodes)) := by
  have slots_eq := slots_overGrown slot between raised
  obtain ⟨balanced, height_eq, leaning⟩ := raised
  replace height_eq : after.height = level + 1 := height_eq
  have low (heavy : balance = side.heavy) : 0 < level := by
    rw [heavy, Balance.heavy_between] at between
    omega
  have run := raised_slab (Held.overlay distinct inside nodes) balanced
    (fun heavy => by have := low heavy; omega) fun heavy => leaning rfl (low heavy)
  have hidden : (overGrown side slot balance (after, true) far).1.overlay
      ((join side slot balance after far).overlay nodes) =
        (overGrown side slot balance (after, true) far).1.overlay nodes :=
    overlay_overlay (slots_eq ▸ distinct) fun other mem => slots_eq ▸ mem
  rw [run, ← hidden]
  rfl

theorem lowered_overlay {after : Shape} (distinct : (join side slot balance after far).slots.Nodup)
    (inside : ∀ other ∈ (join side slot balance after far).slots, other ∈ stock.slots)
    (between : balance.Between side level far.height) (far_balanced : far.Balanced)
    (lowered : Lowered level (after, true)) :
    Tree.lowered (stock.slab ((join side slot balance after far).overlay nodes)) slot side =
      .ok (⟨(overShrunk side slot balance (after, true) far).1.root,
          (overShrunk side slot balance (after, true) far).2⟩,
        stock.slab ((overShrunk side slot balance (after, true) far).1.overlay nodes)) := by
  have slots_eq := slots_overShrunk slot between far_balanced lowered
  obtain ⟨-, height_eq⟩ := lowered
  replace height_eq : after.height + 1 = level := height_eq
  have run := lowered_slab (Held.overlay distinct inside nodes) far_balanced fun heavy => by
    rw [heavy, Balance.flip_heavy_between] at between
    omega
  have hidden : (overShrunk side slot balance (after, true) far).1.overlay
      ((join side slot balance after far).overlay nodes) =
        (overShrunk side slot balance (after, true) far).1.overlay nodes :=
    overlay_overlay (slots_eq ▸ distinct) fun other mem => slots_eq ▸ mem
  rw [run, ← hidden]
  rfl

end Shape
end PackedMap
