import PackedMap.Proofs.Tree.Bearing
import PackedMap.Proofs.Tree.Rebalance

/-!
# What rebalancing does

A node is rebalanced after one of its sides became a level higher or lower, while its own balance
is still the earlier one.  Whatever the sides look like, the subtree is balanced afterwards, has the
same nodes in the same order, and the flag tells whether its height changed.  Of all nodes no more
than three are written: the one that is rebalanced, its child on the heavy side, and that child's
child on the other side.
-/

namespace PackedMap
namespace Shape

/-- The part of a tree on a side of its root. -/
def subtree (side : Side) : Shape → Shape
  | nil => nil
  | node _ _ left right => side.pick left right

/-- The root of a tree, its child on a side, and that child's child on the other side. -/
def bend (side : Side) (shape : Shape) : List Slot :=
  shape.root.toList ++ (shape.subtree side).root.toList ++
    ((shape.subtree side).subtree side.flip).root.toList

section Bend

variable {side : Side} {slot child other : Slot} {balance lean : Balance} {near far : Shape}
  {outer inner : Shape}

@[simp]
theorem subtree_join : (join side slot balance near far).subtree side = near := by
  cases side <;> rfl

@[simp]
theorem subtree_flip_join : (join side slot balance near far).subtree side.flip = far := by
  cases side <;> rfl

theorem ne_of_notMem_bend (outside : other ∉ (join side slot balance near far).bend side) :
    other ≠ slot := by
  rintro rfl
  simp [bend] at outside

theorem ne_child_of_notMem_bend
    (outside : other ∉ (join side slot balance (join side child lean outer inner) far).bend side) :
    other ≠ child := by
  rintro rfl
  simp [bend] at outside

theorem ne_grandchild_of_notMem_bend {grandchild : Slot} {balance' : Balance} {middle last : Shape}
    (outside : other ∉ (join side slot balance (join side child lean outer
      (join side grandchild balance' middle last)) far).bend side) : other ≠ grandchild := by
  rintro rfl
  simp [bend] at outside

end Bend

/-! ## Nodes that are not written -/

section Written

variable {stock : Stock} {nodes : Slot → Node} {side : Side} {slot other : Slot}
  {balance : Balance} {near far : Shape}

/-- A turn writes the nodes of the bend alone. -/
theorem overlay_turn_of_notMem (held : Held stock nodes (join side slot balance near far))
    (balanced : near.Balanced) (tall : 2 ≤ near.height)
    (outside : other ∉ (join side slot balance near far).bend side) :
    (turn side slot near far).overlay nodes other = nodes other := by
  have other_ne := ne_of_notMem_bend outside
  rcases turn_cases side balanced tall with
    ⟨child, outer, inner, rfl⟩ | ⟨child, outer, inner, rfl⟩ |
    ⟨child, grandchild, lean, outer, middle, inner, rfl⟩
  · rw [turn_heavy, overlay_lifted held, Stock.assign_other (ne_child_of_notMem_bend outside),
      Stock.assign_other other_ne]
  · rw [turn_even, overlay_lifted held, Stock.assign_other (ne_child_of_notMem_bend outside),
      Stock.assign_other other_ne]
  · rw [turn_inner, overlay_lifted_inner held,
      Stock.assign_other (ne_grandchild_of_notMem_bend outside),
      Stock.assign_other (ne_child_of_notMem_bend outside), Stock.assign_other other_ne]

theorem overlay_raise_of_notMem (held : Held stock nodes (join side slot balance near far))
    (balanced : near.Balanced) (tall : balance = side.heavy → 2 ≤ near.height)
    (outside : other ∉ (join side slot balance near far).bend side) :
    (raise side slot balance near far).1.overlay nodes other = nodes other := by
  have other_ne := ne_of_notMem_bend outside
  rw [raise]
  rcases balance.cases_side side with rfl | rfl | rfl
  · simp only [Balance.heavy_ne_flip, Balance.heavy_ne_even, if_false]
    exact overlay_turn_of_notMem held balanced (tall rfl) outside
  · simp only [(Balance.heavy_ne_even _).symm, if_false, if_true]
    rw [overlay_balance held, Stock.assign_other other_ne]
  · simp only [if_true]
    rw [overlay_balance held, Stock.assign_other other_ne]

theorem overlay_lower_of_notMem (held : Held stock nodes (join side slot balance near far))
    (balanced : far.Balanced) (tall : balance = side.flip.heavy → 2 ≤ far.height)
    (outside : other ∉ (join side slot balance near far).bend side.flip) :
    (lower side slot balance near far).1.overlay nodes other = nodes other := by
  rw [← join_flip] at outside
  have other_ne := ne_of_notMem_bend outside
  rw [lower]
  rcases balance.cases_side side with rfl | rfl | rfl
  · simp only [if_true]
    rw [overlay_balance held, Stock.assign_other other_ne]
  · simp only [(Balance.heavy_ne_even _).symm, if_false, if_true]
    rw [overlay_balance held, Stock.assign_other other_ne]
  · simp only [Balance.flip_ne_heavy, Balance.heavy_ne_even, if_false]
    rw [← join_flip] at held
    exact overlay_turn_of_notMem held balanced (tall rfl) outside

end Written

end Shape

/-- What rebalancing leaves of a ledger and of a tree in it whose root had a given height before the
change.  The side is the one that is too high. -/
structure Ledger.Rebalances (before after : Ledger) (top : Subtree) (shape result : Shape)
    (heavy : Side) (height : Nat) : Prop where
  bears : after.Bears ⟨top.root⟩ result
  slots_eq : result.slots = shape.slots
  resized_iff : top.resized = true ↔ result.height ≠ height
  relinks : before.Relinks after (shape.bend heavy)

section Rebalancing

variable {stock : Stock} {nodes : Slot → Node} {side : Side} {slot : Slot} {balance : Balance}
  {near far : Shape} {level : Nat}

/-- Another tree of the same entries, laid over the nodes that were there. -/
theorem Held.bears_overlay {shape result : Shape} (held : Held stock nodes shape)
    (storable : ∀ slot side, (nodes slot).child side ≠ some ⟨Link.nilWord⟩)
    (slots_eq : result.slots = shape.slots) (balanced : result.Balanced) :
    (Ledger.of stock (result.overlay nodes)).Bears ⟨result.root⟩ result :=
  (Ledger.spells_overlay (slots_eq ▸ held.distinct) (slots_eq ▸ held.inside) storable).bears
    balanced

/-- A node that is brought up to date after its near side became a level higher. -/
theorem Held.rebalances_raised (held : Held stock nodes (.join side slot balance near far))
    (storable : ∀ slot side, (nodes slot).child side ≠ some ⟨Link.nilWord⟩)
    (near_balanced : near.Balanced) (far_balanced : far.Balanced)
    (between : balance.Between side level far.height) (grown : near.height = level + 1)
    (leaning : 2 ≤ near.height → near.Leaning) :
    ∃ top after result,
      Tree.raised (Ledger.of stock nodes).slab slot side = .ok (top, after.slab) ∧
      (Ledger.of stock nodes).Rebalances after top (.join side slot balance near far) result side
        (max level far.height + 1) := by
  have tall (heavy : balance = side.heavy) : 2 ≤ near.height := by
    rw [heavy, Balance.heavy_between] at between
    omega
  have raised : Shape.Raised level (near, true) :=
    ⟨near_balanced, grown, fun _ above => leaning (by omega)⟩
  have slots_eq := Shape.slots_overGrown slot between raised
  have result : Shape.Raised _ (Shape.overGrown side slot balance (near, true) far) :=
    Shape.overGrown_raised between far_balanced raised
  have run := Shape.raised_slab held near_balanced tall fun heavy => leaning (tall heavy)
  simp only [← Ledger.slab_of] at run
  exact ⟨_, _, _, run, held.bears_overlay storable slots_eq result.balanced, slots_eq,
    result.resized_iff,
    Ledger.relinks_of fun other => Shape.overlay_raise_of_notMem held near_balanced tall⟩

/-- A node that is brought up to date after its near side became a level lower. -/
theorem Held.rebalances_lowered (held : Held stock nodes (.join side slot balance near far))
    (storable : ∀ slot side, (nodes slot).child side ≠ some ⟨Link.nilWord⟩)
    (near_balanced : near.Balanced) (far_balanced : far.Balanced)
    (between : balance.Between side level far.height) (shrunk : near.height + 1 = level) :
    ∃ top after result,
      Tree.lowered (Ledger.of stock nodes).slab slot side = .ok (top, after.slab) ∧
      (Ledger.of stock nodes).Rebalances after top (.join side slot balance near far) result
        side.flip (max level far.height + 1) := by
  have tall (heavy : balance = side.flip.heavy) : 2 ≤ far.height := by
    rw [heavy, Balance.flip_heavy_between] at between
    omega
  have lowered : Shape.Lowered level (near, true) := ⟨near_balanced, shrunk⟩
  have slots_eq := Shape.slots_overShrunk slot between far_balanced lowered
  have result : Shape.Lowered _ (Shape.overShrunk side slot balance (near, true) far) :=
    Shape.overShrunk_lowered between far_balanced lowered
  have run := Shape.lowered_slab held far_balanced tall
  simp only [← Ledger.slab_of] at run
  exact ⟨_, _, _, run, held.bears_overlay storable slots_eq result.balanced, slots_eq,
    result.resized_iff,
    Ledger.relinks_of fun other => Shape.overlay_lower_of_notMem held far_balanced tall⟩

end Rebalancing

/-- Rebalancing is exact.  The root of the tree has the balance that fitted its near side before
that side became a level higher, as an insertion makes it, or a level lower. -/
theorem rebalancing_exact {ledger : Ledger} {side : Side} {slot : Slot} {balance : Balance}
    {near far : Shape}
    (spells : ledger.Spells ⟨some slot⟩ (.join side slot balance near far))
    (near_balanced : near.Balanced) (far_balanced : far.Balanced) {level : Nat}
    (between : balance.Between side level far.height) :
    (near.height = level + 1 → (2 ≤ near.height → near.Leaning) →
      ∃ top after result, Tree.raised ledger.slab slot side = .ok (top, after.slab) ∧
        ledger.Rebalances after top (.join side slot balance near far) result side
          (max level far.height + 1)) ∧
      (near.height + 1 = level →
        ∃ top after result, Tree.lowered ledger.slab slot side = .ok (top, after.slab) ∧
          ledger.Rebalances after top (.join side slot balance near far) result side.flip
            (max level far.height + 1)) := by
  obtain ⟨stock, nodes, storable, rfl, -, held⟩ := spells.exists_held
  exact ⟨held.rebalances_raised storable near_balanced far_balanced between,
    held.rebalances_lowered storable near_balanced far_balanced between⟩

/-- Four cells for the trees below. -/
def branchStock : Stock where
  cells := [.live ⟨[1], []⟩, .live ⟨[2], [5]⟩, .live ⟨[3], []⟩, .live ⟨[4], [6, 7]⟩]
  capacity := 160
  limit := 170
  used_le := by decide
  capacity_le := by decide
  limit_le := by decide

/-- A branch that leans away from the side on which it hangs. -/
def leaningBranch : Shape :=
  .node ⟨4⟩ .rightHeavy .nil (.node ⟨8⟩ .even .nil .nil)

/-- A branch that does not lean. -/
def evenBranch : Shape :=
  .node ⟨4⟩ .even (.node ⟨8⟩ .even .nil .nil) (.node ⟨12⟩ .even .nil .nil)

/-- The branch on the left of this tree has become a level higher. -/
def overgrown : Shape := .join .left ⟨0⟩ .leftHeavy leaningBranch .nil

/-- The right side of this tree has become empty. -/
def overcut : Shape := .join .right ⟨0⟩ .leftHeavy .nil evenBranch

theorem rebalancing_exact_branches :
    (∃ top after result,
      Tree.raised (Ledger.of branchStock overgrown.nodes).slab ⟨0⟩ .left = .ok (top, after.slab) ∧
        (Ledger.of branchStock overgrown.nodes).Rebalances after top overgrown result .left 2) ∧
      ∃ top after result,
        Tree.lowered (Ledger.of branchStock overcut.nodes).slab ⟨0⟩ .right = .ok (top, after.slab) ∧
          (Ledger.of branchStock overcut.nodes).Rebalances after top overcut result .left 3 := by
  have leaning_balanced : leaningBranch.Balanced := by
    simp [leaningBranch, Shape.Balanced, Shape.height, Balance.toInt]
  have even_balanced : evenBranch.Balanced := by
    simp [evenBranch, Shape.Balanced, Shape.height, Balance.toInt]
  have nil_balanced : Shape.nil.Balanced := trivial
  have high : Balance.leftHeavy.Between .left 1 Shape.nil.height :=
    (@Balance.heavy_between .left 1 0).mpr rfl
  have low : Balance.leftHeavy.Between .right 1 evenBranch.height :=
    (@Balance.flip_heavy_between .right 1 2).mpr rfl
  have grown_spells : (Ledger.of branchStock overgrown.nodes).Spells ⟨some ⟨0⟩⟩ overgrown :=
    Ledger.spells_nodes (by decide +kernel) (by decide +kernel)
  have cut_spells : (Ledger.of branchStock overcut.nodes).Spells ⟨some ⟨0⟩⟩ overcut :=
    Ledger.spells_nodes (by decide +kernel) (by decide +kernel)
  exact ⟨(rebalancing_exact grown_spells leaning_balanced nil_balanced high).1 rfl
      fun _ => Balance.heavy_ne_even .right,
    (rebalancing_exact cut_spells nil_balanced even_balanced low).2 rfl⟩

end PackedMap
