import PackedMap.Tree.Basic

/-!
# Rebalancing

After one side of a node became a level higher or lower, its stored balance is brought up to date.
Where the sides would differ by two levels, a rotation lifts a node of the higher side to the top.
The subtree keeps its nodes and their order, but may have another root and another height.
-/

namespace PackedMap

/-- A subtree after a change below: its root, and whether its height changed. -/
structure Subtree where
  /-- The topmost entry, if any is left. -/
  root : Link
  /-- Whether the subtree is now a level higher or lower than before. -/
  resized : Bool
deriving DecidableEq, Repr

namespace Tree

/-- Lifts the child on the higher side over `node`, and gives the new root.  If the child leaned the
same way, both become even.  If it was even, `node` keeps leaning to its side, and the child now
leans to `node`. -/
def liftChild (slab : Slab) (node : Slot) (side : Side) : Checked (Slot × Slab) := do
  let child ← slab.childThere node side
  let inner ← slab.child child side.flip
  let slab ← slab.setChild node side inner
  let slab ← slab.setChild child side.flip (some node)
  if (← slab.balance child) = side.heavy then
    let slab ← slab.setBalance node .even
    let slab ← slab.setBalance child .even
    return (child, slab)
  else
    let slab ← slab.setBalance node side.heavy
    let slab ← slab.setBalance child side.flip.heavy
    return (child, slab)

/-- Lifts the inner grandchild on the higher side over `node` and its child, and gives the new root,
which becomes even.  The two below it share its subtrees. -/
def liftGrandchild (slab : Slab) (node : Slot) (side : Side) : Checked (Slot × Slab) := do
  let child ← slab.childThere node side
  let grandchild ← slab.childThere child side.flip
  let outer ← slab.child grandchild side
  let inner ← slab.child grandchild side.flip
  let slab ← slab.setChild child side.flip outer
  let slab ← slab.setChild node side inner
  let slab ← slab.setChild grandchild side (some child)
  let slab ← slab.setChild grandchild side.flip (some node)
  let lean ← slab.balance grandchild
  let slab ← slab.setBalance node (if lean = side.heavy then side.flip.heavy else .even)
  let slab ← slab.setBalance child (if lean = side.flip.heavy then side.heavy else .even)
  let slab ← slab.setBalance grandchild .even
  return (grandchild, slab)

/-- Brings the subtree at `node` up to date after its given side became a level higher. -/
def raised (slab : Slab) (node : Slot) (side : Side) : Checked (Subtree × Slab) := do
  let balance ← slab.balance node
  if balance = side.flip.heavy then
    return (⟨some node, false⟩, ← slab.setBalance node .even)
  else if balance = .even then
    return (⟨some node, true⟩, ← slab.setBalance node side.heavy)
  else
    let child ← slab.childThere node side
    let (root, slab) ←
      if (← slab.balance child) = side.heavy then
        liftChild slab node side
      else
        liftGrandchild slab node side
    return (⟨some root, false⟩, slab)

/-- Brings the subtree at `node` up to date after its given side became a level lower. -/
def lowered (slab : Slab) (node : Slot) (side : Side) : Checked (Subtree × Slab) := do
  let balance ← slab.balance node
  if balance = side.heavy then
    return (⟨some node, true⟩, ← slab.setBalance node .even)
  else if balance = .even then
    return (⟨some node, false⟩, ← slab.setBalance node side.flip.heavy)
  else
    let heavy := side.flip
    let lean ← slab.balance (← slab.childThere node heavy)
    if lean = heavy.flip.heavy then
      let (root, slab) ← liftGrandchild slab node heavy
      return (⟨some root, true⟩, slab)
    else
      let (root, slab) ← liftChild slab node heavy
      return (⟨some root, lean != .even⟩, slab)

end Tree

end PackedMap
