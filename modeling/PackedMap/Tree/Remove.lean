import PackedMap.Tree.Rebalance

/-!
# Removal

An entry is unlinked where the comparator finds it.  If it has entries on both sides, the first one
after it takes its place in the tree; no entry moves in the slab.
-/

namespace PackedMap

/-- How a removal from a subtree ended. -/
inductive Removal
  /-- The entry is unlinked. -/
  | unlinked (below : Subtree)
  /-- The comparator does not lead to the entry. -/
  | absent
deriving DecidableEq, Repr

namespace Tree

/-- Unlinks the first entry of the subtree at a node, over at most `fuel` levels, and gives it with
what is left. -/
def removeFirst : Nat → Slab → Slot → Checked (Slot × Subtree × Slab)
  | 0, _, _ => throw .endless
  | fuel + 1, slab, node => do
    match ← slab.child node .left with
    | none => return (node, ⟨← slab.child node .right, true⟩, slab)
    | some left =>
      let (first, below, slab) ← removeFirst fuel slab left
      let slab ← slab.setChild node .left below.root
      if below.resized then
        let (here, slab) ← lowered slab node .left
        return (first, here, slab)
      else
        return (first, ⟨some node, false⟩, slab)

/-- Unlinks the root of a subtree: the first entry after it takes its place. -/
def removeRoot (fuel : Nat) (slab : Slab) (node : Slot) : Checked (Subtree × Slab) := do
  match ← slab.child node .left, ← slab.child node .right with
  | none, right => return (⟨right, true⟩, slab)
  | left, none => return (⟨left, true⟩, slab)
  | left, some right =>
    let (successor, below, slab) ← removeFirst fuel slab right
    let slab ← slab.setChild successor .left left
    let slab ← slab.setChild successor .right below.root
    let slab ← slab.setBalance successor (← slab.balance node)
    if below.resized then
      lowered slab successor .right
    else
      return (⟨some successor, false⟩, slab)

/-- Unlinks an entry from a subtree, over at most `fuel` levels. -/
def removeBelow (cmp : Comparator) (target : Slot) :
    Nat → Slab → Link → Checked (Removal × Slab)
  | 0, _, _ => throw .endless
  | _ + 1, slab, none => return (.absent, slab)
  | fuel + 1, slab, some node => do
    if node = target then
      let (here, slab) ← removeRoot fuel slab node
      return (.unlinked here, slab)
    else
      match Side.ofOrdering? (cmp (← slab.pair target) (← slab.pair node)) with
      | none => return (.absent, slab)
      | some side =>
        match ← removeBelow cmp target fuel slab (← slab.child node side) with
        | (.absent, slab) => return (.absent, slab)
        | (.unlinked below, slab) =>
          let slab ← slab.setChild node side below.root
          if below.resized then
            let (here, slab) ← lowered slab node side
            return (.unlinked here, slab)
          else
            return (.unlinked ⟨some node, false⟩, slab)

/-- Unlinks an entry and detaches it.  Beside the tree and the slab afterwards it tells whether the
comparator led to the entry; if not, nothing changes. -/
def remove (tree : Tree) (slab : Slab) (target : Slot) (cmp : Comparator) :
    Checked (Bool × Tree × Slab) := do
  match ← removeBelow cmp target slab.depthBound slab tree.root with
  | (.unlinked top, slab) => return (true, ⟨top.root⟩, ← slab.detach target)
  | (.absent, slab) => return (false, tree, slab)

end Tree

end PackedMap
