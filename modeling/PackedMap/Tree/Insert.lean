import PackedMap.Tree.Rebalance

/-!
# Insertion

A new entry goes where the comparator leads it, unless it meets an entry that compares equal.
-/

namespace PackedMap

/-- How an insertion into a subtree ended. -/
inductive Insertion
  /-- The entry is linked in. -/
  | linked (below : Subtree)
  /-- An entry that compares equal is there already. -/
  | occupied (holder : Slot)
deriving DecidableEq, Repr

namespace Tree

/-- Inserts a detached entry into a subtree, over at most `fuel` levels. -/
def insertBelow (cmp : Comparator) (new : Slot) :
    Nat → Slab → Link → Checked (Insertion × Slab)
  | 0, _, _ => throw .endless
  | _ + 1, slab, none => return (.linked ⟨some new, true⟩, slab)
  | fuel + 1, slab, some node => do
    match Side.ofOrdering? (cmp (← slab.pair new) (← slab.pair node)) with
    | none => return (.occupied node, slab)
    | some side =>
      match ← insertBelow cmp new fuel slab (← slab.child node side) with
      | (.occupied holder, slab) => return (.occupied holder, slab)
      | (.linked below, slab) =>
        let slab ← slab.setChild node side below.root
        if below.resized then
          let (here, slab) ← raised slab node side
          return (.linked here, slab)
        else
          return (.linked ⟨some node, false⟩, slab)

/-- Inserts a detached entry.  Beside the tree and the slab afterwards it gives the entry in the
way, if there is one; then the new entry is not linked in. -/
def insert (tree : Tree) (slab : Slab) (new : Slot) (cmp : Comparator) :
    Checked (Option Slot × Tree × Slab) := do
  if !(← slab.isDetached new) then throw .stillLinked
  match ← insertBelow cmp new slab.depthBound slab tree.root with
  | (.linked top, slab) => return (none, ⟨top.root⟩, slab)
  | (.occupied holder, slab) => return (some holder, tree, slab)

end Tree

end PackedMap
