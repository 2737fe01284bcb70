import PackedMap.Tree.Basic

/-!
# The shape of a tree

The shape is the tree as a value: its nodes with their slots and stored balances.  It says what the
links in the slab mean.
-/

namespace PackedMap

/-- A tree of slots with balances. -/
inductive Shape
  | nil
  | node (slot : Slot) (balance : Balance) (left right : Shape)
deriving DecidableEq, Repr

namespace Tree

/-- The shape below a link, over at most `fuel` levels. -/
def shapeBelow (slab : Slab) : Nat → Link → Checked Shape
  | 0, _ => throw .endless
  | _ + 1, none => return .nil
  | fuel + 1, some node => do
    return .node node (← slab.balance node)
      (← shapeBelow slab fuel (← slab.child node .left))
      (← shapeBelow slab fuel (← slab.child node .right))

/-- The shape of a tree. -/
def shape (tree : Tree) (slab : Slab) : Checked Shape :=
  shapeBelow slab slab.depthBound tree.root

end Tree

end PackedMap
