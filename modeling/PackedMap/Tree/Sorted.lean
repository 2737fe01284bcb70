import PackedMap.Tree.Basic

/-!
# Building a tree from a sorted list

The entry in the middle of the list becomes the root, and the halves beside it become its sides.
The two sides of every node then differ by at most one level in height.
-/

namespace PackedMap
namespace Tree

/-- Links the entries of a list into a subtree, and gives its root and its height. -/
def buildSorted (slab : Slab) (slots : List Slot) : Checked (Link × Nat × Slab) :=
  if h : slots.length / 2 < slots.length then do
    let middle := slots[slots.length / 2]
    let (left, leftHeight, slab) ← buildSorted slab (slots.take (slots.length / 2))
    let (right, rightHeight, slab) ← buildSorted slab (slots.drop (slots.length / 2 + 1))
    let slab ← slab.setChild middle .left left
    let slab ← slab.setChild middle .right right
    let balance ← Checked.ofOption .unbalanced (Balance.ofHeights? leftHeight rightHeight)
    let slab ← slab.setBalance middle balance
    return (some middle, max leftHeight rightHeight + 1, slab)
  else
    return (none, 0, slab)
termination_by slots.length
decreasing_by
  · simp only [List.length_take]
    omega
  · simp only [List.length_drop]
    omega

/-- The tree over the entries of a list, which are in strictly increasing order. -/
def ofSorted (slab : Slab) (slots : List Slot) : Checked (Tree × Slab) := do
  let (root, _, slab) ← buildSorted slab slots
  return (⟨root⟩, slab)

end Tree
end PackedMap
