import PackedMap.Comparator
import PackedMap.Slab.Field

/-!
# The tree

The entries of a slab are the nodes of a balanced search tree, linked through their headers.  A node
is its entry, so an entry keeps its slot while the tree around it changes.  Every operation reads
and writes the slab and gives back the slab it leaves.

Operations descend along stored links.  In a tree of distinct entries no path is longer than the
slab has units, so that number bounds every descent.
-/

namespace PackedMap

/-- A tree over the entries of a slab. -/
structure Tree where
  /-- The topmost entry. -/
  root : Link
deriving DecidableEq, Repr

namespace Tree

/-- The tree without entries. -/
def empty : Tree := ⟨none⟩

end Tree

namespace Slab

/-- A bound on the number of links on any path of a tree in the slab, the last one included. -/
def depthBound (slab : Slab) : Nat := slab.units + 1

/-- The entry on a side of a node that must have one there. -/
def childThere (slab : Slab) (slot : Slot) (side : Side) : Checked Slot := do
  Checked.ofOption .missingChild (← slab.child slot side)

end Slab

end PackedMap
