import PackedMap.Tree.Basic

/-!
# Search

A search goes down from the root: to the left where the probe comes before the entry, to the right
where it comes after, and ends at a match.  The neighbours of a probe are the entries next to its
matches; they and the outermost matches are found by going on below the first match met.

The entries of a range come as a list, by recursion, or one at a time, from a traversal that keeps
the entries it has passed on its way down.
-/

namespace PackedMap

/-- The entries around the matches of a probe. -/
structure Neighbors where
  /-- The last entry before the probe. -/
  previous : Option Slot
  /-- The first entry after the probe. -/
  next : Option Slot
  /-- The first match. -/
  first : Option Slot
  /-- The last match. -/
  last : Option Slot
deriving DecidableEq, Repr

/-- The border of the matches on one side. -/
structure Border where
  /-- The outermost match. -/
  inside : Slot
  /-- The nearest entry beyond it, if there is one. -/
  outside : Option Slot
deriving DecidableEq, Repr

/-- A traversal on its way through a range. -/
structure Traversal where
  /-- The entries passed and still to be given out, the next one first. -/
  waiting : List Slot
deriving DecidableEq, Repr

namespace Tree

/-- Looks for a match below a link, over at most `fuel` levels. -/
def findBelow (slab : Slab) (probe : Pair) (cmp : Comparator) :
    Nat → Link → Checked (Option Slot)
  | 0, _ => throw .endless
  | _ + 1, none => return none
  | fuel + 1, some node => do
    match Side.ofOrdering? (cmp probe (← slab.pair node)) with
    | none => return some node
    | some side => findBelow slab probe cmp fuel (← slab.child node side)

/-- Some entry that compares equal to the probe. -/
def find (tree : Tree) (slab : Slab) (probe : Pair) (cmp : Comparator) :
    Checked (Option Slot) :=
  findBelow slab probe cmp slab.depthBound tree.root

/-- Follows the border of the matches on one side, over at most `fuel` levels: outwards from each
match, and inwards from each other entry. -/
def followBorder (slab : Slab) (probe : Pair) (cmp : Comparator) (side : Side) :
    Nat → Border → Link → Checked Border
  | 0, _, _ => throw .endless
  | _ + 1, border, none => return border
  | fuel + 1, border, some node => do
    if cmp probe (← slab.pair node) = .eq then
      followBorder slab probe cmp side fuel { border with inside := node }
        (← slab.child node side)
    else
      followBorder slab probe cmp side fuel { border with outside := some node }
        (← slab.child node side.flip)

/-- Looks for a match and its neighbours below a link, over at most `fuel` levels, where `previous`
and `next` are the entries next to the subtree. -/
def locateBelow (slab : Slab) (probe : Pair) (cmp : Comparator) :
    Nat → Option Slot → Option Slot → Link → Checked (Option Slot × Neighbors)
  | 0, _, _, _ => throw .endless
  | _ + 1, previous, next, none => return (none, ⟨previous, next, none, none⟩)
  | fuel + 1, previous, next, some node => do
    match cmp probe (← slab.pair node) with
    | .lt => locateBelow slab probe cmp fuel previous (some node) (← slab.child node .left)
    | .gt => locateBelow slab probe cmp fuel (some node) next (← slab.child node .right)
    | .eq =>
      let low ← followBorder slab probe cmp .left fuel ⟨node, previous⟩ (← slab.child node .left)
      let high ← followBorder slab probe cmp .right fuel ⟨node, next⟩ (← slab.child node .right)
      return (some node, ⟨low.outside, high.outside, some low.inside, some high.inside⟩)

/-- The match that a search meets first, and the neighbours of the probe. -/
def locate (tree : Tree) (slab : Slab) (probe : Pair) (cmp : Comparator) :
    Checked (Option Slot × Neighbors) :=
  locateBelow slab probe cmp slab.depthBound none none tree.root

/-- The entries below a link that `place` puts inside the wanted range, in tree order, over at most
`fuel` levels.  Subtrees before and after the range are left out unread: `place` says `lt` of what
lies after the range and `gt` of what lies before it. -/
def selectBelow (slab : Slab) (place : Pair → Ordering) : Nat → Link → Checked (List Slot)
  | 0, _ => throw .endless
  | _ + 1, none => return []
  | fuel + 1, some node => do
    match place (← slab.pair node) with
    | .lt => selectBelow slab place fuel (← slab.child node .left)
    | .gt => selectBelow slab place fuel (← slab.child node .right)
    | .eq =>
      let before ← selectBelow slab place fuel (← slab.child node .left)
      let after ← selectBelow slab place fuel (← slab.child node .right)
      return before ++ node :: after

/-- The entries that compare equal to the probe, in tree order. -/
def range (tree : Tree) (slab : Slab) (probe : Pair) (cmp : Comparator) :
    Checked (List Slot) :=
  selectBelow slab (cmp probe) slab.depthBound tree.root

/-- All entries, in tree order. -/
def inOrder (tree : Tree) (slab : Slab) : Checked (List Slot) :=
  selectBelow slab (fun _ => .eq) slab.depthBound tree.root

end Tree

namespace Traversal

/-- Goes down from a link to the first entry of the range below it, over at most `fuel` levels.  The
entries of the range on the way are left waiting. -/
def descend (slab : Slab) (place : Pair → Ordering) :
    Nat → Link → Traversal → Checked Traversal
  | 0, _, _ => throw .endless
  | _ + 1, none, traversal => return traversal
  | fuel + 1, some node, traversal => do
    match place (← slab.pair node) with
    | .lt => descend slab place fuel (← slab.child node .left) traversal
    | .gt => descend slab place fuel (← slab.child node .right) traversal
    | .eq => descend slab place fuel (← slab.child node .left) ⟨node :: traversal.waiting⟩

/-- The traversal of the entries that `place` puts inside the range. -/
def start (tree : Tree) (slab : Slab) (place : Pair → Ordering) : Checked Traversal :=
  descend slab place slab.depthBound tree.root ⟨[]⟩

/-- The next entry and the traversal of what comes after it. -/
def next? (slab : Slab) (place : Pair → Ordering) :
    Traversal → Checked (Option (Slot × Traversal))
  | ⟨[]⟩ => return none
  | ⟨node :: waiting⟩ => do
    let rest ← descend slab place slab.depthBound (← slab.child node .right) ⟨waiting⟩
    return some (node, rest)

end Traversal

end PackedMap
