import PackedMap.Session.Reply
import PackedMap.Slab.Growth
import PackedMap.Slab.Walk

/-!
# Workbenches

A workbench holds a slab, a tree over its entries, and a slab put aside.  Its commands are the
single operations of slabs and trees, which no map keeps in order.  They name an entry by a link.
A link to nothing is no fault as long as no entry has to be read for it.
-/

namespace PackedMap

/-- A command to a workbench. -/
inductive BenchCommand
  | reserve (entries bytes : UInt64)
  | push (pair : Pair)
  | truncate (link : Link)
  | contains (link : Link)
  | record (link : Link)
  | setChild (link : Link) (side : Side) (child : Link)
  | setBalance (link : Link) (balance : Balance)
  | layTombstone (link : Link)
  | setValue (link : Link) (bytes : Bytes)
  | records
  | shrink
  | limit
  | saveSnapshot
  | saveCopy
  | swap
  | insert (link : Link) (cmp : Comparator)
  | remove (link : Link) (cmp : Comparator)
  | find (probe : Pair) (cmp : Comparator)
  | neighbors (probe : Pair) (cmp : Comparator)
  | range (probe : Pair) (cmp : Comparator)
  | inOrder
  | pair (link : Link)
  | ofSorted (slots : List Slot)
  | reset
  | shape

/-- A slab under work. -/
structure Workbench where
  /-- The slab. -/
  slab : Slab
  /-- The tree over its entries. -/
  tree : Tree
  /-- The slab put aside. -/
  saved : Option Slab

namespace Workbench

/-- A workbench with an empty slab. -/
def ofLimit (initial limit : Nat) : Workbench := ⟨.withCapacity initial limit, .empty, none⟩

/-- The slot that a link holds. -/
def target : Link → Checked Slot := Checked.ofOption .outOfRange

/-- Carries out one command. -/
def step (bench : Workbench) : BenchCommand → Checked (Reply × Workbench)
  | .reserve entries bytes =>
    match bench.slab.reserve entries bytes with
    | .ok (granted, slab) => return (.amount granted, { bench with slab })
    | .error refused => return (.refused refused, bench)
  | .push pair =>
    match bench.slab.reservePair pair with
    | .error refused => return (.refused refused, bench)
    | .ok slab => do
      let (slot, slab) ← slab.push pair
      return (.link (some slot), { bench with slab })
  | .truncate none => return (.nothing, bench)
  | .truncate (some slot) => return (.nothing, { bench with slab := bench.slab.truncate slot })
  | .contains link => return (.flag (bench.slab.contains link), bench)
  | .record link => do
    let slot ← target link
    return (.record (← bench.slab.record slot) (← bench.slab.next slot), bench)
  | .setChild link side child => do
    return (.nothing, { bench with slab := ← bench.slab.setChild (← target link) side child })
  | .setBalance link balance => do
    return (.nothing, { bench with slab := ← bench.slab.setBalance (← target link) balance })
  | .layTombstone link => do
    return (.nothing, { bench with slab := ← bench.slab.layTombstone (← target link) })
  | .setValue link bytes => do
    return (.nothing, { bench with slab := ← bench.slab.setValue (← target link) bytes })
  | .records => return (.records (← bench.slab.records), bench)
  | .shrink => return (.nothing, { bench with slab := bench.slab.shrink })
  | .limit => return (.amount bench.slab.limit, bench)
  | .saveSnapshot => return (.nothing, { bench with saved := some bench.slab.snapshot })
  | .saveCopy => return (.nothing, { bench with saved := some bench.slab.shrink })
  | .swap =>
    match bench.saved with
    | none => return (.nothing, bench)
    | some slab => return (.nothing, { bench with slab, saved := some bench.slab })
  | .insert none _ => do
    if bench.tree.root.isSome then throw .outOfRange
    return (.done, bench)
  | .insert (some slot) cmp => do
    let (holder, tree, slab) ← bench.tree.insert bench.slab slot cmp
    return (if holder.isSome then .link holder else .done, { bench with tree, slab })
  | .remove none _ => do
    if bench.tree.root.isSome then throw .outOfRange
    return (.flag false, bench)
  | .remove (some slot) cmp => do
    let (found, tree, slab) ← bench.tree.remove bench.slab slot cmp
    return (.flag found, { bench with tree, slab })
  | .find probe cmp => return (.link (← bench.tree.find bench.slab probe cmp), bench)
  | .neighbors probe cmp => do
    let (found, near) ← bench.tree.locate bench.slab probe cmp
    return (.neighbors found near, bench)
  | .range probe cmp => return (.slots (← bench.tree.range bench.slab probe cmp), bench)
  | .inOrder => return (.slots (← bench.tree.inOrder bench.slab), bench)
  | .pair link => return (.pair (← bench.slab.pair (← target link)), bench)
  | .ofSorted slots => do
    let (tree, slab) ← Tree.ofSorted bench.slab slots
    return (.shape (← tree.shape slab), { bench with tree, slab })
  | .reset => return (.nothing, { bench with tree := .empty })
  | .shape => return (.shape (← bench.tree.shape bench.slab), bench)

end Workbench

end PackedMap
