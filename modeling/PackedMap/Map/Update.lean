import PackedMap.Flags
import PackedMap.Map.Basic
import PackedMap.Tree.Insert
import PackedMap.Tree.Remove
import PackedMap.Tree.Search
import PackedMap.Tree.Sorted

/-!
# Additions, deletions and compaction

An entry that goes leaves a tombstone, whose bytes stay where they are until the map is compacted.
Compaction writes the live entries, in tree order, into a new slab.
-/

namespace PackedMap

/-- How an addition that was not refused ended. -/
inductive Addition
  /-- The entry is new. -/
  | added
  /-- An entry that compares equal was there and stays. -/
  | alreadyPresent
  /-- The entry took the place of one that compares equal. -/
  | replaced
deriving DecidableEq, Repr

namespace Map

/-- Lays a tombstone over an entry that is already out of the tree. -/
def retire (map : Map) (slot : Slot) : Checked (Map × List Event) := do
  let events ← map.freeing [slot]
  let slab ← map.slab.layTombstone slot
  if map.size = 0 then throw .sizeUnderflow
  return ({ map with slab, size := map.size - 1, tombstones := map.tombstones + 1 }, events)

/-- Unlinks an entry under the native comparator and lays a tombstone over it. -/
def unlink (map : Map) (slot : Slot) : Checked (Map × List Event) := do
  let (found, tree, slab) ← map.tree.remove map.slab slot map.order
  if !found then throw .lostEntry
  { map with tree, slab }.retire slot

/-- Writes the live entries into a new slab and forgets the tombstones.  Gives the number of
tombstones.  All slots change. -/
def compact (map : Map) : Checked (Outcome (Except CapacityError Nat)) := do
  let live ← map.tree.inOrder map.slab
  let pairs ← live.mapM map.slab.pair
  let bytes := Pair.totalSize pairs
  match (Slab.empty map.slab.limit).reserve (.ofNat map.size) (.ofNat bytes) with
  | .error refused => return ⟨.error refused, map, []⟩
  | .ok (_, fresh) =>
    let (slots, fresh) ← fresh.pushAll pairs
    let (tree, fresh) ← Tree.ofSorted fresh slots
    return ⟨.ok map.tombstones, { map with tree, slab := fresh, tombstones := 0 }, []⟩

/-- Compacts a map with more tombstones than live entries, if the flags allow it.  A refusal leaves
the map as it is. -/
def compactIfDue (map : Map) (flags : Flags) : Checked Map := do
  if flags.contains .allowCompaction && decide (map.size < map.tombstones) then
    return (← map.compact).map
  else
    return map

/-- Adds an entry, and gives its slot beside the way the addition ended.  If an entry that compares
equal stays, the slot is that one's. -/
def addEntry (map : Map) (pair : Pair) (flags : Flags) :
    Checked (Outcome (Except CapacityError (Addition × Slot))) := do
  match map.slab.reservePair pair with
  | .error refused => return ⟨.error refused, map, []⟩
  | .ok slab =>
    let (slot, slab) ← slab.push pair
    match ← map.tree.insert slab slot map.order with
    | (none, tree, slab) =>
      return ⟨.ok (.added, slot), { map with tree, slab, size := map.size + 1 }, []⟩
    | (some holder, tree, slab) =>
      if flags.contains .replace then
        let (map, events) ← { map with tree, slab }.unlink holder
        let (obstacle, tree, slab) ← map.tree.insert map.slab slot map.order
        if obstacle.isSome then throw .stillOccupied
        let map ← { map with tree, slab, size := map.size + 1 }.compactIfDue flags
        return ⟨.ok (.replaced, slot), map, events⟩
      else
        return ⟨.ok (.alreadyPresent, holder), { map with tree, slab := slab.truncate slot }, []⟩

/-- Adds an entry.  If an entry that compares equal is there, it stays, or the new one takes its
place if the flags say so.  A refused addition leaves the map as it is. -/
def add (map : Map) (pair : Pair) (flags : Flags) :
    Checked (Outcome (Except CapacityError Addition)) := do
  let outcome ← map.addEntry pair flags
  return { outcome with result := outcome.result.map Prod.fst }

/-- Deletes one entry that matches the probe under a query comparator, and tells whether there was
one. -/
def erase (map : Map) (probe : Pair) (query : Comparator) (flags : Flags) :
    Checked (Outcome Bool) := do
  match ← map.tree.find map.slab probe query with
  | none => return ⟨false, map, []⟩
  | some slot =>
    let (map, events) ← map.unlink slot
    return ⟨true, ← map.compactIfDue flags, events⟩

end Map

end PackedMap
