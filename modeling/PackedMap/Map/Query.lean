import PackedMap.Map.Basic
import PackedMap.Tree.Search

/-!
# Queries

All entries, or those that match a probe, come as a list or from an iterator that gives them out one
at a time.  A query takes a probe and a comparator, which may differ from the native one.  Matches
can also be had from a cursor on: the identity of the entry given last.  A cursor outlives additions
and deletions, even that of its own entry, since tombstones keep their bytes.
-/

namespace PackedMap
namespace Map

/-- The live entries in slab order. -/
def entries (map : Map) : Checked (List Entry) := do
  (← map.slab.liveSlots).mapM map.entry

/-- The live entries in the map's own order. -/
def sorted (map : Map) : Checked (List Entry) := do
  (← map.tree.inOrder map.slab).mapM map.entry

/-- The entries that match a probe, in the map's own order. -/
def range (map : Map) (probe : Pair) (query : Comparator) : Checked (List Entry) := do
  (← map.tree.range map.slab probe query).mapM map.entry

/-- The next entry of an iterator over slots, and the iterator after it. -/
def nextEntry? {σ : Type} (map : Map) (next? : σ → Checked (Option (Slot × σ))) (iterator : σ) :
    Checked (Option (Entry × σ)) := do
  match ← next? iterator with
  | none => return none
  | some (slot, rest) => return some (← map.entry slot, rest)

/-- An iterator over the live entries in slab order: the first of them. -/
def scan (map : Map) : Checked (Option Slot) := map.slab.firstLive ⟨0⟩

/-- The next entry of a scan. -/
def scanNext? (map : Map) : Option Slot → Checked (Option (Entry × Option Slot)) :=
  map.nextEntry? map.slab.scan?

/-- An iterator over the entries that `place` puts inside a range, in the map's own order. -/
def traverse (map : Map) (place : Pair → Ordering) : Checked Traversal :=
  Traversal.start map.tree map.slab place

/-- The next entry of a traversal. -/
def traverseNext? (map : Map) (place : Pair → Ordering) :
    Traversal → Checked (Option (Entry × Traversal)) :=
  map.nextEntry? (Traversal.next? map.slab place)

/-- Some entry that matches a probe. -/
def find? (map : Map) (probe : Pair) (query : Comparator) : Checked (Option Entry) := do
  (← map.tree.find map.slab probe query).mapM map.entry

/-- The next entry that matches a probe: the first match without a cursor, and otherwise the first
live entry after the cursor's pair in the map's own order, if that one matches. -/
def nextMatch? (map : Map) (cursor : Option Slot) (probe : Pair) (query : Comparator) :
    Checked (Option Entry) := do
  match cursor with
  | none =>
    match ← map.tree.locate map.slab probe query with
    | (none, _) => return none
    | (some _, near) => near.first.mapM map.entry
  | some last =>
    if map.slab.contains cursor then
      let (_, near) ← map.tree.locate map.slab (← map.slab.pair last) map.order
      match near.next with
      | none => return none
      | some slot =>
        let entry ← map.entry slot
        return if query probe entry.pair = .eq then some entry else none
    else
      return none

/-- The matches from a cursor on, each serving as the cursor of the next, at most `fuel` of them. -/
def matchesFrom (map : Map) (probe : Pair) (query : Comparator) :
    Nat → Option Slot → Checked (List Entry)
  | 0, _ => throw .endless
  | fuel + 1, cursor => do
    match ← map.nextMatch? cursor probe query with
    | none => return []
    | some entry => return entry :: (← map.matchesFrom probe query fuel (some entry.id))

/-- All entries that a walk from match to match meets.  They are distinct, so there are no more of
them than units. -/
def allMatches (map : Map) (probe : Pair) (query : Comparator) : Checked (List Entry) :=
  map.matchesFrom probe query (map.slab.units + 1) none

/-- The next live entry in slab order: the first one without a cursor, and otherwise the first one
behind the cursor. -/
def next? (map : Map) (cursor : Option Slot) : Checked (Option Entry) := do
  match cursor with
  | none => (← map.slab.firstLive ⟨0⟩).mapM map.entry
  | some last =>
    if map.slab.contains cursor then
      (← map.slab.firstLive (← map.slab.next last)).mapM map.entry
    else
      return none

/-- The neighbours of a probe. -/
def neighbors (map : Map) (probe : Pair) (query : Comparator) :
    Checked (Option Slot × Neighbors) :=
  map.tree.locate map.slab probe query

end Map
end PackedMap
