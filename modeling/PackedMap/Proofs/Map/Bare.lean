import PackedMap.Session.Basic

/-!
# What does not show the capacity

Reading a slab never looks at its capacity: whatever is asked of a map is answered as if the map had
no room at all.
-/

namespace PackedMap

/-- The slab as if it had no capacity. -/
def Slab.bare (slab : Slab) : Slab := { slab with capacity := 0 }

/-- The map as if its slab had no capacity. -/
def Map.bare (map : Map) : Map := { map with slab := map.slab.bare }

theorem Map.slab_bare (map : Map) : map.bare.slab = map.slab.bare := rfl

/-! ## Recursive readers -/

-- The recursions hand the slab on as it is, so each unfolds to the same reads on both sides.

namespace Slab

variable (slab : Slab)

theorem slotsFrom_bare : slab.bare.slotsFrom = slab.slotsFrom := by
  delta slotsFrom
  rfl

theorem liveAmong_bare : slab.bare.liveAmong = slab.liveAmong := by
  delta liveAmong
  rfl

theorem firstLiveWithin_bare : slab.bare.firstLiveWithin = slab.firstLiveWithin := by
  delta firstLiveWithin
  rfl

theorem slots_bare : slab.bare.slots = slab.slots := by
  rw [slots, slotsFrom_bare]
  rfl

theorem liveFrom_bare : slab.bare.liveFrom = slab.liveFrom := by
  funext slot
  rw [liveFrom, slotsFrom_bare, liveAmong_bare]
  rfl

theorem firstLive_bare : slab.bare.firstLive = slab.firstLive := by
  funext slot
  rw [firstLive, firstLiveWithin_bare]
  rfl

end Slab

namespace Tree

variable (slab : Slab)

theorem findBelow_bare : findBelow slab.bare = findBelow slab := by
  delta findBelow
  rfl

theorem followBorder_bare : followBorder slab.bare = followBorder slab := by
  delta followBorder
  rfl

theorem locateBelow_bare : locateBelow slab.bare = locateBelow slab := by
  funext probe cmp fuel previous next link
  induction fuel generalizing previous next link with
  | zero => rfl
  | succ fuel ih =>
      cases link with
      | none => rfl
      | some node =>
          simp only [locateBelow, ih, followBorder_bare]
          rfl

theorem selectBelow_bare : selectBelow slab.bare = selectBelow slab := by
  delta selectBelow
  rfl

theorem shapeBelow_bare : shapeBelow slab.bare = shapeBelow slab := by
  delta shapeBelow
  rfl

theorem locate_bare (tree : Tree) : tree.locate slab.bare = tree.locate slab := by
  funext probe cmp
  rw [locate, locateBelow_bare]
  rfl

end Tree

/-! ## Reading a map -/

namespace Map

variable (map : Map)

theorem find?_bare : map.bare.find? = map.find? := by
  funext probe query
  rw [find?, Tree.find, Map.slab_bare, Tree.findBelow_bare]
  rfl

theorem nextMatch?_bare : map.bare.nextMatch? = map.nextMatch? := by
  funext cursor probe query
  cases cursor with
  | none =>
      rw [nextMatch?, Map.slab_bare, Tree.locate_bare]
      rfl
  | some last =>
      simp only [nextMatch?, Map.slab_bare, Tree.locate_bare]
      rfl

theorem matchesFrom_bare : map.bare.matchesFrom = map.matchesFrom := by
  funext probe query fuel cursor
  induction fuel generalizing cursor with
  | zero => rfl
  | succ fuel ih => simp only [matchesFrom, nextMatch?_bare, ih]

theorem entries_bare : map.bare.entries = map.entries := by
  rw [entries, Slab.liveSlots, Map.slab_bare, Slab.liveFrom_bare]
  rfl

theorem dispose_bare : map.bare.dispose = map.dispose := by
  rw [dispose, Slab.liveSlots, Map.slab_bare, Slab.liveFrom_bare]
  rfl

theorem duplicate_bare : map.bare.duplicate = map.duplicate := by
  rw [duplicate, entries_bare]
  rfl

theorem sorted_bare : map.bare.sorted = map.sorted := by
  rw [sorted, Tree.inOrder, Map.slab_bare, Tree.selectBelow_bare]
  rfl

theorem next?_bare : map.bare.next? = map.next? := by
  funext cursor
  cases cursor with
  | none =>
      simp only [next?, Map.slab_bare, Slab.firstLive_bare]
      rfl
  | some last =>
      simp only [next?, Map.slab_bare, Slab.firstLive_bare]
      rfl

end Map

/-- A query is answered whatever the capacity is. -/
theorem Query.run_bare (map : Map) (query : Query) : query.run map.bare = query.run map := by
  cases query with
  | find probe query =>
      rw [run, Map.find?_bare]
      rfl
  | allMatches probe query =>
      rw [run, Map.allMatches, Map.matchesFrom_bare]
      rfl
  | range probe query =>
      rw [run, Map.range, Tree.range, Map.slab_bare,
        Tree.selectBelow_bare]
      rfl
  | neighbors probe query =>
      rw [run, Map.neighbors, Map.slab_bare, Tree.locate_bare]
      rfl
  | compare a b query => rfl
  | entries => rw [run, Map.entries_bare, run]
  | sorted => rw [run, Map.sorted_bare, run]
  | counts => rfl
  | shape =>
      rw [run, Tree.shape, Map.slab_bare, Tree.shapeBelow_bare]
      rfl
  | records =>
      rw [run, Slab.records, Map.slab_bare, Slab.slots_bare]
      rfl
  | inspect layout => rw [run, Map.inspect, Map.sorted_bare, run, Map.inspect]
  | inspectEntry probe query layout =>
      rw [run, Map.find?_bare]
      rfl

/-- A walk takes the same step whatever the capacity is. -/
theorem Walk.next?_bare (map : Map) (cursor : Option Slot) (walk : Walk) :
    walk.next? map.bare cursor = walk.next? map cursor := by
  cases walk with
  | matching probe query =>
      rw [next?, Map.nextMatch?_bare]
      rfl
  | everything => rw [next?, Map.next?_bare, next?]

end PackedMap
