import PackedMap.Comparator
import PackedMap.Config
import PackedMap.Slab.Growth
import PackedMap.Slab.Walk
import PackedMap.Tree.Basic

/-!
# The map

What a map contains is a slab of entries, a tree over the live ones, and two counters.  Beside its
contents a map has the comparator that orders the tree, and its hooks.  An operation that can run
hooks reports each run as an event, in the order of the runs.
-/

namespace PackedMap

/-- What a map contains. -/
structure Contents where
  /-- Number of live entries. -/
  size : Nat
  /-- Number of tombstones. -/
  tombstones : Nat
  /-- The tree over the live entries. -/
  tree : Tree
  /-- The entries. -/
  slab : Slab
deriving DecidableEq, Repr

/-- The contents as they are, to return to. -/
def Contents.snapshot (contents : Contents) : Contents :=
  { contents with slab := contents.slab.snapshot }

/-- An ordered map of byte strings. -/
structure Map extends Contents where
  /-- The native comparator. -/
  order : Comparator
  /-- The copy hook, if there is one. -/
  copyHook : Option CopyHook
  /-- Whether the map reports the entries it stops owning. -/
  freeHook : Bool

/-- One run of a hook, with the entry that it was given. -/
inductive Event
  | freed (entry : Entry)
  | copied (entry : Entry)
deriving DecidableEq, Repr

/-- What an operation leaves: its result, the map afterwards, and the events on the way. -/
structure Outcome (α : Type) where
  /-- The result. -/
  result : α
  /-- The map afterwards. -/
  map : Map
  /-- The runs of hooks, first one first. -/
  events : List Event

/-- The same outcome with events before its own. -/
def Outcome.after {α : Type} (outcome : Outcome α) (events : List Event) : Outcome α :=
  { outcome with events := events ++ outcome.events }

namespace Map

/-- An empty map. -/
def empty (order : Comparator) (config : Config) : Map where
  size := 0
  tombstones := 0
  tree := .empty
  slab := .withCapacity config.initialCapacity config.limit
  order := order
  copyHook := config.copyHook
  freeHook := config.freeHook

/-- Whether there is no live entry. -/
def isEmpty (map : Map) : Bool := map.size == 0

/-- The map without spare room. -/
def shrink (map : Map) : Map := { map with slab := map.slab.shrink }

/-- Makes room for a batch of entries, and gives the number of units they may take. -/
def reserve (map : Map) (entries bytes : UInt64) : Except CapacityError (Nat × Map) := do
  let (granted, slab) ← map.slab.reserve entries bytes
  return (granted, { map with slab })

/-- The entry at a slot. -/
def entry (map : Map) (slot : Slot) : Checked Entry := do
  return ⟨slot, ← map.slab.pair slot⟩

/-- The runs of the free hook for entries that the map stops owning. -/
def freeing (map : Map) (slots : List Slot) : Checked (List Event) :=
  if map.freeHook then
    slots.mapM fun slot => return .freed (← map.entry slot)
  else
    return []

/-- Gives up all live entries, in slab order, as at the end of a map's life. -/
def dispose (map : Map) : Checked (List Event) := do
  map.freeing (← map.slab.liveSlots)

end Map

end PackedMap
