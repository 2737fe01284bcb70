import PackedMap.Comparator
import PackedMap.Config
import PackedMap.Flags
import PackedMap.Text.Layout

/-!
# Commands

What a session can be asked to do.  A command that takes a query comparator may leave it out, and
then means the native one of the map.
-/

namespace PackedMap

/-- A command that changes one map. -/
inductive Change
  | add (pair : Pair) (flags : Flags)
  | erase (probe : Pair) (query : Option Comparator) (flags : Flags)
  | compact
  | reserve (entries bytes : UInt64)
  | shrink

/-- A command that only reads one map. -/
inductive Query
  | find (probe : Pair) (query : Option Comparator)
  | allMatches (probe : Pair) (query : Option Comparator)
  | range (probe : Pair) (query : Option Comparator)
  | neighbors (probe : Pair) (query : Option Comparator)
  | compare (a b : Pair) (query : Option Comparator)
  | entries
  | sorted
  | counts
  | shape
  | records
  | inspect (layout : Layout)
  | inspectEntry (probe : Pair) (query : Option Comparator) (layout : Layout)

/-- A walk through a map, one entry at a time. -/
inductive Walk
  | matching (probe : Pair) (query : Option Comparator)
  | everything

/-- Where a step of a walk starts. -/
inductive Start
  | beginning
  | behind (slot : Slot)
  | behindCursor (name : String)

/-- A command to a session. -/
inductive Command
  /-- Creates an empty map under a name, in place of one that is there. -/
  | create (name : String) (order : Comparator) (config : Config)
  /-- Disposes of a map, if it is there. -/
  | dispose (name : String)
  /-- Changes a map. -/
  | change (name : String) (change : Change)
  /-- Reads a map. -/
  | query (name : String) (query : Query)
  /-- Takes one step of a walk, and may keep its end as a cursor. -/
  | walk (name : String) (walk : Walk) (start : Start) (save : Option String)
  /-- Adds copies of the entries of the second map to the first. -/
  | merge (name source : String)
  /-- Duplicates the first map under the second name, in place of a map that is there. -/
  | duplicate (name target : String)

end PackedMap
