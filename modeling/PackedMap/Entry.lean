import PackedMap.Pair
import PackedMap.Slot

/-!
# Entries

An entry as a map gives it out: its pair, and its slot as an identity.  The identity stays with the
entry until the map is compacted.
-/

namespace PackedMap

/-- An entry of a map. -/
structure Entry where
  /-- The slot of the entry. -/
  id : Slot
  /-- The key and the value. -/
  pair : Pair
deriving DecidableEq, Repr

end PackedMap
