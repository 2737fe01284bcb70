import PackedMap.CopyHook
import PackedMap.Slab.Basic

/-!
# Configuration

A map is created with a first capacity, a ceiling and two hooks.  The copy hook changes the values
of entries on their way into another map.  The free hook only listens: a map that carries it reports
every entry that it stops owning.
-/

namespace PackedMap

/-- The settings of a new map. -/
structure Config where
  /-- Bytes to make room for at once. -/
  initialCapacity : Nat
  /-- The ceiling asked for, in bytes. -/
  ceiling : Nat
  /-- The copy hook, if there is one. -/
  copyHook : Option CopyHook
  /-- Whether the map carries a free hook. -/
  freeHook : Bool

namespace Config

/-- The settings of a map that asks for none: no room at first, a ceiling of 2³¹ - 1 bytes, no
hooks. -/
def default : Config := ⟨0, 0x7FFFFFFF, none, false⟩

/-- The ceiling that a map keeps to: what was asked for, as far as slots can reach. -/
def limit (config : Config) : Nat := min config.ceiling Slab.greatestLimit

end Config

end PackedMap
