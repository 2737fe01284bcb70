import PackedMap.Bytes

/-!
# Pairs

A key with its value, which is all that a comparator sees of an entry or of a probe.
-/

namespace PackedMap

/-- A key and a value. -/
structure Pair where
  /-- The key's bytes. -/
  key : Bytes
  /-- The value's bytes. -/
  value : Bytes
deriving DecidableEq, Repr

namespace Pair

/-- A probe that carries only a key: its value is empty. -/
def ofKey (key : Bytes) : Pair := ⟨key, []⟩

/-- Number of data bytes in a pair. -/
def size (pair : Pair) : Nat := pair.key.length + pair.value.length

/-- Number of data bytes in some pairs. -/
def totalSize : List Pair → Nat
  | [] => 0
  | pair :: rest => pair.size + totalSize rest

end Pair

end PackedMap
