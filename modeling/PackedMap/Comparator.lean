import PackedMap.Pair

/-!
# Comparators

A comparator puts a probe, its first argument, before, at or after a stored pair, its second.  Each
map is built over one *native* comparator; queries and deletions may bring another one.  A query
comparator that coarsens the native one may call more pairs equal, and otherwise agrees with it, so
that each of its classes is one contiguous run of the native order.
-/

namespace PackedMap

/-- A three-way comparison of pairs. -/
abbrev Comparator := Pair → Pair → Ordering

namespace Comparator

/-- A comparator coarsens another if it gives the same direction whenever it tells two pairs
apart. -/
def Coarsens (query native : Comparator) : Prop :=
  ∀ a b, query a b ≠ .eq → native a b = query a b

/-- The order of keys, byte by byte.  A map built on it keeps one entry for each key. -/
def byKey : Comparator := compareOn Pair.key

/-- The order of values, byte by byte. -/
def byValue : Comparator := compareOn Pair.value

/-- The order of keys, then of values.  One key may carry several values. -/
def byKeyValue : Comparator := compareLex byKey byValue

/-- The order of keys in lower case. -/
def caseless : Comparator := compareOn fun pair => pair.key.toLower

/-- The order of keys in lower case, then of keys as they are, so that the case variants of a key
are distinct and adjacent. -/
def folded : Comparator := compareLex caseless byKey

/-- The folded order of keys, then the order of values. -/
def foldedValue : Comparator := compareLex folded byValue

/-- The order of keys in lower case, then of values. -/
def caselessValue : Comparator := compareLex caseless byValue

/-- The reversed order of keys. -/
def byKeyDescending : Comparator := fun a b => byKey b a

/-- The order of key lengths, then of keys. -/
def byKeyLength : Comparator := compareLex (compareOn fun pair => pair.key.length) byKey

/-- The order of first key bytes; an empty key comes before all others. -/
def byFirstByte : Comparator := compareOn fun pair => pair.key.take 1

/-- The probe's key against as much of the start of the stored key, so that every key that starts
with the probe's key matches. -/
def byLeadingKey : Comparator := fun a b => compare a.key (b.key.take a.key.length)

/-- The comparator that gives one answer to everything. -/
def constant (answer : Ordering) : Comparator := fun _ _ => answer

end Comparator

end PackedMap
