import PackedMap.Comparator

/-!
# Auditing a pair of comparators

Whether one comparator coarsens another cannot be seen from a map.  The audit looks for two samples
that show it does not.
-/

namespace PackedMap
namespace Comparator

/-- Two pairs show that `query` does not coarsen `native`: `query` tells them apart, and `native`
does not give the same direction. -/
def clash (native query : Comparator) (a b : Pair) : Bool :=
  query a b != .eq && native a b != query a b

/-- The indices of the first clashing samples: the least first index, and for it the least second
one. -/
def findClash (native query : Comparator) (samples : List Pair) : Option (Nat × Nat) :=
  samples.zipIdx.findSome? fun (a, i) =>
    (samples.findIdx? (clash native query a)).map fun j => (i, j)

end Comparator
end PackedMap
