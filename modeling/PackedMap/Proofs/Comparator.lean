import PackedMap.Comparator

/-!
# Lawful comparators

A comparator is lawful if it is that of a total preorder: swapped arguments swap the answer, and it
is transitive.
-/

namespace PackedMap
namespace Comparator

instance : Std.TransCmp byKey := inferInstanceAs (Std.TransCmp (compareOn Pair.key))

instance : Std.TransCmp byValue := inferInstanceAs (Std.TransCmp (compareOn Pair.value))

instance : Std.TransCmp byKeyValue := inferInstanceAs (Std.TransCmp (compareLex byKey byValue))

instance : Std.TransCmp caseless :=
  inferInstanceAs (Std.TransCmp (compareOn fun pair : Pair => pair.key.toLower))

instance : Std.TransCmp folded := inferInstanceAs (Std.TransCmp (compareLex caseless byKey))

/-- Of two orders taken one after the other the first is a coarser one. -/
theorem coarsens_compareLex (first second : Comparator) :
    first.Coarsens (compareLex first second) := by
  intro a b differ
  rw [compareLex]
  cases answer : first a b with
  | eq => exact absurd answer differ
  | lt | gt => rfl

/-- A comparator never contradicts one that coarsens it. -/
theorem Coarsens.gt {query native : Comparator} (coarsens : query.Coarsens native) {a b : Pair}
    (greater : query a b = .gt) : native a b = .gt :=
  (coarsens a b (by simp [greater])).trans greater

/-- What stands between two matches of a coarser comparator is a match. -/
theorem Coarsens.between {query native : Comparator} [Std.TransCmp query] [Std.OrientedCmp native]
    (coarsens : query.Coarsens native) {probe a b c : Pair} (before : native a b = .lt)
    (behind : native b c = .lt) (first : query probe a = .eq) (last : query probe c = .eq) :
    query probe b = .eq := by
  cases answer : query probe b with
  | eq => rfl
  | lt =>
      have less : query c b = .lt :=
        Std.TransCmp.lt_of_eq_of_lt (Std.OrientedCmp.eq_symm last) answer
      have contrary := coarsens c b (by simp [less])
      rw [less, Std.OrientedCmp.gt_of_lt behind] at contrary
      cases contrary
  | gt =>
      have greater : query a b = .gt :=
        Std.TransCmp.gt_of_eq_of_gt (Std.OrientedCmp.eq_symm first) answer
      rw [coarsens.gt greater] at before
      cases before

end Comparator
end PackedMap
