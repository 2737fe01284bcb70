import PackedMap.Comparator.Audit
import PackedMap.Proofs.Comparator

/-!
# Canonical orders

Five comparators serve both as orders of maps and as queries.  Each is a total preorder, and two
pairs are equal under it exactly when they agree in what it looks at.  Which of them may query a map
over which other one is told by a short table, and pairs that differ in the case of a letter, in a
sign between the capitals and the small letters, or in their values show that the table is complete.
-/

namespace PackedMap
namespace Comparator

/-- A comparator puts pairs in a total preorder. -/
structure IsPreorder (cmp : Comparator) : Prop where
  reflexive : ∀ a, cmp a a = .eq
  swapped : ∀ a b, cmp b a = (cmp a b).swap
  transitive : ∀ a b c, (cmp a b).isLE → (cmp b c).isLE → (cmp a c).isLE

theorem isPreorder_of_lawful (cmp : Comparator) [Std.TransCmp cmp] : cmp.IsPreorder where
  reflexive _ := Std.ReflCmp.compare_self
  swapped _ _ := Std.OrientedCmp.eq_swap
  transitive _ _ _ := Std.TransCmp.isLE_trans

instance : Std.TransCmp foldedValue := inferInstanceAs (Std.TransCmp (compareLex folded byValue))

/-! ## Equal pairs -/

section Equal

variable {a b : Pair}

theorem byKey_eq_iff : byKey a b = .eq ↔ a.key = b.key := Std.compare_eq_iff_eq

theorem byValue_eq_iff : byValue a b = .eq ↔ a.value = b.value := Std.compare_eq_iff_eq

theorem caseless_eq_iff : caseless a b = .eq ↔ a.key.toLower = b.key.toLower :=
  Std.compare_eq_iff_eq

theorem byKeyValue_eq_iff : byKeyValue a b = .eq ↔ a = b := by
  rw [byKeyValue, compareLex_eq_eq, byKey_eq_iff, byValue_eq_iff, Pair.mk.injEq]

/-- Keys that are equal as they are need not be compared in lower case. -/
theorem folded_eq_iff : folded a b = .eq ↔ a.key = b.key := by
  rw [folded, compareLex_eq_eq, caseless_eq_iff, byKey_eq_iff]
  constructor
  · intro same
    exact same.2
  · intro same
    exact ⟨congrArg Bytes.toLower same, same⟩

theorem foldedValue_eq_iff : foldedValue a b = .eq ↔ a = b := by
  rw [foldedValue, compareLex_eq_eq, folded_eq_iff, byValue_eq_iff, Pair.mk.injEq]

end Equal

/-! ## Coarser comparators -/

theorem Coarsens.refl (cmp : Comparator) : cmp.Coarsens cmp := fun _ _ _ => rfl

theorem Coarsens.trans {query middle native : Comparator} (coarse : query.Coarsens middle)
    (coarser : middle.Coarsens native) : query.Coarsens native := by
  intro a b differ
  have same := coarse a b differ
  calc native a b = middle a b := coarser a b (same ▸ differ)
    _ = query a b := same

/-- The audit finds nothing to say against a coarser comparator. -/
theorem Coarsens.no_clash {query native : Comparator} (coarsens : query.Coarsens native)
    (a b : Pair) : clash native query a b = false := by
  rw [clash, Bool.and_eq_false_iff]
  by_cases equal : query a b = .eq
  · exact .inl (by simp [equal])
  · exact .inr (by simp [coarsens a b equal])

/-! ## The table -/

/-- A canonical order, by name. -/
inductive Canonical
  | byKey
  | byKeyValue
  | caseless
  | folded
  | foldedValue
deriving DecidableEq, Repr

namespace Canonical

/-- The comparator of a canonical order. -/
def order : Canonical → Comparator
  | byKey => Comparator.byKey
  | byKeyValue => Comparator.byKeyValue
  | caseless => Comparator.caseless
  | folded => Comparator.folded
  | foldedValue => Comparator.foldedValue

/-- The orders that may query a map over a canonical order, beside that one itself. -/
def queries : Canonical → List Canonical
  | foldedValue => [folded, caseless]
  | folded => [caseless]
  | byKeyValue => [byKey]
  | byKey | caseless => []

theorem lawful (canonical : Canonical) : Std.TransCmp canonical.order := by
  cases canonical <;> unfold order <;> infer_instance

/-- What an order breaks the ties of is coarser than that order. -/
theorem coarsens_of_mem_queries {native query : Canonical} (mem : query ∈ native.queries) :
    query.order.Coarsens native.order := by
  have tie_caseless : Comparator.caseless.Coarsens Comparator.folded := coarsens_compareLex _ _
  have tie_folded : Comparator.folded.Coarsens Comparator.foldedValue := coarsens_compareLex _ _
  cases native with
  | byKey | caseless => cases mem
  | byKeyValue =>
      obtain rfl := List.mem_singleton.mp mem
      exact coarsens_compareLex _ _
  | folded =>
      obtain rfl := List.mem_singleton.mp mem
      exact tie_caseless
  | foldedValue =>
      rcases List.mem_cons.mp mem with rfl | mem
      · exact tie_folded
      · obtain rfl := List.mem_singleton.mp mem
        exact tie_caseless.trans tie_folded

/-- Pairs on which canonical orders differ: one letter in both cases, a sign between the capitals
and the small letters beside a capital, and two values of one key. -/
def traps : List (Pair × Pair) :=
  [(⟨[65], []⟩, ⟨[97], []⟩), (⟨[91], []⟩, ⟨[65], []⟩), (⟨[97], [49]⟩, ⟨[97], [50]⟩)]

/-- Two canonical orders that the table keeps apart clash on one of the traps. -/
theorem exists_clash {native query : Canonical} (differ : query ≠ native)
    (absent : query ∉ native.queries) :
    ∃ trap ∈ traps, clash native.order query.order trap.1 trap.2 = true := by
  cases native <;> cases query <;> revert differ absent <;> decide

theorem coarsens_iff {native query : Canonical} :
    query.order.Coarsens native.order ↔ query = native ∨ query ∈ native.queries := by
  constructor
  · intro coarsens
    refine Decidable.byContradiction fun missing => ?_
    obtain ⟨differ, absent⟩ := not_or.mp missing
    obtain ⟨trap, -, clashes⟩ := exists_clash differ absent
    rw [coarsens.no_clash] at clashes
    cases clashes
  · rintro (rfl | mem)
    · exact .refl _
    · exact coarsens_of_mem_queries mem

end Canonical

/-- The canonical orders are total preorders, equal pairs agree in what an order looks at, and one
of them may query a map over another exactly where the table says so. -/
theorem canonical_orders :
    (∀ canonical : Canonical, canonical.order.IsPreorder) ∧
      (∀ a b, folded a b = .eq ↔ a.key = b.key) ∧
      (∀ a b, byKeyValue a b = .eq ↔ a = b) ∧
      (∀ a b, foldedValue a b = .eq ↔ a = b) ∧
      (∀ a b, caseless a b = .eq ↔ a.key.toLower = b.key.toLower) ∧
      ∀ native query : Canonical, query.order.Coarsens native.order ↔
        query = native ∨ (native, query) ∈ [(.foldedValue, .folded), (.foldedValue, .caseless),
          (.folded, .caseless), (.byKeyValue, .byKey)] := by
  refine ⟨fun canonical => ?_, fun _ _ => folded_eq_iff, fun _ _ => byKeyValue_eq_iff,
    fun _ _ => foldedValue_eq_iff, fun _ _ => caseless_eq_iff, fun native query => ?_⟩
  · have lawful := canonical.lawful
    exact isPreorder_of_lawful canonical.order
  · rw [Canonical.coarsens_iff]
    cases native <;> simp [Canonical.queries]

end Comparator
end PackedMap
