import PackedMap.Comparator.Audit
import PackedMap.Proofs.Comparator
import PackedMap.Proofs.Sweep
import Mathlib.Data.List.Chain
import Mathlib.Data.Set.List
import Mathlib.Tactic.Lift

/-!
# What an audit finds

An audit goes through the samples row by row and stops at the first two that clash, so it finds the
least clash there is, or there is none.  It looks at two samples at a time, and in one direction
only.  For total preorders that is enough: where no samples clash, every sample sweeps every list of
samples in native order, however its matches lie in that list.
-/

namespace PackedMap
namespace Comparator

/-- Two samples clash, told by their indices: `query` tells them apart, and `native` does not give
the same direction. -/
def ClashAt (native query : Comparator) (samples : List Pair) (i j : Nat) : Prop :=
  ∃ a b, samples[i]? = some a ∧ samples[j]? = some b ∧ query a b ≠ .eq ∧ native a b ≠ query a b

/-- A comparator puts some pairs in a total preorder. -/
structure IsPreorderOn (cmp : Comparator) (samples : List Pair) : Prop where
  swapped : ∀ a ∈ samples, ∀ b ∈ samples, cmp b a = (cmp a b).swap
  transitive : ∀ a ∈ samples, ∀ b ∈ samples, ∀ c ∈ samples,
    (cmp a b).isLE → (cmp b c).isLE → (cmp a c).isLE

theorem isPreorderOn_of_lawful (cmp : Comparator) [Std.TransCmp cmp] (samples : List Pair) :
    cmp.IsPreorderOn samples where
  swapped _ _ _ _ := Std.OrientedCmp.eq_swap
  transitive _ _ _ _ _ _ := Std.TransCmp.isLE_trans

variable {native query : Comparator} {samples : List Pair}

theorem clash_iff {a b : Pair} :
    clash native query a b = true ↔ query a b ≠ .eq ∧ native a b ≠ query a b := by
  simp [clash]

/-! ## The first clash -/

section Found

variable {i j : Nat}

/-- The row of the clash that is found has its first clash there, and no row before it has any. -/
theorem rows_of_findClash (found : findClash native query samples = some (i, j)) :
    ∃ front a back, samples = front ++ a :: back ∧ front.length = i ∧
      samples.findIdx? (clash native query a) = some j ∧
      ∀ b ∈ front, samples.findIdx? (clash native query b) = none := by
  obtain ⟨rows, ⟨a, row⟩, later, split, here, none⟩ := List.findSome?_eq_some_iff.mp found
  obtain ⟨column, first, same⟩ := Option.map_eq_some_iff.mp here
  obtain ⟨rfl, rfl⟩ := Prod.mk.inj same
  obtain ⟨front, rest, samples_eq, rows_eq, rest_eq⟩ := List.zipIdx_eq_append_iff.mp split
  cases rest with
  | nil => cases rest_eq
  | cons b back =>
      rw [List.zipIdx_cons, Nat.zero_add] at rest_eq
      obtain ⟨here_eq, -⟩ := List.cons.inj rest_eq
      obtain ⟨rfl, rfl⟩ := Prod.mk.inj here_eq
      refine ⟨front, a, back, samples_eq, rfl, first, fun b mem => ?_⟩
      obtain ⟨index, at_index⟩ := List.mem_iff_getElem?.mp mem
      have row_mem : (b, index) ∈ rows := rows_eq ▸ List.mem_zipIdx_iff_getElem?.mpr at_index
      exact Option.map_eq_none_iff.mp (none _ row_mem)

theorem clashAt_of_findClash (found : findClash native query samples = some (i, j)) :
    ClashAt native query samples i j := by
  obtain ⟨front, a, back, samples_eq, rfl, first, -⟩ := rows_of_findClash found
  obtain ⟨inside, clashes, -⟩ := List.findIdx?_eq_some_iff_getElem.mp first
  obtain ⟨differ, against⟩ := clash_iff.mp clashes
  refine ⟨a, samples[j], ?_, List.getElem?_eq_getElem inside, differ, against⟩
  rw [samples_eq, List.getElem?_append_right (Nat.le_refl _), Nat.sub_self, List.getElem?_cons_zero]

/-- No clash comes before the one that is found, neither in an earlier row nor in its own. -/
theorem least_of_findClash (found : findClash native query samples = some (i, j)) {i' j' : Nat}
    (clashing : ClashAt native query samples i' j') : i < i' ∨ i = i' ∧ j ≤ j' := by
  obtain ⟨front, a, back, samples_eq, rfl, first, none⟩ := rows_of_findClash found
  obtain ⟨a', b', row, column, differ, against⟩ := clashing
  have clashes := clash_iff.mpr ⟨differ, against⟩
  rcases Nat.lt_trichotomy i' front.length with before | same | behind
  · rw [samples_eq, List.getElem?_append_left before] at row
    have free := List.findIdx?_eq_none_iff.mp (none a' (List.mem_of_getElem? row)) b'
      (List.mem_of_getElem? column)
    rw [clashes] at free
    cases free
  · rw [samples_eq, same, List.getElem?_append_right (Nat.le_refl _), Nat.sub_self,
      List.getElem?_cons_zero] at row
    obtain rfl := Option.some.inj row
    obtain ⟨inside, -, earlier⟩ := List.findIdx?_eq_some_iff_getElem.mp first
    refine .inr ⟨same.symm, Nat.not_lt.mp fun less => earlier j' less ?_⟩
    obtain ⟨_, column_eq⟩ := List.getElem?_eq_some_iff.mp column
    rwa [column_eq]
  · exact .inl behind

theorem findClash_eq_none_iff :
    findClash native query samples = none ↔ ∀ a ∈ samples, ∀ b ∈ samples,
      clash native query a b = false := by
  rw [findClash, List.findSome?_eq_none_iff]
  constructor
  · intro rows a mem
    obtain ⟨index, at_index⟩ := List.mem_iff_getElem?.mp mem
    have row := rows (a, index) (List.mem_zipIdx_iff_getElem?.mpr at_index)
    exact List.findIdx?_eq_none_iff.mp (Option.map_eq_none_iff.mp row)
  · rintro free ⟨a, index⟩ mem
    have here := List.mem_of_getElem? (List.mem_zipIdx_iff_getElem?.mp mem)
    exact Option.map_eq_none_iff.mpr (List.findIdx?_eq_none_iff.mpr (free a here))

theorem forall_not_clashAt_iff :
    (∀ i j, ¬ ClashAt native query samples i j) ↔ ∀ a ∈ samples, ∀ b ∈ samples,
      clash native query a b = false := by
  constructor
  · intro none a a_mem b b_mem
    obtain ⟨i, at_i⟩ := List.mem_iff_getElem?.mp a_mem
    obtain ⟨j, at_j⟩ := List.mem_iff_getElem?.mp b_mem
    refine Bool.eq_false_iff.mpr fun clashes => ?_
    obtain ⟨differ, against⟩ := clash_iff.mp clashes
    exact none i j ⟨a, b, at_i, at_j, differ, against⟩
  · rintro free i j ⟨a, b, at_i, at_j, differ, against⟩
    have clashes := clash_iff.mpr ⟨differ, against⟩
    rw [free a (List.mem_of_getElem? at_i) b (List.mem_of_getElem? at_j)] at clashes
    cases clashes

theorem findClash_eq_none_iff_clashAt :
    findClash native query samples = none ↔ ∀ i j, ¬ ClashAt native query samples i j :=
  findClash_eq_none_iff.trans forall_not_clashAt_iff.symm

theorem findClash_eq_some_iff :
    findClash native query samples = some (i, j) ↔ ClashAt native query samples i j ∧
      ∀ i' j', ClashAt native query samples i' j' → i < i' ∨ i = i' ∧ j ≤ j' := by
  constructor
  · intro found
    exact ⟨clashAt_of_findClash found, fun _ _ => least_of_findClash found⟩
  · rintro ⟨clashing, least⟩
    cases found : findClash native query samples with
    | none => exact absurd clashing (findClash_eq_none_iff_clashAt.mp found i j)
    | some first =>
        -- of two least clashes neither comes before the other
        have forwards := least _ _ (clashAt_of_findClash found)
        have backwards := least_of_findClash found clashing
        exact congrArg some (Prod.ext (by omega) (by omega))

end Found

/-! ## After a clean audit -/

/-- A comparator as it stands among some pairs. -/
def among (cmp : Comparator) (samples : List Pair) (a b : {pair // pair ∈ samples}) : Ordering :=
  cmp a b

/-- Among the samples a total preorder is lawful, so that what is known of lawful comparators
applies. -/
theorem IsPreorderOn.transCmp {cmp : Comparator} (preorder : cmp.IsPreorderOn samples) :
    Std.TransCmp (cmp.among samples) where
  eq_swap {a b} := preorder.swapped b b.2 a a.2
  isLE_trans {a b c} := preorder.transitive a a.2 b b.2 c c.2

theorem IsPreorderOn.increasing {cmp : Comparator} (preorder : cmp.IsPreorderOn samples)
    {list : List {pair // pair ∈ samples}}
    (chain : list.IsChain fun a b => cmp.among samples a b = .lt) :
    Increasing (cmp.among samples) list := by
  have lawful := preorder.transCmp
  have trans : IsTrans _ fun a b => cmp.among samples a b = .lt :=
    ⟨fun _ _ _ less less' => Std.TransCmp.lt_trans less less'⟩
  exact chain.pairwise

/-- Where no samples clash, the audited comparator sweeps each list of samples in native order. -/
theorem sweeps_of_no_clash (free : ∀ a ∈ samples, ∀ b ∈ samples, clash native query a b = false)
    (native_preorder : native.IsPreorderOn samples) (preorder : query.IsPreorderOn samples)
    {probe : Pair} (probe_mem : probe ∈ samples) {list : List Pair}
    (inside : ∀ pair ∈ list, pair ∈ samples)
    (chain : list.IsChain fun a b => native a b = .lt) : Sweeps (query probe) list := by
  lift list to List {pair // pair ∈ samples} using inside
  have lawful := preorder.transCmp
  have increasing := native_preorder.increasing (List.isChain_map _ |>.mp chain)
  have coarser : ∀ a b, query.among samples a b = .gt → native.among samples a b = .gt := by
    intro a b greater
    have agrees := free a a.2 b b.2
    rw [among] at greater ⊢
    simpa [clash, greater] using agrees
  exact sweeps_map.mpr (increasing.sweeps_of_coarser coarser ⟨probe, probe_mem⟩)

/-- An audit finds the least two samples that clash, or nothing if none do.  After it finds nothing,
two total preorders can serve as the order of a map and as a query: along samples in native order, a
sample comes after the first ones, matches the next ones, and comes before the rest. -/
theorem findClash_exact (native query : Comparator) (samples : List Pair) :
    (∀ i j, findClash native query samples = some (i, j) ↔
      ClashAt native query samples i j ∧
        ∀ i' j', ClashAt native query samples i' j' → i < i' ∨ i = i' ∧ j ≤ j') ∧
    (findClash native query samples = none ↔ ∀ i j, ¬ ClashAt native query samples i j) ∧
    (findClash native query samples = none → native.IsPreorderOn samples →
      query.IsPreorderOn samples → ∀ probe ∈ samples, ∀ list : List Pair,
        (∀ pair ∈ list, pair ∈ samples) → list.IsChain (fun a b => native a b = .lt) →
        ∃ before matched after, list = before ++ matched ++ after ∧
          (∀ pair ∈ before, query probe pair = .gt) ∧
          (∀ pair ∈ matched, query probe pair = .eq) ∧
          ∀ pair ∈ after, query probe pair = .lt) := by
  refine ⟨fun i j => findClash_eq_some_iff, findClash_eq_none_iff_clashAt, ?_⟩
  intro clean native_preorder preorder probe probe_mem list inside chain
  have free := findClash_eq_none_iff.mp clean
  have swept := sweeps_of_no_clash free native_preorder preorder probe_mem inside chain
  exact ⟨_, _, _, swept.eq_append, fun _ mem => (mem_below.mp mem).2,
    fun _ mem => (mem_matching.mp mem).2, fun _ mem => (mem_above.mp mem).2⟩

/-- Some letters in both cases, with a sign that comes between the capitals and the small ones. -/
def mixedCase : List Pair :=
  [⟨[99], []⟩, ⟨[98], []⟩, ⟨[91], []⟩, ⟨[65], []⟩, ⟨[66], []⟩, ⟨[97], []⟩]

/-- An audit of the letters finds that lower case goes against the order of bytes, and finds nothing
against lower case where capitals only break its ties. -/
theorem findClash_exact_mixedCase :
    findClash .byKey .caseless mixedCase = some (2, 3) ∧
    ClashAt .byKey .caseless mixedCase 2 3 ∧
    findClash .folded .caseless mixedCase = none ∧
    ∃ before matched after,
      ([⟨[91], []⟩, ⟨[65], []⟩, ⟨[97], []⟩, ⟨[66], []⟩, ⟨[98], []⟩, ⟨[99], []⟩] : List Pair) =
        before ++ matched ++ after ∧
      (∀ pair ∈ before, caseless ⟨[98], []⟩ pair = .gt) ∧
      (∀ pair ∈ matched, caseless ⟨[98], []⟩ pair = .eq) ∧
      ∀ pair ∈ after, caseless ⟨[98], []⟩ pair = .lt := by
  have found : findClash .byKey .caseless mixedCase = some (2, 3) := by decide +kernel
  have clean : findClash .folded .caseless mixedCase = none := by decide +kernel
  refine ⟨found, (((findClash_exact .byKey .caseless mixedCase).1 2 3).mp found).1, clean, ?_⟩
  refine (findClash_exact .folded .caseless mixedCase).2.2 clean (isPreorderOn_of_lawful _ _)
    (isPreorderOn_of_lawful _ _) ⟨[98], []⟩ (by decide) _ (by decide) ?_
  simp only [List.isChain_cons_cons, List.isChain_singleton]
  decide

end Comparator
end PackedMap
