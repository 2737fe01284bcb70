import PackedMap.Proofs.Tree.Bearing

/-!
# Neighbours of a probe

A search for neighbours knows of a tree only what a comparator answers along its way, and it starts
anew on both sides of the first match that it meets.  If the answers along the whole tree read
*greater*, then *equal*, then *less*, the search finds the ends of all three blocks, wherever in the
tree these stand.
-/

namespace PackedMap

/-- Where the answers to a probe form three blocks along a tree, a search for neighbours finds the
last record of the first block, the first and the last record of the second, and the first record of
the third.  It meets a match exactly if there is one. -/
theorem locate_exact {ledger : Ledger} {tree : Tree} {shape : Shape}
    (bears : ledger.Bears tree shape) {cmp : Comparator} {probe : Pair}
    {before matched after : List Slot} (blocks : shape.slots = before ++ matched ++ after)
    (greater : ∀ slot ∈ before, ledger.Answers cmp probe .gt slot)
    (equal : ∀ slot ∈ matched, ledger.Answers cmp probe .eq slot)
    (less : ∀ slot ∈ after, ledger.Answers cmp probe .lt slot) :
    ∃ found, tree.locate ledger.slab probe cmp =
        .ok (found, ⟨before.getLast?, after.head?, matched.head?, matched.getLast?⟩) ∧
      (found = none ↔ matched = []) ∧ ∀ slot, found = some slot → slot ∈ matched := by
  obtain ⟨stock, nodes, -, rfl, rfl, held⟩ := bears.exists_held
  have place {answer : Ordering} {block : List Slot} (part : block.Sublist shape.slots)
      (answers : ∀ slot ∈ block, (Ledger.of stock nodes).Answers cmp probe answer slot) :
      ∀ slot ∈ block, cmp probe (stock.pairAt slot) = answer := fun slot mem =>
    (Ledger.answers_of (held.inside slot (part.subset mem))).mp (answers slot mem)
  have greater := place (by simp [blocks]) greater
  have equal := place (by simp [blocks]) equal
  have less := place (by simp [blocks]) less
  have swept := Sweeps.of_append greater equal less
  obtain ⟨below_eq, matching_eq, above_eq⟩ := Sweeps.parts_of_append greater equal less
  rw [← blocks] at swept below_eq matching_eq above_eq
  have run := Shape.locate_slab probe cmp held
  rw [Shape.locate_eq swept, below_eq, matching_eq, above_eq, Option.or_none, Option.or_none] at run
  rw [Ledger.slab_of]
  refine ⟨_, run, ⟨fun missed => ?_, fun empty => ?_⟩, fun slot found => ?_⟩
  · rw [← matching_eq]
    exact Shape.find_eq_none swept missed
  · refine Option.eq_none_iff_forall_ne_some.mpr fun slot found => ?_
    have mem := Shape.find_mem found
    rw [matching_eq, empty] at mem
    exact List.not_mem_nil mem
  · rw [← matching_eq]
    exact Shape.find_mem found

/-- Five cells, of whose keys three have the first byte in common. -/
def matchesOnTopStock : Stock where
  cells := [.live ⟨[2, 2], []⟩, .live ⟨[3], []⟩, .live ⟨[1], []⟩, .live ⟨[2, 1], []⟩,
    .live ⟨[2, 3], []⟩]
  capacity := 160
  limit := 300
  used_le := by decide
  capacity_le := by decide
  limit_le := by decide

/-- A tree of these cells.  What surrounds the matches stands below them. -/
def matchesOnTopTree : Shape :=
  .node ⟨0⟩ .even (.node ⟨12⟩ .leftHeavy (.node ⟨8⟩ .even .nil .nil) .nil)
    (.node ⟨16⟩ .rightHeavy .nil (.node ⟨4⟩ .even .nil .nil))

/-- The records of that tree. -/
def matchesOnTop : Ledger := .of matchesOnTopStock matchesOnTopTree.nodes

theorem bears_matchesOnTop : matchesOnTop.Bears ⟨matchesOnTopTree.root⟩ matchesOnTopTree := by
  refine Ledger.bears_nodes (by decide +kernel) (by decide +kernel) ?_
  simp [matchesOnTopTree, Shape.Balanced, Shape.height, Balance.toInt]

/-- The answer of a comparator at one of these cells. -/
theorem answers_matchesOnTop (slot : Slot) (pair : Pair)
    (mem : (slot, .live pair) ∈ matchesOnTopStock.placed) (cmp : Comparator) (probe : Pair) :
    matchesOnTop.Answers cmp probe (cmp probe pair) slot := by
  rw [matchesOnTop, Ledger.answers_of (Stock.mem_slots mem), Stock.pairAt_eq mem]
  rfl

theorem locate_exact_matchesOnTop :
    matchesOnTop.Bears ⟨matchesOnTopTree.root⟩ matchesOnTopTree ∧
      matchesOnTopTree.slots = [⟨8⟩] ++ [⟨12⟩, ⟨0⟩, ⟨16⟩] ++ [⟨4⟩] ∧
      ∃ found, Tree.locate ⟨matchesOnTopTree.root⟩ matchesOnTop.slab ⟨[2], []⟩
          .byFirstByte = .ok (found, ⟨some ⟨8⟩, some ⟨4⟩, some ⟨12⟩, some ⟨16⟩⟩) ∧
        found ≠ none := by
  have blocks : matchesOnTopTree.slots = [⟨8⟩] ++ [⟨12⟩, ⟨0⟩, ⟨16⟩] ++ [⟨4⟩] := rfl
  have greater : ∀ slot ∈ [(⟨8⟩ : Slot)], matchesOnTop.Answers .byFirstByte ⟨[2], []⟩ .gt slot :=
    List.forall_mem_singleton.mpr
      (answers_matchesOnTop ⟨8⟩ ⟨[1], []⟩ (by decide +kernel) ..)
  have equal : ∀ slot ∈ [(⟨12⟩ : Slot), ⟨0⟩, ⟨16⟩],
      matchesOnTop.Answers .byFirstByte ⟨[2], []⟩ .eq slot := by
    simp only [List.forall_mem_cons]
    exact ⟨answers_matchesOnTop ⟨12⟩ ⟨[2, 1], []⟩ (by decide +kernel) ..,
      answers_matchesOnTop ⟨0⟩ ⟨[2, 2], []⟩ (by decide +kernel) ..,
      answers_matchesOnTop ⟨16⟩ ⟨[2, 3], []⟩ (by decide +kernel) ..,
      List.forall_mem_nil _⟩
  have less : ∀ slot ∈ [(⟨4⟩ : Slot)], matchesOnTop.Answers .byFirstByte ⟨[2], []⟩ .lt slot :=
    List.forall_mem_singleton.mpr
      (answers_matchesOnTop ⟨4⟩ ⟨[3], []⟩ (by decide +kernel) ..)
  obtain ⟨found, run, missed, -⟩ := locate_exact bears_matchesOnTop blocks greater equal less
  exact ⟨bears_matchesOnTop, blocks, found, run,
    fun none => List.cons_ne_nil _ _ (missed.mp none)⟩

end PackedMap
