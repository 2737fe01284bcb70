import PackedMap.Proofs.Tree.Insert
import PackedMap.Proofs.Tree.Remove
import Mathlib.Data.Nat.Fib.Basic

/-!
# The depth of a tree

A balanced tree has at least as many nodes as a Fibonacci number tells, so its height is logarithmic
in their number.  Searches, insertions and removals descend along one path, and need no more levels
than the tree is high.
-/

namespace PackedMap

/-- A computation over a bounded number of levels needs no more than some: it comes to an end within
them, and further levels do not change the result. -/
def EndsWithin {α : Type} (levels : Nat) (run : Nat → Checked α) : Prop :=
  ∃ result, ∀ fuel, levels ≤ fuel → run fuel = .ok result

namespace Tree

/-- Looks for a match below a link like `findBelow`, and counts the comparisons. -/
def findCounting (slab : Slab) (probe : Pair) (cmp : Comparator) :
    Nat → Link → Checked (Option Slot × Nat)
  | 0, _ => throw .endless
  | _ + 1, none => return (none, 0)
  | fuel + 1, some node => do
    match Side.ofOrdering? (cmp probe (← slab.pair node)) with
    | none => return (some node, 1)
    | some side =>
      let (found, comparisons) ← findCounting slab probe cmp fuel (← slab.child node side)
      return (found, comparisons + 1)

/-- Counting does not change what is found. -/
theorem findBelow_eq_findCounting (slab : Slab) (probe : Pair) (cmp : Comparator) (fuel : Nat)
    (link : Link) :
    findBelow slab probe cmp fuel link = Prod.fst <$> findCounting slab probe cmp fuel link := by
  induction fuel generalizing link with
  | zero => rfl
  | succ fuel ih =>
      cases link with
      | none => rfl
      | some node =>
          rw [findBelow, findCounting]
          cases slab.pair node with
          | error fault => rfl
          | ok pair =>
              simp only [Checked.ok_bind]
              cases Side.ofOrdering? (cmp probe pair) with
              | none => rfl
              | some side =>
                  simp only
                  cases slab.child node side with
                  | error fault => rfl
                  | ok below =>
                      simp only [Checked.ok_bind, ih]
                      cases findCounting slab probe cmp fuel below <;> rfl

end Tree

namespace Shape

variable {stock : Stock} {nodes : Slot → Node} {shape : Shape} {new target top : Slot}

/-- A balanced tree has at least as many nodes as a Fibonacci number tells. -/
theorem fib_height_le (balanced : shape.Balanced) :
    Nat.fib (shape.height + 2) ≤ shape.slots.length + 1 := by
  induction shape with
  | nil => exact Nat.le_refl _
  | node slot balance left right left_ih right_ih =>
      obtain ⟨between, left_balanced, right_balanced⟩ := balanced
      have left_many := left_ih left_balanced
      have right_many := right_ih right_balanced
      -- the lower side lacks one level at most
      have close : max left.height right.height + 1 ≤ min left.height right.height + 2 := by
        cases balance <;> simp only [Balance.toInt] at between <;> omega
      have both : Nat.fib (min left.height right.height + 2) +
          Nat.fib (max left.height right.height + 2) ≤
            left.slots.length + 1 + (right.slots.length + 1) := by
        rcases Nat.le_total left.height right.height with low | low
        · rw [Nat.min_eq_left low, Nat.max_eq_right low]
          exact Nat.add_le_add left_many right_many
        · rw [Nat.min_eq_right low, Nat.max_eq_left low, Nat.add_comm]
          exact Nat.add_le_add left_many right_many
      calc Nat.fib (max left.height right.height + 1 + 2)
          = Nat.fib (max left.height right.height + 1) +
              Nat.fib (max left.height right.height + 2) := Nat.fib_add_two
        _ ≤ Nat.fib (min left.height right.height + 2) +
              Nat.fib (max left.height right.height + 2) :=
            Nat.add_le_add_right (Nat.fib_mono close) _
        _ ≤ left.slots.length + 1 + (right.slots.length + 1) := both
        _ = (node slot balance left right).slots.length + 1 := by
            simp only [slots, List.length_append, List.length_cons]
            omega

/-- A search compares its probe with no more entries than there are levels. -/
theorem findCounting_slab (probe : Pair) (order : Comparator) (held : Held stock nodes shape)
    {fuel : Nat} (enough : shape.height < fuel) :
    ∃ comparisons,
      Tree.findCounting (stock.slab nodes) probe order fuel shape.root =
          .ok (shape.find fun slot => order probe (stock.pairAt slot), comparisons) ∧
        comparisons ≤ shape.height := by
  induction shape using Shape.induction generalizing fuel with
  | nil =>
      obtain ⟨fuel, rfl⟩ := Nat.exists_eq_add_of_lt enough
      exact ⟨0, rfl, Nat.le_refl 0⟩
  | node slot balance left right ih =>
      obtain ⟨fuel, rfl⟩ : ∃ rest, fuel = rest + 1 := ⟨fuel - 1, by omega⟩
      rw [root_node, Tree.findCounting, (read_node held).1, Checked.ok_bind]
      cases leads : Side.ofOrdering? (order probe (stock.pairAt slot)) with
      | none =>
          have here : order probe (stock.pairAt slot) = .eq := by
            cases answer : order probe (stock.pairAt slot) <;> simp_all [Side.ofOrdering?]
          refine ⟨1, ?_, Nat.le_add_left ..⟩
          simp only [find, here, Checked.pure_eq_ok]
      | some side =>
          have low : (side.pick left right).height + 1 ≤ (node slot balance left right).height := by
            rw [height]
            cases side <;> simp only [Side.pick] <;> omega
          obtain ⟨link, below_held⟩ := read_side held side
          obtain ⟨comparisons, below_eq, few⟩ := ih side below_held (by omega : _ < fuel)
          refine ⟨comparisons + 1, ?_, by omega⟩
          have found_eq := @find_leads (fun slot => order probe (stock.pairAt slot)) slot balance
            side left right leads
          rw [found_eq]
          simp only [link, Checked.ok_bind, below_eq, Checked.pure_eq_ok]

theorem insertBelow_endsWithin (order : Comparator) (held : Held stock nodes shape)
    (balanced : shape.Balanced) (new_mem : new ∈ stock.slots) (fresh : new ∉ shape.slots)
    (detached : nodes new = .detached) :
    EndsWithin (shape.height + 1) fun fuel =>
      Tree.insertBelow order new fuel (stock.slab nodes) shape.root := by
  cases inserted : shape.insert (stock.place order new) new with
  | error holder =>
      refine ⟨(.occupied holder, stock.slab nodes), fun fuel enough => ?_⟩
      simp only [insertBelow_slab order held balanced new_mem fresh detached enough, inserted]
  | ok after =>
      refine ⟨(.linked ⟨after.1.root, after.2⟩, stock.slab (after.1.overlay nodes)),
        fun fuel enough => ?_⟩
      simp only [insertBelow_slab order held balanced new_mem fresh detached enough, inserted]

theorem removeBelow_endsWithin (order : Comparator) (held : Held stock nodes shape)
    (balanced : shape.Balanced) (target_mem : target ∈ stock.slots) :
    EndsWithin (shape.height + 1) fun fuel =>
      Tree.removeBelow order target fuel (stock.slab nodes) shape.root := by
  cases removed : shape.remove (stock.place order target) target with
  | none =>
      refine ⟨(.absent, stock.slab nodes), fun fuel enough => ?_⟩
      simp only [removeBelow_slab order held balanced target_mem enough, removed]
  | some after =>
      refine ⟨(.unlinked ⟨after.1.root, after.2⟩, stock.slab (after.1.overlay nodes)),
        fun fuel enough => ?_⟩
      simp only [removeBelow_slab order held balanced target_mem enough, removed]

theorem removeFirst_endsWithin (held : Held stock nodes shape) (balanced : shape.Balanced)
    (top_eq : shape.root = some top) :
    EndsWithin shape.height fun fuel => Tree.removeFirst fuel (stock.slab nodes) top := by
  cases taken : shape.removeFirst with
  | none => simp [removeFirst_eq_none.mp taken, root] at top_eq
  | some result =>
      obtain ⟨first, after⟩ := result
      exact ⟨_, fun fuel enough => removeFirst_slab held balanced top_eq taken enough⟩

end Shape
end PackedMap
