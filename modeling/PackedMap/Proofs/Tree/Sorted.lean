import PackedMap.Proofs.Tree.Held
import PackedMap.Tree.Sorted
import Mathlib.Data.Nat.Size

/-!
# Trees from sorted lists

Building a tree from a list halves the list again and again, so that the height of the tree is known
from the length of the list and no side is more than one level higher.  Building the tree in the
slab leaves the same tree.
-/

namespace PackedMap

namespace Balance

@[simp]
theorem ofHeights?_self (height : Nat) : ofHeights? height height = some .even := by
  rw [ofHeights?, Int8.sub_self]
  rfl

@[simp]
theorem ofHeights?_succ (height : Nat) : ofHeights? (height + 1) height = some .leftHeavy := by
  have step : Int8.ofNat height - Int8.ofNat (height + 1) = -1 := by
    rw [Int8.ofNat_add, show Int8.ofNat 1 = 1 from rfl]
    grind
  rw [ofHeights?, step]
  rfl

end Balance

namespace Shape

/-- The tree over the entries of a list: the one in the middle is its root. -/
def ofSorted (slots : List Slot) : Shape :=
  if h : slots.length / 2 < slots.length then
    let left := ofSorted (slots.take (slots.length / 2))
    let right := ofSorted (slots.drop (slots.length / 2 + 1))
    node slots[slots.length / 2] (if left.height = right.height then .even else .leftHeavy) left
      right
  else
    nil
termination_by slots.length
decreasing_by
  · simp only [List.length_take]
    omega
  · simp only [List.length_drop]
    omega

section Halves

variable {left right : List Slot} {middle : Slot}

/-- A list is empty or has two halves around its middle, the first of which may be longer by one. -/
theorem halves_induction {motive : List Slot → Prop} (nil : motive [])
    (halves : ∀ left middle right, right.length ≤ left.length → left.length ≤ right.length + 1 →
      motive left → motive right → motive (left ++ middle :: right)) (slots : List Slot) :
    motive slots := by
  induction length : slots.length using Nat.strongRecOn generalizing slots with
  | ind length' ih =>
      subst length
      by_cases some_slot : slots.length / 2 < slots.length
      · have split := List.take_append_drop (slots.length / 2) slots
        rw [List.drop_eq_getElem_cons some_slot] at split
        rw [← split]
        refine halves _ _ _ ?_ ?_ (ih _ ?_ _ rfl) (ih _ ?_ _ rfl) <;>
          simp only [List.length_take, List.length_drop] <;> omega
      · obtain rfl := List.length_eq_zero_iff.mp (by omega : slots.length = 0)
        exact nil

theorem length_halves (short : right.length ≤ left.length) (long : left.length ≤ right.length + 1) :
    (left ++ middle :: right).length / 2 = left.length := by
  rw [List.length_append, List.length_cons]
  omega

theorem take_halves : (left ++ middle :: right).take left.length = left := List.take_left

theorem drop_halves : (left ++ middle :: right).drop (left.length + 1) = right := by
  rw [List.drop_append, List.drop_eq_nil_of_le (Nat.le_succ _), Nat.add_sub_cancel_left]
  rfl

theorem ofSorted_nil : ofSorted [] = nil := by
  rw [ofSorted]
  rfl

theorem ofSorted_halves (short : right.length ≤ left.length)
    (long : left.length ≤ right.length + 1) :
    ofSorted (left ++ middle :: right) =
      node middle (if (ofSorted left).height = (ofSorted right).height then .even else .leftHeavy)
        (ofSorted left) (ofSorted right) := by
  have half := @length_halves left right middle short long
  rw [ofSorted, dif_pos (by rw [half]; simp)]
  simp only [half, take_halves, drop_halves, List.getElem_append_right (Nat.le_refl _),
    Nat.sub_self, List.getElem_cons_zero]

end Halves

/-- The halves of a list have levels that differ by at most one. -/
theorem level_halves {short long low high : Nat} (le : short ≤ long) (close : long ≤ short + 1)
    (long_bounds : long < 2 ^ high ∧ 2 ^ high ≤ 2 * long + 1)
    (short_bounds : short < 2 ^ low ∧ 2 ^ low ≤ 2 * short + 1) : low = high ∨ high = low + 1 := by
  rcases Nat.lt_trichotomy low high with less | equal | greater
  · right
    by_contra differ
    have bound : 2 ^ (low + 2) ≤ 2 ^ high := Nat.pow_le_pow_right Nat.two_pos (by omega)
    rw [Nat.pow_succ, Nat.pow_succ] at bound
    omega
  · exact .inl equal
  · have bound : 2 ^ (high + 1) ≤ 2 ^ low := Nat.pow_le_pow_right Nat.two_pos (by omega)
    rw [Nat.pow_succ] at bound
    omega

theorem slots_ofSorted (slots : List Slot) : (ofSorted slots).slots = slots := by
  induction slots using halves_induction with
  | nil => rw [ofSorted_nil, Shape.slots]
  | halves left middle right short long left_ih right_ih =>
      rw [ofSorted_halves short long, Shape.slots, left_ih, right_ih]

/-- The height is the number of binary digits of the length. -/
theorem height_ofSorted (slots : List Slot) :
    slots.length < 2 ^ (ofSorted slots).height ∧
      2 ^ (ofSorted slots).height ≤ 2 * slots.length + 1 := by
  induction slots using halves_induction with
  | nil => rw [ofSorted_nil, height]; decide
  | halves left middle right short long left_ih right_ih =>
      have level := level_halves short long left_ih right_ih
      have top : max (ofSorted left).height (ofSorted right).height = (ofSorted left).height := by
        omega
      rw [ofSorted_halves short long, height, top, List.length_append, List.length_cons,
        Nat.pow_succ]
      cases levels : (ofSorted left).height with
      | zero =>
          rw [levels] at left_ih
          omega
      | succ lower =>
          rw [levels, Nat.pow_succ] at left_ih
          rw [Nat.pow_succ]
          omega

theorem height_ofSorted_eq (slots : List Slot) : (ofSorted slots).height = slots.length.size := by
  obtain ⟨above, reached⟩ := height_ofSorted slots
  refine Nat.le_antisymm ?_ (Nat.size_le.mpr above)
  cases levels : (ofSorted slots).height with
  | zero => exact Nat.zero_le _
  | succ lower =>
      rw [levels, Nat.pow_succ] at reached
      exact Nat.lt_size.mpr (by omega)

theorem balanced_ofSorted (slots : List Slot) : (ofSorted slots).Balanced := by
  induction slots using halves_induction with
  | nil =>
      rw [ofSorted_nil]
      trivial
  | halves left middle right short long left_ih right_ih =>
      rw [ofSorted_halves short long]
      refine ⟨?_, left_ih, right_ih⟩
      have halves := level_halves short long (height_ofSorted left) (height_ofSorted right)
      rcases halves with same | higher
      · rw [if_pos same.symm, same, Balance.toInt, Int.sub_self]
      · rw [if_neg (by omega), higher, Balance.toInt]
        omega

/-! ## Building in the slab -/

section Slab

variable {stock : Stock} {left right : List Slot} {middle : Slot}

theorem buildSorted_nil (slab : Slab) : Tree.buildSorted slab [] = .ok (none, 0, slab) := by
  rw [Tree.buildSorted]
  rfl

theorem buildSorted_halves (slab : Slab) (short : right.length ≤ left.length)
    (long : left.length ≤ right.length + 1) :
    Tree.buildSorted slab (left ++ middle :: right) = (do
      let (low, lowHeight, slab) ← Tree.buildSorted slab left
      let (high, highHeight, slab) ← Tree.buildSorted slab right
      let slab ← slab.setChild middle .left low
      let slab ← slab.setChild middle .right high
      let balance ← Checked.ofOption .unbalanced (Balance.ofHeights? lowHeight highHeight)
      let slab ← slab.setBalance middle balance
      return (some middle, max lowHeight highHeight + 1, slab)) := by
  have half := @length_halves left right middle short long
  rw [Tree.buildSorted, dif_pos (by rw [half]; simp)]
  simp only [half, take_halves, drop_halves, List.getElem_append_right (Nat.le_refl _),
    Nat.sub_self, List.getElem_cons_zero]

theorem buildSorted_slab (slots : List Slot) (distinct : slots.Nodup)
    (inside : ∀ slot ∈ slots, slot ∈ stock.slots) (nodes : Slot → Node) :
    Tree.buildSorted (stock.slab nodes) slots =
      .ok ((ofSorted slots).root, (ofSorted slots).height,
        stock.slab ((ofSorted slots).overlay nodes)) := by
  induction slots using halves_induction generalizing nodes with
  | nil =>
      rw [buildSorted_nil, ofSorted_nil]
      rfl
  | halves left middle right short long left_ih right_ih =>
      have distinct_tree : (node middle (if (ofSorted left).height = (ofSorted right).height then
          Balance.even else .leftHeavy) (ofSorted left) (ofSorted right)).slots.Nodup := by
        rwa [Shape.slots, slots_ofSorted, slots_ofSorted]
      obtain ⟨⟨middle_left, middle_right⟩, -, -, apart⟩ :=
        (@nodup_join .left _ _ _ _).mp distinct_tree
      obtain ⟨left_distinct, right_distinct, -⟩ := List.nodup_append.mp distinct
      have middle_mem : middle ∈ stock.slots := inside middle (by simp)
      have left_eq := left_ih left_distinct (fun slot mem => inside slot (by simp [mem])) nodes
      have right_eq := right_ih (List.nodup_cons.mp right_distinct).2
        (fun slot mem => inside slot (by simp [mem])) ((ofSorted left).overlay nodes)
      have balance_eq : Balance.ofHeights? (ofSorted left).height (ofSorted right).height =
          some (if (ofSorted left).height = (ofSorted right).height then .even
            else .leftHeavy) := by
        rcases level_halves short long (height_ofSorted left) (height_ofSorted right) with
          same | higher
        · rw [if_pos same.symm, same, Balance.ofHeights?_self]
        · rw [if_neg (by omega), higher, Balance.ofHeights?_succ]
      rw [buildSorted_halves _ short long, ofSorted_halves short long]
      simp only [left_eq, right_eq, Checked.ok_bind, Stock.setChild_slab middle_mem, balance_eq,
        Checked.ofOption_some, Stock.setBalance_slab middle_mem, Stock.assign_same,
        Stock.assign_assign, Node.withChild, Node.withBalance, Checked.pure_eq_ok, root_node,
        height]
      refine congrArg (fun after => Except.ok (_, _, stock.slab after))
        (Stored.eq_overlay ⟨Stock.assign_same .., ?_, ?_⟩ distinct_tree fun other outside => ?_)
      · refine (stored_overlay (by rwa [slots_ofSorted]) nodes).congr fun other mem => ?_
        have other_ne : other ≠ middle := fun same => middle_left (same ▸ mem)
        rw [Stock.assign_other other_ne, overlay_of_notMem (apart other mem)]
      · have right_nodup : (ofSorted right).slots.Nodup := by
          rw [slots_ofSorted]
          exact (List.nodup_cons.mp right_distinct).2
        exact (stored_overlay right_nodup _).congr fun other mem =>
          Stock.assign_other fun same => middle_right (same ▸ mem)
      · rw [Shape.slots, List.mem_append, List.mem_cons, not_or, not_or] at outside
        rw [Stock.assign_other outside.2.1, overlay_of_notMem outside.2.2,
          overlay_of_notMem outside.1]

theorem ofSorted_slab (slots : List Slot) (distinct : slots.Nodup)
    (inside : ∀ slot ∈ slots, slot ∈ stock.slots) (nodes : Slot → Node) :
    Tree.ofSorted (stock.slab nodes) slots =
      .ok (⟨(ofSorted slots).root⟩, stock.slab ((ofSorted slots).overlay nodes)) := by
  rw [Tree.ofSorted, buildSorted_slab slots distinct inside]
  rfl

end Slab

end Shape
end PackedMap
