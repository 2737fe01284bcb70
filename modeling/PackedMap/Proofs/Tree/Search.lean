import PackedMap.Proofs.Sweep
import PackedMap.Proofs.Tree.Held
import PackedMap.Tree.Search
import PackedMap.Tree.Shape

/-!
# Search in a tree

Searches as functions of trees, and their agreement with the searches in the slab.  Where the
comparator sweeps the tree, a search for one match finds one if there is any, a search for
neighbours finds the outermost matches and the entries next to them, and a search for a range finds
all matches.
-/

namespace PackedMap
namespace Shape

/-- The match that a search from the root meets first. -/
def find (place : Slot → Ordering) : Shape → Option Slot
  | nil => none
  | node slot _ left right =>
      match place slot with
      | .lt => left.find place
      | .eq => some slot
      | .gt => right.find place

/-- The border of the matches on one side, followed down a tree. -/
def follow (place : Slot → Ordering) (side : Side) : Shape → Border → Border
  | nil, border => border
  | node slot _ left right, border =>
      if place slot = .eq then
        side.pick (left.follow place side) (right.follow place side) { border with inside := slot }
      else
        side.pick (right.follow place side) (left.follow place side)
          { border with outside := some slot }

/-- The first match met and the neighbours of the probe, where `previous` and `next` stand next to
the tree. -/
def locate (place : Slot → Ordering) :
    Shape → Option Slot → Option Slot → Option Slot × Neighbors
  | nil, previous, next => (none, ⟨previous, next, none, none⟩)
  | node slot _ left right, previous, next =>
      match place slot with
      | .lt => left.locate place previous (some slot)
      | .gt => right.locate place (some slot) next
      | .eq =>
          let low := left.follow place .left ⟨slot, previous⟩
          let high := right.follow place .right ⟨slot, next⟩
          (some slot, ⟨low.outside, high.outside, some low.inside, some high.inside⟩)

/-- The matches that a search of the whole range meets. -/
def select (place : Slot → Ordering) : Shape → List Slot
  | nil => []
  | node slot _ left right =>
      match place slot with
      | .lt => left.select place
      | .gt => right.select place
      | .eq => left.select place ++ slot :: right.select place

section Search

variable {place : Slot → Ordering} {slot : Slot} {shape : Shape}

theorem find_mem (found : shape.find place = some slot) : slot ∈ matching place shape.slots := by
  induction shape with
  | nil => cases found
  | node here balance left right left_ih right_ih =>
      rw [find] at found
      rw [mem_matching, slots, List.mem_append, List.mem_cons]
      cases answer : place here with
      | lt =>
          rw [answer] at found
          have mem := mem_matching.mp (left_ih found)
          exact ⟨.inl mem.1, mem.2⟩
      | eq =>
          rw [answer] at found
          obtain rfl := Option.some.inj found
          exact ⟨.inr (.inl rfl), answer⟩
      | gt =>
          rw [answer] at found
          have mem := mem_matching.mp (right_ih found)
          exact ⟨.inr (.inr mem.1), mem.2⟩

theorem find_eq_none (sweeps : Sweeps place shape.slots) (missed : shape.find place = none) :
    matching place shape.slots = [] := by
  induction shape with
  | nil => rfl
  | node here balance left right left_ih right_ih =>
      rw [find] at missed
      cases answer : place here with
      | lt =>
          rw [answer] at missed
          rw [slots, (sweeps.split_lt answer).2.1, left_ih sweeps.parts.1 missed]
      | eq =>
          rw [answer] at missed
          cases missed
      | gt =>
          rw [answer] at missed
          rw [slots, (sweeps.split_gt answer).2.1, right_ih sweeps.parts.2 missed]

/-- On the low side of a match the border runs between the last entry before the matches and the
first match. -/
theorem follow_left (sweeps : Sweeps place shape.slots) (above_eq : above place shape.slots = [])
    (border : Border) :
    shape.follow place .left border =
      ⟨(matching place shape.slots).headD border.inside,
        (below place shape.slots).getLast?.or border.outside⟩ := by
  induction shape generalizing border with
  | nil => rfl
  | node here balance left right left_ih right_ih =>
      cases answer : place here with
      | lt =>
          rw [slots, (sweeps.split_lt answer).2.2] at above_eq
          simp at above_eq
      | eq =>
          obtain ⟨below_eq, matching_eq, -⟩ := sweeps.split_eq answer
          have left_above := sweeps.above_front (by simp [answer])
          rw [follow, if_pos answer, Side.pick, left_ih sweeps.parts.1 left_above, slots, below_eq,
            matching_eq]
          simp [List.headD_eq_head?_getD]
      | gt =>
          obtain ⟨below_eq, matching_eq, above_whole⟩ := sweeps.split_gt answer
          have right_above : above place right.slots = [] := above_whole.symm.trans above_eq
          rw [follow, if_neg (by simp [answer]), Side.pick, right_ih sweeps.parts.2 right_above,
            slots, below_eq, matching_eq]
          simp [List.getLast?_cons]

/-- On the high side of a match the border runs between the last match and the first entry after the
matches. -/
theorem follow_right (sweeps : Sweeps place shape.slots) (below_nil : below place shape.slots = [])
    (border : Border) :
    shape.follow place .right border =
      ⟨(matching place shape.slots).getLast?.getD border.inside,
        (above place shape.slots).head?.or border.outside⟩ := by
  induction shape generalizing border with
  | nil => rfl
  | node here balance left right left_ih right_ih =>
      cases answer : place here with
      | lt =>
          obtain ⟨below_eq, matching_eq, above_eq⟩ := sweeps.split_lt answer
          have left_below : below place left.slots = [] := below_eq.symm.trans below_nil
          rw [follow, if_neg (by simp [answer]), Side.pick, left_ih sweeps.parts.1 left_below,
            slots, above_eq, matching_eq]
          simp
      | eq =>
          obtain ⟨-, matching_eq, above_eq⟩ := sweeps.split_eq answer
          have right_below := sweeps.below_back (by simp [answer])
          rw [follow, if_pos answer, Side.pick, right_ih sweeps.parts.2 right_below, slots,
            matching_eq, above_eq]
          simp [List.getLast?_cons]
      | gt =>
          rw [slots, (sweeps.split_gt answer).1] at below_nil
          simp at below_nil

/-- A search for neighbours finds the match that a plain search finds, the outermost matches and the
entries next to them. -/
theorem locate_eq (sweeps : Sweeps place shape.slots) (previous next : Option Slot) :
    shape.locate place previous next =
      (shape.find place, ⟨(below place shape.slots).getLast?.or previous,
        (above place shape.slots).head?.or next, (matching place shape.slots).head?,
        (matching place shape.slots).getLast?⟩) := by
  induction shape generalizing previous next with
  | nil => rfl
  | node here balance left right left_ih right_ih =>
      rw [locate, find, slots]
      cases answer : place here with
      | lt =>
          obtain ⟨below_eq, matching_eq, above_eq⟩ := sweeps.split_lt answer
          simp [left_ih sweeps.parts.1, below_eq, matching_eq, above_eq]
      | eq =>
          obtain ⟨below_eq, matching_eq, above_eq⟩ := sweeps.split_eq answer
          have left_above := sweeps.above_front (by simp [answer])
          have right_below := sweeps.below_back (by simp [answer])
          simp [follow_left sweeps.parts.1 left_above, follow_right sweeps.parts.2 right_below,
            below_eq, matching_eq, above_eq, List.getLast?_cons, List.headD_eq_head?_getD]
      | gt =>
          obtain ⟨below_eq, matching_eq, above_eq⟩ := sweeps.split_gt answer
          simp [right_ih sweeps.parts.2, below_eq, matching_eq, above_eq, List.getLast?_cons]

theorem select_eq (sweeps : Sweeps place shape.slots) :
    shape.select place = matching place shape.slots := by
  induction shape with
  | nil => rfl
  | node here balance left right left_ih right_ih =>
      have left_eq := left_ih sweeps.parts.1
      have right_eq := right_ih sweeps.parts.2
      rw [select, slots]
      cases answer : place here with
      | lt => rw [(sweeps.split_lt answer).2.1, left_eq]
      | eq => rw [(sweeps.split_eq answer).2.1, left_eq, right_eq]
      | gt => rw [(sweeps.split_gt answer).2.1, right_eq]

/-- Under a comparator that matches everything the whole tree is found. -/
theorem select_all (shape : Shape) : shape.select (fun _ => .eq) = shape.slots := by
  induction shape with
  | nil => rfl
  | node here balance left right left_ih right_ih =>
      simp only [select, slots, left_ih, right_ih]

/-! ### Comparators that contradict the order -/

/-- Whatever a comparator answers, a search of the whole range meets matches only, in order. -/
theorem select_sublist (place : Slot → Ordering) (shape : Shape) :
    (shape.select place).Sublist (matching place shape.slots) := by
  induction shape with
  | nil => exact .slnil
  | node here balance left right left_ih right_ih =>
      have split : matching place (node here balance left right).slots =
          matching place left.slots ++ matching place (here :: right.slots) :=
        List.filter_append ..
      rw [select, split]
      cases answer : place here with
      | lt => exact left_ih.trans (List.sublist_append_left ..)
      | eq =>
          have behind : matching place (here :: right.slots) =
              here :: matching place right.slots := by
            simp [matching, answer]
          rw [behind]
          exact left_ih.append (right_ih.cons_cons here)
      | gt =>
          have behind : matching place (here :: right.slots) = matching place right.slots := by
            simp [matching, answer]
          rw [behind]
          exact right_ih.trans (List.sublist_append_right ..)

/-- A search of the whole range passes the match that a plain search stops at. -/
theorem find_mem_select (found : shape.find place = some slot) : slot ∈ shape.select place := by
  induction shape with
  | nil => cases found
  | node here balance left right left_ih right_ih =>
      rw [find] at found
      rw [select]
      cases answer : place here with
      | lt =>
          rw [answer] at found
          exact left_ih found
      | eq =>
          rw [answer] at found
          obtain rfl := Option.some.inj found
          exact List.mem_append_right _ List.mem_cons_self
      | gt =>
          rw [answer] at found
          exact right_ih found

/-- Where a plain search ends without a match, a search of the whole range meets none. -/
theorem select_eq_nil (missed : shape.find place = none) : shape.select place = [] := by
  induction shape with
  | nil => rfl
  | node here balance left right left_ih right_ih =>
      rw [find] at missed
      rw [select]
      cases answer : place here with
      | lt =>
          rw [answer] at missed
          exact left_ih missed
      | eq =>
          rw [answer] at missed
          cases missed
      | gt =>
          rw [answer] at missed
          exact right_ih missed

/-- A search for neighbours takes the way of a plain search to the first match that it meets. -/
theorem locate_fst (place : Slot → Ordering) (shape : Shape) (previous next : Option Slot) :
    (shape.locate place previous next).1 = shape.find place := by
  induction shape generalizing previous next with
  | nil => rfl
  | node here balance left right left_ih right_ih =>
      rw [locate, find]
      cases place here with
      | lt => exact left_ih previous (some here)
      | eq => rfl
      | gt => exact right_ih (some here) next

/-- The inner end of a border is a match, or the one that it started with. -/
theorem follow_inside (place : Slot → Ordering) (side : Side) (shape : Shape) (border : Border) :
    (shape.follow place side border).inside = border.inside ∨
      (shape.follow place side border).inside ∈ matching place shape.slots := by
  induction shape using Shape.induction generalizing border with
  | nil => exact .inl rfl
  | node here balance left right ih =>
      have below (near : Side) {other : Slot}
          (mem : other ∈ matching place (near.pick left right).slots) :
          other ∈ matching place (node here balance left right).slots := by
        obtain ⟨other_mem, equal⟩ := mem_matching.mp mem
        rw [node_eq_join near, mem_matching, mem_slots_join]
        exact ⟨.inr (.inl other_mem), equal⟩
      rw [follow]
      split_ifs with answer
      · have top : here ∈ matching place (node here balance left right).slots :=
          mem_matching.mpr ⟨by simp [slots], answer⟩
        have inner := ih side { border with inside := here }
        cases side with
        | left => exact .inr (inner.elim (fun same => same ▸ top) (below .left))
        | right => exact .inr (inner.elim (fun same => same ▸ top) (below .right))
      · have inner := ih side.flip { border with outside := some here }
        cases side with
        | left => exact inner.imp_right (below .right)
        | right => exact inner.imp_right (below .left)

/-- A search for neighbours meets a first match exactly if it meets a match, and then it is one. -/
theorem locate_first (place : Slot → Ordering) (shape : Shape) (previous next : Option Slot) :
    (shape.locate place previous next).1.isSome =
        (shape.locate place previous next).2.first.isSome ∧
      ∀ slot ∈ (shape.locate place previous next).2.first, slot ∈ matching place shape.slots := by
  induction shape generalizing previous next with
  | nil => simp [locate]
  | node here balance left right left_ih right_ih =>
      have left_mem : ∀ slot ∈ matching place left.slots,
          slot ∈ matching place (node here balance left right).slots :=
        fun slot mem => (List.sublist_append_left ..).filter _ |>.subset mem
      rw [locate]
      cases answer : place here with
      | lt =>
          obtain ⟨found, first⟩ := left_ih previous (some here)
          exact ⟨found, fun slot mem => left_mem slot (first slot mem)⟩
      | eq =>
          refine ⟨rfl, fun slot mem => ?_⟩
          obtain rfl := Option.mem_some_iff.mp mem
          rcases follow_inside place .left left ⟨here, previous⟩ with same | mem
          · rw [same, mem_matching]
            exact ⟨by simp [slots], answer⟩
          · exact left_mem _ mem
      | gt =>
          obtain ⟨found, first⟩ := right_ih (some here) next
          refine ⟨found, fun slot mem => ?_⟩
          obtain ⟨slot_mem, equal⟩ := mem_matching.mp (first slot mem)
          exact mem_matching.mpr ⟨by simp [slots, slot_mem], equal⟩

end Search

/-! ## Search in the slab -/

section Slab

variable {stock : Stock} {nodes : Slot → Node} {shape : Shape}

section Read

variable {slot : Slot} {balance : Balance} {left right : Shape}

theorem read_node (held : Held stock nodes (node slot balance left right)) :
    (stock.slab nodes).pair slot = .ok (stock.pairAt slot) ∧
      (stock.slab nodes).balance slot = .ok balance := by
  rw [node_eq_join .left] at held
  exact ⟨held.pair_eq, held.balance_eq⟩

theorem read_side (held : Held stock nodes (node slot balance left right)) (side : Side) :
    (stock.slab nodes).child slot side = .ok (side.pick left right).root ∧
      Held stock nodes (side.pick left right) := by
  rw [node_eq_join side] at held
  exact ⟨held.child_near, held.held_near⟩

theorem read_left (held : Held stock nodes (node slot balance left right)) :
    (stock.slab nodes).child slot .left = .ok left.root ∧ Held stock nodes left :=
  read_side held .left

theorem read_right (held : Held stock nodes (node slot balance left right)) :
    (stock.slab nodes).child slot .right = .ok right.root ∧ Held stock nodes right :=
  read_side held .right

end Read

theorem findBelow_slab (probe : Pair) (order : Comparator) (held : Held stock nodes shape)
    {fuel : Nat} (enough : shape.height < fuel) :
    Tree.findBelow (stock.slab nodes) probe order fuel shape.root =
      .ok (shape.find fun slot => order probe (stock.pairAt slot)) := by
  induction shape generalizing fuel with
  | nil =>
      obtain ⟨fuel, rfl⟩ := Nat.exists_eq_add_of_lt enough
      rfl
  | node slot balance left right left_ih right_ih =>
      obtain ⟨fuel, rfl⟩ : ∃ rest, fuel = rest + 1 := ⟨fuel - 1, by omega⟩
      obtain ⟨left_link, left_held⟩ := read_left held
      obtain ⟨right_link, right_held⟩ := read_right held
      rw [height] at enough
      have left_eq := left_ih left_held (by omega : left.height < fuel)
      have right_eq := right_ih right_held (by omega : right.height < fuel)
      rw [root_node, Tree.findBelow, find, (read_node held).1, Checked.ok_bind]
      cases answer : order probe (stock.pairAt slot) with
      | lt => simp only [Side.ofOrdering?, left_link, Checked.ok_bind, left_eq]
      | eq => rfl
      | gt => simp only [Side.ofOrdering?, right_link, Checked.ok_bind, right_eq]

theorem followBorder_slab (probe : Pair) (order : Comparator) (side : Side)
    (held : Held stock nodes shape) (border : Border) {fuel : Nat} (enough : shape.height < fuel) :
    Tree.followBorder (stock.slab nodes) probe order side fuel border shape.root =
      .ok (shape.follow (fun slot => order probe (stock.pairAt slot)) side border) := by
  induction shape using Shape.induction generalizing border fuel with
  | nil =>
      obtain ⟨fuel, rfl⟩ := Nat.exists_eq_add_of_lt enough
      rfl
  | node slot balance left right ih =>
      obtain ⟨fuel, rfl⟩ : ∃ rest, fuel = rest + 1 := ⟨fuel - 1, by omega⟩
      have sides := read_side held
      have low (side : Side) : (side.pick left right).height < fuel := by
        rw [height] at enough
        cases side <;> simp only [Side.pick] <;> omega
      have below (side : Side) (border : Border) := ih side (sides side).2 border (low side)
      rw [root_node, Tree.followBorder, follow, (read_node held).1, Checked.ok_bind]
      by_cases answer : order probe (stock.pairAt slot) = .eq
      · simp only [answer, if_true, (sides side).1, Checked.ok_bind, below]
        cases side <;> rfl
      · simp only [answer, if_false, (sides side.flip).1, Checked.ok_bind, below]
        cases side <;> rfl

theorem locateBelow_slab (probe : Pair) (order : Comparator) (held : Held stock nodes shape)
    (previous next : Option Slot) {fuel : Nat} (enough : shape.height < fuel) :
    Tree.locateBelow (stock.slab nodes) probe order fuel previous next shape.root =
      .ok (shape.locate (fun slot => order probe (stock.pairAt slot)) previous next) := by
  induction shape generalizing previous next fuel with
  | nil =>
      obtain ⟨fuel, rfl⟩ := Nat.exists_eq_add_of_lt enough
      rfl
  | node slot balance left right left_ih right_ih =>
      obtain ⟨fuel, rfl⟩ : ∃ rest, fuel = rest + 1 := ⟨fuel - 1, by omega⟩
      obtain ⟨left_link, left_held⟩ := read_left held
      obtain ⟨right_link, right_held⟩ := read_right held
      rw [height] at enough
      have left_low : left.height < fuel := by omega
      have right_low : right.height < fuel := by omega
      rw [root_node, Tree.locateBelow, locate, (read_node held).1, Checked.ok_bind]
      cases answer : order probe (stock.pairAt slot) with
      | lt => simp only [left_link, Checked.ok_bind, left_ih left_held _ _ left_low]
      | eq =>
          simp only [left_link, right_link, Checked.ok_bind, Checked.pure_eq_ok,
            followBorder_slab probe order .left left_held _ left_low,
            followBorder_slab probe order .right right_held _ right_low]
      | gt => simp only [right_link, Checked.ok_bind, right_ih right_held _ _ right_low]

theorem selectBelow_slab (place : Pair → Ordering) (held : Held stock nodes shape) {fuel : Nat}
    (enough : shape.height < fuel) :
    Tree.selectBelow (stock.slab nodes) place fuel shape.root =
      .ok (shape.select fun slot => place (stock.pairAt slot)) := by
  induction shape generalizing fuel with
  | nil =>
      obtain ⟨fuel, rfl⟩ := Nat.exists_eq_add_of_lt enough
      rfl
  | node slot balance left right left_ih right_ih =>
      obtain ⟨fuel, rfl⟩ : ∃ rest, fuel = rest + 1 := ⟨fuel - 1, by omega⟩
      obtain ⟨left_link, left_held⟩ := read_left held
      obtain ⟨right_link, right_held⟩ := read_right held
      rw [height] at enough
      have left_eq := left_ih left_held (by omega : left.height < fuel)
      have right_eq := right_ih right_held (by omega : right.height < fuel)
      rw [root_node, Tree.selectBelow, select, (read_node held).1, Checked.ok_bind]
      cases answer : place (stock.pairAt slot) with
      | lt => simp only [left_link, Checked.ok_bind, left_eq]
      | eq =>
          simp only [left_link, right_link, Checked.ok_bind, left_eq, right_eq, Checked.pure_eq_ok]
      | gt => simp only [right_link, Checked.ok_bind, right_eq]

theorem shapeBelow_slab (held : Held stock nodes shape) {fuel : Nat}
    (enough : shape.height < fuel) :
    Tree.shapeBelow (stock.slab nodes) fuel shape.root = .ok shape := by
  induction shape generalizing fuel with
  | nil =>
      obtain ⟨fuel, rfl⟩ := Nat.exists_eq_add_of_lt enough
      rfl
  | node slot balance left right left_ih right_ih =>
      obtain ⟨fuel, rfl⟩ : ∃ rest, fuel = rest + 1 := ⟨fuel - 1, by omega⟩
      obtain ⟨left_link, left_held⟩ := read_left held
      obtain ⟨right_link, right_held⟩ := read_right held
      rw [height] at enough
      have left_eq := left_ih left_held (by omega : left.height < fuel)
      have right_eq := right_ih right_held (by omega : right.height < fuel)
      simp only [root_node, Tree.shapeBelow, (read_node held).2, left_link, right_link,
        Checked.ok_bind, left_eq, right_eq, Checked.pure_eq_ok]

theorem find_slab (probe : Pair) (order : Comparator) (held : Held stock nodes shape) :
    Tree.find ⟨shape.root⟩ (stock.slab nodes) probe order =
      .ok (shape.find fun slot => order probe (stock.pairAt slot)) :=
  findBelow_slab probe order held held.height_lt

theorem locate_slab (probe : Pair) (order : Comparator) (held : Held stock nodes shape) :
    Tree.locate ⟨shape.root⟩ (stock.slab nodes) probe order =
      .ok (shape.locate (fun slot => order probe (stock.pairAt slot)) none none) :=
  locateBelow_slab probe order held none none held.height_lt

theorem range_slab (probe : Pair) (order : Comparator) (held : Held stock nodes shape) :
    Tree.range ⟨shape.root⟩ (stock.slab nodes) probe order =
      .ok (shape.select fun slot => order probe (stock.pairAt slot)) :=
  selectBelow_slab (order probe) held held.height_lt

theorem inOrder_slab (held : Held stock nodes shape) :
    Tree.inOrder ⟨shape.root⟩ (stock.slab nodes) = .ok shape.slots := by
  rw [Tree.inOrder, selectBelow_slab _ held held.height_lt, select_all]

theorem shape_slab (held : Held stock nodes shape) :
    Tree.shape ⟨shape.root⟩ (stock.slab nodes) = .ok shape :=
  shapeBelow_slab held held.height_lt

end Slab

end Shape
end PackedMap
