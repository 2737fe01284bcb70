import PackedMap.Proofs.Slab.Stock
import PackedMap.Tree.Shape
import Mathlib.Tactic.Tauto

/-!
# Trees as values

The slots of a tree in order, its height, and what it means that its stored balances are exact.  A
node can be looked at from either side, so that what is said of one side is said of both.
-/

namespace PackedMap

/-- What stands on a side, of two things on the left and on the right. -/
def Side.pick {α : Type} (side : Side) (left right : α) : α :=
  match side with
  | .left => left
  | .right => right

/-- The balance of a node over sides of the given heights, told from one side, is the given one. -/
def Balance.Between (balance : Balance) (side : Side) (near far : Nat) : Prop :=
  (balance = side.heavy ∧ near = far + 1) ∨ (balance = .even ∧ near = far) ∨
    (balance = side.flip.heavy ∧ far = near + 1)

namespace Balance

variable {side : Side} {near far : Nat}

theorem cases_side (balance : Balance) (side : Side) :
    balance = side.heavy ∨ balance = .even ∨ balance = side.flip.heavy := by
  cases side <;> cases balance <;> simp [Side.heavy, Side.flip]

@[simp]
theorem heavy_ne_even (side : Side) : side.heavy ≠ .even := by
  cases side <;> simp [Side.heavy]

@[simp]
theorem heavy_ne_flip (side : Side) : side.heavy ≠ side.flip.heavy := by
  cases side <;> simp [Side.heavy, Side.flip]

@[simp]
theorem flip_ne_heavy (side : Side) : side.flip.heavy ≠ side.heavy := (heavy_ne_flip side).symm

@[simp]
theorem even_between : Balance.even.Between side near far ↔ near = far := by
  cases side <;> simp [Between, Side.heavy, Side.flip]

@[simp]
theorem heavy_between : side.heavy.Between side near far ↔ near = far + 1 := by
  simp [Between]

@[simp]
theorem flip_heavy_between : side.flip.heavy.Between side near far ↔ far = near + 1 := by
  simp [Between]

end Balance

namespace Shape

/-- The topmost entry. -/
def root : Shape → Link
  | nil => none
  | node slot _ _ _ => some slot

/-- The slots of all nodes, in order. -/
def slots : Shape → List Slot
  | nil => []
  | node slot _ left right => left.slots ++ slot :: right.slots

/-- Number of nodes on a longest path. -/
def height : Shape → Nat
  | nil => 0
  | node _ _ left right => max left.height right.height + 1

/-- Every stored balance is the height of the right side less that of the left side. -/
def Balanced : Shape → Prop
  | nil => True
  | node _ balance left right =>
      balance.toInt = (right.height : Int) - left.height ∧ left.Balanced ∧ right.Balanced

/-- The root leans to one of its sides. -/
def Leaning : Shape → Prop
  | nil => False
  | node _ balance _ _ => balance ≠ .even

instance : DecidablePred Leaning
  | nil => .isFalse id
  | node _ balance _ _ => inferInstanceAs (Decidable (balance ≠ .even))

@[simp]
theorem root_node (slot : Slot) (balance : Balance) (left right : Shape) :
    (node slot balance left right).root = some slot := rfl

/-- A node with its sides named as seen from one of them. -/
def join (side : Side) (slot : Slot) (balance : Balance) (near far : Shape) : Shape :=
  node slot balance (side.pick near far) (side.pick far near)

theorem join_flip (side : Side) (slot : Slot) (balance : Balance) (near far : Shape) :
    join side.flip slot balance near far = join side slot balance far near := by
  cases side <;> rfl

theorem node_eq_join (side : Side) (slot : Slot) (balance : Balance) (left right : Shape) :
    node slot balance left right =
      join side slot balance (side.pick left right) (side.pick right left) := by
  cases side <;> rfl

theorem exists_join {shape : Shape} (side : Side) (some_height : 0 < shape.height) :
    ∃ slot balance near far, shape = join side slot balance near far := by
  cases shape with
  | nil => simp [height] at some_height
  | node slot balance left right => exact ⟨slot, balance, _, _, node_eq_join side ..⟩

/-- Induction over both sides of a node at once. -/
theorem induction {motive : Shape → Prop} (nil : motive nil)
    (node : ∀ slot balance left right, (∀ side : Side, motive (side.pick left right)) →
      motive (node slot balance left right))
    (shape : Shape) : motive shape := by
  induction shape with
  | nil => exact nil
  | node slot balance left right left_ih right_ih =>
      refine node slot balance left right fun side => ?_
      cases side with
      | left => exact left_ih
      | right => exact right_ih

section Join

variable {side : Side} {slot other : Slot} {balance : Balance} {near far : Shape}

@[simp]
theorem root_join : (join side slot balance near far).root = some slot := rfl

@[simp]
theorem mem_slots_join :
    other ∈ (join side slot balance near far).slots ↔
      other = slot ∨ other ∈ near.slots ∨ other ∈ far.slots := by
  cases side <;> simp only [join, Side.pick, slots, List.mem_append, List.mem_cons] <;> tauto

theorem nodup_join :
    (join side slot balance near far).slots.Nodup ↔
      (slot ∉ near.slots ∧ slot ∉ far.slots) ∧ near.slots.Nodup ∧ far.slots.Nodup ∧
        ∀ other ∈ near.slots, other ∉ far.slots := by
  cases side <;>
    simp only [join, Side.pick, slots, List.nodup_cons, List.nodup_append] <;>
    grind

/-- One more entry on one side of a node leaves its slots distinct. -/
theorem nodup_join_cons {near' : Shape} {new : Slot}
    (distinct : (join side slot balance near far).slots.Nodup)
    (perm : near'.slots.Perm (new :: near.slots)) (fresh : new ∉ near.slots) (slot_ne : new ≠ slot)
    (far_ne : new ∉ far.slots) : (join side slot balance near' far).slots.Nodup := by
  obtain ⟨⟨slot_near, slot_far⟩, near_nodup, far_nodup, apart⟩ := nodup_join.mp distinct
  refine nodup_join.mpr ⟨⟨?_, slot_far⟩, ?_, far_nodup, fun other mem => ?_⟩
  · rw [perm.mem_iff, List.mem_cons, not_or]
    exact ⟨slot_ne.symm, slot_near⟩
  · rw [perm.nodup_iff, List.nodup_cons]
    exact ⟨fresh, near_nodup⟩
  · rcases List.mem_cons.mp (perm.mem_iff.mp mem) with rfl | before
    · exact far_ne
    · exact apart other before

/-- Fewer entries on one side of a node leave its slots distinct. -/
theorem nodup_join_sublist {near' : Shape}
    (distinct : (join side slot balance near far).slots.Nodup)
    (fewer : near'.slots.Sublist near.slots) : (join side slot balance near' far).slots.Nodup := by
  obtain ⟨⟨slot_near, slot_far⟩, near_nodup, far_nodup, apart⟩ := nodup_join.mp distinct
  exact nodup_join.mpr ⟨⟨fun mem => slot_near (fewer.subset mem), slot_far⟩,
    near_nodup.sublist fewer, far_nodup, fun other mem => apart other (fewer.subset mem)⟩

@[simp]
theorem height_join :
    (join side slot balance near far).height = max near.height far.height + 1 := by
  cases side
  · rfl
  · exact congrArg (· + 1) (Nat.max_comm ..)

theorem balanced_join :
    (join side slot balance near far).Balanced ↔
      balance.Between side near.height far.height ∧ near.Balanced ∧ far.Balanced := by
  have between : balance.toInt = ((side.pick far near).height : Int) - (side.pick near far).height ↔
      balance.Between side near.height far.height := by
    cases side <;> cases balance <;>
      simp [Side.pick, Balance.Between, Balance.toInt, Side.heavy, Side.flip] <;>
      omega
  cases side <;> simp only [join, Side.pick, Balanced] at between ⊢ <;> tauto

@[simp]
theorem leaning_join : (join side slot balance near far).Leaning ↔ balance ≠ .even := Iff.rfl

/-- The order of the slots does not show which balance is stored. -/
theorem slots_join_congr {near' far' : Shape} {balance' : Balance}
    (near_eq : near'.slots = near.slots)
    (far_eq : far'.slots = far.slots) :
    (join side slot balance' near' far').slots = (join side slot balance near far).slots := by
  cases side <;> simp only [join, Side.pick, slots, near_eq, far_eq]

end Join

@[simp]
theorem mem_slots_of_root {shape : Shape} {slot : Slot} (top : shape.root = some slot) :
    slot ∈ shape.slots := by
  cases shape with
  | nil => simp [root] at top
  | node => simp_all [root, slots]

theorem height_le_length (shape : Shape) : shape.height ≤ shape.slots.length := by
  induction shape with
  | nil => exact Nat.le_refl _
  | node slot balance left right left_ih right_ih =>
      simp only [height, slots, List.length_append, List.length_cons]
      omega

/-! ## Nodes of a tree -/

/-- Each node of the tree is the one given for its slot. -/
def Stored (given : Slot → Node) : Shape → Prop
  | nil => True
  | node slot balance left right =>
      given slot = ⟨left.root, right.root, balance⟩ ∧ left.Stored given ∧ right.Stored given

/-- Some given nodes with those of a tree laid over them. -/
def overlay : Shape → (Slot → Node) → Slot → Node
  | nil, given => given
  | node slot balance left right, given =>
      Stock.assign (left.overlay (right.overlay given)) slot ⟨left.root, right.root, balance⟩

/-- The node of each slot, and a detached one for slots outside the tree. -/
def nodes (shape : Shape) : Slot → Node := shape.overlay fun _ => .detached

section Nodes

variable {given given' : Slot → Node} {shape : Shape}

theorem Stored.congr (stored : shape.Stored given)
    (agree : ∀ slot ∈ shape.slots, given' slot = given slot) : shape.Stored given' := by
  induction shape with
  | nil => trivial
  | node slot balance left right left_ih right_ih =>
      obtain ⟨here, left_stored, right_stored⟩ := stored
      simp only [slots, List.mem_append, List.mem_cons] at agree
      exact ⟨(agree slot (.inr (.inl rfl))).trans here,
        left_ih left_stored fun other mem => agree other (.inl mem),
        right_ih right_stored fun other mem => agree other (.inr (.inr mem))⟩

theorem Stored.agree (stored : shape.Stored given) (stored' : shape.Stored given') :
    ∀ slot ∈ shape.slots, given slot = given' slot := by
  induction shape with
  | nil => simp [slots]
  | node slot balance left right left_ih right_ih =>
      intro other mem
      rcases List.mem_append.mp mem with before | after
      · exact left_ih stored.2.1 stored'.2.1 other before
      rcases List.mem_cons.mp after with rfl | after
      · exact stored.1.trans stored'.1.symm
      · exact right_ih stored.2.2 stored'.2.2 other after

theorem stored_join {side : Side} {slot : Slot} {balance : Balance} {near far : Shape} :
    (join side slot balance near far).Stored given ↔
      given slot = .sides side near.root far.root balance ∧ near.Stored given ∧
        far.Stored given := by
  cases side
  · rfl
  · simp only [join, Side.pick, Stored, Node.sides]
    tauto

theorem overlay_of_notMem {slot : Slot} (outside : slot ∉ shape.slots) :
    shape.overlay given slot = given slot := by
  induction shape generalizing given with
  | nil => rfl
  | node here balance left right left_ih right_ih =>
      simp only [slots, List.mem_append, List.mem_cons, not_or] at outside
      rw [overlay, Stock.assign_other outside.2.1, left_ih outside.1, right_ih outside.2.2]

theorem stored_overlay (distinct : shape.slots.Nodup) (given : Slot → Node) :
    shape.Stored (shape.overlay given) := by
  induction shape generalizing given with
  | nil => trivial
  | node slot balance left right left_ih right_ih =>
      obtain ⟨⟨left_ne, right_ne⟩, left_nodup, right_nodup, apart⟩ :=
        (@nodup_join .left slot balance left right).mp distinct
      refine ⟨Stock.assign_same ..,
        (left_ih left_nodup (right.overlay given)).congr fun other mem => ?_,
        (right_ih right_nodup given).congr fun other mem => ?_⟩
      · exact Stock.assign_other fun same => left_ne (same ▸ mem)
      · have other_ne : other ≠ slot := fun same => right_ne (same ▸ mem)
        rw [overlay, Stock.assign_other other_ne,
          overlay_of_notMem fun first => apart other first mem]

/-- What is stored for a tree and unchanged elsewhere is the tree laid over what was there. -/
theorem Stored.eq_overlay (stored : shape.Stored given') (distinct : shape.slots.Nodup)
    (outside : ∀ slot, slot ∉ shape.slots → given' slot = given slot) :
    given' = shape.overlay given := by
  funext slot
  by_cases mem : slot ∈ shape.slots
  · exact stored.agree (stored_overlay distinct given) slot mem
  · rw [outside slot mem, overlay_of_notMem mem]

theorem Stored.overlay_eq (stored : shape.Stored given) (distinct : shape.slots.Nodup) :
    shape.overlay given = given := (stored.eq_overlay distinct fun _ _ => rfl).symm

/-- A tree hides what was laid over the same slots before. -/
theorem overlay_overlay {before : Shape} (distinct : shape.slots.Nodup)
    (covered : ∀ slot ∈ before.slots, slot ∈ shape.slots) :
    shape.overlay (before.overlay given) = shape.overlay given :=
  (stored_overlay distinct _).eq_overlay distinct fun slot outside => by
    rw [overlay_of_notMem outside, overlay_of_notMem fun mem => outside (covered slot mem)]

theorem nodes_of_notMem {slot : Slot} (outside : slot ∉ shape.slots) :
    shape.nodes slot = .detached := overlay_of_notMem outside

end Nodes

end Shape
end PackedMap
