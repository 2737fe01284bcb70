import PackedMap.Proofs.Tree.Shape

/-!
# Rotations as values

A node whose near side is two levels higher than its far side is turned: a node of the near side
comes to the top.  A turn keeps the order of the slots and makes every balance exact again.  After
an insertion or a removal on one side, a node is raised or lowered, which turns it where it has to
be.
-/

namespace PackedMap
namespace Shape

/-- The node over a near side that is two levels too high, turned. -/
def turn (side : Side) (slot : Slot) (near far : Shape) : Shape :=
  match near with
  | nil => nil
  | node child lean left right =>
      let outer := side.pick left right
      let inner := side.pick right left
      if lean = side.flip.heavy then
        match inner with
        | nil => nil
        | node grandchild balance left right =>
            join side grandchild .even
              (join side child (if balance = side.flip.heavy then side.heavy else .even) outer
                (side.pick left right))
              (join side slot (if balance = side.heavy then side.flip.heavy else .even)
                (side.pick right left) far)
      else if lean = .even then
        join side child side.flip.heavy outer (join side slot side.heavy inner far)
      else
        join side child .even outer (join side slot .even inner far)

/-- The node over a near side that became a level higher, and whether it became higher itself. -/
def raise (side : Side) (slot : Slot) (balance : Balance) (near far : Shape) : Shape × Bool :=
  if balance = side.flip.heavy then (join side slot .even near far, false)
  else if balance = .even then (join side slot side.heavy near far, true)
  else (turn side slot near far, false)

/-- The node over a near side that became a level lower, and whether it became lower itself. -/
def lower (side : Side) (slot : Slot) (balance : Balance) (near far : Shape) : Shape × Bool :=
  if balance = side.heavy then (join side slot .even near far, true)
  else if balance = .even then (join side slot side.flip.heavy near far, false)
  else (turn side.flip slot far near, decide far.Leaning)

/-- The node over a near side after an insertion there. -/
def overGrown (side : Side) (slot : Slot) (balance : Balance) (below : Shape × Bool)
    (far : Shape) : Shape × Bool :=
  if below.2 then raise side slot balance below.1 far
  else (join side slot balance below.1 far, false)

/-- The node over a near side after a removal there. -/
def overShrunk (side : Side) (slot : Slot) (balance : Balance) (below : Shape × Bool)
    (far : Shape) : Shape × Bool :=
  if below.2 then lower side slot balance below.1 far
  else (join side slot balance below.1 far, false)

section Turn

variable {side : Side} {slot child grandchild : Slot} {balance : Balance}
  {outer inner middle far : Shape}

theorem turn_heavy :
    turn side slot (join side child side.heavy outer inner) far =
      join side child .even outer (join side slot .even inner far) := by
  cases side <;> rfl

theorem turn_even :
    turn side slot (join side child .even outer inner) far =
      join side child side.flip.heavy outer (join side slot side.heavy inner far) := by
  cases side <;> rfl

theorem turn_inner :
    turn side slot
        (join side child side.flip.heavy outer (join side grandchild balance middle inner)) far =
      join side grandchild .even
        (join side child (if balance = side.flip.heavy then side.heavy else .even) outer middle)
        (join side slot (if balance = side.heavy then side.flip.heavy else .even) inner far) := by
  cases side <;> rfl

/-- What a balanced side of two levels or more looks like to a turn. -/
theorem turn_cases {near : Shape} (side : Side) (balanced : near.Balanced)
    (tall : 2 ≤ near.height) :
    (∃ child outer inner, near = join side child side.heavy outer inner) ∨
      (∃ child outer inner, near = join side child .even outer inner) ∨
      ∃ child grandchild balance outer middle inner, near = join side child side.flip.heavy outer
        (join side grandchild balance middle inner) := by
  obtain ⟨child, lean, outer, inner, rfl⟩ := exists_join side (Nat.lt_of_lt_of_le Nat.two_pos tall)
  rcases lean.cases_side side with rfl | rfl | rfl
  · exact .inl ⟨child, outer, inner, rfl⟩
  · exact .inr (.inl ⟨child, outer, inner, rfl⟩)
  · have between := (balanced_join.mp balanced).1
    rw [Balance.flip_heavy_between] at between
    obtain ⟨grandchild, balance, middle, last, rfl⟩ :=
      exists_join side (by omega : 0 < inner.height)
    exact .inr (.inr ⟨child, grandchild, balance, outer, middle, last, rfl⟩)

variable {near : Shape}

theorem slots_turn (balanced : near.Balanced) (tall : 2 ≤ near.height) :
    (turn side slot near far).slots = (join side slot balance near far).slots := by
  rcases turn_cases side balanced tall with
    ⟨child, outer, inner, rfl⟩ | ⟨child, outer, inner, rfl⟩ |
    ⟨child, grandchild, lean, outer, middle, inner, rfl⟩
  · rw [turn_heavy]
    cases side <;> simp [join, Side.pick, slots]
  · rw [turn_even]
    cases side <;> simp [join, Side.pick, slots]
  · rw [turn_inner]
    cases side <;> simp [join, Side.pick, slots]

/-- A turn makes a node exact whose near side is two levels too high.  It gains a level over the
near side only if that side did not lean. -/
theorem turn_balanced (balanced : near.Balanced) (far_balanced : far.Balanced)
    (height_eq : near.height = far.height + 2) :
    (turn side slot near far).Balanced ∧
      (turn side slot near far).height = near.height + if near.Leaning then 0 else 1 := by
  rcases turn_cases side balanced (by omega) with ⟨child, outer, inner, rfl⟩ |
    ⟨child, outer, inner, rfl⟩ | ⟨child, grandchild, lean, outer, middle, inner, rfl⟩
  · simp only [balanced_join, Balance.heavy_between, height_join] at balanced height_eq
    obtain ⟨between, outer_balanced, inner_balanced⟩ := balanced
    simp only [turn_heavy, balanced_join, Balance.even_between, height_join, leaning_join,
      Balance.heavy_ne_even, ne_eq, not_false_eq_true, if_true]
    refine ⟨⟨?_, outer_balanced, ?_, inner_balanced, far_balanced⟩, ?_⟩ <;> omega
  · simp only [balanced_join, Balance.even_between, height_join] at balanced height_eq
    obtain ⟨between, outer_balanced, inner_balanced⟩ := balanced
    simp only [turn_even, balanced_join, Balance.heavy_between, Balance.flip_heavy_between,
      height_join, leaning_join, ne_eq, not_true_eq_false, if_false]
    refine ⟨⟨?_, outer_balanced, ?_, inner_balanced, far_balanced⟩, ?_⟩ <;> omega
  · simp only [balanced_join, Balance.flip_heavy_between, height_join] at balanced height_eq
    obtain ⟨between, outer_balanced, lean_between, middle_balanced, inner_balanced⟩ := balanced
    simp only [turn_inner, balanced_join, Balance.even_between, height_join, leaning_join,
      Balance.heavy_ne_even, ne_eq, not_false_eq_true, if_true]
    rcases lean.cases_side side with rfl | rfl | rfl
    · rw [Balance.heavy_between] at lean_between
      simp only [Balance.heavy_ne_flip, if_false, if_true, Balance.even_between,
        Balance.flip_heavy_between]
      refine ⟨⟨?_, ⟨?_, outer_balanced, middle_balanced⟩, ?_, inner_balanced, far_balanced⟩, ?_⟩ <;>
        omega
    · rw [Balance.even_between] at lean_between
      simp only [(Balance.heavy_ne_even _).symm, if_false, Balance.even_between]
      refine ⟨⟨?_, ⟨?_, outer_balanced, middle_balanced⟩, ?_, inner_balanced, far_balanced⟩, ?_⟩ <;>
        omega
    · rw [Balance.flip_heavy_between] at lean_between
      simp only [Balance.flip_ne_heavy, if_false, if_true, Balance.even_between,
        Balance.heavy_between]
      refine ⟨⟨?_, ⟨?_, outer_balanced, middle_balanced⟩, ?_, inner_balanced, far_balanced⟩, ?_⟩ <;>
        omega

end Turn

/-! ## After a change below -/

/-- What an insertion leaves of a subtree of a given height: it is balanced, its height is told, and
it leans if it became higher and was not empty before. -/
structure Raised (height : Nat) (result : Shape × Bool) : Prop where
  balanced : result.1.Balanced
  height_eq : result.1.height = height + result.2.toNat
  leaning : result.2 = true → 0 < height → result.1.Leaning

/-- What a removal leaves of a subtree of a given height: it is balanced and its height is told. -/
structure Lowered (height : Nat) (result : Shape × Bool) : Prop where
  balanced : result.1.Balanced
  height_eq : result.1.height + result.2.toNat = height

theorem Raised.resized_iff {height : Nat} {result : Shape × Bool} (raised : Raised height result) :
    result.2 = true ↔ result.1.height ≠ height := by
  have height_eq := raised.height_eq
  cases here : result.2
  · simp_all
  · simp only [here, Bool.toNat_true] at height_eq
    exact iff_of_true rfl (by omega)

theorem Lowered.resized_iff {height : Nat} {result : Shape × Bool}
    (lowered : Lowered height result) : result.2 = true ↔ result.1.height ≠ height := by
  have height_eq := lowered.height_eq
  cases here : result.2
  · simp_all
  · simp only [here, Bool.toNat_true] at height_eq
    exact iff_of_true rfl (by omega)

section Change

variable {side : Side} {slot : Slot} {balance : Balance} {level : Nat} {far : Shape}
  {below : Shape × Bool}

theorem slots_overGrown (slot : Slot)
    (between : balance.Between side level far.height)
    (raised : Raised level below) :
    (overGrown side slot balance below far).1.slots =
      (join side slot balance below.1 far).slots := by
  obtain ⟨balanced, height_eq, -⟩ := raised
  obtain ⟨after, grown⟩ := below
  cases grown with
  | false => rfl
  | true =>
      simp only [overGrown, raise, if_true]
      rcases balance.cases_side side with rfl | rfl | rfl
      · rw [Balance.heavy_between] at between
        simp only [Balance.heavy_ne_flip, Balance.heavy_ne_even, if_false]
        refine slots_turn balanced ?_
        simp only [Bool.toNat_true] at height_eq
        omega
      · simp only [(Balance.heavy_ne_even _).symm, if_false, if_true]
        exact slots_join_congr rfl rfl
      · simp only [if_true]
        exact slots_join_congr rfl rfl

theorem overGrown_raised (between : balance.Between side level far.height)
    (far_balanced : far.Balanced) (raised : Raised level below) :
    Raised (max level far.height + 1) (overGrown side slot balance below far) := by
  obtain ⟨balanced, height_eq, leaning⟩ := raised
  obtain ⟨after, grown⟩ := below
  cases grown with
  | false =>
      simp only [Bool.toNat_false, Nat.add_zero] at height_eq
      exact ⟨balanced_join.mpr ⟨height_eq ▸ between, balanced, far_balanced⟩,
        by simp [overGrown, height_eq], by simp [overGrown]⟩
  | true =>
      replace height_eq : after.height = level + 1 := height_eq
      simp only [overGrown, raise, if_true]
      rcases balance.cases_side side with rfl | rfl | rfl
      · rw [Balance.heavy_between] at between
        have lean := leaning rfl (by omega)
        have turned : (turn side slot after far).Balanced ∧ _ :=
          turn_balanced balanced far_balanced (by omega)
        rw [if_pos lean] at turned
        simp only [Balance.heavy_ne_flip, Balance.heavy_ne_even, if_false]
        exact ⟨turned.1, by simp only [turned.2, Bool.toNat_false]; omega, by simp⟩
      · rw [Balance.even_between] at between
        simp only [(Balance.heavy_ne_even _).symm, if_false, if_true]
        refine ⟨balanced_join.mpr ⟨?_, balanced, far_balanced⟩, ?_, ?_⟩
        · rw [Balance.heavy_between]
          omega
        · simp only [height_join, Bool.toNat_true]
          omega
        · simp
      · rw [Balance.flip_heavy_between] at between
        simp only [if_true]
        refine ⟨balanced_join.mpr ⟨?_, balanced, far_balanced⟩, ?_, by simp⟩
        · rw [Balance.even_between]
          omega
        · simp only [height_join, Bool.toNat_false]
          omega

theorem slots_overShrunk (slot : Slot)
    (between : balance.Between side level far.height)
    (far_balanced : far.Balanced) (lowered : Lowered level below) :
    (overShrunk side slot balance below far).1.slots =
      (join side slot balance below.1 far).slots := by
  obtain ⟨-, height_eq⟩ := lowered
  obtain ⟨after, shrunk⟩ := below
  cases shrunk with
  | false => rfl
  | true =>
      simp only [overShrunk, lower, if_true]
      rcases balance.cases_side side with rfl | rfl | rfl
      · simp only [if_true]
        exact slots_join_congr rfl rfl
      · simp only [(Balance.heavy_ne_even _).symm, if_false, if_true]
        exact slots_join_congr rfl rfl
      · rw [Balance.flip_heavy_between] at between
        simp only [Balance.flip_ne_heavy, Balance.heavy_ne_even, if_false]
        rw [← join_flip]
        refine slots_turn far_balanced ?_
        simp only [Bool.toNat_true] at height_eq
        omega

theorem overShrunk_lowered (between : balance.Between side level far.height)
    (far_balanced : far.Balanced) (lowered : Lowered level below) :
    Lowered (max level far.height + 1) (overShrunk side slot balance below far) := by
  obtain ⟨balanced, height_eq⟩ := lowered
  obtain ⟨after, shrunk⟩ := below
  cases shrunk with
  | false =>
      simp only [Bool.toNat_false, Nat.add_zero] at height_eq
      exact ⟨balanced_join.mpr ⟨height_eq ▸ between, balanced, far_balanced⟩,
        by simp [overShrunk, height_eq]⟩
  | true =>
      replace height_eq : after.height + 1 = level := height_eq
      simp only [overShrunk, lower, if_true]
      rcases balance.cases_side side with rfl | rfl | rfl
      · rw [Balance.heavy_between] at between
        simp only [if_true]
        refine ⟨balanced_join.mpr ⟨?_, balanced, far_balanced⟩, ?_⟩
        · rw [Balance.even_between]
          omega
        · simp only [height_join, Bool.toNat_true]
          omega
      · rw [Balance.even_between] at between
        simp only [(Balance.heavy_ne_even _).symm, if_false, if_true]
        refine ⟨balanced_join.mpr ⟨?_, balanced, far_balanced⟩, ?_⟩
        · rw [Balance.flip_heavy_between]
          omega
        · simp only [height_join, Bool.toNat_false]
          omega
      · rw [Balance.flip_heavy_between] at between
        simp only [Balance.flip_ne_heavy, Balance.heavy_ne_even, if_false]
        have turned : (turn side.flip slot far after).Balanced ∧ _ :=
          turn_balanced far_balanced balanced (by omega)
        refine ⟨turned.1, ?_⟩
        by_cases leaning : far.Leaning
        · simp only [turned.2, leaning, if_true, decide_true, Bool.toNat_true]
          omega
        · simp only [turned.2, leaning, if_false, decide_false, Bool.toNat_false]
          omega

end Change

end Shape
end PackedMap
