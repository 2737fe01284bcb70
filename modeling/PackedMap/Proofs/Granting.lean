import PackedMap.Proofs.Slab.Growth
import PackedMap.Session.Workbench

/-!
# What a reservation grants

A reservation is computed in 64-bit words, in four checked steps with a division in between.  It
comes to the same as in unbounded numbers: what is granted, whether it is refused, and the capacity
afterwards.  Only the number that a refusal reports stops at the greatest word.
-/

namespace PackedMap

/-- What a granted reservation makes of a slab, told by the number of bytes needed.  The bytes stay.
A capacity that is not enough is doubled, or more if need be, as far as the limit allows. -/
structure Slab.MakesRoom (before after : Slab) (needed : Nat) : Prop where
  data_eq : after.data = before.data
  limit_eq : after.limit = before.limit
  capacity_eq : after.capacity =
    if needed ≤ before.capacity then before.capacity
    else min (max (2 * before.capacity) needed) before.limit
  enough : needed ≤ after.capacity
  within : after.capacity ≤ after.limit

theorem Slab.makesRoom_grown {slab : Slab} {needed : Nat} (capacity_le : slab.capacity ≤ slab.limit)
    (fits : needed ≤ slab.limit) :
    slab.MakesRoom { slab with capacity := slab.grownCapacity needed } needed where
  data_eq := rfl
  limit_eq := rfl
  capacity_eq := rfl
  enough := by
    simp only [grownCapacity]
    split <;> omega
  within := by
    simp only [grownCapacity]
    split <;> omega

/-- A reservation grants what the unbounded formula says and makes room for it, or is refused and
leaves everything as it is, and it is refused exactly where the bytes needed pass the limit.  One
entry is granted exactly the units that it takes. -/
theorem reservation_exact {bench : Workbench} (used_le : bench.slab.used ≤ bench.slab.capacity)
    (capacity_le : bench.slab.capacity ≤ bench.slab.limit)
    (limit_le : bench.slab.limit ≤ Slab.greatestLimit) (entries bytes : UInt64) :
    (bench.slab.needed entries.toNat bytes.toNat ≤ bench.slab.limit →
      ∃ slab, bench.slab.reserve entries bytes =
          .ok (Slab.advance entries.toNat bytes.toNat, slab) ∧
        bench.slab.MakesRoom slab (bench.slab.needed entries.toNat bytes.toNat) ∧
        bench.step (.reserve entries bytes) =
          .ok (.amount (Slab.advance entries.toNat bytes.toNat), { bench with slab })) ∧
    (bench.slab.limit < bench.slab.needed entries.toNat bytes.toNat →
      ∃ refused, refused.requested =
          min (bench.slab.needed entries.toNat bytes.toNat) (UInt64.size - 1) ∧
        refused.limit = bench.slab.limit ∧
        bench.slab.reserve entries bytes = .error refused ∧
        bench.step (.reserve entries bytes) = .ok (.refused refused, bench)) ∧
    ∀ key value, key + value = bytes.toNat →
      Slab.advance 1 bytes.toNat = unitsFor key value := by
  have small : bench.slab.limit < UInt64.size := Nat.lt_of_le_of_lt limit_le (by decide)
  have computed := bench.slab.reserve_eq entries bytes small (Nat.le_trans used_le capacity_le)
  refine ⟨fun fits => ?_, fun full => ?_, fun key value split => ?_⟩
  · rw [if_pos fits] at computed
    refine ⟨_, computed, Slab.makesRoom_grown capacity_le fits, ?_⟩
    rw [Workbench.step, computed]
    rfl
  · rw [if_neg (Nat.not_le.mpr full)] at computed
    refine ⟨_, rfl, rfl, computed, ?_⟩
    rw [Workbench.step, computed]
    rfl
  · rw [← split, Slab.advance_one]

/-- A bench over a slab with three used bytes and little room. -/
def narrowBench : Workbench := ⟨⟨#[0, 0, 0], 40, 70⟩, .empty, none⟩

-- 67 bytes are needed, and twice the capacity is above the limit; the greatest words overflow
theorem reservation_exact_narrowBench :
    narrowBench.step (.reserve 1 33) =
        .ok (.amount 8, { narrowBench with slab := ⟨#[0, 0, 0], 70, 70⟩ }) ∧
      narrowBench.step (.reserve 0xFFFFFFFFFFFFFFFF 0xFFFFFFFFFFFFFFFF) =
        .ok (.refused ⟨0xFFFFFFFFFFFFFFFF, 70⟩, narrowBench) := by
  have used_le : narrowBench.slab.used ≤ narrowBench.slab.capacity := by decide
  have capacity_le : narrowBench.slab.capacity ≤ narrowBench.slab.limit := by decide
  have limit_le : narrowBench.slab.limit ≤ Slab.greatestLimit := by decide
  obtain ⟨granted, -, -⟩ := reservation_exact used_le capacity_le limit_le 1 33
  obtain ⟨-, refused, -⟩ := reservation_exact used_le capacity_le limit_le
    0xFFFFFFFFFFFFFFFF 0xFFFFFFFFFFFFFFFF
  constructor
  · obtain ⟨⟨data, capacity, limit⟩, -, ⟨rfl, rfl, rfl, -, -⟩, run⟩ := granted (by decide)
    exact run
  · obtain ⟨⟨requested, limit⟩, rfl, rfl, -, run⟩ := refused (by decide)
    exact run

end PackedMap
