import PackedMap.Proofs.Slab.Stock
import PackedMap.Slab.Growth

/-!
# Growth of a slab

What a reservation computes in 64-bit words is what it would compute in unbounded numbers.  The
operations that change the number of entries, or the room for them, act on the stock of a slab.
-/

namespace PackedMap
namespace Slab

/-- Units granted to a batch of entries, in unbounded numbers. -/
def advance (entries bytes : Nat) : Nat := (31 * entries + bytes) / unitSize

theorem advance_mono {entries bytes entries' bytes' : Nat} (few : entries ≤ entries')
    (small : bytes ≤ bytes') : advance entries bytes ≤ advance entries' bytes' := by
  simp only [advance, unitSize]
  omega

/-- What two batches are granted is granted to both as one batch. -/
theorem advance_add_le (entries bytes entries' bytes' : Nat) :
    advance entries bytes + advance entries' bytes' ≤
      advance (entries + entries') (bytes + bytes') := by
  simp only [advance, unitSize]
  omega

/-- One entry is granted exactly the units that it takes, however its bytes are split. -/
theorem advance_one (key value : Nat) : advance 1 (key + value) = unitsFor key value := by
  simp only [advance, unitsFor, Header.size, unitSize]
  omega

/-- Used bytes once a grant is used up, in unbounded numbers. -/
def needed (slab : Slab) (entries bytes : Nat) : Nat :=
  unitSize * advance entries bytes + slab.used

/-- The word of a number, if there is one. -/
def word? (n : Nat) : Option UInt64 :=
  if n < UInt64.size then some (.ofNat n) else none

theorem product?_eq (a b : UInt64) : product? a b = word? (a.toNat * b.toNat) := by
  simp only [product?, word?, UInt64.ofNat_mul, UInt64.ofNat_toNat]

theorem sum?_eq (a b : UInt64) : sum? a b = word? (a.toNat + b.toNat) := by
  simp only [sum?, word?, UInt64.ofNat_add, UInt64.ofNat_toNat]

theorem word?_eq_some {n : Nat} (small : n < UInt64.size) : word? n = some (.ofNat n) :=
  if_pos small

theorem word?_eq_none {n : Nat} (large : UInt64.size ≤ n) : word? n = none :=
  if_neg (Nat.not_lt.mpr large)

theorem toNat_overhead : overhead.toNat = 31 := rfl

theorem grant_eq_some {entries bytes : UInt64}
    (small : 31 * entries.toNat + bytes.toNat < UInt64.size) :
    grant entries bytes = some (.ofNat (advance entries.toNat bytes.toNat)) := by
  have overheads : product? entries overhead = some (.ofNat (31 * entries.toNat)) := by
    rw [product?_eq, toNat_overhead, Nat.mul_comm, word?_eq_some (by omega)]
  have total : sum? (.ofNat (31 * entries.toNat)) bytes =
      some (.ofNat (31 * entries.toNat + bytes.toNat)) := by
    rw [sum?_eq, UInt64.toNat_ofNat_of_lt' (by omega), word?_eq_some small]
  have quotient : UInt64.ofNat (31 * entries.toNat + bytes.toNat) / .ofNat unitSize =
      .ofNat (advance entries.toNat bytes.toNat) := by
    apply UInt64.toNat_inj.mp
    have quotient_small : advance entries.toNat bytes.toNat < UInt64.size :=
      Nat.lt_of_le_of_lt (Nat.div_le_self ..) small
    rw [UInt64.toNat_div, UInt64.toNat_ofNat_of_lt' small,
      UInt64.toNat_ofNat_of_lt' quotient_small]
    rfl
  simp only [grant, overheads, total, quotient, Option.bind_eq_bind, Option.bind_some,
    Option.pure_def]

theorem grant_eq_none {entries bytes : UInt64}
    (large : UInt64.size ≤ 31 * entries.toNat + bytes.toNat) : grant entries bytes = none := by
  rcases Nat.lt_or_ge (31 * entries.toNat) UInt64.size with small | huge
  · have overheads : product? entries overhead = some (.ofNat (31 * entries.toNat)) := by
      rw [product?_eq, toNat_overhead, Nat.mul_comm, word?_eq_some small]
    have total : sum? (.ofNat (31 * entries.toNat)) bytes = none := by
      rw [sum?_eq, UInt64.toNat_ofNat_of_lt' small, word?_eq_none large]
    simp only [grant, overheads, total, Option.bind_eq_bind, Option.bind_some, Option.bind_none]
  · have overheads : product? entries overhead = none := by
      rw [product?_eq, toNat_overhead, Nat.mul_comm, word?_eq_none huge]
    simp only [grant, overheads, Option.bind_eq_bind, Option.bind_none]

theorem required_eq (slab : Slab) (fits : slab.used < UInt64.size) {granted : Nat}
    (small : granted < UInt64.size) :
    slab.required (.ofNat granted) = word? (unitSize * granted + slab.used) := by
  have unit : (UInt64.ofNat unitSize).toNat = unitSize := rfl
  rcases Nat.lt_or_ge (unitSize * granted) UInt64.size with inside | outside
  · have bytes : product? (.ofNat granted) (.ofNat unitSize) =
        some (.ofNat (unitSize * granted)) := by
      rw [product?_eq, unit, UInt64.toNat_ofNat_of_lt' small, Nat.mul_comm, word?_eq_some inside]
    simp only [required, bytes, Option.bind_eq_bind, Option.bind_some]
    rw [sum?_eq, UInt64.toNat_ofNat_of_lt' inside, UInt64.toNat_ofNat_of_lt' fits]
  · have bytes : product? (.ofNat granted) (.ofNat unitSize) = none := by
      rw [product?_eq, unit, UInt64.toNat_ofNat_of_lt' small, Nat.mul_comm, word?_eq_none outside]
    rw [word?_eq_none (by omega)]
    simp only [required, bytes, Option.bind_eq_bind, Option.bind_none]

/-- A reservation succeeds exactly when the needed bytes stay within the limit. -/
theorem reserve_eq (slab : Slab) (entries bytes : UInt64) (small : slab.limit < UInt64.size)
    (fits : slab.used ≤ slab.limit) :
    slab.reserve entries bytes =
      if slab.needed entries.toNat bytes.toNat ≤ slab.limit then
        .ok (advance entries.toNat bytes.toNat,
          { slab with capacity := slab.grownCapacity (slab.needed entries.toNat bytes.toNat) })
      else
        .error ⟨min (slab.needed entries.toNat bytes.toNat) (UInt64.size - 1), slab.limit⟩ := by
  have size_eq : UInt64.size = 2 ^ 64 := rfl
  rcases Nat.lt_or_ge (31 * entries.toNat + bytes.toNat) UInt64.size with inside | outside
  · have advance_small : advance entries.toNat bytes.toNat < UInt64.size :=
      Nat.lt_of_le_of_lt (Nat.div_le_self ..) inside
    have step : slab.required (.ofNat (advance entries.toNat bytes.toNat)) =
        word? (slab.needed entries.toNat bytes.toNat) :=
      required_eq slab (by omega) advance_small
    rw [reserve, grant_eq_some inside, Option.bind_some, step]
    rcases Nat.lt_or_ge (slab.needed entries.toNat bytes.toNat) UInt64.size with low | high
    · simp only [word?_eq_some low, Option.map_some, UInt64.toNat_ofNat_of_lt' low,
        UInt64.toNat_ofNat_of_lt' advance_small]
      split
      · rw [if_neg (by omega), Nat.min_eq_left (by omega)]
      · rw [if_pos (by omega)]
    · simp only [word?_eq_none high, Option.map_none]
      rw [if_neg (by omega), Nat.min_eq_right (by omega)]
  · have above : UInt64.size ≤ slab.needed entries.toNat bytes.toNat := by
      simp only [needed, advance, unitSize]
      omega
    rw [reserve, grant_eq_none outside, Option.bind_none]
    simp only
    rw [if_neg (by omega), Nat.min_eq_right (by omega)]

end Slab
end PackedMap
