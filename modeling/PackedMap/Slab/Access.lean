import PackedMap.Slab.Basic

/-!
# Access to the bytes of a slab

Bytes are read and written at positions inside the used part only; any other access is a fault.
Writing keeps the number of used bytes, and every byte outside the written run.
-/

namespace PackedMap
namespace Slab

/-- The byte at a position. -/
def byteAt (slab : Slab) (position : Nat) : Checked UInt8 :=
  Checked.ofOption .outOfRange slab.data[position]?

/-- The word at a position. -/
def wordAt (slab : Slab) (position : Nat) : Checked UInt32 := do
  return Word.ofBytes (← slab.byteAt position) (← slab.byteAt (position + 1))
    (← slab.byteAt (position + 2)) (← slab.byteAt (position + 3))

/-- A number of bytes from a position on. -/
def bytesAt (slab : Slab) (position length : Nat) : Checked Bytes :=
  if position + length ≤ slab.used then
    .ok (slab.data.extract position (position + length)).toList
  else
    .error .outOfRange

/-- Lays bytes over those of an array, from a position on. -/
def overwrite (data : Array UInt8) (position : Nat) : Bytes → Array UInt8
  | [] => data
  | byte :: rest => overwrite (data.setIfInBounds position byte) (position + 1) rest

@[simp]
theorem size_overwrite (data : Array UInt8) (position : Nat) (bytes : Bytes) :
    (overwrite data position bytes).size = data.size := by
  induction bytes generalizing data position with
  | nil => rfl
  | cons byte rest ih => simp [overwrite, ih]

theorem toList_overwrite (data : Array UInt8) (position : Nat) (bytes : Bytes)
    (h : position + bytes.length ≤ data.size) :
    (overwrite data position bytes).toList =
      data.toList.take position ++ bytes ++ data.toList.drop (position + bytes.length) := by
  induction bytes generalizing data position with
  | nil => simp [overwrite]
  | cons byte rest ih =>
    simp only [List.length_cons] at h ⊢
    have hroom : position + 1 + rest.length ≤ (data.setIfInBounds position byte).size := by
      simp only [Array.size_setIfInBounds]
      omega
    have hposition : position < data.toList.length := by
      simp only [Array.length_toList]
      omega
    have hset : data.toList.set position byte =
        data.toList.take position ++ byte :: data.toList.drop (position + 1) :=
      List.set_eq_take_append_cons_drop .. |>.trans (if_pos hposition)
    have hlength : (data.toList.take position).length = position := by
      simp only [List.length_take]
      omega
    have htake : (data.toList.take position).take (position + 1) = data.toList.take position :=
      List.take_of_length_le (by omega)
    have hdrop : (data.toList.take position).drop (position + 1 + rest.length) = [] :=
      List.drop_eq_nil_of_le (by omega)
    rw [overwrite, ih _ _ hroom, Array.toList_setIfInBounds, hset, List.take_append,
      List.drop_append, hlength, htake, hdrop]
    have hone : position + 1 - position = 1 := by omega
    have hmany : position + 1 + rest.length - position = rest.length + 1 := by omega
    rw [hone, hmany]
    simp [Nat.add_comm, Nat.add_left_comm]

/-- Writes bytes from a position on. -/
def write (slab : Slab) (position : Nat) (bytes : Bytes) : Checked Slab :=
  if position + bytes.length ≤ slab.used then
    .ok { slab with data := overwrite slab.data position bytes }
  else
    .error .outOfRange

end Slab
end PackedMap
