import PackedMap.Slab.Basic

/-!
# Growth

Room is reserved before entries are appended.  A reservation for `n` entries with `b` bytes of data
counts 31 bytes for each entry, its header and the greatest fill-up to a whole unit, and grants
whole units only.  It is computed in 64-bit words, and an overflow is refused like a request beyond
the limit.  Capacity doubles as it grows, up to the limit.
-/

namespace PackedMap
namespace Slab

/-- Sum of two 64-bit words, if it is one. -/
def sum? (a b : UInt64) : Option UInt64 :=
  if a.toNat + b.toNat < UInt64.size then some (a + b) else none

/-- Product of two 64-bit words, if it is one. -/
def product? (a b : UInt64) : Option UInt64 :=
  if a.toNat * b.toNat < UInt64.size then some (a * b) else none

/-- Bytes that one entry may need beside its data. -/
def overhead : UInt64 := .ofNat (Header.size + (unitSize - 1))

/-- Number of units granted to a batch of entries. -/
def grant (entries bytes : UInt64) : Option UInt64 := do
  let overheads ← product? entries overhead
  let total ← sum? overheads bytes
  return total / .ofNat unitSize

/-- Number of used bytes once a grant is used up. -/
def required (slab : Slab) (granted : UInt64) : Option UInt64 := do
  let bytes ← product? granted (.ofNat unitSize)
  sum? bytes (.ofNat slab.used)

/-- The capacity that holds a number of bytes: the old one if it is enough, and otherwise twice the
old one, or what is needed if that is more, or the limit if that is less. -/
def grownCapacity (slab : Slab) (needed : Nat) : Nat :=
  if needed ≤ slab.capacity then slab.capacity
  else min (max (2 * slab.capacity) needed) slab.limit

/-- Makes room for a number of entries with a total number of data bytes, and gives the number of
units they may take. -/
def reserve (slab : Slab) (entries bytes : UInt64) : Except CapacityError (Nat × Slab) :=
  match (grant entries bytes).bind fun granted => (slab.required granted).map (granted, ·) with
  | none => .error ⟨UInt64.size - 1, slab.limit⟩
  | some (granted, needed) =>
    if slab.limit < needed.toNat then
      .error ⟨needed.toNat, slab.limit⟩
    else
      .ok (granted.toNat, { slab with capacity := slab.grownCapacity needed.toNat })

/-- Makes room for one more entry.  One whose bytes a 64-bit word cannot count is refused like any
other overflow. -/
def reservePair (slab : Slab) (pair : Pair) : Except CapacityError Slab :=
  if pair.size < UInt64.size then do
    let (_, slab) ← slab.reserve 1 (.ofNat pair.size)
    return slab
  else
    .error ⟨UInt64.size - 1, slab.limit⟩

/-- Appends a live entry outside the tree, in room that was reserved for it. -/
def push (slab : Slab) (pair : Pair) : Checked (Slot × Slab) :=
  let record := Record.detached pair
  if slab.used + record.units * unitSize ≤ slab.capacity then
    .ok (slab.endSlot, { slab with data := slab.data ++ record.encode })
  else
    .error .noRoom

/-- Appends entries one after another. -/
def pushAll (slab : Slab) : List Pair → Checked (List Slot × Slab)
  | [] => return ([], slab)
  | pair :: rest => do
    let (slot, slab) ← slab.push pair
    let (slots, slab) ← slab.pushAll rest
    return (slot :: slots, slab)

end Slab
end PackedMap
