import PackedMap.Bytes

/-!
# Slots and links

Entries are addressed by slots: the index of an entry's first unit of eight bytes.  Slots are 32-bit
words and their arithmetic wraps.  A link is a slot or nothing, and is stored as one word, in which
the greatest value stands for nothing.
-/

namespace PackedMap

/-- Size of one unit of the slab, in bytes. -/
def unitSize : Nat := 8

/-- The index of an entry's first unit. -/
structure Slot where
  /-- Number of units before the entry. -/
  index : UInt32
deriving DecidableEq, Repr

namespace Slot

/-- The slot after the given number of units. -/
def ofUnits (units : Nat) : Slot := ⟨UInt32.ofNat units⟩

/-- Position of the slot's first byte. -/
def offset (slot : Slot) : Nat := slot.index.toNat * unitSize

/-- The slot a number of units further on. -/
def advance (slot : Slot) (units : Nat) : Slot := ⟨slot.index + UInt32.ofNat units⟩

end Slot

/-- A slot, or nothing. -/
abbrev Link := Option Slot

namespace Link

/-- The stored word that stands for nothing. -/
def nilWord : UInt32 := 0xFFFFFFFF

/-- The stored word of a link. -/
def toWord : Link → UInt32
  | none => nilWord
  | some slot => slot.index

/-- The link that a stored word stands for. -/
def ofWord (word : UInt32) : Link :=
  if word = nilWord then none else some ⟨word⟩

@[simp]
theorem toWord_ofWord (word : UInt32) : toWord (ofWord word) = word := by
  by_cases h : word = nilWord <;> simp [ofWord, toWord, h]

theorem ofWord_toWord (link : Link) (h : link ≠ some ⟨nilWord⟩) : ofWord (toWord link) = link := by
  cases link with
  | none => rfl
  | some slot =>
    have hindex : slot.index ≠ nilWord := fun heq => h (by cases slot; simp_all)
    simp [ofWord, toWord, hindex]

end Link

end PackedMap
