import PackedMap.Bytes

/-!
# Stored words

A 32-bit word is stored as four bytes, the least significant one first.
-/

namespace PackedMap
namespace Word

/-- Number of bytes of a stored word. -/
def size : Nat := 4

/-- The bytes of a word, least significant first. -/
def toBytes (word : UInt32) : Bytes :=
  [word.toUInt8, (word / 256).toUInt8, (word / 65536).toUInt8, (word / 16777216).toUInt8]

/-- The word with the given bytes, least significant first. -/
def ofBytes (b₀ b₁ b₂ b₃ : UInt8) : UInt32 :=
  b₀.toUInt32 + 256 * b₁.toUInt32 + 65536 * b₂.toUInt32 + 16777216 * b₃.toUInt32

@[simp]
theorem length_toBytes (word : UInt32) : (toBytes word).length = size := rfl

theorem ofBytes_toBytes (word : UInt32) :
    ofBytes word.toUInt8 (word / 256).toUInt8 (word / 65536).toUInt8 (word / 16777216).toUInt8 =
      word := by
  apply UInt32.toNat_inj.mp
  have hword := word.toNat_lt
  simp only [ofBytes, UInt32.toNat_add, UInt32.toNat_mul, UInt8.toNat_toUInt32,
    UInt32.toNat_toUInt8, UInt32.toNat_div, UInt32.reduceToNat]
  omega

end Word
end PackedMap
