/-!
# Byte strings

Keys and values are byte strings.  Their order, taken from lists, is lexicographic on unsigned
bytes, so that a proper initial part comes first.  Letter case is that of ASCII: only the bytes
of `A` to `Z` and of `a` to `z` have another case.
-/

namespace PackedMap

/-- A byte string. -/
abbrev Bytes := List UInt8

namespace Bytes

/-- Lower case of one byte: the capitals `A` to `Z` move up by 32. -/
def lowerByte (byte : UInt8) : UInt8 :=
  if 65 ≤ byte ∧ byte ≤ 90 then byte + 32 else byte

/-- Upper case of one byte: the small letters `a` to `z` move down by 32. -/
def upperByte (byte : UInt8) : UInt8 :=
  if 97 ≤ byte ∧ byte ≤ 122 then byte - 32 else byte

/-- Lower case of a byte string, byte by byte. -/
def toLower (bytes : Bytes) : Bytes := bytes.map lowerByte

/-- Upper case of a byte string, byte by byte. -/
def toUpper (bytes : Bytes) : Bytes := bytes.map upperByte

@[simp]
theorem length_toLower (bytes : Bytes) : bytes.toLower.length = bytes.length := by
  simp [toLower]

@[simp]
theorem length_toUpper (bytes : Bytes) : bytes.toUpper.length = bytes.length := by
  simp [toUpper]

end Bytes

end PackedMap
