import PackedMap.Bytes

/-!
# Reading bytes as text

Bytes are read as UTF-8.  Where they are not, each longest run of bytes that could begin a character
and is not continued as one, or else each single byte, is read as one replacement character.  The
reader keeps what it knows of an unfinished character: the bits so far, the number of bytes to come,
and the range that the next byte has to be in.  Narrower ranges after some first bytes keep out
longer forms than needed, surrogates, and numbers beyond the last character.
-/

namespace PackedMap
namespace Utf8

/-- The character that stands for bytes that are no character. -/
def replacement : Char := '\uFFFD'

/-- A character of which some bytes are still to come. -/
structure Pending where
  /-- The bits read so far, as a number. -/
  bits : Nat
  /-- Number of bytes to come after the next one. -/
  missing : Nat
  /-- The least next byte. -/
  low : UInt8
  /-- The greatest next byte. -/
  high : UInt8
deriving DecidableEq, Repr

/-- The first byte of a character of several bytes. -/
def lead? (byte : UInt8) : Option Pending :=
  if byte < 0xC2 then none
  else if byte ≤ 0xDF then some ⟨byte.toNat - 0xC0, 0, 0x80, 0xBF⟩
  else if byte = 0xE0 then some ⟨0, 1, 0xA0, 0xBF⟩
  else if byte = 0xED then some ⟨13, 1, 0x80, 0x9F⟩
  else if byte ≤ 0xEF then some ⟨byte.toNat - 0xE0, 1, 0x80, 0xBF⟩
  else if byte = 0xF0 then some ⟨0, 2, 0x90, 0xBF⟩
  else if byte ≤ 0xF3 then some ⟨byte.toNat - 0xF0, 2, 0x80, 0xBF⟩
  else if byte = 0xF4 then some ⟨4, 2, 0x80, 0x8F⟩
  else none

/-- What a byte at the start of a character gives: finished characters, and an unfinished one. -/
def start (byte : UInt8) : List Char × Option Pending :=
  if byte < 0x80 then
    ([Char.ofNat byte.toNat], none)
  else
    match lead? byte with
    | some pending => ([], some pending)
    | none => ([replacement], none)

/-- Whether a byte goes on with an unfinished character. -/
def Pending.fits (pending : Pending) (byte : UInt8) : Bool :=
  decide (pending.low ≤ byte) && decide (byte ≤ pending.high)

/-- What a fitting byte makes of an unfinished character. -/
def Pending.extend (pending : Pending) (byte : UInt8) : List Char × Option Pending :=
  let bits := pending.bits * 64 + byte.toNat % 64
  if pending.missing = 0 then
    ([Char.ofNat bits], none)
  else
    ([], some ⟨bits, pending.missing - 1, 0x80, 0xBF⟩)

/-- What one more byte gives.  A byte that does not fit starts anew, after a replacement character
for the unfinished one. -/
def step : Option Pending → UInt8 → List Char × Option Pending
  | none, byte => start byte
  | some pending, byte =>
    if pending.fits byte then
      pending.extend byte
    else
      let (chars, rest) := start byte
      (replacement :: chars, rest)

/-- Reads bytes behind an unfinished character, or behind none. -/
def decodeFrom : Option Pending → Bytes → List Char
  | none, [] => []
  | some _, [] => [replacement]
  | pending, byte :: rest =>
    let (chars, pending) := step pending byte
    chars ++ decodeFrom pending rest

/-- The text of a byte string. -/
def decode (bytes : Bytes) : List Char := decodeFrom none bytes

end Utf8
end PackedMap
