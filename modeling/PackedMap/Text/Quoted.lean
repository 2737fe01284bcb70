import PackedMap.Text.GraphemeExtending
import PackedMap.Text.Unprintable
import PackedMap.Text.Utf8

/-!
# Quoted text

A byte string is shown as text between double quotes.  A backslash marks the quote, the backslash
and what would not be seen: four control characters have short names, and other characters without
a visible form of their own, marks over another character among them, are given by number.
-/

namespace PackedMap
namespace Quoted

/-- A character given by its number in hexadecimal digits. -/
def byNumber (c : Char) : List Char :=
  ['\\', 'u', '\x7b'] ++ Nat.toDigits 16 c.toNat ++ ['\x7d']

/-- Whether a character has no form that can be read by itself: it has no ink, or it is shown only
on the character before it. -/
def needsNumber (c : Char) : Bool :=
  unprintable.contains c || hangulFillers.contains c ||
    (graphemeExtending.contains c && !halfwidthSoundMarks.contains c)

/-- The form of one character between the quotes. -/
def encodeChar (c : Char) : List Char :=
  if c = '\x00' then ['\\', '0']
  else if c = '\t' then ['\\', 't']
  else if c = '\n' then ['\\', 'n']
  else if c = '\r' then ['\\', 'r']
  else if c = '"' then ['\\', '"']
  else if c = '\\' then ['\\', '\\']
  else if needsNumber c then byNumber c
  else [c]

/-- The quoted form of a text. -/
def encode (text : List Char) : List Char :=
  '"' :: text.flatMap encodeChar ++ ['"']

end Quoted

/-- The quoted form of a byte string. -/
def Bytes.quoted (bytes : Bytes) : String := String.ofList (Quoted.encode (Utf8.decode bytes))

end PackedMap
