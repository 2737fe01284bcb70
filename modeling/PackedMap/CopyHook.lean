import PackedMap.Entry

/-!
# Copy hooks

A map may carry a copy hook, which changes the value of each entry that is copied from it.
-/

namespace PackedMap

/-- A change to copied values.  It sees the copy's bytes and the entry they come from, and cannot
change their number. -/
structure CopyHook where
  /-- The new bytes of a copied value. -/
  apply : Bytes → Entry → Bytes
  /-- A value keeps its length. -/
  length_apply : ∀ value entry, (apply value entry).length = value.length

namespace CopyHook

/-- Leaves a copied value as it is. -/
def keep : CopyHook := ⟨fun value _ => value, fun _ _ => rfl⟩

/-- Turns the ASCII letters of a copied value into capitals. -/
def upper : CopyHook := ⟨fun value _ => value.toUpper, fun value _ => Bytes.length_toUpper value⟩

/-- Reverses a copied value. -/
def reverse : CopyHook := ⟨fun value _ => value.reverse, fun _ _ => List.length_reverse⟩

end CopyHook

end PackedMap
