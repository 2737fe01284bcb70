import PackedMap.Flags
import PackedMap.Map.Query
import PackedMap.Text.Layout
import PackedMap.Text.Quoted

/-!
# Text for inspection

The readable form of pairs, entries, identities, flags and whole maps.
-/

namespace PackedMap

/-- A named record with its fields. -/
def Layout.fields (layout : Layout) (name : String) (fields : List (String × String)) : String :=
  layout.enclose (name ++ " \x7b") " " "\x7d"
    (fields.map fun (field, text) => field ++ ": " ++ text)

/-- The text of a pair. -/
def Pair.inspect (pair : Pair) (layout : Layout) : String :=
  layout.fields "KeyValue" [("key", pair.key.quoted), ("value", pair.value.quoted)]

/-- The text of a slot as the identity of an entry. -/
def Slot.inspect (slot : Slot) (layout : Layout) : String :=
  layout.enclose "EntryId(" "" ")" [toString slot.index.toNat]

/-- The text of an entry. -/
def Entry.inspect (entry : Entry) (layout : Layout) : String :=
  layout.fields "Entry" [("id", toString entry.id.index.toNat), ("key", entry.pair.key.quoted),
    ("value", entry.pair.value.quoted)]

/-- The text of a set of flags. -/
def Flags.inspect (flags : Flags) : String := "Flags(" ++ toString flags.bits.toNat ++ ")"

/-- The text of a map: its pairs in order. -/
def Map.inspect (map : Map) (layout : Layout) : Checked String := do
  let entries ← map.sorted
  return layout.enclose "\x7b" "" "\x7d" (entries.map fun entry =>
    entry.pair.key.quoted ++ ": " ++ entry.pair.value.quoted)

end PackedMap
