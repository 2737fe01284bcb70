import PackedMap.CapacityError
import PackedMap.Entry
import PackedMap.Map.Update
import PackedMap.Tree.Shape

/-!
# Replies

What a command of a session gives back.
-/

namespace PackedMap

/-- The reply to a command. -/
inductive Reply
  /-- The command is carried out. -/
  | done
  /-- The command is carried out and has no result. -/
  | nothing
  /-- The map would have to grow beyond its limit. -/
  | refused (error : CapacityError)
  /-- There is no map of that name. -/
  | unknownMap
  /-- How an addition ended. -/
  | addition (ending : Addition)
  /-- A truth value. -/
  | flag (value : Bool)
  /-- A number. -/
  | amount (value : Nat)
  /-- An ordering. -/
  | ordering (value : Ordering)
  /-- An entry, or none. -/
  | entry (entry : Option Entry)
  /-- Some entries. -/
  | entries (entries : List Entry)
  /-- The key and the value of an entry. -/
  | pair (pair : Pair)
  /-- The counters of a map. -/
  | counts (size : Nat) (isEmpty : Bool) (tombstones : Nat)
  /-- A text. -/
  | text (text : String)
  /-- Some texts, or none. -/
  | texts (texts : Option (List String))
  /-- The shape of a tree. -/
  | shape (shape : Shape)
  /-- Stored entries with their slots. -/
  | records (records : List (Slot × Record))
  /-- One stored entry, and the slot after it. -/
  | record (record : Record) (next : Slot)
  /-- A slot, or none. -/
  | link (link : Link)
  /-- Some slots. -/
  | slots (slots : List Slot)
  /-- A match, or none, and the neighbours of the probe. -/
  | neighbors (found : Option Slot) (near : Neighbors)
deriving DecidableEq

/-- The reply with a result, or the refusal. -/
def Reply.ofExcept {α : Type} (reply : α → Reply) : Except CapacityError α → Reply
  | .ok value => reply value
  | .error error => .refused error

end PackedMap
