import PackedMap.Slab.Field

/-!
# Walking the slab

The entries stand back to back, so each leads to the next.  Every entry takes at least one unit, so
a walk has at most as many steps as the slab has units.
-/

namespace PackedMap
namespace Slab

/-- The slots from a given one to the end, in at most `fuel` steps. -/
def slotsFrom (slab : Slab) : Nat → Slot → Checked (List Slot)
  | 0, _ => throw .endless
  | fuel + 1, slot => do
    if slot.index < slab.endSlot.index then
      return slot :: (← slab.slotsFrom fuel (← slab.next slot))
    else
      return []

/-- The slots of all entries, tombstones included. -/
def slots (slab : Slab) : Checked (List Slot) :=
  slab.slotsFrom (slab.units + 1) ⟨0⟩

/-- The slots of the live entries among those given. -/
def liveAmong (slab : Slab) : List Slot → Checked (List Slot)
  | [] => return []
  | slot :: rest => do
    let tombstone ← slab.isTombstone slot
    let later ← slab.liveAmong rest
    return if tombstone then later else slot :: later

/-- The slots of the live entries from a given slot to the end. -/
def liveFrom (slab : Slab) (slot : Slot) : Checked (List Slot) := do
  slab.liveAmong (← slab.slotsFrom (slab.units + 1) slot)

/-- The slots of all live entries. -/
def liveSlots (slab : Slab) : Checked (List Slot) := slab.liveFrom ⟨0⟩

/-- The first live entry from a slot on, in at most `fuel` steps. -/
def firstLiveWithin (slab : Slab) : Nat → Slot → Checked (Option Slot)
  | 0, _ => throw .endless
  | fuel + 1, slot => do
    if slot.index < slab.endSlot.index then
      if ← slab.isTombstone slot then
        slab.firstLiveWithin fuel (← slab.next slot)
      else
        return some slot
    else
      return none

/-- The first live entry from a slot on. -/
def firstLive (slab : Slab) (slot : Slot) : Checked (Option Slot) :=
  slab.firstLiveWithin (slab.units + 1) slot

/-- The next entry of a scan that stands at a live one, and where the scan stands then. -/
def scan? (slab : Slab) : Option Slot → Checked (Option (Slot × Option Slot))
  | none => return none
  | some slot => do
    let rest ← slab.firstLive (← slab.next slot)
    return some (slot, rest)

/-- All entries with what the slab stores for them, tombstones included. -/
def records (slab : Slab) : Checked (List (Slot × Record)) := do
  (← slab.slots).mapM fun slot => return (slot, ← slab.record slot)

end Slab
end PackedMap
