import PackedMap.Map.Query
import PackedMap.Map.Update

/-!
# Merging and duplicating

A map can take over copies of all live entries of another, or of none: a refusal in the middle puts
a snapshot of the contents back in their place.  A duplicate takes over the slab as it is,
tombstones included.  The copy hook of the map that gives the entries changes the copied values.
-/

namespace PackedMap

/-- Changes the value at a slot as a copy hook wants it, and reports the run of the hook. -/
def Slab.runCopyHook (slab : Slab) (hook : Option CopyHook) (slot : Slot) (source : Entry) :
    Checked (Slab × List Event) := do
  match hook with
  | none => return (slab, [])
  | some hook =>
    let slab ← slab.setValue slot (hook.apply (← slab.value slot) source)
    return (slab, [.copied source])

namespace Map

/-- Returns to earlier contents, and gives up the live entries appended since. -/
def restore (map : Map) (earlier : Contents) : Checked (Map × List Event) := do
  let events ← map.freeing (← map.slab.liveFrom earlier.slab.endSlot)
  return ({ map with toContents := earlier }, events)

/-- Adds copies of entries one after another, and returns to earlier contents if one is refused. -/
def addCopies (hook : Option CopyHook) (earlier : Contents) :
    List Entry → Map → Checked (Outcome (Except CapacityError Unit))
  | [], map => return ⟨.ok (), map, []⟩
  | source :: rest, map => do
    let outcome ← map.addEntry source.pair .empty
    match outcome.result with
    | .error refused =>
      let (map, events) ← outcome.map.restore earlier
      return ⟨.error refused, map, events⟩
    | .ok (.added, slot) =>
      let (slab, events) ← outcome.map.slab.runCopyHook hook slot source
      return (← addCopies hook earlier rest { outcome.map with slab }).after events
    | .ok _ => addCopies hook earlier rest outcome.map

/-- Adds a copy of every live entry of another map, or none at all.  An entry that compares equal to
one already there is left out. -/
def merge (map source : Map) : Checked (Outcome (Except CapacityError Unit)) := do
  addCopies source.copyHook map.toContents.snapshot (← source.entries) map

/-- Runs a copy hook over copied entries in a slab. -/
def changeCopies (hook : Option CopyHook) : List Entry → Slab → Checked (Slab × List Event)
  | [], slab => return (slab, [])
  | source :: rest, slab => do
    let (slab, events) ← slab.runCopyHook hook source.id source
    let (slab, later) ← changeCopies hook rest slab
    return (slab, events ++ later)

/-- A second map with the same entries, tombstones and hooks, and no spare room. -/
def duplicate (map : Map) : Checked (Map × List Event) := do
  let (slab, events) ← changeCopies map.copyHook (← map.entries) map.slab.shrink
  return ({ map with slab }, events)

end Map

end PackedMap
