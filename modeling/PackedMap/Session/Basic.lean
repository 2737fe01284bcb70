import PackedMap.Map.Merge
import PackedMap.Session.Command
import PackedMap.Session.Reply
import PackedMap.Text.Inspect

/-!
# Sessions

A session holds maps by name and cursors by name.  Each command works on one map of the session, or
on two; its answer is a reply, the size of the map it may have changed, and the runs of hooks.
-/

namespace PackedMap

/-- The counters of a map and its capacity. -/
structure MapSize where
  /-- Number of live entries. -/
  size : Nat
  /-- Number of tombstones. -/
  tombstones : Nat
  /-- Bytes that may be used without growing. -/
  capacity : Nat
deriving DecidableEq, Repr

/-- The answer to a command. -/
structure Answer where
  /-- The reply. -/
  reply : Reply
  /-- If the command can change a map, the size of that map afterwards, if it is there. -/
  size : Option (Option MapSize)
  /-- The runs of hooks, first one first. -/
  events : List Event

/-- Maps and cursors by name. -/
structure Session where
  /-- The maps. -/
  maps : List (String × Map)
  /-- The cursors. -/
  cursors : List (String × Slot)

/-- The counters of a map and its capacity. -/
def Map.measure (map : Map) : MapSize := ⟨map.size, map.tombstones, map.slab.capacity⟩

/-- The given comparator, or else the native one. -/
def Map.orderOr (map : Map) (query : Option Comparator) : Comparator := query.getD map.order

/-- Carries out a change. -/
def Change.run (map : Map) : Change → Checked (Outcome Reply)
  | .add pair flags => do
    let outcome ← map.add pair flags
    return { outcome with result := .ofExcept .addition outcome.result }
  | .erase probe query flags => do
    let outcome ← map.erase probe (map.orderOr query) flags
    return { outcome with result := .flag outcome.result }
  | .compact => do
    let outcome ← map.compact
    return { outcome with result := .ofExcept .amount outcome.result }
  | .reserve entries bytes =>
    match map.reserve entries bytes with
    | .ok (granted, map) => return ⟨.amount granted, map, []⟩
    | .error refused => return ⟨.refused refused, map, []⟩
  | .shrink => return ⟨.nothing, map.shrink, []⟩

/-- Answers a query. -/
def Query.run (map : Map) : Query → Checked Reply
  | .find probe query => return .entry (← map.find? probe (map.orderOr query))
  | .allMatches probe query => return .entries (← map.allMatches probe (map.orderOr query))
  | .range probe query => return .entries (← map.range probe (map.orderOr query))
  | .neighbors probe query => do
    let (found, near) ← map.neighbors probe (map.orderOr query)
    return .neighbors found near
  | .compare a b query => return .ordering (map.orderOr query a b)
  | .entries => return .entries (← map.entries)
  | .sorted => return .entries (← map.sorted)
  | .counts => return .counts map.size map.isEmpty map.tombstones
  | .shape => return .shape (← map.tree.shape map.slab)
  | .records => return .records (← map.slab.records)
  | .inspect layout => return .text (← map.inspect layout)
  | .inspectEntry probe query layout => do
    let found ← map.find? probe (map.orderOr query)
    return .texts (found.map fun entry =>
      [entry.inspect layout, entry.pair.inspect layout, entry.id.inspect layout])

/-- The next entry of a walk. -/
def Walk.next? (map : Map) (cursor : Option Slot) : Walk → Checked (Option Entry)
  | .matching probe query => map.nextMatch? cursor probe (map.orderOr query)
  | .everything => map.next? cursor

namespace Session

/-- A session without maps and cursors. -/
def empty : Session := ⟨[], []⟩

/-- The map of a name. -/
def map? (session : Session) (name : String) : Option Map := session.maps.lookup name

/-- The session without the map of a name. -/
def eraseMap (session : Session) (name : String) : Session :=
  { session with maps := session.maps.filter fun (other, _) => other != name }

/-- The session with a map under a name. -/
def putMap (session : Session) (name : String) (map : Map) : Session :=
  { session with maps := (name, map) :: (session.eraseMap name).maps }

theorem lookup_filter {α : Type} (entries : List (String × α)) (name other : String) :
    (entries.filter fun (here, _) => here != name).lookup other =
      if other = name then none else entries.lookup other := by
  induction entries with
  | nil => simp
  | cons entry rest ih =>
      obtain ⟨here, item⟩ := entry
      by_cases same : here = name
      · by_cases found : other = name
        · simpa [same, found] using ih
        · simpa [same, found, List.lookup_cons, beq_eq_false_iff_ne.mpr found] using ih
      · by_cases found : other = here
        · simp [same, found]
        · simpa [same, List.lookup_cons, beq_eq_false_iff_ne.mpr found] using ih

theorem map?_eraseMap (session : Session) (name other : String) :
    (session.eraseMap name).map? other = if other = name then none else session.map? other :=
  lookup_filter session.maps name other

theorem map?_putMap (session : Session) (name : String) (map : Map) (other : String) :
    (session.putMap name map).map? other =
      if other = name then some map else session.map? other := by
  have erased := session.map?_eraseMap name other
  by_cases same : other = name
  · simp [map?, putMap, same]
  · rw [if_neg same] at erased ⊢
    simpa [map?, putMap, List.lookup_cons, beq_eq_false_iff_ne.mpr same] using erased

/-- The session with a cursor set to a slot, or unset. -/
def putCursor (session : Session) (name : String) (cursor : Option Slot) : Session :=
  let others := session.cursors.filter fun (other, _) => other != name
  { session with cursors := (cursor.map ((name, ·))).toList ++ others }

/-- The slot behind which a walk goes on, if it does not start at the beginning. -/
def cursor? (session : Session) : Start → Option Slot
  | .beginning => none
  | .behind slot => some slot
  | .behindCursor name => session.cursors.lookup name

/-- The entries given up when the map of a name goes, if it is there. -/
def disposing (session : Session) (name : String) : Checked (List Event) :=
  match session.map? name with
  | none => return []
  | some map => map.dispose

/-- The answer to a command that can change the map of a name. -/
def answer (session : Session) (name : String) (reply : Reply) (events : List Event) :
    Answer × Session :=
  (⟨reply, some ((session.map? name).map Map.measure), events⟩, session)

/-- The answer to a command for a map that is not there. -/
def unanswered (session : Session) : Answer × Session := (⟨.unknownMap, none, []⟩, session)

/-- Carries out one command. -/
def step (session : Session) : Command → Checked (Answer × Session)
  | .create name order config => do
    let events ← session.disposing name
    return (session.putMap name (.empty order config)).answer name .done events
  | .dispose name => do
    let events ← session.disposing name
    return (session.eraseMap name).answer name .done events
  | .change name change =>
    match session.map? name with
    | none => return session.unanswered
    | some map => do
      let outcome ← change.run map
      return (session.putMap name outcome.map).answer name outcome.result outcome.events
  | .query name query =>
    match session.map? name with
    | none => return session.unanswered
    | some map => return (⟨← query.run map, none, []⟩, session)
  | .walk name walk start save =>
    match session.map? name with
    | none => return session.unanswered
    | some map => do
      let entry ← walk.next? map (session.cursor? start)
      let session := match save with
        | none => session
        | some cursor => session.putCursor cursor (entry.map Entry.id)
      return (⟨.entry entry, none, []⟩, session)
  | .merge name source =>
    match session.map? name, session.map? source with
    | some map, some other => do
      let outcome ← map.merge other
      return (session.putMap name outcome.map).answer name
        (.ofExcept (fun _ => .done) outcome.result) outcome.events
    | _, _ => return session.unanswered
  | .duplicate name target =>
    match session.map? name with
    | none => return session.unanswered
    | some map => do
      let (copy, copied) ← map.duplicate
      let freed ← session.disposing target
      return (session.putMap target copy).answer target .done (copied ++ freed)

end Session

end PackedMap
