import PackedMap.Proofs.Comparator
import PackedMap.Proofs.Map.Alike

/-!
# Spare room

Nothing but the capacity itself tells how much spare room a map has.  A run of commands gets the
same answers if reservations and shrinkings are put in anywhere, if maps are created with other
first capacities, and if the run goes on with a duplicate of a map without copy hook in its place.
-/

namespace PackedMap

/-- The counters as if there were no capacity. -/
def MapSize.bare (size : MapSize) : MapSize := { size with capacity := 0 }

/-- The answer as if no map had a capacity. -/
def Answer.bare (answer : Answer) : Answer :=
  { answer with size := answer.size.map (Option.map MapSize.bare) }

/-- A command of a run, or a change to spare room. -/
inductive Move
  /-- A command. -/
  | given (command : Command)
  /-- Creates an empty map, with another first capacity in the padded run. -/
  | create (name : String) (order : Comparator) (config : Config) (initial : Nat)
  /-- Reserves room in a map, in the padded run only. -/
  | reserve (name : String) (entries bytes : UInt64)
  /-- Gives up the spare room of a map, in the padded run only. -/
  | shrink (name : String)
  /-- Replaces a map by a duplicate of it, in the padded run only. -/
  | renew (name : String)

namespace Move

/-- The command of the plain run, if there is one. -/
def plain : Move → Option Command
  | .given command => some command
  | .create name order config _ => some (.create name order config)
  | .reserve _ _ _ | .shrink _ | .renew _ => none

/-- The command of the padded run. -/
def padded : Move → Command
  | .given command => command
  | .create name order config initial =>
      .create name order { config with initialCapacity := initial }
  | .reserve name entries bytes => .change name (.reserve entries bytes)
  | .shrink name => .change name .shrink
  | .renew name => .duplicate name name

end Move

/-- A command keeps maps sorted: comparators are lawful, and those of maps that take copies do not
look at what the copy hook changes. -/
def Command.Lawful (session : Session) : Command → Prop
  | .create _ order _ => Std.TransCmp order
  | .merge name source => ∀ map other, session.map? name = some map →
      session.map? source = some other → map.order.Ignores other.copyHook
  | .duplicate name _ => ∀ map, session.map? name = some map → map.order.Ignores map.copyHook
  | .dispose _ | .change _ _ | .query _ _ | .walk _ _ _ _ => True

/-- A move is lawful if its command is; only maps without copy hook are replaced by duplicates. -/
def Move.Lawful (session : Session) : Move → Prop
  | .given command => command.Lawful session
  | .create _ order _ _ => Std.TransCmp order
  | .reserve _ _ _ | .shrink _ => True
  | .renew name => ∀ map, session.map? name = some map → map.copyHook = none

namespace Session

/-- The answers to some commands. -/
def answers (session : Session) : List Command → Checked (List Answer)
  | [] => return []
  | command :: rest => do
    let (answer, after) ← session.step command
    return answer :: (← after.answers rest)

/-- The answers of a padded run to the commands that the plain run has too. -/
def paddedAnswers (session : Session) : List Move → Checked (List Answer)
  | [] => return []
  | move :: rest => do
    let (answer, after) ← session.step move.padded
    let later ← after.paddedAnswers rest
    return if move.plain.isSome then answer :: later else later

/-- Every move of a run is lawful where the plain run comes to it. -/
def Lawful (session : Session) : List Move → Prop
  | [] => True
  | move :: rest => move.Lawful session ∧
      match move.plain with
      | none => session.Lawful rest
      | some command =>
          match session.step command with
          | .error _ => True
          | .ok (_, after) => after.Lawful rest

/-- The session that a move of the plain run leads to, where a fault leaves it as it is. -/
def after (session : Session) (move : Move) : Session :=
  match move.plain with
  | none => session
  | some command =>
      match session.step command with
      | .error _ => session
      | .ok (_, after) => after

theorem Lawful.cons {session : Session} {move : Move} {rest : List Move}
    (here : move.Lawful session) (later : (session.after move).Lawful rest) :
    session.Lawful (move :: rest) := by
  refine ⟨here, ?_⟩
  rw [Session.after] at later
  cases plain : move.plain with
  | none =>
      rw [plain] at later
      exact later
  | some command =>
      simp only [plain] at later ⊢
      cases run : session.step command with
      | error fault => trivial
      | ok ended =>
          rw [run] at later
          exact later

end Session

/-! ## Maps that differ in capacity -/

/-- A map is in a sorted state, and another one differs from it in capacity at most. -/
def Map.Twin (map map' : Map) : Prop :=
  ∃ state state' : State, state.Describes map ∧ state.Alike state' ∧ state'.on map = map'

namespace Map.Twin

variable {map map' source source' : Map}

theorem bare_eq (twin : map.Twin map') : map'.bare = map.bare := by
  obtain ⟨state, state', described, alike, rfl⟩ := twin
  have bare_eq := alike.bare map
  rwa [described.same] at bare_eq

theorem of_describes {state : State} (described : state.Describes map) : map.Twin map :=
  ⟨state, state, described, .refl state, described.same⟩

theorem empty (order : Comparator) [Std.TransCmp order] (config : Config) (initial : Nat) :
    (Map.empty order config).Twin (.empty order { config with initialCapacity := initial }) :=
  ⟨_, .empty initial config.limit, State.describes_empty order config, ⟨rfl, rfl, rfl⟩, rfl⟩

/-- What does not look at the capacity is the same of both maps. -/
theorem blind {α : Type} (twin : map.Twin map') (read : Map → α)
    (blind : ∀ map, read map.bare = read map) : read map' = read map := by
  rw [← blind, twin.bare_eq, blind]

theorem query_eq (twin : map.Twin map') (query : Query) : query.run map' = query.run map :=
  twin.blind (query.run ·) (query.run_bare ·)

theorem walk_eq (twin : map.Twin map') (cursor : Option Slot) (walk : Walk) :
    walk.next? map' cursor = walk.next? map cursor :=
  twin.blind (walk.next? · cursor) (Walk.next?_bare · cursor walk)

theorem dispose_eq (twin : map.Twin map') : map'.dispose = map.dispose :=
  twin.blind Map.dispose Map.dispose_bare

theorem entries_eq (twin : map.Twin map') : map'.entries = map.entries :=
  twin.blind Map.entries Map.entries_bare

theorem duplicate_eq (twin : map.Twin map') : map'.duplicate = map.duplicate :=
  twin.blind Map.duplicate Map.duplicate_bare

theorem copyHook_eq (twin : map.Twin map') : map'.copyHook = map.copyHook :=
  twin.blind Map.copyHook fun _ => rfl

theorem measure_eq (twin : map.Twin map') : map'.measure.bare = map.measure.bare :=
  congrArg Map.measure twin.bare_eq

theorem disposes (twin : map.Twin map') : ∃ events, map.dispose = .ok events := by
  obtain ⟨state, _, described, -⟩ := twin
  exact ⟨_, described.disposes⟩

/-- A change gets the same answer from both maps and leaves them alike. -/
theorem change (twin : map.Twin map') (change : Change) :
    ∃ reply events after after', after.Twin after' ∧
      change.run map = .ok ⟨reply, after, events⟩ ∧
      change.run map' = .ok ⟨reply, after', events⟩ := by
  obtain ⟨state, state', described, alike, rfl⟩ := twin
  obtain ⟨reply, events, after, step, left, run⟩ := described.change change
  obtain ⟨after', step', ended⟩ := step.alike alike
  exact ⟨reply, events, _, _, ⟨after, after', left, ended, rfl⟩, run, step'.run⟩

/-- A merge gets the same answer from both maps and leaves them alike. -/
theorem merge (twin : map.Twin map') (source_twin : source.Twin source')
    (ignores : map.order.Ignores source.copyHook) :
    ∃ result events after after', after.Twin after' ∧
      map.merge source = .ok ⟨result, after, events⟩ ∧
      map'.merge source' = .ok ⟨result, after', events⟩ := by
  obtain ⟨other, _, source_described, -⟩ := id source_twin
  have read := source_described.reads
  have read' := source_twin.entries_eq.trans read
  obtain ⟨state, state', described, alike, rfl⟩ := twin
  have lawful := described.lawful
  obtain ⟨result, events, after, after', ended, sorted, run, run'⟩ :=
    alike.merge source_twin.copyHook_eq read read' ignores described.sorted
  rw [described.same] at run
  exact ⟨result, events, _, _, ⟨after, after', described.on sorted, ended, rfl⟩, run, run'⟩

/-- A duplicate has no twin but itself. -/
theorem duplicate (twin : map.Twin map') (ignores : map.order.Ignores map.copyHook) :
    ∃ copy events, copy.Twin copy ∧ map.duplicate = .ok (copy, events) := by
  obtain ⟨state, _, described, -⟩ := twin
  obtain ⟨events, after, run, left⟩ := described.duplicate
  exact ⟨_, events, of_describes (left ignores), run⟩

/-! ### Changes to one map's spare room -/

theorem reserve (twin : map.Twin map') (entries bytes : UInt64) :
    ∃ reply after', map.Twin after' ∧
      (Change.reserve entries bytes).run map' = .ok ⟨reply, after', []⟩ := by
  obtain ⟨state, state', described, alike, rfl⟩ := twin
  obtain ⟨reply, after', ended, run⟩ := alike.reserve map entries bytes
  exact ⟨reply, _, ⟨state, after', described, ended, rfl⟩, run⟩

theorem shrink (twin : map.Twin map') :
    ∃ reply after', map.Twin after' ∧ Change.shrink.run map' = .ok ⟨reply, after', []⟩ := by
  obtain ⟨state, state', described, alike, rfl⟩ := twin
  exact ⟨_, _, ⟨state, _, described, alike.shrunk, rfl⟩, State.Step.shrunk.run⟩

theorem renew (twin : map.Twin map') (hookless : map.copyHook = none) :
    ∃ after', map.Twin after' ∧ map'.duplicate = .ok (after', []) := by
  obtain ⟨state, state', described, alike, rfl⟩ := twin
  exact ⟨_, ⟨state, _, described, alike.shrunk, rfl⟩, state'.duplicate_hookless hookless⟩

end Map.Twin

/-! ## Sessions that differ in capacities -/

namespace Session

variable {session session' : Session} {name : String}

/-- Two sessions have the same cursors, and maps under the same names that differ in capacity at
most. -/
structure Twin (session session' : Session) : Prop where
  cursors_eq : session'.cursors = session.cursors
  maps : ∀ name, Option.Rel Map.Twin (session.map? name) (session'.map? name)

/-! ### Answers -/

section Answers

variable {move : Move} {rest : List Move} {answer : Answer} {after : Session}

theorem paddedAnswers_inserted (inserted : move.plain = none)
    (run : session.step move.padded = .ok (answer, after)) :
    session.paddedAnswers (move :: rest) = after.paddedAnswers rest := by
  simp only [paddedAnswers, run, inserted, Checked.ok_bind]
  exact bind_pure _

theorem paddedAnswers_shared {command : Command} (shared : move.plain = some command) :
    session.paddedAnswers (move :: rest) = do
      let (answer, after) ← session.step move.padded
      return answer :: (← after.paddedAnswers rest) := by
  simp [paddedAnswers, shared]

theorem map_cons_bare (answer : Answer) (later : Checked (List Answer)) :
    List.map Answer.bare <$> ((answer :: ·) <$> later) =
      (answer.bare :: ·) <$> (List.map Answer.bare <$> later) := by
  cases later <;> rfl

end Answers

namespace Twin

variable {map map' : Map}

theorem empty : Session.empty.Twin .empty := ⟨rfl, fun _ => .none⟩

/-- A name has no map in either session, or maps alike in both. -/
theorem map?_cases (twin : session.Twin session') (name : String) :
    (session.map? name = none ∧ session'.map? name = none) ∨
    ∃ map map', map.Twin map' ∧ session.map? name = some map ∧ session'.map? name = some map' := by
  have found := twin.maps name
  generalize session.map? name = here, session'.map? name = here' at found ⊢
  cases found with
  | some alike => exact .inr ⟨_, _, alike, rfl, rfl⟩
  | none => exact .inl ⟨rfl, rfl⟩

theorem put (twin : session.Twin session') (name : String) (alike : map.Twin map') :
    (session.putMap name map).Twin (session'.putMap name map') where
  cursors_eq := twin.cursors_eq
  maps other := by
    rw [map?_putMap, map?_putMap]
    split
    · exact .some alike
    · exact twin.maps other

/-- A map of the second session may be replaced by another twin of the map of its name. -/
theorem put_right (twin : session.Twin session') (here : session.map? name = some map)
    (alike : map.Twin map') : session.Twin (session'.putMap name map') where
  cursors_eq := twin.cursors_eq
  maps other := by
    rw [map?_putMap]
    split
    · next same =>
        rw [same, here]
        exact .some alike
    · exact twin.maps other

theorem erase (twin : session.Twin session') (name : String) :
    (session.eraseMap name).Twin (session'.eraseMap name) where
  cursors_eq := twin.cursors_eq
  maps other := by
    rw [map?_eraseMap, map?_eraseMap]
    split
    · exact .none
    · exact twin.maps other

theorem putCursor (twin : session.Twin session') (name : String) (cursor : Option Slot) :
    (session.putCursor name cursor).Twin (session'.putCursor name cursor) where
  cursors_eq := by rw [Session.putCursor, Session.putCursor, twin.cursors_eq]
  maps := twin.maps

theorem cursor?_eq (twin : session.Twin session') (start : Start) :
    session'.cursor? start = session.cursor? start := by
  cases start with
  | beginning | behind slot => rfl
  | behindCursor name => rw [cursor?, twin.cursors_eq, cursor?]

/-- What goes with the map of a name is the same in both sessions. -/
theorem disposing (twin : session.Twin session') (name : String) :
    ∃ events, session.disposing name = .ok events ∧ session'.disposing name = .ok events := by
  rw [Session.disposing, Session.disposing]
  rcases twin.map?_cases name with ⟨absent, absent'⟩ | ⟨map, map', alike, here, here'⟩
  · rw [absent, absent']
    exact ⟨[], rfl, rfl⟩
  · rw [here, here']
    obtain ⟨events, run⟩ := alike.disposes
    exact ⟨events, run, alike.dispose_eq.trans run⟩

end Twin

/-- Two steps end in the same fault, or else in the same answer and in sessions alike, but for
capacities. -/
inductive SameStep : Checked (Answer × Session) → Checked (Answer × Session) → Prop
  | fault (fault : Fault) : SameStep (.error fault) (.error fault)
  | done {answer answer' : Answer} {after after' : Session} :
      answer'.bare = answer.bare → after.Twin after' →
      SameStep (.ok (answer, after)) (.ok (answer', after'))

namespace Twin

theorem answer (twin : session.Twin session') (name : String) (reply : Reply)
    (events : List Event) :
    SameStep (.ok (session.answer name reply events))
      (.ok (session'.answer name reply events)) := by
  refine .done ?_ twin
  rcases twin.map?_cases name with ⟨absent, absent'⟩ | ⟨map, map', alike, here, here'⟩
  · rw [absent, absent']
  · rw [here, here']
    exact congrArg (fun size => Answer.mk reply (some (some size)) events) alike.measure_eq

theorem create (twin : session.Twin session') (name : String) (order : Comparator)
    [Std.TransCmp order] (config : Config) (initial : Nat) :
    SameStep (session.step (.create name order config))
      (session'.step (.create name order { config with initialCapacity := initial })) := by
  obtain ⟨events, run, run'⟩ := twin.disposing name
  rw [Session.step, Session.step, run, run']
  exact (twin.put name (.empty order config initial)).answer name .done events

/-- A lawful command does the same in both sessions. -/
theorem step (twin : session.Twin session') {command : Command}
    (lawful : command.Lawful session) :
    SameStep (session.step command) (session'.step command) := by
  cases command with
  | create name order config =>
      have lawful : Std.TransCmp order := lawful
      exact twin.create name order config config.initialCapacity
  | dispose name =>
      obtain ⟨events, run, run'⟩ := twin.disposing name
      rw [Session.step, Session.step, run, run']
      exact (twin.erase name).answer name .done events
  | change name change =>
      rw [Session.step, Session.step]
      rcases twin.map?_cases name with ⟨absent, absent'⟩ | ⟨map, map', alike, here, here'⟩
      · rw [absent, absent']
        exact .done rfl twin
      · obtain ⟨reply, events, after, after', left, run, run'⟩ := alike.change change
        simp only [here, here', run, run']
        exact (twin.put name left).answer name reply events
  | query name query =>
      rw [Session.step, Session.step]
      rcases twin.map?_cases name with ⟨absent, absent'⟩ | ⟨map, map', alike, here, here'⟩
      · rw [absent, absent']
        exact .done rfl twin
      · simp only [here, here', alike.query_eq]
        cases query.run map with
        | error fault => exact .fault fault
        | ok reply => exact .done rfl twin
  | walk name walk start save =>
      rw [Session.step, Session.step]
      rcases twin.map?_cases name with ⟨absent, absent'⟩ | ⟨map, map', alike, here, here'⟩
      · rw [absent, absent']
        exact .done rfl twin
      · simp only [here, here', alike.walk_eq, twin.cursor?_eq]
        cases walk.next? map (session.cursor? start) with
        | error fault => exact .fault fault
        | ok entry =>
            cases save with
            | none => exact .done rfl twin
            | some cursor => exact .done rfl (twin.putCursor cursor _)
  | merge name source =>
      rw [Session.step, Session.step]
      rcases twin.map?_cases name with ⟨absent, absent'⟩ | ⟨map, map', alike, here, here'⟩
      · rw [absent, absent']
        exact .done rfl twin
      rcases twin.map?_cases source with ⟨absent, absent'⟩ | ⟨other, other', also, there, there'⟩
      · rw [here, here', absent, absent']
        exact .done rfl twin
      · obtain ⟨result, events, after, after', left, run, run'⟩ :=
          alike.merge also (lawful map other here there)
        simp only [here, here', there, there', run, run']
        exact (twin.put name left).answer name _ events
  | duplicate name target =>
      rw [Session.step, Session.step]
      rcases twin.map?_cases name with ⟨absent, absent'⟩ | ⟨map, map', alike, here, here'⟩
      · rw [absent, absent']
        exact .done rfl twin
      · obtain ⟨copy, copied, same, run⟩ := alike.duplicate (lawful map here)
        obtain ⟨freed, gone, gone'⟩ := twin.disposing target
        simp only [here, here', alike.duplicate_eq, run, gone, gone']
        exact (twin.put target same).answer target .done (copied ++ freed)

/-- A change that only concerns the spare room of a map may be made in the second session alone. -/
theorem change_right (twin : session.Twin session') (name : String) {change : Change}
    (spare : ∀ {map map' : Map}, map.Twin map' → ∃ reply after', map.Twin after' ∧
      change.run map' = .ok ⟨reply, after', []⟩) :
    ∃ answer, ∃ after' : Session, session'.step (.change name change) = .ok (answer, after') ∧
      session.Twin after' := by
  rw [Session.step]
  rcases twin.map?_cases name with ⟨absent, absent'⟩ | ⟨map, map', alike, here, here'⟩
  · rw [absent']
    exact ⟨_, _, rfl, twin⟩
  · obtain ⟨reply, after', left, run⟩ := spare alike
    simp only [here', run]
    exact ⟨_, _, rfl, twin.put_right here left⟩

theorem renew_right (twin : session.Twin session') {name : String}
    (hookless : ∀ map, session.map? name = some map → map.copyHook = none) :
    ∃ answer, ∃ after' : Session, session'.step (.duplicate name name) = .ok (answer, after') ∧
      session.Twin after' := by
  rw [Session.step]
  rcases twin.map?_cases name with ⟨absent, absent'⟩ | ⟨map, map', alike, here, here'⟩
  · rw [absent']
    exact ⟨_, _, rfl, twin⟩
  · obtain ⟨after', left, run⟩ := alike.renew (hookless map here)
    obtain ⟨events, -, gone⟩ := twin.disposing name
    simp only [here', run, gone]
    exact ⟨_, _, rfl, twin.put_right here left⟩

/-- An inserted move leaves the sessions alike. -/
theorem inserted (twin : session.Twin session') {move : Move} (lawful : move.Lawful session)
    (inserted : move.plain = none) :
    ∃ answer, ∃ after' : Session, session'.step move.padded = .ok (answer, after') ∧
      session.Twin after' := by
  cases move with
  | given | create => cases inserted
  | reserve name entries bytes => exact twin.change_right name (·.reserve entries bytes)
  | shrink name => exact twin.change_right name (·.shrink)
  | renew name => exact twin.renew_right lawful

/-- A lawful move of both runs does the same in both sessions. -/
theorem shared (twin : session.Twin session') {move : Move} {command : Command}
    (lawful : move.Lawful session) (shared : move.plain = some command) :
    SameStep (session.step command) (session'.step move.padded) := by
  cases move with
  | given command =>
      obtain rfl := Option.some.inj shared
      exact twin.step lawful
  | create name order config initial =>
      obtain rfl := Option.some.inj shared
      have lawful : Std.TransCmp order := lawful
      exact twin.create name order config initial
  | reserve | shrink | renew => cases shared

/-- Lawful moves get the same answers in both sessions, but for capacities. -/
theorem answers_eq (twin : session.Twin session') {moves : List Move}
    (lawful : session.Lawful moves) :
    List.map Answer.bare <$> session'.paddedAnswers moves =
      List.map Answer.bare <$> session.answers (moves.filterMap Move.plain) := by
  -- The sessions are only alike throughout, since an inserted move changes the second one alone.
  induction moves generalizing session session' with
  | nil => rfl
  | cons move rest ih =>
      obtain ⟨here, later⟩ := lawful
      cases plain : move.plain with
      | none =>
          rw [plain] at later
          obtain ⟨answer, after', run, left⟩ := twin.inserted here plain
          rw [List.filterMap_cons_none plain, paddedAnswers_inserted plain run]
          exact ih left later
      | some command =>
          simp only [plain] at later
          have same := twin.shared here plain
          rw [List.filterMap_cons_some plain, paddedAnswers_shared plain, Session.answers]
          generalize session.step command = run, session'.step move.padded = run' at same later ⊢
          cases same with
          | fault fault => rfl
          | done bare_eq left =>
              simp only [Checked.ok_bind, bind_pure_comp, map_cons_bare, bare_eq, ih left later]

end Twin

end Session

/-- Spare room is not observable: whatever reservations, shrinkings and duplicates are put into a
run, and whatever first capacities its maps get, all its answers are the same but for the
capacities in them. -/
theorem spare_room_unobservable {moves : List Move} (lawful : Session.empty.Lawful moves) :
    List.map Answer.bare <$> Session.empty.paddedAnswers moves =
      List.map Answer.bare <$> Session.empty.answers (moves.filterMap Move.plain) :=
  Session.Twin.empty.answers_eq lawful

/-- A run of two maps, one of which gets and loses spare room on the way. -/
def roomyRun : List Move :=
  [.create "m" .byKey ⟨0, 100, none, true⟩ 64,
    .reserve "m" 2 6,
    .given (.change "m" (.add ⟨[107], [118]⟩ .empty)),
    .reserve "m" 1000 0,
    .given (.change "m" (.erase ⟨[107], []⟩ none .empty)),
    .renew "m",
    .create "n" .byKeyValue ⟨0, 1000, none, false⟩ 8,
    .given (.change "n" (.add ⟨[108], [119]⟩ .empty)),
    .given (.merge "m" "n"),
    .shrink "m",
    .given (.change "m" (.add ⟨[109], [120]⟩ .empty)),
    .given (.query "m" .records)]

theorem spare_room_unobservable_roomy : Session.empty.Lawful roomyRun ∧
    (Session.empty.answers (roomyRun.filterMap Move.plain)).isOk = true ∧
    List.map Answer.size <$> Session.empty.paddedAnswers roomyRun ≠
      List.map Answer.size <$> Session.empty.answers (roomyRun.filterMap Move.plain) ∧
    List.map Answer.bare <$> Session.empty.paddedAnswers roomyRun =
      List.map Answer.bare <$> Session.empty.answers (roomyRun.filterMap Move.plain) := by
  have hookless {session : Session} {name : String}
      (check : (session.map? name).all (fun map => map.copyHook.isNone) = true) :
      ∀ map, session.map? name = some map → map.copyHook = none := by
    intro map here
    rw [here] at check
    exact Option.isNone_iff_eq_none.mp check
  have lawful : Session.empty.Lawful roomyRun :=
    .cons (inferInstanceAs (Std.TransCmp Comparator.byKey)) <| .cons trivial <| .cons trivial <|
    .cons trivial <| .cons trivial <| .cons (hookless (by decide +kernel)) <|
    .cons (inferInstanceAs (Std.TransCmp Comparator.byKeyValue)) <| .cons trivial <|
    .cons (fun _ other _ there => by
      rw [hookless (by decide +kernel) other there]
      exact fun _ => rfl) <|
    .cons trivial <| .cons trivial <| .cons trivial trivial
  exact ⟨lawful, by decide +kernel, by decide +kernel, spare_room_unobservable lawful⟩

end PackedMap
