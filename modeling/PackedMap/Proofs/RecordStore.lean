import PackedMap.Proofs.Slab.Ledger
import PackedMap.Session.Workbench

/-!
# Slabs as stores of records

Whatever sequence of operations a workbench carries out on the entries of its slab, it answers as a
list of records would, and the bytes of its slab, and of the one it put aside, are the written form
of that list.  What a reservation grants can be appended.
-/

namespace PackedMap

/-- A command to a workbench, or one of two operations on slabs that no command is: to append an
entry in room that was reserved before, and to tell the units of an entry. -/
inductive StoreCommand
  | bench (command : BenchCommand)
  | append (pair : Pair)
  | unitsAt (slot : Slot)

namespace Workbench

/-- Carries out one command to the slabs of a workbench. -/
def carry (bench : Workbench) : StoreCommand → Checked (Reply × Workbench)
  | .bench command => bench.step command
  | .append pair => do
    let (slot, slab) ← bench.slab.push pair
    return (.link (some slot), { bench with slab })
  | .unitsAt slot => do return (.amount (← bench.slab.unitsAt slot), bench)

/-- Carries out commands one after another. -/
def carryAll (bench : Workbench) : List StoreCommand → Checked (List Reply × Workbench)
  | [] => return ([], bench)
  | command :: rest => do
    let (reply, bench) ← bench.carry command
    let (replies, bench) ← bench.carryAll rest
    return (reply :: replies, bench)

end Workbench

/-- A ledger under work, with one put aside. -/
structure Shelf where
  /-- The ledger. -/
  ledger : Ledger
  /-- The ledger put aside. -/
  saved : Option Ledger

namespace Shelf

/-- A shelf with an empty ledger. -/
def empty (initial limit : Nat) : Shelf := ⟨.empty initial limit, none⟩

/-- The shelf with another ledger under work. -/
def on (shelf : Shelf) (ledger : Ledger) : Shelf := { shelf with ledger }

/-- The shelf with a change to the record at a slot, if one starts there. -/
def update (shelf : Shelf) (slot : Slot) (change : Record → Record) : Option (Reply × Shelf) :=
  (shelf.ledger.at? slot).map fun _ => (.nothing, shelf.on (shelf.ledger.update slot change))

/-- Carries out one command on a list of records.  There is no answer to a command for a slot where
no record starts, to a second tombstone for one record, to an entry that no room was reserved for,
and to a command for the tree. -/
def act (shelf : Shelf) : StoreCommand → Option (Reply × Shelf)
  | .bench (.reserve entries bytes) =>
      let needed := shelf.ledger.needed entries.toNat bytes.toNat
      some <| if needed ≤ shelf.ledger.limit then
        (.amount (Slab.advance entries.toNat bytes.toNat), shelf.on (shelf.ledger.grow needed))
      else
        (.refused ⟨min needed (UInt64.size - 1), shelf.ledger.limit⟩, shelf)
  | .bench (.push pair) =>
      let needed := shelf.ledger.needed 1 pair.size
      some <| if needed ≤ shelf.ledger.limit then
        (.link shelf.ledger.last, shelf.on ((shelf.ledger.grow needed).append pair))
      else
        (.refused ⟨min needed (UInt64.size - 1), shelf.ledger.limit⟩, shelf)
  | .append pair =>
      if (Record.total shelf.ledger.records + (Record.detached pair).units) * unitSize ≤
          shelf.ledger.capacity then
        some (.link shelf.ledger.last, shelf.on (shelf.ledger.append pair))
      else
        none
  | .bench (.truncate none) => some (.nothing, shelf)
  | .bench (.truncate (some slot)) =>
      (shelf.ledger.at? slot).map fun _ => (.nothing, shelf.on (shelf.ledger.before slot))
  | .bench (.contains link) =>
      some (.flag (link.any fun slot => decide (slot.index < shelf.ledger.last.index)), shelf)
  | .bench (.record (some slot)) =>
      (shelf.ledger.at? slot).map fun record => (.record record (shelf.ledger.behind slot), shelf)
  | .bench (.pair (some slot)) =>
      (shelf.ledger.at? slot).map fun record => (.pair record.pair, shelf)
  | .unitsAt slot => (shelf.ledger.at? slot).map fun record => (.amount record.units, shelf)
  | .bench (.setChild (some slot) side link) => shelf.update slot (·.withChild link.stored side)
  | .bench (.setBalance (some slot) balance) => shelf.update slot (·.withBalance balance)
  | .bench (.layTombstone (some slot)) =>
      if (shelf.ledger.at? slot).any Record.tombstone then none
      else shelf.update slot Record.entomb
  | .bench (.setValue (some slot) bytes) => shelf.update slot (·.lay bytes)
  | .bench .records => some (.records shelf.ledger.placed, shelf)
  | .bench .shrink => some (.nothing, shelf.on shelf.ledger.shrink)
  | .bench .limit => some (.amount shelf.ledger.limit, shelf)
  | .bench .saveSnapshot => some (.nothing, ⟨shelf.ledger, some shelf.ledger⟩)
  | .bench .saveCopy => some (.nothing, ⟨shelf.ledger, some shelf.ledger.shrink⟩)
  | .bench .swap =>
      some (.nothing, shelf.saved.elim shelf fun saved => ⟨saved, some shelf.ledger⟩)
  | _ => none

/-- Carries out commands one after another. -/
def actAll (shelf : Shelf) : List StoreCommand → Option (List Reply × Shelf)
  | [] => some ([], shelf)
  | command :: rest => do
    let (reply, shelf) ← shelf.act command
    let (replies, shelf) ← shelf.actAll rest
    return (reply :: replies, shelf)

/-- The workbench that a shelf is written to. -/
def bench (shelf : Shelf) (tree : Tree) : Workbench :=
  ⟨shelf.ledger.slab, tree, shelf.saved.map Ledger.slab⟩

/-- Both ledgers of a shelf are sound. -/
structure Sound (shelf : Shelf) : Prop where
  ledger : shelf.ledger.Sound
  saved : ∀ ledger ∈ shelf.saved, ledger.Sound

variable {shelf after : Shelf} {reply : Reply} {tree : Tree}

theorem Sound.on (sound : shelf.Sound) {ledger : Ledger} (other : ledger.Sound) :
    (shelf.on ledger).Sound :=
  ⟨other, sound.saved⟩

theorem update_eq {slot : Slot} {change : Record → Record}
    (acted : shelf.update slot change = some (reply, after)) :
    ∃ record, shelf.ledger.at? slot = some record ∧ reply = .nothing ∧
      after = shelf.on (shelf.ledger.update slot change) := by
  obtain ⟨record, here, same⟩ := Option.map_eq_some_iff.mp acted
  obtain ⟨rfl, rfl⟩ := Prod.mk.inj same
  exact ⟨record, here, rfl, rfl⟩

theorem slab_bench : (shelf.bench tree).slab = shelf.ledger.slab := rfl

theorem bench_on {ledger : Ledger} {slab : Slab} (written : slab = ledger.slab) :
    (shelf.on ledger).bench tree = { shelf.bench tree with slab } := by
  rw [written]
  rfl

theorem Sound.reserve (sound : shelf.Sound) {entries bytes : UInt64}
    (acted : shelf.act (.bench (.reserve entries bytes)) = some (reply, after)) :
    (shelf.bench tree).carry (.bench (.reserve entries bytes)) = .ok (reply, after.bench tree) ∧
      after.Sound := by
  have reserved := sound.ledger.reserve entries bytes
  simp only [act, Option.some.injEq] at acted
  split at acted
  · next fits =>
      obtain ⟨rfl, rfl⟩ := Prod.mk.inj acted
      refine ⟨?_, sound.on (sound.ledger.grow _)⟩
      rw [if_pos fits] at reserved
      rw [Workbench.carry, Workbench.step, slab_bench, reserved]
      rfl
  · next full =>
      obtain ⟨rfl, rfl⟩ := Prod.mk.inj acted
      refine ⟨?_, sound⟩
      rw [if_neg full] at reserved
      rw [Workbench.carry, Workbench.step, slab_bench, reserved]
      rfl

theorem Sound.push (sound : shelf.Sound) {pair : Pair}
    (acted : shelf.act (.bench (.push pair)) = some (reply, after)) :
    (shelf.bench tree).carry (.bench (.push pair)) = .ok (reply, after.bench tree) ∧
      after.Sound := by
  have reserved := sound.ledger.reservePair pair
  simp only [act, Option.some.injEq] at acted
  split at acted
  · next fits =>
      obtain ⟨rfl, rfl⟩ := Prod.mk.inj acted
      have room := @Ledger.room_of_needed shelf.ledger 1 pair.size [pair] fits (Nat.le_refl 1)
        (Nat.le_refl pair.size)
      obtain ⟨pushed, left⟩ := (sound.ledger.grow _).push room
      refine ⟨?_, sound.on left⟩
      rw [if_pos fits] at reserved
      rw [Workbench.carry, Workbench.step, slab_bench, reserved]
      exact Checked.bind_eq pushed _
  · next full =>
      obtain ⟨rfl, rfl⟩ := Prod.mk.inj acted
      refine ⟨?_, sound⟩
      rw [if_neg full] at reserved
      rw [Workbench.carry, Workbench.step, slab_bench, reserved]
      rfl

/-- A workbench does to its slabs what the command does to the records. -/
theorem Sound.carry (sound : shelf.Sound) {command : StoreCommand}
    (acted : shelf.act command = some (reply, after)) :
    (shelf.bench tree).carry command = .ok (reply, after.bench tree) ∧ after.Sound := by
  have ledger := sound.ledger
  cases command with
  | append pair =>
      rw [act] at acted
      split at acted
      · next room =>
          obtain ⟨rfl, rfl⟩ := Prod.mk.inj (Option.some.inj acted)
          obtain ⟨pushed, left⟩ := ledger.push room
          exact ⟨Checked.bind_eq pushed _, sound.on left⟩
      · cases acted
  | unitsAt slot =>
      obtain ⟨record, here, same⟩ := Option.map_eq_some_iff.mp acted
      obtain ⟨rfl, rfl⟩ := Prod.mk.inj same
      exact ⟨Checked.bind_eq (ledger.unitsAt here) _, sound⟩
  | bench command =>
      cases command with
      | reserve entries bytes => exact sound.reserve acted
      | push pair => exact sound.push acted
      | truncate link =>
          cases link with
          | none =>
              obtain ⟨rfl, rfl⟩ := Prod.mk.inj (Option.some.inj acted)
              exact ⟨rfl, sound⟩
          | some slot =>
              obtain ⟨record, here, same⟩ := Option.map_eq_some_iff.mp acted
              obtain ⟨rfl, rfl⟩ := Prod.mk.inj same
              obtain ⟨truncated, left⟩ := ledger.truncate here
              rw [bench_on truncated]
              exact ⟨rfl, sound.on left⟩
      | contains link =>
          obtain ⟨rfl, rfl⟩ := Prod.mk.inj (Option.some.inj acted)
          rw [← ledger.contains link]
          exact ⟨rfl, sound⟩
      | record link =>
          cases link with
          | none => cases acted
          | some slot =>
              obtain ⟨record, here, same⟩ := Option.map_eq_some_iff.mp acted
              obtain ⟨rfl, rfl⟩ := Prod.mk.inj same
              refine ⟨?_, sound⟩
              exact (Checked.bind_eq (ledger.record here) _).trans
                (Checked.bind_eq (ledger.next here) _)
      | setChild link side child =>
          cases link with
          | none => cases acted
          | some slot =>
              obtain ⟨record, here, rfl, rfl⟩ := update_eq acted
              obtain ⟨written, left⟩ := ledger.setChild here side child
              exact ⟨Checked.bind_eq written _, sound.on left⟩
      | setBalance link balance =>
          cases link with
          | none => cases acted
          | some slot =>
              obtain ⟨record, here, rfl, rfl⟩ := update_eq acted
              obtain ⟨written, left⟩ := ledger.setBalance here balance
              exact ⟨Checked.bind_eq written _, sound.on left⟩
      | layTombstone link =>
          cases link with
          | none => cases acted
          | some slot =>
              rw [act] at acted
              split at acted
              · cases acted
              · next live =>
                  obtain ⟨record, here, rfl, rfl⟩ := update_eq acted
                  have alive : record.tombstone = false := by simpa [here] using live
                  obtain ⟨written, left⟩ := ledger.layTombstone here alive
                  exact ⟨Checked.bind_eq written _, sound.on left⟩
      | setValue link bytes =>
          cases link with
          | none => cases acted
          | some slot =>
              obtain ⟨record, here, rfl, rfl⟩ := update_eq acted
              obtain ⟨written, left⟩ := ledger.setValue here bytes
              exact ⟨Checked.bind_eq written _, sound.on left⟩
      | records =>
          obtain ⟨rfl, rfl⟩ := Prod.mk.inj (Option.some.inj acted)
          exact ⟨Checked.bind_eq ledger.records _, sound⟩
      | shrink =>
          obtain ⟨rfl, rfl⟩ := Prod.mk.inj (Option.some.inj acted)
          obtain ⟨shrunk, left⟩ := ledger.shrink
          rw [bench_on shrunk]
          exact ⟨rfl, sound.on left⟩
      | limit =>
          obtain ⟨rfl, rfl⟩ := Prod.mk.inj (Option.some.inj acted)
          exact ⟨rfl, sound⟩
      | saveSnapshot =>
          obtain ⟨rfl, rfl⟩ := Prod.mk.inj (Option.some.inj acted)
          refine ⟨?_, ledger, by simpa using ledger⟩
          rw [Workbench.carry, Workbench.step, slab_bench, ledger.snapshot]
          rfl
      | saveCopy =>
          obtain ⟨rfl, rfl⟩ := Prod.mk.inj (Option.some.inj acted)
          obtain ⟨shrunk, left⟩ := ledger.shrink
          refine ⟨?_, ledger, by simpa using left⟩
          rw [Workbench.carry, Workbench.step, slab_bench, shrunk]
          rfl
      | swap =>
          obtain ⟨rfl, rfl⟩ := Prod.mk.inj (Option.some.inj acted)
          obtain ⟨current, saved⟩ := shelf
          cases saved with
          | none => exact ⟨rfl, sound⟩
          | some saved => exact ⟨rfl, sound.saved saved rfl, by simpa using ledger⟩
      | pair link =>
          cases link with
          | none => cases acted
          | some slot =>
              obtain ⟨record, here, same⟩ := Option.map_eq_some_iff.mp acted
              obtain ⟨rfl, rfl⟩ := Prod.mk.inj same
              exact ⟨Checked.bind_eq (ledger.pair here) _, sound⟩
      | insert | remove | find | neighbors | range | inOrder | ofSorted | reset | shape =>
          cases acted

theorem Sound.carryAll (sound : shelf.Sound) {commands : List StoreCommand}
    {replies : List Reply} (acted : shelf.actAll commands = some (replies, after)) :
    (shelf.bench tree).carryAll commands = .ok (replies, after.bench tree) ∧ after.Sound := by
  induction commands generalizing shelf replies with
  | nil =>
      obtain ⟨rfl, rfl⟩ := Prod.mk.inj (Option.some.inj acted)
      exact ⟨rfl, sound⟩
  | cons command rest ih =>
      obtain ⟨⟨reply, middle⟩, here, later⟩ := Option.bind_eq_some_iff.mp acted
      obtain ⟨⟨others, ended⟩, goes_on, same⟩ := Option.bind_eq_some_iff.mp later
      obtain ⟨rfl, rfl⟩ := Prod.mk.inj (Option.some.inj same)
      obtain ⟨carried, left⟩ := sound.carry here
      obtain ⟨carried_on, ended_left⟩ := ih left goes_on
      exact ⟨(Checked.bind_eq carried _).trans (Checked.bind_eq carried_on _), ended_left⟩

/-- Entries that there is room for can be appended one after another. -/
theorem exists_appended {pairs : List Pair}
    (room : (Record.total shelf.ledger.records + Cell.total (pairs.map Cell.live)) * unitSize ≤
      shelf.ledger.capacity) :
    ∃ replies after, shelf.actAll (pairs.map .append) = some (replies, after) ∧
      after.ledger.records = shelf.ledger.records ++ pairs.map Record.detached := by
  induction pairs generalizing shelf with
  | nil => exact ⟨[], shelf, rfl, (List.append_nil _).symm⟩
  | cons pair rest ih =>
      rw [List.map_cons, Cell.total, ← Nat.add_assoc] at room
      have first : (Record.total shelf.ledger.records + (Record.detached pair).units) * unitSize ≤
          shelf.ledger.capacity :=
        Nat.le_trans (Nat.mul_le_mul_right _ (Nat.le_add_right ..)) room
      have acted : shelf.act (.append pair) =
          some (.link shelf.ledger.last, shelf.on (shelf.ledger.append pair)) := if_pos first
      have later : (Record.total (shelf.ledger.append pair).records +
          Cell.total (rest.map Cell.live)) * unitSize ≤ (shelf.ledger.append pair).capacity := by
        rw [Ledger.append, Record.total_append]
        exact room
      obtain ⟨replies, after, goes_on, records_eq⟩ :=
        @ih (shelf.on (shelf.ledger.append pair)) later
      refine ⟨.link shelf.ledger.last :: replies, after, ?_, ?_⟩
      · rw [List.map_cons, actAll, acted]
        exact Option.bind_eq_some_iff.mpr
          ⟨_, rfl, Option.bind_eq_some_iff.mpr ⟨_, goes_on, rfl⟩⟩
      · rw [records_eq, Shelf.on, Ledger.append, List.append_assoc]
        rfl

/-- What a reservation grants can be appended. -/
theorem Sound.carry_reserved (sound : shelf.Sound) {entries bytes : UInt64} {granted : Nat}
    {reserved : Workbench}
    (carried : (shelf.bench tree).carry (.bench (.reserve entries bytes)) =
      .ok (.amount granted, reserved))
    {pairs : List Pair} (few : pairs.length ≤ entries.toNat)
    (small : Pair.totalSize pairs ≤ bytes.toNat) :
    ∃ replies after, reserved.carryAll (pairs.map .append) = .ok (replies, bench after tree) ∧
      after.ledger.records = shelf.ledger.records ++ pairs.map Record.detached := by
  by_cases fits : shelf.ledger.needed entries.toNat bytes.toNat ≤ shelf.ledger.limit
  · let roomy := shelf.on (shelf.ledger.grow (shelf.ledger.needed entries.toNat bytes.toNat))
    have acted : shelf.act (.bench (.reserve entries bytes)) = some (_, roomy) :=
      congrArg some (if_pos fits)
    obtain ⟨told, left⟩ := sound.carry acted
    obtain ⟨-, rfl⟩ := Prod.mk.inj (Except.ok.inj (carried.symm.trans told))
    obtain ⟨replies, after, appended, records_eq⟩ :=
      @exists_appended roomy pairs (Ledger.room_of_needed fits few small)
    exact ⟨replies, after, (left.carryAll appended).1, records_eq⟩
  · have acted : shelf.act (.bench (.reserve entries bytes)) = some (_, _) :=
      congrArg some (if_neg fits)
    obtain ⟨told, -⟩ := sound.carry acted
    cases carried.symm.trans told

end Shelf

/-- Along every sequence of commands for entries of its slab a workbench answers as the list of
records does, and its slabs are the written form of the lists.  A record stands at the units of
those before it, and what a reservation grants can be appended. -/
theorem workbench_keeps_records (initial limit : Nat) {commands : List StoreCommand}
    {replies : List Reply} {shelf : Shelf}
    (acted : (Shelf.empty initial limit).actAll commands = some (replies, shelf)) :
    (Workbench.ofLimit initial limit).carryAll commands = .ok (replies, shelf.bench .empty) ∧
      (∀ front record back, shelf.ledger.records = front ++ record :: back →
        shelf.ledger.at? (.ofUnits (Record.total front)) = some record ∧
          (Slot.ofUnits (Record.total front)).index.toNat = Record.total front) ∧
      ∀ entries bytes granted reserved,
        (shelf.bench .empty).carry (.bench (.reserve entries bytes)) =
          .ok (.amount granted, reserved) →
        ∀ pairs : List Pair, pairs.length ≤ entries.toNat → Pair.totalSize pairs ≤ bytes.toNat →
          ∃ others after,
            reserved.carryAll (pairs.map .append) = .ok (others, Shelf.bench after .empty) ∧
              after.ledger.records = shelf.ledger.records ++ pairs.map Record.detached := by
  have start : (Shelf.empty initial limit).Sound := ⟨.empty initial limit, by simp [Shelf.empty]⟩
  obtain ⟨carried, sound⟩ := start.carryAll acted
  exact ⟨carried, fun _ _ _ split => sound.ledger.at_split split,
    fun _ _ _ _ granted _ few small => sound.carry_reserved granted few small⟩

/-- A run in which entries are added, changed, dropped and read, beside a snapshot. -/
def storingRun : List StoreCommand :=
  [.bench (.push ⟨[107], [118, 119]⟩), .bench (.reserve 2 1), .append ⟨[108], []⟩,
    .append ⟨[], []⟩, .bench (.setChild (some ⟨0⟩) .right (some ⟨4⟩)),
    .bench (.setBalance (some ⟨0⟩) .rightHeavy), .bench .saveSnapshot,
    .bench (.setValue (some ⟨0⟩) [1]), .bench (.layTombstone (some ⟨4⟩)),
    .bench (.truncate (some ⟨8⟩)), .bench (.record (some ⟨0⟩)), .bench .swap]

/-- What that run answers. -/
def storingReplies : List Reply :=
  [.link (some ⟨0⟩), .amount 7, .link (some ⟨4⟩), .link (some ⟨8⟩), .nothing, .nothing, .nothing,
    .nothing, .nothing, .nothing,
    .record ⟨none, some ⟨4⟩, .rightHeavy, false, ⟨[107], [1, 119]⟩⟩ ⟨4⟩, .nothing]

theorem workbench_keeps_records_shelved : ∃ shelf,
    (Shelf.empty 0 1000).actAll storingRun = some (storingReplies, shelf) ∧
      (Workbench.ofLimit 0 1000).carryAll storingRun =
        .ok (storingReplies, shelf.bench .empty) :=
  ⟨_, rfl, (workbench_keeps_records 0 1000 rfl).1⟩

end PackedMap
