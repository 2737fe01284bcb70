/-!
# Faults

The slab and the tree check what they rely on.  A check that fails is a fault of the program, not an
answer to the user: it says that a link, a length or a count is not what the invariants promise.
-/

namespace PackedMap

/-- An internal check that failed. -/
inductive Fault
  /-- An access outside the used part of the slab. -/
  | outOfRange
  /-- A balance other than -1, 0 and 1. -/
  | unbalanced
  /-- A rotation around a child that is not there. -/
  | missingChild
  /-- A tombstone laid twice. -/
  | alreadyTombstone
  /-- An entry appended without room reserved for it. -/
  | noRoom
  /-- An entry to link in that is linked already. -/
  | stillLinked
  /-- An entry to unlink that the tree does not reach. -/
  | lostEntry
  /-- An equal entry met while a replaced entry is already gone. -/
  | stillOccupied
  /-- An entry released from a map that counts none. -/
  | sizeUnderflow
  /-- A walk longer than the slab allows. -/
  | endless
deriving DecidableEq, Repr

/-- The result of a computation under internal checks. -/
abbrev Checked (α : Type) := Except Fault α

namespace Checked

/-- A value that is there, by a check that names its fault. -/
def ofOption {α : Type} (fault : Fault) : Option α → Checked α
  | some value => .ok value
  | none => .error fault

@[simp]
theorem ofOption_some {α : Type} (fault : Fault) (value : α) :
    ofOption fault (some value) = .ok value := rfl

@[simp]
theorem pure_eq_ok {α : Type} (value : α) : (pure value : Checked α) = .ok value := rfl

@[simp]
theorem ok_bind {α β : Type} (value : α) (next : α → Checked β) :
    (Except.ok value : Checked α) >>= next = next value := rfl

theorem bind_eq {α β : Type} {run : Checked α} {value : α} (ends : run = .ok value)
    (next : α → Checked β) : run >>= next = next value := by
  rw [ends]
  rfl

/-- A computation that comes to an end has done so at each step. -/
theorem bind_eq_ok {α β : Type} {run : Checked α} {next : α → Checked β} {result : β} :
    run >>= next = .ok result ↔ ∃ value, run = .ok value ∧ next value = .ok result := by
  cases run with
  | error fault =>
      constructor
      · intro ends
        cases ends
      · rintro ⟨value, ends, -⟩
        cases ends
  | ok value =>
      constructor
      · exact fun ends => ⟨value, rfl, ends⟩
      · rintro ⟨other, same, ends⟩
        obtain rfl := Except.ok.inj same
        exact ends

@[simp]
theorem map_ok {α β : Type} (f : α → β) (value : α) :
    f <$> (Except.ok value : Checked α) = .ok (f value) := rfl

/-- A computation whose value is told has come to an end. -/
theorem exists_of_map_eq_ok {α β : Type} {run : Checked α} {f : α → β} {told : β}
    (map_eq : run.map f = .ok told) : ∃ value, run = .ok value ∧ f value = told := by
  cases run with
  | error fault => cases map_eq
  | ok value => exact ⟨value, rfl, Except.ok.inj map_eq⟩

theorem mapM_eq_ok {α β : Type} {f : α → Checked β} {g : α → β} {list : List α}
    (each : ∀ item ∈ list, f item = .ok (g item)) : list.mapM f = .ok (list.map g) := by
  induction list with
  | nil => rfl
  | cons item rest ih =>
      have later := ih fun other mem => each other (List.mem_cons_of_mem _ mem)
      rw [List.mapM_cons, each item List.mem_cons_self, later]
      rfl

end Checked

end PackedMap
