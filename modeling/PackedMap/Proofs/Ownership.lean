import Mathlib.Algebra.Order.Group.Multiset
import Mathlib.Logic.Relation
import PackedMap.Proofs.Rollback

/-!
# Ownership

A map owns the pairs that it takes over until its free hook is called with them.  Beside each map of
a run stand two books: what it took over so far, and what its free hook was called with.  After
every operation the first exceeds the second by the live entries, and at the end of a map's life the
two are the same.
-/

namespace PackedMap

/-- The pair that a free hook is called with. -/
def Event.freed? : Event → Option Pair
  | .freed entry => some entry.pair
  | .copied _ => none

/-- The pairs that free hooks are called with, each as often as that happens. -/
def freedPairs (events : List Event) : Multiset Pair := events.filterMap Event.freed?

/-- What a map takes over by a change, told by the reply. -/
def Change.taken : Change → Reply → Multiset Pair
  | .add pair _, .addition .added => {pair}
  | .add pair _, .addition .replaced => {pair}
  | _, _ => 0

/-- A map has no room for a pair. -/
def Map.Refuses (map : Map) (pair : Pair) : Prop :=
  ∃ error, map.addEntry pair .empty = .ok ⟨.error error, map, []⟩

/-- The copies that a map takes over from another one, up to the end or up to a refusal, each beside
its source. -/
def Map.Takes (map source : Map) (copies : List (Entry × Entry)) : Prop :=
  ∃ front back after, source.entries = .ok (front ++ back) ∧
    map.Copies source.copyHook front copies after ∧
    ∀ entry ∈ back.head?, after.Refuses entry.pair

/-- A map with its books. -/
structure Account where
  /-- The map. -/
  map : Map
  /-- The pairs that the map took over. -/
  taken : Multiset Pair
  /-- The pairs that the map's free hook was called with. -/
  freed : Multiset Pair

/-- An account after an operation on its map. -/
def Account.enter (account : Account) (map : Map) (taken : Multiset Pair) (events : List Event) :
    Account :=
  ⟨map, account.taken + taken, account.freed + freedPairs events⟩

/-- The accounts of a run. -/
structure Books where
  /-- The accounts of the maps that are there. -/
  current : List Account
  /-- The accounts of the maps that are gone. -/
  gone : List Account

/-- The books before any map is there. -/
def Books.empty : Books := ⟨[], []⟩

/-- One operation on one of some maps, with what it enters into the books. -/
inductive Books.Step : Books → Books → Prop
  | create (books : Books) (order : Comparator) [Std.TransCmp order] (config : Config) :
      Step books ⟨⟨.empty order config, 0, 0⟩ :: books.current, books.gone⟩
  | change {front back gone : List Account} {account : Account} {outcome : Outcome Reply}
      (change : Change) :
      change.run account.map = .ok outcome →
      Step ⟨front ++ account :: back, gone⟩
        ⟨front ++ account.enter outcome.map (change.taken outcome.result) outcome.events :: back,
          gone⟩
  | merge {front back gone : List Account} {account source : Account}
      {outcome : Outcome (Except CapacityError Unit)} {copies : List (Entry × Entry)} :
      source ∈ front ++ account :: back →
      account.map.order.Ignores source.map.copyHook →
      account.map.merge source.map = .ok outcome →
      account.map.Takes source.map copies →
      Step ⟨front ++ account :: back, gone⟩
        ⟨front ++ account.enter outcome.map (copies.map fun copy => copy.2.pair) outcome.events ::
          back, gone⟩
  | duplicate {front back gone : List Account} {account : Account} {copy : Map}
      {events : List Event} {entries : List Entry} :
      account.map.order.Ignores account.map.copyHook →
      account.map.duplicate = .ok (copy, events) →
      account.map.entries = .ok entries →
      Step ⟨front ++ account :: back, gone⟩
        ⟨⟨copy, entries.map (Entry.copied account.map.copyHook), 0⟩ ::
          (front ++ account.enter account.map 0 events :: back), gone⟩
  | dispose {front back gone : List Account} {account : Account} {events : List Event} :
      account.map.dispose = .ok events →
      Step ⟨front ++ account :: back, gone⟩
        ⟨front ++ back, account.enter account.map 0 events :: gone⟩

/-- Every operation on a map among others runs to its end. -/
structure Account.Runs (account : Account) (current : List Account) : Prop where
  change : ∀ change : Change, ∃ outcome, change.run account.map = .ok outcome
  merge : ∀ source ∈ current, ∃ outcome copies,
    account.map.merge source.map = .ok outcome ∧ account.map.Takes source.map copies
  duplicate : ∃ copy entries,
    account.map.duplicate = .ok copy ∧ account.map.entries = .ok entries
  dispose : ∃ events, account.map.dispose = .ok events

/-- What a map took over is what its free hook was called with beside its live entries, and these
are what the hook is to be called with at the end. -/
structure Account.Balances (account : Account) : Prop where
  live : ∃ entries : List Entry, account.map.entries = .ok entries ∧
    account.taken = account.freed + (entries.map Entry.pair : List Pair)
  last : ∃ events, account.map.dispose = .ok events ∧
    account.taken = account.freed + freedPairs events

/-! ## Entries of the books -/

section Freed

variable {map : Map}

@[simp]
theorem freedPairs_nil : freedPairs [] = 0 := rfl

@[simp]
theorem freedPairs_append (front back : List Event) :
    freedPairs (front ++ back) = freedPairs front + freedPairs back := by
  rw [freedPairs, List.filterMap_append, ← Multiset.coe_add]
  rfl

@[simp]
theorem freedPairs_copying (hook : Option CopyHook) (sources : List Entry) :
    freedPairs (copying hook sources) = 0 := by
  cases hook with
  | none => rfl
  | some hook => simp [freedPairs, copying, List.filterMap_map, Function.comp_def, Event.freed?]

theorem freedPairs_freed (frees : map.freeHook = true) (entries : List Entry) :
    freedPairs (map.freed entries) = (entries.map Entry.pair : List Pair) := by
  rw [Map.freed, if_pos frees, freedPairs, List.filterMap_map]
  exact congrArg _ (List.filterMap_eq_map (f := Entry.pair) ▸ rfl)

end Freed

/-! ## Pairs of a state -/

namespace State

/-- The pairs of the live entries, in no order. -/
def owned (state : State) : Multiset Pair := state.pairs

variable {state after : State} {map : Map} {pair : Pair} {slot holder : Slot}
  {linked left : Shape × Bool} {place : Slot → Ordering}

@[simp]
theorem owned_settle (state : State) (flags : Flags) :
    (state.settle flags).owned = state.owned := by
  rw [owned, pairs_settle, owned]

theorem owned_link (fits : state.stock.needed 1 pair.size ≤ state.stock.limit)
    (inserted : state.shape.insert place state.stock.last = .ok linked) :
    (state.link pair fits inserted).owned = state.owned + {pair} := by
  have perm := (Shape.perm_insert state.balanced inserted).map (state.stock.extend pair fits).pairAt
  rw [List.map_cons, Stock.pairAt_extend_last, map_extend fun _ mem => mem] at perm
  exact Multiset.coe_eq_coe.mpr (perm.trans (List.perm_append_singleton ..).symm)

theorem owned_unlink {order : Comparator}
    (removed : state.shape.remove (state.stock.place order slot) slot = some left) :
    (state.unlink removed).owned + {state.stock.pairAt slot} = state.owned := by
  obtain ⟨front, back, pairs_eq, left_eq⟩ := pairs_unlink removed
  rw [owned, owned, pairs_eq, left_eq]
  exact Multiset.coe_eq_coe.mpr ((List.perm_append_singleton ..).trans List.perm_middle.symm)

theorem owned_replace {order : Comparator}
    (fits : state.stock.needed 1 pair.size ≤ state.stock.limit)
    (removed : state.shape.remove (state.stock.place order holder) holder = some left)
    (inserted : left.1.insert (state.seek order pair) state.stock.last = .ok linked) :
    (state.replace pair fits removed inserted).owned + {state.stock.pairAt holder} =
      state.owned + {pair} := by
  have left_balanced := (Shape.remove_spec state.balanced removed).2.balanced
  have fewer := (left_slots removed).2
  have perm := (Shape.perm_insert left_balanced inserted).map (state.stock.extend pair fits).pairAt
  rw [List.map_cons, Stock.pairAt_extend_last, map_extend fun _ mem => fewer.subset mem] at perm
  have replaced : (state.replace pair fits removed inserted).owned =
      (state.unlink removed).owned + {pair} := by
    rw [owned, owned, pairs, pairs, replace, unlink, Stock.pairAt_entomb, Stock.pairAt_entomb]
    exact Multiset.coe_eq_coe.mpr (perm.trans (List.perm_append_singleton ..).symm)
  rw [replaced, add_right_comm, owned_unlink]

/-- What a change takes over is live afterwards, beside what was live before, except for what the
free hook was called with. -/
theorem Step.conserves {change : Change} {reply : Reply} {events : List Event}
    (step : Step map state change reply events after) (frees : map.freeHook = true) :
    after.owned + freedPairs events = state.owned + change.taken reply := by
  cases step with
  | refused | kept | missed | uncompacted | unreserved | reserved | shrunk => rfl
  | added fits inserted =>
      rw [freedPairs_nil, add_zero]
      exact owned_link fits inserted
  | replaced fits removed inserted =>
      rw [owned_settle, freedPairs_freed frees]
      exact owned_replace fits removed inserted
  | erased removed =>
      rw [owned_settle, freedPairs_freed frees]
      exact (owned_unlink removed).trans (add_zero _).symm
  | compacted fits =>
      rw [owned, pairs_compacted]
      rfl

theorem owned_eq (state : State) :
    state.owned = (state.liveEntries.map Entry.pair : List Pair) := by
  have perm := state.perm_liveEntries.map Entry.pair
  rw [pairs_entries] at perm
  exact Multiset.coe_eq_coe.mpr perm.symm

/-- Every copy that a merge adds is live afterwards. -/
theorem Copies.conserves {order : Comparator} {hook : Option CopyHook} {sources : List Entry}
    {copies : List (Slot × Entry)} (run : Copies order hook state sources copies after) :
    after.owned =
      state.owned + (copies.map fun copy => (copyEntry hook copy).pair : List Pair) := by
  rw [owned_eq, owned_eq, run.liveEntries_eq, List.map_append, List.map_map]
  rfl

end State

/-! ## Merges and duplicates -/

namespace Map

variable {hook : Option CopyHook} {map after after' : Map} {front back front' back' : List Entry}
  {copies copies' : List (Entry × Entry)}

/-- A map that has no room for the first entry takes over no copies. -/
theorem Copies.eq_nil (run : map.Copies hook front copies after) (split : front ++ back = back')
    (stop : ∀ entry ∈ back'.head?, map.Refuses entry.pair) : front = [] := by
  subst split
  cases run with
  | nil => rfl
  | added call | left call =>
      obtain ⟨error, refused⟩ := stop _ rfl
      cases refused.symm.trans call

/-- Which copies are taken over is determined. -/
theorem Copies.unique (run : map.Copies hook front copies after)
    (run' : map.Copies hook front' copies' after') (split : front ++ back = front' ++ back')
    (stop : ∀ entry ∈ back.head?, after.Refuses entry.pair)
    (stop' : ∀ entry ∈ back'.head?, after'.Refuses entry.pair) : copies = copies' := by
  induction run generalizing front' copies' with
  | nil map =>
      obtain rfl := run'.eq_nil split.symm stop
      cases run' with
      | nil => rfl
  | @added map next after source rest copies slot slab events call changed run ih =>
      cases run' with
      | nil => cases (Copies.added call changed run).eq_nil split stop'
      | added call' changed' run' =>
          obtain ⟨rfl, later⟩ := List.cons.inj split
          cases call.symm.trans call'
          cases changed.symm.trans changed'
          rw [ih run' later stop]
      | left call' =>
          obtain ⟨rfl, later⟩ := List.cons.inj split
          cases call.symm.trans call'
  | @left map next after source rest copies holder call run ih =>
      cases run' with
      | nil => cases (Copies.left call run).eq_nil split stop'
      | added call' =>
          obtain ⟨rfl, later⟩ := List.cons.inj split
          cases call.symm.trans call'
      | left call' run' =>
          obtain ⟨rfl, later⟩ := List.cons.inj split
          cases call.symm.trans call'
          exact ih run' later stop

theorem Takes.unique {source : Map} (takes : map.Takes source copies)
    (takes' : map.Takes source copies') : copies = copies' := by
  obtain ⟨front, back, after, read, run, stop⟩ := takes
  obtain ⟨front', back', after', read', run', stop'⟩ := takes'
  have split := Except.ok.inj (read.symm.trans read')
  exact run.unique run' split stop stop'

end Map

namespace State.Describes

variable {state : State} {map : Map}

/-- A merge conserves pairs, whether it comes to its end or is refused. -/
theorem takes (described : state.Describes map) {other : State} {source : Map}
    (described' : other.Describes source) :
    ∃ outcome copies, ∃ after : State, map.merge source = .ok outcome ∧
      map.Takes source copies ∧ outcome.map = after.on map ∧
      (map.order.Ignores source.copyHook → after.Describes outcome.map) ∧
      (map.freeHook = true → after.owned + freedPairs outcome.events =
        state.owned + (copies.map fun copy => copy.2.pair : List Pair)) := by
  have lawful := described.lawful
  have read := described'.reads
  rcases described.merge_cases described' with
    ⟨copies, after, added, run⟩ | ⟨before, refused, rest, copies, after, split, added, full, run⟩
  · have copied := added.on
    rw [described.same] at copied
    have whole : map.Takes source (copies.map (withSource source.copyHook)) := by
      refine ⟨other.liveEntries, [], after.on map, ?_, copied, by simp⟩
      rw [List.append_nil]
      exact read
    refine ⟨_, _, after, run, whole, rfl, ?_, ?_⟩
    · intro ignores
      exact described.on (added.sorted ignores described.sorted)
    · intro _
      rw [freedPairs_copying, add_zero, added.conserves, List.map_map]
      rfl
  · have copied := added.on
    rw [described.same] at copied
    have part : map.Takes source (copies.map (withSource source.copyHook)) := by
      refine ⟨before, refused :: rest, after.on map, split ▸ read, copied, ?_⟩
      intro entry first
      obtain rfl := Option.some.inj first
      exact ⟨_, addEntry_refused map .empty full⟩
    refine ⟨_, _, state, run, part, rfl, ?_, ?_⟩
    · intro _
      exact described.on described.sorted
    · intro frees
      rw [freedPairs_append, freedPairs_copying, zero_add, freedPairs_freed frees, List.map_map,
        List.map_map]
      rfl

theorem duplicates (described : state.Describes map) :
    ∃ events, ∃ after : State, map.duplicate = .ok (after.on map, events) ∧
      freedPairs events = 0 ∧
      (map.order.Ignores map.copyHook → after.Describes (after.on map)) ∧
      after.owned = (state.liveEntries.map (Entry.copied map.copyHook) : List Pair) := by
  obtain ⟨after, shape_eq, -, copied, run, left⟩ := described.duplicate_spec
  refine ⟨_, after, run, freedPairs_copying .., left, ?_⟩
  have perm := state.live.map fun slot => (state.stock.entryAt slot).copied map.copyHook
  rw [owned, pairs, shape_eq, List.map_congr_left copied, liveEntries, List.map_map]
  exact Multiset.coe_eq_coe.mpr perm

end State.Describes

/-! ## Runs -/

/-- A map is in a sorted state, and its books balance. -/
structure Account.Kept (account : Account) (state : State) : Prop where
  described : state.Describes account.map
  even : account.map.freeHook = true → account.taken = account.freed + state.owned

theorem Account.Kept.enter {account : Account} {state after : State} {taken : Multiset Pair}
    {events : List Event} (kept : account.Kept state)
    (left : after.Describes (after.on account.map))
    (conserves : account.map.freeHook = true →
      after.owned + freedPairs events = state.owned + taken) :
    (account.enter (after.on account.map) taken events).Kept after where
  described := left
  even frees := by
    have same : account.map.freeHook = true := frees
    calc account.taken + taken
        = account.freed + (state.owned + taken) := by rw [kept.even same, add_assoc]
      _ = account.freed + (freedPairs events + after.owned) := by
        rw [← conserves same, add_comm after.owned]
      _ = account.freed + freedPairs events + after.owned := (add_assoc ..).symm

/-- The books of all maps balance, and those of the maps that are gone are closed. -/
structure Books.Kept (books : Books) : Prop where
  current : ∀ account ∈ books.current, ∃ state, account.Kept state
  gone : ∀ account ∈ books.gone, account.map.freeHook = true → account.taken = account.freed

/-- An account among others may be replaced by one that is kept. -/
theorem Books.Kept.update {front back gone : List Account} {account entered : Account}
    (kept : Books.Kept ⟨front ++ account :: back, gone⟩)
    (entered_kept : ∃ state, entered.Kept state) :
    Books.Kept ⟨front ++ entered :: back, gone⟩ where
  current := by
    have each := kept.current
    simp only [List.forall_mem_append, List.forall_mem_cons] at each ⊢
    exact ⟨each.1, entered_kept, each.2.2⟩
  gone := kept.gone

theorem Books.Step.kept {books later : Books} (step : Books.Step books later)
    (kept : books.Kept) : later.Kept := by
  cases step with
  | create _ order config =>
      have opened := State.describes_empty order config
      exact ⟨List.forall_mem_cons.mpr ⟨⟨_, opened, fun _ => rfl⟩, kept.current⟩, kept.gone⟩
  | @change front back gone account outcome change run =>
      obtain ⟨state, account_kept⟩ := kept.current account (by simp)
      obtain ⟨reply, events, after, step, left, run'⟩ := account_kept.described.change change
      cases run.symm.trans run'
      exact kept.update ⟨after, account_kept.enter left step.conserves⟩
  | @merge front back gone account source outcome copies among ignores run takes =>
      obtain ⟨state, account_kept⟩ := kept.current account (by simp)
      obtain ⟨other, source_kept⟩ := kept.current source among
      obtain ⟨outcome', copies', after, run', takes', map_eq, left, conserves⟩ :=
        account_kept.described.takes source_kept.described
      cases run.symm.trans run'
      obtain rfl := takes.unique takes'
      have left := left ignores
      rw [map_eq] at left ⊢
      exact kept.update ⟨after, account_kept.enter left conserves⟩
  | @duplicate front back gone account copy events entries ignores run read =>
      obtain ⟨state, account_kept⟩ := kept.current account (by simp)
      obtain ⟨events', after, run', unfreed, left, owned_eq⟩ := account_kept.described.duplicates
      cases run.symm.trans run'
      cases read.symm.trans account_kept.described.reads
      have same := account_kept.described.same
      have entered := @Account.Kept.enter account state state 0 events account_kept
        (same.symm ▸ account_kept.described) fun _ => by rw [unfreed]
      rw [same] at entered
      have updated := kept.update ⟨state, entered⟩
      refine ⟨List.forall_mem_cons.mpr ⟨⟨after, left ignores, fun _ => ?_⟩, updated.current⟩,
        kept.gone⟩
      exact owned_eq.symm.trans (zero_add _).symm
  | @dispose front back gone account events run =>
      obtain ⟨state, account_kept⟩ := kept.current account (by simp)
      cases run.symm.trans account_kept.described.disposes
      have each := kept.current
      simp only [List.forall_mem_append, List.forall_mem_cons] at each
      refine ⟨List.forall_mem_append.mpr ⟨each.1, each.2.2⟩,
        List.forall_mem_cons.mpr ⟨fun frees => ?_, kept.gone⟩⟩
      have frees : account.map.freeHook = true := frees
      rw [Account.enter, add_zero, freedPairs_freed frees, ← state.owned_eq]
      exact account_kept.even frees

theorem Books.exists_kept {books : Books} (run : Relation.ReflTransGen Books.Step .empty books) :
    books.Kept := by
  induction run with
  | refl => exact ⟨List.forall_mem_nil _, List.forall_mem_nil _⟩
  | tail _ step ih => exact step.kept ih

theorem Account.Kept.runs {account : Account} {state : State} {books : Books}
    (kept : account.Kept state) (all : books.Kept) : account.Runs books.current where
  change := kept.described.goesOn
  merge := by
    intro source among
    obtain ⟨other, source_kept⟩ := all.current source among
    obtain ⟨outcome, copies, after, run, takes, -⟩ :=
      kept.described.takes source_kept.described
    exact ⟨outcome, copies, run, takes⟩
  duplicate := by
    obtain ⟨events, after, run, -⟩ := kept.described.duplicates
    exact ⟨_, _, run, kept.described.reads⟩
  dispose := ⟨_, kept.described.disposes⟩

theorem Account.Kept.balances {account : Account} {state : State} (kept : account.Kept state)
    (frees : account.map.freeHook = true) : account.Balances where
  live := by
    have even := kept.even frees
    rw [state.owned_eq] at even
    exact ⟨_, kept.described.reads, even⟩
  last := by
    have even := kept.even frees
    rw [state.owned_eq, ← freedPairs_freed frees] at even
    exact ⟨_, kept.described.disposes, even⟩

/-- In a run over any number of maps a free hook is called once for each pair that its map took
over, as soon as the pair is no longer live, and so for all of them in the end. -/
theorem books_balance {books : Books} (run : Relation.ReflTransGen Books.Step .empty books) :
    (∀ account ∈ books.current, account.Runs books.current ∧
      (account.map.freeHook = true → account.Balances)) ∧
    ∀ account ∈ books.gone, account.map.freeHook = true → account.taken = account.freed := by
  have kept := Books.exists_kept run
  constructor
  · intro account among
    obtain ⟨state, account_kept⟩ := kept.current account among
    exact ⟨account_kept.runs kept, account_kept.balances⟩
  · exact kept.gone

/-- A change that runs to its end is a step, told by its reply and its events. -/
theorem Books.Step.of_reply {front back gone : List Account} {account : Account} {change : Change}
    {reply : Reply} {events : List Event}
    (told : (change.run account.map).map (fun outcome => (outcome.result, outcome.events)) =
      .ok (reply, events)) :
    Books.Step ⟨front ++ account :: back, gone⟩
      ⟨front ++ account.enter (account.map.after [change]) (change.taken reply) events :: back,
        gone⟩ := by
  cases run : change.run account.map with
  | error fault =>
      rw [run] at told
      cases told
  | ok outcome =>
      rw [run] at told
      cases told
      rw [Map.after, run]
      exact .change change run

/-- An account of a map that reports what it gives up. -/
def Account.opened : Account := ⟨.empty .byKey ⟨0, 1000, none, true⟩, 0, 0⟩

/-- The account with one pair. -/
def Account.added : Account :=
  opened.enter (opened.map.after [.add ⟨[107], [118]⟩ .empty]) {⟨[107], [118]⟩} []

/-- The account with another pair in the place of the first one. -/
def Account.replaced : Account :=
  added.enter (added.map.after [.add ⟨[107], [119]⟩ .replace]) {⟨[107], [119]⟩}
    [.freed ⟨⟨0⟩, ⟨[107], [118]⟩⟩]

theorem books_balance_replaced : ∃ books account,
    Relation.ReflTransGen Books.Step .empty books ∧ account ∈ books.gone ∧
      account.taken = {⟨[107], [118]⟩, ⟨[107], [119]⟩} ∧ account.taken = account.freed := by
  have opened : Books.Step .empty ⟨[.opened], []⟩ := .create .empty .byKey _
  have added : Books.Step ⟨[.opened], []⟩ ⟨[.added], []⟩ :=
    @Books.Step.of_reply [] [] [] _ (.add ⟨[107], [118]⟩ .empty) (.addition .added) [] rfl
  have replaced : Books.Step ⟨[.added], []⟩ ⟨[.replaced], []⟩ :=
    @Books.Step.of_reply [] [] [] _ (.add ⟨[107], [119]⟩ .replace) (.addition .replaced)
      [.freed ⟨⟨0⟩, ⟨[107], [118]⟩⟩] rfl
  have disposed := @Books.Step.dispose [] [] [] .replaced [.freed ⟨⟨4⟩, ⟨[107], [119]⟩⟩] rfl
  have run := (((Relation.ReflTransGen.single opened).tail added).tail replaced).tail disposed
  refine ⟨_, _, run, List.mem_cons_self, by decide, ?_⟩
  exact (books_balance run).2 _ List.mem_cons_self rfl

end PackedMap
