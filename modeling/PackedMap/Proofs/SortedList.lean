import PackedMap.Proofs.Comparator
import PackedMap.Proofs.Reachable

/-!
# Maps as sorted lists

To its user a map is the sorted list of its pairs.  Every change acts on that list as its answer
says, however the tree and the slab have come about, and a search with the native comparator finds
what the list holds.
-/

namespace PackedMap

/-- What a change may do to a sorted list of pairs, with its answer.  A query comparator that does
not sweep the list may miss its matches. -/
inductive Admits (order : Comparator) (pairs : List Pair) : Change → Reply → List Pair → Prop
  | added {pair : Pair} {flags : Flags} {front back : List Pair} :
      pairs = front ++ back →
      (∀ old ∈ pairs, order pair old ≠ .eq) →
      Admits order pairs (.add pair flags) (.addition .added) (front ++ pair :: back)
  | alreadyPresent {pair old : Pair} {flags : Flags} :
      old ∈ pairs →
      order pair old = .eq →
      flags.contains .replace = false →
      Admits order pairs (.add pair flags) (.addition .alreadyPresent) pairs
  | replaced {pair old : Pair} {flags : Flags} {front back : List Pair} :
      pairs = front ++ old :: back →
      order pair old = .eq →
      flags.contains .replace = true →
      Admits order pairs (.add pair flags) (.addition .replaced) (front ++ pair :: back)
  | notAdded {pair : Pair} {flags : Flags} {error : CapacityError} :
      Admits order pairs (.add pair flags) (.refused error) pairs
  | erased {probe old : Pair} {query : Option Comparator} {flags : Flags} {front back : List Pair} :
      pairs = front ++ old :: back →
      query.getD order probe old = .eq →
      Admits order pairs (.erase probe query flags) (.flag true) (front ++ back)
  | missed {probe : Pair} {flags : Flags} :
      (∀ old ∈ pairs, order probe old ≠ .eq) →
      Admits order pairs (.erase probe none flags) (.flag false) pairs
  | queryMissed {probe : Pair} {query : Comparator} {flags : Flags} :
      (Sweeps (query probe) pairs → ∀ old ∈ pairs, query probe old ≠ .eq) →
      Admits order pairs (.erase probe (some query) flags) (.flag false) pairs
  | compacted {tombstones : Nat} : Admits order pairs .compact (.amount tombstones) pairs
  | notCompacted {error : CapacityError} : Admits order pairs .compact (.refused error) pairs
  | reserved {entries bytes : UInt64} {granted : Nat} :
      Admits order pairs (.reserve entries bytes) (.amount granted) pairs
  | notReserved {entries bytes : UInt64} {error : CapacityError} :
      Admits order pairs (.reserve entries bytes) (.refused error) pairs
  | shrunk : Admits order pairs .shrink .nothing pairs

/-- A map holds some pairs and no others, in native order, and finds exactly them. -/
structure Map.Lists (map : Map) (pairs : List Pair) : Prop where
  sorted : ∃ entries, map.sorted = .ok entries ∧ entries.map Entry.pair = pairs
  increasing : Increasing map.order pairs
  finds : ∀ probe, ∃ found, map.find? probe map.order = .ok found ∧
    (found.map Entry.pair).toList = matching (map.order probe) pairs

/-- Along a run of changes a map behaves as a sorted list of pairs. -/
inductive Map.Follows : Map → List Pair → List Change → Prop
  | nil {map : Map} {pairs : List Pair} : map.Lists pairs → Follows map pairs []
  | cons {map : Map} {pairs after : List Pair} {change : Change} {rest : List Change}
      {outcome : Outcome Reply} :
      map.Lists pairs →
      change.run map = .ok outcome →
      Admits map.order pairs change outcome.result after →
      Follows outcome.map after rest →
      Follows map pairs (change :: rest)

namespace State

variable {state after : State} {map : Map}

theorem Step.admits [Std.TransCmp map.order] {change : Change} {reply : Reply}
    {events : List Event} (step : Step map state change reply events after)
    (sorted : state.Sorted map.order) :
    Admits map.order state.pairs change reply after.pairs := by
  cases step with
  | refused => exact .notAdded
  | @added pair flags linked fits inserted =>
      obtain ⟨pairs_eq, none⟩ := pairs_link fits inserted sorted
      have split := pairs_eq_append sorted pair
      rw [none, List.append_nil] at split
      rw [pairs_eq]
      refine .added split fun old mem equal => ?_
      have matched := mem_matching.mpr ⟨mem, equal⟩
      rw [none] at matched
      exact List.not_mem_nil matched
  | @kept pair flags holder fits occupied stays =>
      obtain ⟨mem, equal⟩ := mem_matching.mp (Shape.insert_error occupied)
      exact .alreadyPresent (List.mem_map_of_mem mem) equal stays
  | @replaced pair flags holder left linked fits removed inserted occupied goes =>
      have split := pairs_eq_append sorted pair
      have found := Shape.insert_error occupied
      rw [matching_eq sorted found, List.append_assoc, List.singleton_append] at split
      rw [pairs_settle, pairs_replace sorted occupied]
      exact .replaced split (mem_matching.mp found).2 goes
  | @missed probe query flags missed =>
      have none (swept : Sweeps (map.orderOr query probe) state.pairs) :
          ∀ old ∈ state.pairs, map.orderOr query probe old ≠ .eq := by
        intro old mem equal
        have matched := mem_matching.mpr ⟨mem, equal⟩
        rw [pairs, ← map_matching, Shape.find_eq_none (sweeps_map.mp swept) missed] at matched
        exact List.not_mem_nil matched
      cases query with
      | none => exact .missed (none (Increasing.sweeps sorted probe))
      | some query => exact .queryMissed none
  | @erased probe query flags slot linked removed found =>
      obtain ⟨front, back, pairs_eq, left_eq⟩ := pairs_unlink removed
      rw [pairs_settle, left_eq]
      exact .erased pairs_eq (mem_matching.mp (Shape.find_mem found)).2
  | compacted fits =>
      rw [pairs_compacted]
      exact .compacted
  | uncompacted => exact .notCompacted
  | reserved => exact .reserved
  | unreserved => exact .notReserved
  | shrunk => exact .shrunk

/-- A map in a sorted state lists the pairs of the state. -/
theorem lists_on [Std.TransCmp map.order] (sorted : state.Sorted map.order) :
    (state.on map).Lists state.pairs where
  sorted := by
    refine ⟨state.entries, state.sorted_on map, ?_⟩
    rw [entries, List.map_map]
    rfl
  increasing := sorted
  finds probe := by
    refine ⟨_, state.find?_on map probe map.order, ?_⟩
    cases found : state.shape.find (state.seek map.order probe) with
    | none =>
        have none := Shape.find_eq_none (sweeps sorted probe) found
        rw [pairs, order_on, ← map_matching]
        exact (congrArg (List.map state.stock.pairAt) none).symm
    | some slot => exact (matching_eq sorted (Shape.find_mem found)).symm

theorem Describes.lists (described : state.Describes map) : map.Lists state.pairs := by
  have lawful := described.lawful
  have lists := lists_on described.sorted
  rwa [described.same] at lists

theorem Describes.follows (described : state.Describes map) (changes : List Change) :
    map.Follows state.pairs changes := by
  induction changes generalizing state map with
  | nil => exact .nil described.lists
  | cons change rest ih =>
      have lawful := described.lawful
      obtain ⟨reply, events, after, step, left, run⟩ := described.change change
      exact .cons described.lists run (step.admits described.sorted) (ih left)

end State

/-- From an empty map on, every run of changes goes through and is that of a sorted list. -/
theorem follows_sorted_list (order : Comparator) [Std.TransCmp order] (config : Config)
    (changes : List Change) : (Map.empty order config).Follows [] changes :=
  (State.describes_empty order config).follows changes

/-- Additions and erasures that end in every way they can, and a compaction that makes room. -/
def mixedRun : List Change :=
  [.add ⟨[98], []⟩ .empty, .add ⟨[97], [1]⟩ .empty, .add ⟨[98], [2]⟩ .empty,
    .add ⟨[98], [2]⟩ .replace, .erase ⟨[99], []⟩ none .empty, .add ⟨[99], []⟩ .empty,
    .erase ⟨[97], []⟩ none .empty, .compact, .add ⟨[99], []⟩ .empty]

/-- A map with room for three entries. -/
def threeRoomed : Map := .empty .byKey ⟨0, 96, none, false⟩

theorem follows_sorted_list_mixedRun : threeRoomed.Follows [] mixedRun ∧
    threeRoomed.replies mixedRun = .ok [.addition .added, .addition .added,
      .addition .alreadyPresent, .addition .replaced, .flag false, .refused ⟨128, 96⟩, .flag true,
      .amount 2, .addition .added] ∧
    (threeRoomed.after mixedRun).sorted.map (List.map Entry.pair) =
      .ok [⟨[98], [2]⟩, ⟨[99], []⟩] :=
  ⟨follows_sorted_list .byKey _ mixedRun, by decide +kernel, by decide +kernel⟩

end PackedMap
