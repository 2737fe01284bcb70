import PackedMap.Proofs.Map.Admitting
import PackedMap.Proofs.Map.Cost
import PackedMap.Proofs.Rollback
import PackedMap.Proofs.Slab.WordSizes

/-!
# Sizes of a map as words

Whatever operations a map has been through, its slab keeps to the ceiling that the map was created
with, and all sizes in it are words.  So they are in every slab on the way: with a new entry at the
end, with the one in its way gone, with part of a merge done, and in the middle of a compaction.  A
compaction within another operation starts from what that operation leaves where it may not compact.
-/

namespace PackedMap

/-- The maps that operations lead to from an empty map with some settings.  Copies may be taken from
any reachable map. -/
inductive ReachableUnder (config : Config) : Map → Prop
  | empty (order : Comparator) [Std.TransCmp order] : ReachableUnder config (.empty order config)
  | change {map : Map} {outcome : Outcome Reply} (change : Change) :
      ReachableUnder config map →
      change.run map = .ok outcome →
      ReachableUnder config outcome.map
  | merge {map source : Map} {outcome : Outcome (Except CapacityError Unit)} :
      ReachableUnder config map →
      Reachable source →
      map.order.Ignores source.copyHook →
      map.merge source = .ok outcome →
      ReachableUnder config outcome.map
  | duplicate {map copy : Map} {events : List Event} :
      ReachableUnder config map →
      map.order.Ignores map.copyHook →
      map.duplicate = .ok (copy, events) →
      ReachableUnder config copy

/-- All sizes of a map are words, and stay so on the way through an addition or a compaction.  An
entry that room was reserved for is appended whole. -/
structure Map.FitsWords (map : Map) : Prop where
  here : ∃ records, map.slab.FitsWords records
  pushes : ∀ pair reserved, map.slab.reservePair pair = .ok reserved →
    ∃ new slab, reserved.push pair = .ok (new, slab)
  admitting : ∀ pair new between, map.Admitting pair new between →
    between.slab.limit = map.slab.limit ∧
      ∃ records, between.slab.FitsWords records ∧ (new, .detached pair) ∈ records
  packing : ∀ live front back granted fresh, map.tree.inOrder map.slab = .ok live →
    live.mapM map.slab.pair = .ok (front ++ back) →
    (Slab.empty map.slab.limit).reserve (.ofNat map.size)
      (.ofNat (Pair.totalSize (front ++ back))) = .ok (granted, fresh) →
    ∃ slots slab records, fresh.pushAll front = .ok (slots, slab) ∧
      slab.limit = map.slab.limit ∧ slab.FitsWords records ∧
      records.map Prod.snd = front.map Record.detached

/-! ## Ceilings -/

theorem ReachableUnder.reachable {config : Config} {map : Map}
    (reached : ReachableUnder config map) : Reachable map := by
  induction reached with
  | empty order => exact .empty order config
  | change change _ run ih => exact .change change ih run
  | merge _ source ignores run ih => exact .merge ih source ignores run
  | duplicate _ ignores run ih => exact .duplicate ih ignores run

/-- Every reachable map was once empty and had some settings. -/
theorem Reachable.exists_under {map : Map} (reachable : Reachable map) :
    ∃ config, ReachableUnder config map := by
  induction reachable with
  | empty order config => exact ⟨config, .empty order⟩
  | change change _ run ih =>
      obtain ⟨config, reached⟩ := ih
      exact ⟨config, .change change reached run⟩
  | merge _ source ignores run ih _ =>
      obtain ⟨config, reached⟩ := ih
      exact ⟨config, .merge reached source ignores run⟩
  | duplicate _ ignores run ih =>
      obtain ⟨config, reached⟩ := ih
      exact ⟨config, .duplicate reached ignores run⟩

namespace Slab

variable {slab after : Slab} {events : List Event}

theorem limit_of_write {position : Nat} {bytes : Bytes}
    (run : slab.write position bytes = .ok after) : after.limit = slab.limit := by
  rw [write] at run
  split at run
  · obtain rfl := Except.ok.inj run
    rfl
  · cases run

theorem limit_of_runCopyHook {hook : Option CopyHook} {slot : Slot} {source : Entry}
    (run : slab.runCopyHook hook slot source = .ok (after, events)) :
    after.limit = slab.limit := by
  cases hook with
  | none =>
      obtain ⟨rfl, -⟩ := Prod.mk.inj (Except.ok.inj run)
      rfl
  | some hook =>
      obtain ⟨value, -, run⟩ := Checked.bind_eq_ok.mp run
      obtain ⟨changed, set, run⟩ := Checked.bind_eq_ok.mp run
      obtain ⟨rfl, -⟩ := Prod.mk.inj (Except.ok.inj run)
      obtain ⟨start, -, set⟩ := Checked.bind_eq_ok.mp set
      obtain ⟨length, -, written⟩ := Checked.bind_eq_ok.mp set
      exact limit_of_write written

theorem limit_of_changeCopies {hook : Option CopyHook} {sources : List Entry}
    (run : Map.changeCopies hook sources slab = .ok (after, events)) :
    after.limit = slab.limit := by
  induction sources generalizing slab events with
  | nil =>
      obtain ⟨rfl, -⟩ := Prod.mk.inj (Except.ok.inj run)
      rfl
  | cons source rest ih =>
      obtain ⟨⟨middle, first⟩, changed, run⟩ := Checked.bind_eq_ok.mp run
      obtain ⟨⟨last, later⟩, goes_on, run⟩ := Checked.bind_eq_ok.mp run
      obtain ⟨rfl, -⟩ := Prod.mk.inj (Except.ok.inj run)
      exact (ih goes_on).trans (limit_of_runCopyHook changed)

end Slab

theorem Map.limit_of_duplicate {map copy : Map} {events : List Event}
    (run : map.duplicate = .ok (copy, events)) : copy.slab.limit = map.slab.limit := by
  obtain ⟨entries, -, run⟩ := Checked.bind_eq_ok.mp run
  obtain ⟨⟨slab, hooks⟩, changed, run⟩ := Checked.bind_eq_ok.mp run
  obtain ⟨rfl, -⟩ := Prod.mk.inj (Except.ok.inj run)
  calc slab.limit = map.slab.shrink.limit := Slab.limit_of_changeCopies changed
    _ = map.slab.limit := rfl

/-- No operation moves the ceiling. -/
theorem ReachableUnder.limit_eq {config : Config} {map : Map}
    (reached : ReachableUnder config map) : map.slab.limit = config.limit := by
  induction reached with
  | empty order => exact Nat.min_eq_left (Nat.min_le_right ..)
  | change change reached run ih =>
      obtain ⟨state, described⟩ := reached.reachable.exists_state
      obtain ⟨reply, events, after, step, left, run'⟩ := described.change change
      obtain rfl := Except.ok.inj (run.symm.trans run')
      exact step.limit_eq.trans (described.limit_eq.symm.trans ih)
  | merge reached source _ run ih =>
      obtain ⟨state, described⟩ := reached.reachable.exists_state
      obtain ⟨other, described'⟩ := source.exists_state
      rcases described.merge_cases described' with
        ⟨copies, after, added, run'⟩ | ⟨before, refused, rest, copies, after, -, -, -, run'⟩
      · obtain rfl := Except.ok.inj (run.symm.trans run')
        exact added.limit_eq.trans (described.limit_eq.symm.trans ih)
      · obtain rfl := Except.ok.inj (run.symm.trans run')
        exact described.limit_eq.symm.trans ih
  | duplicate reached _ run ih => exact (Map.limit_of_duplicate run).trans ih

/-! ## Sizes -/

/-- A map in a state has sizes that are words, whatever its comparator. -/
theorem State.fitsWords_on (state : State) (map : Map) : (state.on map).FitsWords where
  here := ⟨_, Stock.fitsWords_nodes fun _ mem => mem_stock mem⟩
  pushes pair reserved granted := by
    have room := state.stock.reservePair_slab state.shape.nodes pair
    by_cases fits : state.stock.needed 1 pair.size ≤ state.stock.limit
    · obtain ⟨reserves, pushed⟩ := addEntry_fits map fits
      obtain rfl := Except.ok.inj (granted.symm.trans reserves)
      exact ⟨_, _, pushed⟩
    · rw [if_neg fits] at room
      cases granted.symm.trans room
  admitting pair new between admitting := by
    obtain ⟨rfl, stock, rest, awaits, slab_eq, -⟩ := exists_of_admitting admitting
    have node_eq := Shape.nodes_of_notMem awaits.fresh
    rw [slab_eq]
    refine ⟨awaits.limit_eq, _, Stock.fitsWords_nodes awaits.inside,
      Ledger.mem_placed_of.mpr ⟨_, awaits.placed, ?_⟩⟩
    rw [node_eq, Cell.detached_eq]
  packing live front back granted fresh walked read room := by
    have order_eq : (state.on map).tree.inOrder (state.on map).slab = .ok state.shape.slots :=
      Shape.inOrder_slab state.held
    obtain rfl := Except.ok.inj (walked.symm.trans order_eq)
    have pairs_eq : state.shape.slots.mapM (state.on map).slab.pair = .ok state.pairs :=
      Checked.mapM_eq_ok fun slot mem => Stock.pair_eq_pairAt (mem_stock mem) state.shape.nodes
    have split := Except.ok.inj (read.symm.trans pairs_eq)
    obtain ⟨counted, sized⟩ := state.pairs_counted
    have vacant := state.stock.reserve_vacant state.shape.nodes counted sized
    rw [length_pairs, ← split] at vacant
    by_cases fits : Stock.packedSize (front ++ back) ≤ state.stock.limit
    · rw [if_pos fits] at vacant
      obtain ⟨-, rfl⟩ := Prod.mk.inj (Except.ok.inj (room.symm.trans vacant))
      exact state.stock.fitsWords_pushAll fits
    · rw [if_neg fits] at vacant
      cases room.symm.trans vacant

/-- Every map keeps to the ceiling that it was created with, which is less than 2³², and its sizes
are words; and so does every map on the way of a merge. -/
theorem reachableUnder_fitsWords {config : Config} {map : Map}
    (reached : ReachableUnder config map) :
    (map.slab.limit = config.limit ∧ map.FitsWords) ∧
      ∀ hook sources copies last, map.Copies hook sources copies last →
        last.slab.limit = config.limit ∧ last.FitsWords := by
  obtain ⟨state, described⟩ := reached.reachable.exists_state
  constructor
  · have fits := state.fitsWords_on map
    rw [described.same] at fits
    exact ⟨reached.limit_eq, fits⟩
  · intro hook sources copies last run
    rw [← described.same] at run
    obtain ⟨after, rfl, limit_eq⟩ := State.exists_of_copies run
    exact ⟨limit_eq.trans (described.limit_eq.symm.trans reached.limit_eq),
      after.fitsWords_on map⟩

/-- Settings with a ceiling that is no whole number of units. -/
def uneven : Config := ⟨61, 83, none, false⟩

theorem reachableUnder_fitsWords_uneven : ∃ outcome,
    Change.run (.empty .byKey uneven) (.add ⟨[97], [98]⟩ .empty) = .ok outcome ∧
      ReachableUnder uneven outcome.map ∧ outcome.map.slab.used = 32 ∧
      outcome.map.slab.limit = 83 ∧ outcome.map.FitsWords := by
  have reached : ReachableUnder uneven _ :=
    .change (.add ⟨[97], [98]⟩ .empty) (.empty .byKey) rfl
  exact ⟨_, rfl, reached, rfl, (reachableUnder_fitsWords reached).1⟩

end PackedMap
