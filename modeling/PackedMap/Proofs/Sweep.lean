import PackedMap.Comparator

/-!
# Sweeps

A search sees of a list only where a probe stands to each member.  It can rely on its answers if
they read *greater*, then *equal*, then *less* along the list: the probe comes after the first
members, matches the next ones, and comes before the rest.  Lawful comparators sweep the lists they
order, and so do the comparators that coarsen them.
-/

namespace PackedMap

variable {α β : Type}

/-- Along the list the probe is first greater, then equal, then less. -/
def Sweeps (place : α → Ordering) (list : List α) : Prop :=
  list.Pairwise fun a b => (place a = .lt → place b = .lt) ∧ (place b = .gt → place a = .gt)

/-- The members that the probe comes after. -/
def below (place : α → Ordering) (list : List α) : List α := list.filter fun a => place a = .gt

/-- The members that the probe matches. -/
def matching (place : α → Ordering) (list : List α) : List α := list.filter fun a => place a = .eq

/-- The members that the probe comes before. -/
def above (place : α → Ordering) (list : List α) : List α := list.filter fun a => place a = .lt

section Members

variable {place : α → Ordering} {list : List α} {a : α}

@[simp]
theorem mem_below : a ∈ below place list ↔ a ∈ list ∧ place a = .gt := by
  simp [below]

@[simp]
theorem mem_matching : a ∈ matching place list ↔ a ∈ list ∧ place a = .eq := by
  simp [matching]

@[simp]
theorem mem_above : a ∈ above place list ↔ a ∈ list ∧ place a = .lt := by
  simp [above]

/-- A list without its only match. -/
theorem filter_of_matching {front back : List α}
    (only : matching place (front ++ a :: back) = [a]) :
    (front ++ a :: back).filter (fun other => place other ≠ .eq) = front ++ back := by
  have here : place a = .eq := (mem_matching.mp (only ▸ List.mem_singleton_self a)).2
  have lengths : (matching place front).length + ((matching place back).length + 1) = 1 := by
    have whole := congrArg List.length only
    simpa [matching, here] using whole
  have others (part : List α) (none : (matching place part).length = 0) :
      part.filter (fun other => place other ≠ .eq) = part :=
    List.filter_eq_self.mpr fun other mem => decide_eq_true fun equal =>
      List.not_mem_nil (List.eq_nil_of_length_eq_zero none ▸ mem_matching.mpr ⟨mem, equal⟩)
  rw [List.filter_append, List.filter_cons_of_neg (by simp [here]), others front (by omega),
    others back (by omega)]

end Members

namespace Sweeps

variable {place : α → Ordering} {list front back : List α} {a : α}

theorem parts (sweeps : Sweeps place (front ++ a :: back)) :
    Sweeps place front ∧ Sweeps place back := by
  obtain ⟨front_sweeps, rest, -⟩ := List.pairwise_append.mp sweeps
  exact ⟨front_sweeps, (List.pairwise_cons.mp rest).2⟩

theorem before (sweeps : Sweeps place (front ++ a :: back)) {other : α} (mem : other ∈ front) :
    (place other = .lt → place a = .lt) ∧ (place a = .gt → place other = .gt) :=
  (List.pairwise_append.mp sweeps).2.2 other mem a List.mem_cons_self

theorem after (sweeps : Sweeps place (front ++ a :: back)) {other : α} (mem : other ∈ back) :
    (place a = .lt → place other = .lt) ∧ (place other = .gt → place a = .gt) :=
  (List.pairwise_cons.mp (List.pairwise_append.mp sweeps).2.1).1 other mem

theorem above_front (sweeps : Sweeps place (front ++ a :: back)) (here : place a ≠ .lt) :
    above place front = [] :=
  List.filter_eq_nil_iff.mpr fun _ mem less =>
    here ((sweeps.before mem).1 (of_decide_eq_true less))

theorem below_back (sweeps : Sweeps place (front ++ a :: back)) (here : place a ≠ .gt) :
    below place back = [] :=
  List.filter_eq_nil_iff.mpr fun _ mem greater =>
    here ((sweeps.after mem).2 (of_decide_eq_true greater))

/-- Where the probe comes after a member, it comes after all members in front of that one. -/
theorem split_gt (sweeps : Sweeps place (front ++ a :: back)) (here : place a = .gt) :
    below place (front ++ a :: back) = front ++ a :: below place back ∧
      matching place (front ++ a :: back) = matching place back ∧
      above place (front ++ a :: back) = above place back := by
  have all : ∀ other ∈ front, place other = .gt := fun other mem => (sweeps.before mem).2 here
  have none (answer : Ordering) (differ : answer ≠ .gt) :
      front.filter (fun other => place other = answer) = [] :=
    List.filter_eq_nil_iff.mpr fun other mem => by simp [all other mem, differ.symm]
  refine ⟨?_, ?_, ?_⟩
  · rw [below, List.filter_append, List.filter_eq_self.mpr fun other mem => by simp [all other mem]]
    simp [below, here]
  · simp [matching, none .eq, here]
  · simp [above, none .lt, here]

/-- Where the probe comes before a member, it comes before all members behind that one. -/
theorem split_lt (sweeps : Sweeps place (front ++ a :: back)) (here : place a = .lt) :
    below place (front ++ a :: back) = below place front ∧
      matching place (front ++ a :: back) = matching place front ∧
      above place (front ++ a :: back) = above place front ++ a :: back := by
  have all : ∀ other ∈ back, place other = .lt := fun other mem => (sweeps.after mem).1 here
  have none (answer : Ordering) (differ : answer ≠ .lt) :
      back.filter (fun other => place other = answer) = [] :=
    List.filter_eq_nil_iff.mpr fun other mem => by simp [all other mem, differ.symm]
  refine ⟨?_, ?_, ?_⟩
  · simp [below, none .gt, here]
  · simp [matching, none .eq, here]
  · have whole : back.filter (fun other => place other = .lt) = back :=
      List.filter_eq_self.mpr fun other mem => by simp [all other mem]
    simp [above, whole, here]

/-- Around a match the probe is not less in front and not greater behind. -/
theorem split_eq (sweeps : Sweeps place (front ++ a :: back)) (here : place a = .eq) :
    below place (front ++ a :: back) = below place front ∧
      matching place (front ++ a :: back) = matching place front ++ a :: matching place back ∧
      above place (front ++ a :: back) = above place back := by
  have front_ne := sweeps.above_front (by simp [here])
  have back_ne := sweeps.below_back (by simp [here])
  simp only [above, below] at front_ne back_ne
  refine ⟨?_, ?_, ?_⟩
  · simp [below, back_ne, here]
  · simp [matching, here]
  · simp [above, front_ne, here]

/-- A swept list is what the probe comes after, what it matches and what it comes before. -/
theorem eq_append (sweeps : Sweeps place list) :
    list = below place list ++ matching place list ++ above place list := by
  induction list with
  | nil => rfl
  | cons a list ih =>
      have rest := ih (List.pairwise_cons.mp sweeps).2
      have here := sweeps
      rw [← List.nil_append (a :: list)] at here
      cases answer : place a with
      | gt =>
          obtain ⟨below_eq, matching_eq, above_eq⟩ := here.split_gt answer
          rw [List.nil_append] at below_eq matching_eq above_eq
          rw [below_eq, matching_eq, above_eq, List.nil_append, List.cons_append,
            List.cons_append, ← rest]
      | eq =>
          obtain ⟨below_eq, matching_eq, above_eq⟩ := here.split_eq answer
          have none := here.below_back (by simp [answer])
          rw [none, List.nil_append] at rest
          rw [List.nil_append] at below_eq matching_eq above_eq
          rw [below_eq, matching_eq, above_eq]
          simpa [below, matching] using rest
      | lt =>
          obtain ⟨below_eq, matching_eq, above_eq⟩ := here.split_lt answer
          rw [List.nil_append] at below_eq matching_eq above_eq
          rw [below_eq, matching_eq, above_eq]
          simp [below, matching, above]

/-- A list in three such parts is swept. -/
theorem of_append {first middle last : List α} (greater : ∀ a ∈ first, place a = .gt)
    (equal : ∀ a ∈ middle, place a = .eq) (less : ∀ a ∈ last, place a = .lt) :
    Sweeps place (first ++ middle ++ last) := by
  refine List.pairwise_append.mpr ⟨List.pairwise_append.mpr ⟨?_, ?_, ?_⟩, ?_, ?_⟩
  · exact List.pairwise_of_forall_mem_list fun a first_mem b mem => by simp [greater a first_mem]
  · exact List.pairwise_of_forall_mem_list fun a mem b later => by simp [equal a mem, equal b later]
  · intro a mem b later
    simp [greater a mem]
  · exact List.pairwise_of_forall_mem_list fun a mem b later => by simp [less b later]
  · intro a mem b later
    simp [less b later]

/-- The three parts are what the probe comes after, what it matches and what it comes before. -/
theorem parts_of_append {first middle last : List α} (greater : ∀ a ∈ first, place a = .gt)
    (equal : ∀ a ∈ middle, place a = .eq) (less : ∀ a ∈ last, place a = .lt) :
    below place (first ++ middle ++ last) = first ∧
      matching place (first ++ middle ++ last) = middle ∧
      above place (first ++ middle ++ last) = last := by
  have filtered {part : List α} {answer : Ordering} (all : ∀ a ∈ part, place a = answer)
      (wanted : Ordering) :
      part.filter (fun a => place a = wanted) = if answer = wanted then part else [] := by
    split
    · next same => exact List.filter_eq_self.mpr fun a mem => by simp [all a mem, same]
    · next differ => exact List.filter_eq_nil_iff.mpr fun a mem => by simp [all a mem, differ]
  simp [below, matching, above, filtered greater, filtered equal, filtered less]

end Sweeps

/-- A list is swept exactly where its answers read greater, then equal, then less. -/
theorem sweeps_iff {place : α → Ordering} {list : List α} :
    Sweeps place list ↔ list = below place list ++ matching place list ++ above place list := by
  refine ⟨Sweeps.eq_append, fun parts => ?_⟩
  rw [parts]
  exact Sweeps.of_append (fun _ mem => (mem_below.mp mem).2) (fun _ mem => (mem_matching.mp mem).2)
    fun _ mem => (mem_above.mp mem).2

theorem sweeps_map {f : α → β} {place : β → Ordering} {list : List α} :
    Sweeps place (list.map f) ↔ Sweeps (fun a => place (f a)) list := List.pairwise_map

/-! ## Lawful comparators -/

/-- A list in strictly increasing order. -/
def Increasing (order : α → α → Ordering) (list : List α) : Prop :=
  list.Pairwise fun a b => order a b = .lt

namespace Increasing

variable {order query : α → α → Ordering} {list : List α}

/-- A lawful comparator that never contradicts the order of a list sweeps it. -/
theorem sweeps_of_coarser [Std.TransCmp query] (increasing : Increasing order list)
    (coarser : ∀ a b, query a b = .gt → order a b = .gt) (probe : α) :
    Sweeps (query probe) list := by
  refine increasing.imp fun {a b} less => ?_
  have not_gt : query a b ≠ .gt := fun greater => by simp [coarser a b greater] at less
  have le : (query a b).isLE := by
    cases answer : query a b <;> simp_all
  refine ⟨fun probe_lt => Std.TransCmp.lt_of_lt_of_isLE probe_lt le, fun probe_gt => ?_⟩
  exact Std.OrientedCmp.gt_of_lt
    (Std.TransCmp.lt_of_isLE_of_lt le (Std.OrientedCmp.lt_of_gt probe_gt))

theorem sweeps [Std.TransCmp order] (increasing : Increasing order list) (probe : α) :
    Sweeps (order probe) list :=
  increasing.sweeps_of_coarser (fun _ _ greater => greater) probe

/-- Members of a list in increasing order are equal under the order only if they are the same. -/
theorem eq_of_equal [Std.OrientedCmp order] {f : β → α} {members : List β}
    (increasing : Increasing order (members.map f)) {a b : β} (a_mem : a ∈ members)
    (b_mem : b ∈ members) (equal : order (f a) (f b) = .eq) : a = b := by
  have pairwise := List.pairwise_map.mp increasing
  refine List.Pairwise.forall_of_forall_of_flip (R := fun a b => order (f a) (f b) = .eq → a = b)
    (fun _ _ _ => rfl) (pairwise.imp fun less same => ?_) (pairwise.imp fun less same => ?_)
    a_mem b_mem equal
  · simp [less] at same
  · simp [Std.OrientedCmp.gt_of_lt less] at same

/-- At most one member of a list matches a probe under the order of the list. -/
theorem matching_length [Std.TransCmp order] (increasing : Increasing order list) (probe : α) :
    (matching (order probe) list).length ≤ 1 := by
  have ordered : (matching (order probe) list).Pairwise fun a b => order a b = .lt :=
    List.Pairwise.filter _ increasing
  match same : matching (order probe) list with
  | [] => simp
  | [_] => simp
  | a :: b :: rest =>
      have first : order probe a = .eq := (mem_matching.mp (same ▸ List.mem_cons_self)).2
      have second : order probe b = .eq :=
        (mem_matching.mp (same ▸ List.mem_cons_of_mem _ List.mem_cons_self)).2
      rw [same] at ordered
      have less := (List.pairwise_cons.mp ordered).1 b List.mem_cons_self
      have equal := Std.TransCmp.eq_trans (Std.OrientedCmp.eq_symm first) second
      simp [less] at equal

end Increasing

end PackedMap
