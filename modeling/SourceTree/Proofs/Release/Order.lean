import SourceTree.Release

/-! # The order of releases

Any two releases can be compared, and comparisons can be chained, although releases that are written
differently may be the same in the order. So every list with releases has a greatest one, and
looking for it and sorting the list both find one that nothing in the list surpasses. -/

namespace SourceTree

namespace BuildPart

@[simp]
theorem compare_words (left right : String) :
    compare (word left) (word right) = compare left right := by
  change (compare left right).then .eq = compare left right
  cases compare left right <;> rfl

@[simp]
theorem compare_numbers (left right : Nat) :
    compare (number left) (number right) = compare left right := by
  change (compare left right).then .eq = compare left right
  cases compare left right <;> rfl

@[simp]
theorem compare_word_number (left : String) (right : Nat) :
    compare (word left) (number right) = .lt := rfl

@[simp]
theorem compare_number_word (left : Nat) (right : String) :
    compare (number left) (word right) = .gt := rfl

instance : Std.OrientedOrd BuildPart where
  eq_swap {left right} := by
    cases left with
    | word left =>
        cases right with
        | word right => simpa using Std.OrientedOrd.eq_swap
        | number right => rfl
    | number left =>
        cases right with
        | word right => rfl
        | number right => simpa using Std.OrientedOrd.eq_swap

instance : Std.TransOrd BuildPart where
  isLE_trans {first second third} below above := by
    cases first <;> cases second <;> cases third <;>
      simp only [compare_words, compare_numbers, compare_word_number, compare_number_word]
        at below above ⊢
    -- Only parts of one kind have to be compared; words come before numbers.
    case word.word.word | number.number.number => exact Std.TransOrd.isLE_trans below above
    all_goals first | rfl | contradiction

end BuildPart

namespace Release

instance : Std.TransOrd Release :=
  inferInstanceAs (Std.TransCmp (compareLex (compareOn rank) (compareOn build)))

@[simp]
theorem isSame_self (release : Release) : isSame release release := by
  simp [isSame]

@[simp]
theorem isAtMost_self (release : Release) : isAtMost release release := by
  simp [isAtMost]

theorem isAtMost_iff {left right : Release} :
    isAtMost left right ↔ (compare left right).isLE := by
  unfold isAtMost
  cases compare left right <;> decide

theorem isAtMost_trans {first second third : Release} (below : isAtMost first second)
    (above : isAtMost second third) : isAtMost first third := by
  rw [isAtMost_iff] at below above ⊢
  exact Std.TransCmp.isLE_trans below above

theorem isAtMost_of_isBelow {left right : Release} (below : isBelow left right) :
    isAtMost left right := by
  revert below
  unfold isBelow isAtMost
  cases compare left right <;> decide

theorem isAtMost_of_not_isBelow {left right : Release} (notBelow : ¬isBelow left right) :
    isAtMost right left := by
  revert notBelow
  unfold isBelow isAtMost
  rw [Std.OrientedOrd.eq_swap (a := right)]
  cases compare left right <;> decide

theorem isAtMost_total (left right : Release) :
    isAtMost left right ∨ isAtMost right left := by
  by_cases below : isBelow left right
  · exact .inl (isAtMost_of_isBelow below)
  · exact .inr (isAtMost_of_not_isBelow below)

/-! ## The greatest release -/

/-- A release with some property that no release with the property surpasses. -/
structure IsGreatest (property : Release → Prop) (greatest : Release) : Prop where
  holds : property greatest
  bounds : ∀ release, property release → isAtMost release greatest

def greater (best other : Release) : Release :=
  if isBelow best other then other else best

theorem greatest?_cons (best : Release) (rest : List Release) :
    greatest? (best :: rest) = some (rest.foldl greater best) := rfl

theorem greater_eq (best other : Release) :
    greater best other = best ∨ greater best other = other := by
  unfold greater
  split
  · exact .inr rfl
  · exact .inl rfl

theorem isAtMost_greater_left (best other : Release) : isAtMost best (greater best other) := by
  unfold greater
  split
  next below => exact isAtMost_of_isBelow below
  next => exact isAtMost_self best

theorem isAtMost_greater_right (best other : Release) : isAtMost other (greater best other) := by
  unfold greater
  split
  next => exact isAtMost_self other
  next notBelow => exact isAtMost_of_not_isBelow notBelow

/-- Whatever the search has passed is not above what it holds on to. -/
theorem isGreatest_foldl (best : Release) (rest : List Release) :
    IsGreatest (· ∈ best :: rest) (rest.foldl greater best) := by
  induction rest generalizing best with
  | nil =>
      refine ⟨List.mem_cons_self, ?_⟩
      intro release mem
      obtain rfl := List.mem_singleton.1 mem
      exact isAtMost_self release
  | cons other rest induction =>
      rcases induction (greater best other) with ⟨holds, bounds⟩
      have isBound := bounds (greater best other) List.mem_cons_self
      simp only [List.mem_cons, List.foldl_cons] at holds bounds ⊢
      constructor
      · rcases holds with equal | mem
        · rcases greater_eq best other with isBest | isOther
          · exact .inl (equal.trans isBest)
          · exact .inr (.inl (equal.trans isOther))
        · exact .inr (.inr mem)
      · intro release mem
        rcases mem with rfl | rfl | mem
        · exact isAtMost_trans (isAtMost_greater_left release other) isBound
        · exact isAtMost_trans (isAtMost_greater_right best release) isBound
        · exact bounds release (.inr mem)

theorem isGreatest_of_greatest? {releases : List Release} {greatest : Release}
    (found : greatest? releases = some greatest) : IsGreatest (· ∈ releases) greatest := by
  cases releases with
  | nil => cases found
  | cons best rest =>
      rw [greatest?_cons, Option.some.injEq] at found
      exact found ▸ isGreatest_foldl best rest

@[simp]
theorem greatest?_eq_none {releases : List Release} :
    greatest? releases = none ↔ releases = [] := by
  cases releases <;> simp [greatest?]

@[simp]
theorem mem_descending {releases : List Release} {release : Release} :
    release ∈ descending releases ↔ release ∈ releases :=
  List.mem_mergeSort

theorem pairwise_descending (releases : List Release) :
    (descending releases).Pairwise fun left right => isAtMost right left := by
  apply List.pairwise_mergeSort
  · intro first second third above below
    exact isAtMost_trans below above
  · intro left right
    simpa using isAtMost_total right left

theorem isGreatest_of_head?_descending {releases : List Release} {greatest : Release}
    (first : (descending releases).head? = some greatest) :
    IsGreatest (· ∈ releases) greatest := by
  rcases List.head?_eq_some_iff.1 first with ⟨rest, sorted⟩
  have ordered := pairwise_descending releases
  rw [sorted, List.pairwise_cons] at ordered
  refine ⟨mem_descending.1 (sorted ▸ List.mem_cons_self), ?_⟩
  intro release mem
  rw [← mem_descending, sorted] at mem
  cases mem with
  | head => exact isAtMost_self greatest
  | tail _ mem => exact ordered.1 release mem

end Release

end SourceTree
