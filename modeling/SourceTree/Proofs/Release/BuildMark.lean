import SourceTree.Proofs.Release.Reader

/-! # Releases without their build marks

A build mark starts with a plus sign, and no other part of a release has one. So what stands in
front of the first plus sign of a written release is read as the same release without its build
mark. -/

namespace SourceTree.Release

open SourceTree.Text

/-! ## The build mark -/

theorem build_of_unbuilt? {text rest : List Char} {release : Release}
    (read : unbuilt? text = some (release, rest)) : release.build = [] := by
  rw [unbuilt?, Option.bind_eq_some_iff] at read
  rcases read with ⟨⟨epoch, numbered⟩, -, read⟩
  rcases Option.map_eq_some_iff.1 read with ⟨⟨leading, afterLeading⟩, -, read⟩
  have equal : (goOn epoch leading afterLeading).1 = release := congrArg Prod.fst read
  rw [← equal, goOn]

theorem atStart?_of_noPlus {text : List Char} (noPlus : '+' ∉ text) :
    atStart? text = unbuilt? text := by
  rw [atStart?_eq]
  cases read : unbuilt? text with
  | none => rfl
  | some found =>
      apply withBuild?_of_noMark
      intro rest isMark
      have isWithin := (takesFront_unbuilt? text found read).mem (isMark ▸ List.mem_cons_self)
      exact noPlus isWithin

theorem exactly?_eq_some_iff {written : List Char} {release : Release} :
    exactly? written = some release ↔ atStart? written = some (release, []) := by
  unfold exactly?
  constructor
  · intro found
    split at found
    next read => exact read.trans (by simpa using found)
    next => cases found
  · intro read
    rw [read]

theorem takeWhile_plus {front : List Char} (noPlus : '+' ∉ front) (behind : List Char) :
    (front ++ '+' :: behind).takeWhile (· ≠ '+') = front := by
  have passes : ∀ character ∈ front, decide (character ≠ '+') = true := by
    intro character mem
    exact decide_eq_true (fun equal => noPlus (equal ▸ mem))
  rw [List.takeWhile_append_of_pos passes, List.takeWhile_cons_of_neg (by simp), List.append_nil]

theorem takeWhile_of_noPlus {text : List Char} (noPlus : '+' ∉ text) :
    text.takeWhile (· ≠ '+') = text := by
  rw [List.takeWhile_eq_self_iff]
  intro character mem
  exact decide_eq_true (fun equal => noPlus (equal ▸ mem))

theorem unbuilt?_of_exactly? {text : List Char} {release : Release}
    (found : exactly? text = some release) :
    unbuilt? (text.takeWhile (· ≠ '+')) = some ({ release with build := [] }, []) := by
  rw [exactly?_eq_some_iff] at found
  by_cases plus : '+' ∈ text
  · rcases List.eq_append_cons_of_mem plus with ⟨front, behind, rfl, noPlus⟩
    rw [takeWhile_plus noPlus]
    rw [atStart?_eq, stopsBefore_unbuilt? stops_plus, Option.bind_eq_some_iff] at found
    rcases found with ⟨read, found, finished⟩
    rcases Option.map_eq_some_iff.1 found with ⟨⟨unbuilt, rest⟩, early, rfl⟩
    cases rest with
    | nil =>
        rcases Option.map_eq_some_iff.1 finished with ⟨build, -, equal⟩
        have equal : { unbuilt with build := build.1 } = release := congrArg Prod.fst equal
        rw [early, ← equal, ← build_of_unbuilt? early]
    | cons character rest =>
        -- Something else follows the release, and that is no build mark.
        have notMark : character ≠ '+' := by
          rintro rfl
          exact noPlus ((takesFront_unbuilt? front _ early).mem List.mem_cons_self)
        simp [withBuild?, leaving, notMark] at finished
  · rw [atStart?_of_noPlus plus] at found
    rw [takeWhile_of_noPlus plus, found, ← build_of_unbuilt? found]

theorem not_isBlank_of_unbuilt? {text : List Char} {release : Release}
    (read : unbuilt? text = some (release, [])) :
    ∀ character ∈ text, isBlank character = false := by
  intro character mem
  by_contra blank
  rw [Bool.not_eq_false] at blank
  exact not_stops_of_unbuilt? read mem (stops_of_isBlank blank)

theorem exactly?_of_unbuilt? {text : List Char} {release : Release}
    (read : unbuilt? text = some (release, [])) : exactly? text = some release := by
  have noPlus : '+' ∉ text := fun mem => not_stops_of_unbuilt? read mem stops_plus
  rw [exactly?_eq_some_iff, atStart?_of_noPlus noPlus, read]

/-! ## Blanks around releases -/

theorem trimBlanks_of_noBlank {text : List Char}
    (noBlank : ∀ character ∈ text, isBlank character = false) : trimBlanks text = text := by
  have dropsNothing : ∀ {other : List Char}, (∀ character ∈ other, isBlank character = false) →
      other.dropWhile isBlank = other := by
    intro other noBlank
    cases other with
    | nil => rfl
    | cons character other =>
        exact List.dropWhile_cons_of_neg (by simp [noBlank character List.mem_cons_self])
  rw [trimBlanks, dropsNothing noBlank, dropsNothing, List.reverse_reverse]
  intro character mem
  exact noBlank character (List.mem_reverse.1 mem)

theorem trimBlanks_append {blanks : List Char}
    (allBlank : ∀ character ∈ blanks, isBlank character = true) (text : List Char) :
    trimBlanks (blanks ++ text) = trimBlanks text := by
  rw [trimBlanks, trimBlanks, List.dropWhile_append_of_pos allBlank]

theorem exists_trimBlanks (text : List Char) :
    ∃ before after, (∀ character ∈ before, isBlank character = true) ∧
      (∀ character ∈ after, isBlank character = true) ∧
      text = before ++ (trimBlanks text ++ after) := by
  refine ⟨text.takeWhile isBlank,
    ((text.dropWhile isBlank).reverse.takeWhile isBlank).reverse, ?_, ?_, ?_⟩
  · exact List.all_eq_true.1 List.all_takeWhile
  · intro character mem
    exact List.all_eq_true.1 List.all_takeWhile character (List.mem_reverse.1 mem)
  · rw [trimBlanks, ← List.reverse_append, List.takeWhile_append_dropWhile, List.reverse_reverse,
      List.takeWhile_append_dropWhile]

theorem trimBlanks_takeWhile {text : List Char}
    (noBlank : ∀ character ∈ (trimBlanks text).takeWhile (· ≠ '+'), isBlank character = false) :
    trimBlanks (text.takeWhile (· ≠ '+')) = (trimBlanks text).takeWhile (· ≠ '+') := by
  have notPlus : ∀ {blanks : List Char}, (∀ character ∈ blanks, isBlank character = true) →
      '+' ∉ blanks := by
    intro blanks allBlank mem
    exact absurd (allBlank '+' mem) (by decide)
  rcases exists_trimBlanks text with ⟨before, after, blankBefore, blankAfter, whole⟩
  by_cases plus : '+' ∈ trimBlanks text
  · rcases List.eq_append_cons_of_mem plus with ⟨front, behind, isFirst, noPlus⟩
    rw [isFirst, takeWhile_plus noPlus] at noBlank ⊢
    have frontOfText : text = (before ++ front) ++ '+' :: (behind ++ after) := by
      rw [whole, isFirst]
      simp only [List.append_assoc, List.cons_append]
    have noPlusBefore : '+' ∉ before ++ front := by
      simp [notPlus blankBefore, noPlus]
    rw [frontOfText, takeWhile_plus noPlusBefore, trimBlanks_append blankBefore,
      trimBlanks_of_noBlank noBlank]
  · have noPlus : '+' ∉ text := by
      rw [whole]
      simp [notPlus blankBefore, notPlus blankAfter, plus]
    rw [takeWhile_of_noPlus noPlus, takeWhile_of_noPlus plus]

/-! ## Reading without a build mark -/

theorem overlong?_takeWhile {text : List Char} (short : overlong? text = none) :
    overlong? (text.takeWhile (· ≠ '+')) = none := by
  have noPlus : ∀ character ∈ text.takeWhile (· ≠ '+'), decide (character ≠ '+') = true :=
    List.all_eq_true.1 List.all_takeWhile
  simp only [overlong?, List.span_eq_takeWhile_dropWhile, List.find?_append, Option.or_eq_none_iff,
    List.takeWhile_eq_self_iff.2 noPlus, List.dropWhile_eq_nil_iff.2 noPlus] at short ⊢
  exact ⟨short.1, by decide⟩

/-- A text that writes a release writes, without what follows its plus sign, the same release
without a build mark. -/
theorem withoutBuild_of_ofText {written : String} {release : Release}
    (read : ofText written = .ok release) :
    withoutBuild written = .ok { release with build := [] } := by
  rw [ofText] at read
  split at read
  next => cases read
  next found =>
    split at read
    next => cases read
    next short =>
      obtain rfl := Except.ok.inj read
      have early := unbuilt?_of_exactly? found
      have noBlank := not_isBlank_of_unbuilt? early
      rw [withoutBuild, trimBlanks_takeWhile noBlank, ofText, ofText?, String.toList_ofList,
        trimBlanks_of_noBlank noBlank, exactly?_of_unbuilt? early]
      simp only [overlong?_takeWhile short]

end SourceTree.Release
