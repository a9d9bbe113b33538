import SourceTree.Detection
import SourceTree.Proofs.Pattern.Spelled
import SourceTree.Proofs.Registration

/-! # The markers of a known library

The written patterns that mark version 5.0 of a known library, as plain statements about the words
that stand in a source. A source that mentions the library asks for 5.0 exactly if one of them
holds, and otherwise for 4.9 if it calls the constructor without an owner; 4.7 shares the marker of
4.9 and stands behind it, so it is never asked for. -/

namespace SourceTree

open Cursor Pattern

namespace Library

def fiveQualifiers : List (List Char) :=
  ["/v5".toList, "@5".toList, "@v5".toList, "@~5".toList]

/-- What makes a source ask for version 5.0. -/
inductive AsksForFive (source : List Char) : Prop
  | qualified {slash qualifier : List Char} (optional : slash ∈ ["/".toList, []])
      (known : qualifier ∈ fiveQualifiers)
      (stands : openZeppelin.root.toList ++ slash ++ qualifier <:+: source) : AsksForFive source
  | errorInterface (stands : "IERC6093".toList <:+: source) : AsksForFive source
  | accessManager (stands : "AccessManager".toList <:+: source) : AsksForFive source
  | selectiveImport (stands : StandsIn "import".toList (StartsWith (· = '\x7b')) source) :
      AsksForFive source
  | initialOwner (noBare : ¬StandsIn "Ownable()".toList (fun _ => True) source)
      (stands : StandsIn "Ownable(".toList
        (StartsWith fun character => character ≠ ')' ∧ Text.isBlank character = false) source) :
      AsksForFive source

/-! ## What the written patterns find -/

theorem search_qualifier_iff {source : List Char} :
    search "@openzeppelin/contracts/?(?:/v5|@5|@v5|@~5)" source = .ok true ↔
      ∃ slash ∈ ["/".toList, []], ∃ qualifier ∈ fiveQualifiers,
        openZeppelin.root.toList ++ slash ++ qualifier <:+: source := by
  have written : ofText? "@openzeppelin/contracts/?(?:/v5|@5|@v5|@~5)" =
      some (Pattern.sequence (literal openZeppelin.root.toList ++
        [oneOf ["/".toList, []], oneOf fiveQualifiers])) := by
    decide +kernel
  rw [search_of_ofText? written, Except.ok.injEq, occursIn_iff]
  constructor
  · rintro ⟨front, rest, stop, rfl, described⟩
    rcases describes_literal_append_iff.1 described with ⟨rest, rfl, behind⟩
    rcases exists_describes_oneOf_iff.1 ⟨stop, behind⟩ with ⟨slash, optional, _, rfl, further⟩
    rcases exists_describes_oneOf_iff.1 further with ⟨qualifier, known, rest, rfl, -⟩
    exact ⟨slash, optional, qualifier, known, front, rest, by simp⟩
  · rintro ⟨slash, optional, qualifier, known, front, rest, split⟩
    have behind : ∃ stop,
        (Pattern.sequence [oneOf ["/".toList, []], oneOf fiveQualifiers]).Describes
        (between (front ++ openZeppelin.root.toList) (slash ++ (qualifier ++ rest))) stop :=
      exists_describes_oneOf_iff.2 ⟨slash, optional, _, rfl, exists_describes_oneOf_iff.2
        ⟨qualifier, known, rest, rfl, exists_describes_nil _⟩⟩
    rcases behind with ⟨stop, described⟩
    exact ⟨front, _, stop, by simp [← split], describes_literal_append_iff.2 ⟨_, rfl, described⟩⟩

theorem search_selectiveImport_iff {source : List Char} :
    search selectiveImport source = .ok true ↔
      StandsIn "import".toList (StartsWith (· = '\x7b')) source := by
  have written : ofText? selectiveImport = some (Pattern.sequence
      (.boundary false :: literal ('i' :: "mport".toList) ++
        [.many false (.one .blank), .one (.only '\x7b')])) := by
    decide +kernel
  rw [search_of_ofText? written, Except.ok.injEq]
  refine occursIn_word_iff (by decide) (exists_describes_blanks_iff fun character => ?_)
  simp [CharSet.contains]

def anyCharacter : CharSet :=
  .union (.union .nothing .blank) (.complement .blank)

theorem contains_anyCharacter (character : Char) : anyCharacter.contains character = true := by
  cases blank : Text.isBlank character <;> simp [anyCharacter, CharSet.contains, blank]

def startsArgument : CharSet :=
  .complement (.union (.union .nothing (.only ')')) .blank)

theorem contains_startsArgument_iff (character : Char) :
    startsArgument.contains character = true ↔
      character ≠ ')' ∧ Text.isBlank character = false := by
  simp [startsArgument, CharSet.contains]

theorem search_ownableWithOwner_iff {source : List Char} :
    search ownableWithOwner source = .ok true ↔
      ¬StandsIn "Ownable()".toList (fun _ => True) source ∧ StandsIn "Ownable(".toList
        (StartsWith fun character => character ≠ ')' ∧ Text.isBlank character = false) source := by
  have written : ofText? ownableWithOwner = some (Pattern.sequence [.textStart,
      .ahead true (Pattern.sequence (.many false (.one anyCharacter) :: .boundary false ::
        literal ('O' :: "wnable()".toList) ++ [])),
      Pattern.sequence (.many true (.one anyCharacter) :: .boundary false ::
        literal ('O' :: "wnable(".toList) ++
          [.many false (.one .blank), .one startsArgument])]) := by
    decide +kernel
  have bare : (∃ stop, (Pattern.sequence (.many false (.one anyCharacter) :: .boundary false ::
      literal ('O' :: "wnable()".toList) ++ [])).Describes (between [] source) stop) ↔
        StandsIn "Ownable()".toList (fun _ => True) source :=
    exists_describes_somewhere_iff contains_anyCharacter (by decide)
      (iff_true_intro (exists_describes_nil _))
  have given : (∃ stop, (Pattern.sequence (.many true (.one anyCharacter) :: .boundary false ::
      literal ('O' :: "wnable(".toList) ++
        [.many false (.one .blank), .one startsArgument])).Describes
        (between [] source) stop) ↔ StandsIn "Ownable(".toList
          (StartsWith fun character => character ≠ ')' ∧ Text.isBlank character = false) source :=
    exists_describes_somewhere_iff contains_anyCharacter (by decide)
      (exists_describes_blanks_iff contains_startsArgument_iff)
  -- The pattern is tied to the start of the source, so it looks ahead over the whole of it.
  rw [search_of_ofText? written, Except.ok.injEq, occursIn_iff]
  constructor
  · rintro ⟨front, rest, stop, rfl, described⟩
    rcases describes_sequence_cons.1 described with ⟨_, ⟨rfl, atStart⟩, described⟩
    rcases describes_sequence_cons.1 described with ⟨_, ⟨rfl, ahead⟩, described⟩
    have isStart : front = [] := List.getLast?_eq_none_iff.1 atStart
    subst isStart
    refine ⟨fun stands => ?_, given.1 ⟨stop, described⟩⟩
    exact Bool.noConfusion (ahead.1 (bare.2 stands))
  · rintro ⟨noBare, stands⟩
    rcases given.2 stands with ⟨stop, described⟩
    have ahead := iff_of_false (mt bare.1 noBare) (by decide : ¬true = false)
    refine ⟨[], source, stop, rfl, describes_sequence_cons.2 ⟨_, ⟨rfl, rfl⟩, ?_⟩⟩
    exact describes_sequence_cons.2 ⟨_, ⟨rfl, ahead⟩, described⟩

/-! ## What a source asks for -/

theorem asksForFive_iff {source : List Char} :
    AsksForFive source ↔
      search "@openzeppelin/contracts/?(?:/v5|@5|@v5|@~5)" source = .ok true ∨
        "IERC6093".toList <:+: source ∨ "AccessManager".toList <:+: source ∨
          search ownableWithOwner source = .ok true ∨ search selectiveImport source = .ok true := by
  rw [search_qualifier_iff, search_ownableWithOwner_iff, search_selectiveImport_iff]
  constructor
  · intro asks
    cases asks with
    | qualified optional known stands => exact .inl ⟨_, optional, _, known, stands⟩
    | errorInterface stands => exact .inr (.inl stands)
    | accessManager stands => exact .inr (.inr (.inl stands))
    | initialOwner noBare stands => exact .inr (.inr (.inr (.inl ⟨noBare, stands⟩)))
    | selectiveImport stands => exact .inr (.inr (.inr (.inr stands)))
  · rintro (⟨slash, optional, qualifier, known, stands⟩ | stands | stands | ⟨noBare, stands⟩ |
      stands)
    · exact .qualified optional known stands
    · exact .errorInterface stands
    · exact .accessManager stands
    · exact .initialOwner noBare stands
    · exact .selectiveImport stands

theorem qualifiedIn?_openZeppelin {source : List Char} {qualified : Bool}
    (searched : search "@openzeppelin/contracts/?(?:/v5|@5|@v5|@~5)" source = .ok qualified) :
    openZeppelin.qualifiedIn? search source = .ok (if qualified then some "5.0" else none) := by
  have entries : openZeppelin.qualifiers.entries =
      [("@openzeppelin/contracts/?(?:/v5|@5|@v5|@~5)", "5.0")] := rfl
  simp only [qualifiedIn?, entries, List.findM?, searched]
  cases qualified <;> rfl

theorem markedIn?_openZeppelin {source : List Char} {given selective : Bool}
    (searchedOwner : search ownableWithOwner source = .ok given)
    (searchedImport : search selectiveImport source = .ok selective) :
    openZeppelin.markedIn? search source = .ok (
      if Text.occursIn "IERC6093".toList source || Text.occursIn "AccessManager".toList source ||
          given || selective then some "5.0"
      else if Text.occursIn "Ownable()".toList source then some "4.9"
      else none) := by
  simp only [markedIn?, openZeppelin, List.findM?, LibraryVersion.isMarkedIn, List.any_cons,
    List.any_nil, Bool.or_false, List.anyM_cons, List.anyM_nil, searchedOwner, searchedImport]
  cases Text.occursIn "IERC6093".toList source <;>
    cases Text.occursIn "AccessManager".toList source <;> cases given <;> cases selective <;>
      cases Text.occursIn "Ownable()".toList source <;> rfl

/-- The patterns of the library are all read, so its version is detected without a fault. -/
theorem detectedIn?_openZeppelin (source : List Char) :
    ∃ marked : Bool, (marked = true ↔ AsksForFive source) ∧
      openZeppelin.detectedIn? search source = .ok (
        if marked then some "5.0"
        else if Text.occursIn "Ownable()".toList source then some "4.9"
        else none) := by
  have searchable := searchable_of_registered_catalog openZeppelin List.mem_cons_self
  rcases searchable "@openzeppelin/contracts/?(?:/v5|@5|@v5|@~5)" (by decide) source with
    ⟨qualified, isQualified⟩
  rcases searchable ownableWithOwner (by decide) source with ⟨given, isGiven⟩
  rcases searchable selectiveImport (by decide) source with ⟨selective, isSelective⟩
  refine ⟨qualified || (Text.occursIn "IERC6093".toList source ||
    Text.occursIn "AccessManager".toList source || given || selective), ?_, ?_⟩
  · simp only [asksForFive_iff, isQualified, isGiven, isSelective, ← Text.occursIn_iff,
      Bool.or_eq_true, Except.ok.injEq, or_assoc]
  · rw [detectedIn?, qualifiedIn?_openZeppelin isQualified,
      markedIn?_openZeppelin isGiven isSelective]
    cases qualified <;> rfl

end Library

namespace Preference

theorem get?_openZeppelin :
    (Registry.ofLibraries Library.catalog).get? Library.openZeppelin.root =
      some Library.openZeppelin := rfl

/-- The version of the library that is detected in a file, of all known libraries. -/
def openZeppelinIn? (path source : String) : Except Unexpected (Option String) :=
  (detect search (.ofLibraries Library.catalog) (.ofList [(path, source)])).map fun preference =>
    preference.get? Library.openZeppelin.root

theorem openZeppelinIn?_eq {path source : String} {version : Option String}
    (mentions : Library.openZeppelin.root.toList <:+: source.toList)
    (isDetected : Library.openZeppelin.detectedIn? search source.toList = .ok version) :
    openZeppelinIn? path source = .ok (version.filter fun name => !name.isEmpty) := by
  have values : (Listing.ofList [(path, source)]).values = [source] := rfl
  rcases exists_detect_of_searchable Library.searchable_of_registered_catalog
    (.ofList [(path, source)]) with ⟨preference, detected⟩
  rw [openZeppelinIn?, detected, Except.map, get?_of_detect detected, get?_openZeppelin,
    Option.bind_some, values, ← List.nil_append [source], Library.requestedBySources?_concat,
    Library.asked?, Library.requestedBy?, if_pos ((Text.occursIn_iff _ _).2 mentions), isDetected]
  exact congrArg Except.ok Option.or_none

/-- A source that mentions the library asks for 5.0 exactly if one of the markers holds, otherwise
for 4.9 exactly if it calls `Ownable()`, and for nothing else. -/
theorem detect_openZeppelin {path source : String}
    (mentions : Library.openZeppelin.root.toList <:+: source.toList) :
    (openZeppelinIn? path source = .ok (some "5.0") ↔ Library.AsksForFive source.toList) ∧
      (¬Library.AsksForFive source.toList →
        (openZeppelinIn? path source = .ok (some "4.9") ↔ "Ownable()".toList <:+: source.toList) ∧
        (¬"Ownable()".toList <:+: source.toList → openZeppelinIn? path source = .ok none)) ∧
      openZeppelinIn? path source ≠ .ok (some "4.7") := by
  rcases Library.detectedIn?_openZeppelin source.toList with ⟨marked, markedIff, isDetected⟩
  rw [openZeppelinIn?_eq mentions isDetected, ← markedIff, ← Text.occursIn_iff]
  cases marked with
  | true =>
      rw [if_pos rfl]
      exact ⟨iff_of_true rfl rfl, fun notAsked => absurd rfl notAsked, by decide⟩
  | false =>
      cases Text.occursIn "Ownable()".toList source.toList with
      | true =>
          refine ⟨iff_of_false (by decide) (by decide),
            fun _ => ⟨iff_of_true rfl rfl, ?_⟩, by decide⟩
          exact fun notBare => absurd rfl notBare
      | false =>
          refine ⟨iff_of_false (by decide) (by decide), fun _ => ⟨?_, fun _ => rfl⟩, by decide⟩
          exact iff_of_false (by decide) (by decide)

/-- A source in which another name that ends in `Ownable()` does not count as the bare constructor,
so the owner that is given to `Ownable` speaks for 5.0. -/
theorem detect_openZeppelin_of_given_owner :
    Library.openZeppelin.root.toList <:+:
        "import '@openzeppelin/contracts/Ownable.sol'; NotOwnable() Ownable( owner)".toList ∧
      openZeppelinIn? "main.sol"
        "import '@openzeppelin/contracts/Ownable.sol'; NotOwnable() Ownable( owner)" =
          .ok (some "5.0") := by
  have mentions : Library.openZeppelin.root.toList <:+:
      "import '@openzeppelin/contracts/Ownable.sol'; NotOwnable() Ownable( owner)".toList := by
    decide +kernel
  have asks : Library.AsksForFive
      "import '@openzeppelin/contracts/Ownable.sol'; NotOwnable() Ownable( owner)".toList :=
    Library.asksForFive_iff.2 (.inr (.inr (.inr (.inl (by decide +kernel)))))
  exact ⟨mentions, (detect_openZeppelin mentions).1.2 asks⟩

end Preference

end SourceTree
