import SourceTree.Pragma
import SourceTree.Proofs.Comments

/-! # Pragmas and comments

The pragma of a source is looked for in the text as it stands. A comment can be deleted without a
change if the pragma is over before it, or if it holds no line that starts with a pragma and keeps
none from the start of its line. Elsewhere comments do choose the pragma: a pragma in a comment
counts like any other, and one behind a comment does not count at all. -/

namespace SourceTree

/-! ## Comments where they stand -/

namespace Comments

def Comment.text : Comment → List Char
  | line text _ => '/' :: '/' :: text
  | block text _ => '/' :: '*' :: (text ++ ['*', '/'])

def Comment.EndsAt (after : List Char) : Comment → Prop
  | line _ _ => ∀ character ∈ after.head?, character = '\n'
  | block _ _ => True

/-- A comment of a source, which is what a scan from the left finds behind code and other
comments. -/
structure Occurrence (source : List Char) where
  before : List Piece
  comment : Comment
  after : List Char
  ends : comment.EndsAt after
  whole : source = render before ++ (comment.text ++ after)

def Occurrence.deleted {source : List Char} (occurrence : Occurrence source) : List Char :=
  render occurrence.before ++ occurrence.after

end Comments

namespace Pragma

open Text Comments

/-! ## Fronts of a text -/

def stopsInside (text : List Char) : Bool :=
  text.isPrefixOf "pragma".toList ||
    match afterWord? "pragma".toList text with
    | none => false
    | some afterPragma =>
        (skipBlanks afterPragma).isPrefixOf "solidity".toList ||
          match afterWord? "solidity".toList (skipBlanks afterPragma) with
          | none => false
          | some afterName =>
              (skipBlanks afterName).all fun character => character ≠ ';' && character ≠ '\n'

/-- What the front of a text says about its first pragma. -/
inductive Standing where
  | found (text : List Char)
  /-- There is none so far, and only blanks since the last line break. -/
  | fresh
  /-- There is none so far, and something else since the last line break. -/
  | stale
  deriving DecidableEq, Repr

def standing? (isFresh : Bool) : List Char → Option Standing
  | [] => some (if isFresh then .fresh else .stale)
  | character :: rest =>
      if isBlank character then standing? (isFresh || character = '\n') rest
      else if isFresh && stopsInside (character :: rest) then none
      else
        match if isFresh then atStart? (character :: rest) else none with
        | some text => some (.found text)
        | none => standing? false rest

def Standing.resume (rest : List Char) : Standing → Option (List Char)
  | found text => some text
  | fresh => findFrom? true rest
  | stale => findFrom? false rest

def opensLine : List Char → Bool
  | [] => false
  | character :: rest =>
      if character = '\n' then false
      else if isBlank character then opensLine rest
      else (atStart? (character :: rest)).isSome

/-- The comments that can be deleted. -/
inductive Spares (before : List Char) : Comment → List Char → Prop
  /-- The pragma is over before the comment. -/
  | behind {comment : Comment} {after text : List Char}
      (isFound : standing? true before = some (.found text)) : Spares before comment after
  | line {text after : List Char} {oneLine : '\n' ∉ text} {standing : Standing}
      (known : standing? true before = some standing) : Spares before (.line text oneLine) after
  /-- None of the lines of the comment starts with a pragma. -/
  | block {text after : List Char} {unclosed : ¬['*', '/'] <:+: text}
      (isStale : standing? true before = some .stale)
      (silent : findFrom? false (Comment.block text unclosed).text = none) :
      Spares before (.block text unclosed) after
  /-- The comment stands at the start of a line that does not go on with a pragma. -/
  | blockInFront {text after : List Char} {unclosed : ¬['*', '/'] <:+: text}
      (isFresh : standing? true before = some .fresh)
      (silent : findFrom? false (Comment.block text unclosed).text = none)
      (otherwise : opensLine after = false) : Spares before (.block text unclosed) after

/-! ## Going on behind a front -/

theorem skipBlanks_append {text : List Char} (further : skipBlanks text ≠ []) (rest : List Char) :
    skipBlanks (text ++ rest) = skipBlanks text ++ rest := by
  unfold skipBlanks at further ⊢
  rw [List.dropWhile_append, if_neg]
  simpa using further

theorem afterWord?_append {word text : List Char} (apart : text.isPrefixOf word = false)
    (rest : List Char) :
    afterWord? word (text ++ rest) = (afterWord? word text).map (· ++ rest) := by
  apply Option.ext
  intro after
  rw [Option.map_eq_some_iff, afterWord?_eq_some_iff]
  constructor
  · intro whole
    obtain ⟨more, rfl⟩ : word <+: text := by
      have within : word <+: text ++ rest := ⟨after, whole.symm⟩
      have starts : text <+: text ++ rest := List.prefix_append text rest
      apply (List.prefix_or_prefix_of_prefix within starts).resolve_right
      intro isPart
      rw [List.isPrefixOf_iff_prefix.2 isPart] at apart
      cases apart
    rw [List.append_assoc] at whole
    exact ⟨more, afterWord?_eq_some_iff.2 rfl, List.append_cancel_left whole⟩
  · rintro ⟨more, found, rfl⟩
    rw [afterWord?_eq_some_iff.1 found, List.append_assoc]

theorem takeWhile_append_of_not_all {kind : Char → Bool} {text : List Char}
    (stops : text.all kind = false) (rest : List Char) :
    (text ++ rest).takeWhile kind = text.takeWhile kind := by
  induction text with
  | nil => cases stops
  | cons character text induction =>
      rw [List.cons_append, List.takeWhile_cons, List.takeWhile_cons]
      cases isKind : kind character with
      | false => rfl
      | true =>
          rw [List.all_cons, isKind, Bool.true_and] at stops
          rw [induction stops]

/-- A text that does not stop inside of a pragma starts with the same pragma, or with none, whatever
follows it. -/
theorem atStart?_append {text : List Char} (whole : stopsInside text = false) (rest : List Char) :
    atStart? (text ++ rest) = atStart? text := by
  rw [stopsInside, Bool.or_eq_false_iff] at whole
  rcases whole with ⟨pastPragma, whole⟩
  rw [atStart?, atStart?, afterWord?_append pastPragma]
  cases isPragma : afterWord? "pragma".toList text with
  | none => rfl
  | some afterPragma =>
      rw [isPragma] at whole
      simp only [Bool.or_eq_false_iff] at whole
      rcases whole with ⟨pastName, whole⟩
      have further : skipBlanks afterPragma ≠ [] := by
        intro isEmpty
        rw [isEmpty] at pastName
        cases pastName
      simp only [Option.map_some, Option.bind_eq_bind, Option.bind_some]
      rw [skipBlanks_append further, afterWord?_append pastName]
      cases isName : afterWord? "solidity".toList (skipBlanks afterPragma) with
      | none => rfl
      | some afterName =>
          rw [isName] at whole
          simp only at whole
          have further : skipBlanks afterName ≠ [] := by
            intro isEmpty
            rw [isEmpty] at whole
            cases whole
          simp only [Option.map_some, Option.bind_some]
          rw [skipBlanks_append further, takeWhile_append_of_not_all whole]

theorem findFrom?_append {isFresh : Bool} {front : List Char} {standing : Standing}
    (known : standing? isFresh front = some standing) (rest : List Char) :
    findFrom? isFresh (front ++ rest) = standing.resume rest := by
  induction front generalizing isFresh with
  | nil => cases isFresh <;> cases known <;> rfl
  | cons character front induction =>
      rw [List.cons_append, findFrom?]
      rw [standing?] at known
      split at known
      next blank =>
        rw [if_pos blank]
        exact induction known
      next notBlank =>
        rw [if_neg notBlank]
        split at known
        next => cases known
        next outside =>
          -- A front that does not stop inside of a pragma says by itself whether one starts here.
          have same : (if isFresh then atStart? (character :: (front ++ rest)) else none) =
              if isFresh then atStart? (character :: front) else none := by
            cases isFresh with
            | false => rfl
            | true =>
                rw [Bool.true_and, Bool.not_eq_true] at outside
                exact atStart?_append outside rest
          rw [same]
          generalize (if isFresh then atStart? (character :: front) else none) = found at known ⊢
          cases found with
          | some text =>
              cases known
              rfl
          | none => exact induction known

theorem findFrom?_of_opensLine {text : List Char} (otherwise : opensLine text = false) :
    findFrom? true text = findFrom? false text := by
  induction text with
  | nil => rfl
  | cons character rest induction =>
      rw [opensLine] at otherwise
      rw [findFrom?, findFrom?, Bool.true_or, Bool.false_or]
      split
      next blank =>
        by_cases newline : character = '\n'
        · rw [decide_eq_true newline]
        · rw [if_neg newline, if_pos blank] at otherwise
          rw [decide_eq_false newline]
          exact induction otherwise
      next notBlank =>
        have newline : character ≠ '\n' := by
          rintro rfl
          exact notBlank (by decide)
        rw [if_neg newline, if_neg notBlank, Option.isSome_eq_false_iff,
          Option.isNone_iff_eq_none] at otherwise
        rw [if_pos rfl, otherwise, if_neg Bool.false_ne_true]

theorem findFrom?_of_lineEnd {text : List Char}
    (ends : ∀ character ∈ text.head?, character = '\n') (isFresh : Bool) :
    findFrom? isFresh text = findFrom? true text := by
  cases text with
  | nil => rfl
  | cons character rest =>
      cases ends character rfl
      have blank : isBlank '\n' = true := by decide
      rw [findFrom?, findFrom?, if_pos blank, if_pos blank, decide_eq_true rfl, Bool.or_true,
        Bool.or_true]

/-! ## Comments as fronts -/

theorem standing?_of_one_line {text : List Char} (oneLine : '\n' ∉ text) :
    standing? false text = some .stale := by
  induction text with
  | nil => rfl
  | cons character rest induction =>
      rw [List.mem_cons, not_or] at oneLine
      have newline : character ≠ '\n' := Ne.symm oneLine.1
      rw [standing?, Bool.false_or, decide_eq_false newline, Bool.false_and,
        if_neg Bool.false_ne_true, if_neg Bool.false_ne_true]
      split <;> exact induction oneLine.2

theorem isSome_atStart?_of_stopsInside {text : List Char} (stops : stopsInside text = true)
    (star : '*' ∈ text) : (atStart? text).isSome := by
  rw [stopsInside, Bool.or_eq_true, List.isPrefixOf_iff_prefix] at stops
  cases stops with
  | inl inPragma => exact absurd (inPragma.subset star) (by decide)
  | inr stops =>
      split at stops
      next => cases stops
      next afterPragma isPragma =>
        have star : '*' ∈ afterPragma := by
          rw [afterWord?_eq_some_iff.1 isPragma] at star
          exact (List.mem_append.1 star).resolve_left (by decide)
        have star : '*' ∈ skipBlanks afterPragma := by
          rw [← List.takeWhile_append_dropWhile (p := isBlank) (l := afterPragma)] at star
          apply (List.mem_append.1 star).resolve_left
          intro blank
          exact absurd (List.all_eq_true.1 List.all_takeWhile '*' blank) (by decide)
        rw [Bool.or_eq_true, List.isPrefixOf_iff_prefix] at stops
        cases stops with
        | inl inName => exact absurd (inName.subset star) (by decide)
        | inr stops =>
            split at stops
            next => cases stops
            next afterName isName =>
              rw [atStart?, isPragma]
              simp only [Option.bind_eq_bind, Option.bind_some, isName, Option.pure_def,
                Option.isSome_some]

theorem standing?_of_closed {isFresh : Bool} {front : List Char}
    (silent : findFrom? isFresh (front ++ ['*', '/']) = none) :
    standing? isFresh (front ++ ['*', '/']) = some .stale := by
  induction front generalizing isFresh with
  | nil => cases isFresh <;> decide
  | cons character front induction =>
      rw [List.cons_append, findFrom?] at silent
      rw [List.cons_append, standing?]
      split at silent
      next blank =>
        rw [if_pos blank]
        exact induction silent
      next notBlank =>
        rw [if_neg notBlank]
        -- A text with a star that stops inside of a pragma has got as far as what the pragma says.
        have outside (nothing : (if isFresh then atStart? (character :: (front ++ ['*', '/']))
            else none) = none) :
            ¬(isFresh && stopsInside (character :: (front ++ ['*', '/']))) = true := by
          intro both
          rw [Bool.and_eq_true] at both
          rcases both with ⟨fresh, stops⟩
          rw [if_pos fresh] at nothing
          have begins := isSome_atStart?_of_stopsInside stops (by simp)
          rw [nothing] at begins
          cases begins
        generalize (if isFresh then atStart? (character :: (front ++ ['*', '/'])) else none) = found
          at silent outside ⊢
        cases found with
        | some text => cases silent
        | none =>
            rw [if_neg (outside rfl)]
            exact induction silent

theorem findFrom?_slash (isFresh : Bool) (rest : List Char) :
    findFrom? isFresh ('/' :: rest) = findFrom? false ('/' :: rest) := by
  have noPragma : atStart? ('/' :: rest) = none := rfl
  rw [findFrom?, findFrom?, noPragma, ite_self, ite_self]
  rfl

theorem findFrom?_block {text : List Char} {unclosed : ¬['*', '/'] <:+: text}
    (silent : findFrom? false (Comment.block text unclosed).text = none) (isFresh : Bool)
    (after : List Char) :
    findFrom? isFresh ((Comment.block text unclosed).text ++ after) = findFrom? false after := by
  have closed : findFrom? false (('/' :: '*' :: text) ++ ['*', '/']) = none := silent
  have known : standing? false (Comment.block text unclosed).text = some .stale :=
    standing?_of_closed closed
  exact (findFrom?_slash isFresh _).trans (findFrom?_append known after)

theorem findFrom?_line {text after : List Char} (oneLine : '\n' ∉ text)
    (ends : ∀ character ∈ after.head?, character = '\n') (isFresh : Bool) :
    findFrom? isFresh ((Comment.line text oneLine).text ++ after) = findFrom? isFresh after := by
  have known : standing? false (Comment.line text oneLine).text = some .stale :=
    standing?_of_one_line (by simpa [Comment.text] using oneLine)
  calc findFrom? isFresh ((Comment.line text oneLine).text ++ after)
      = findFrom? false ((Comment.line text oneLine).text ++ after) := findFrom?_slash isFresh _
    _ = findFrom? false after := findFrom?_append known after
    _ = findFrom? true after := findFrom?_of_lineEnd ends false
    _ = findFrom? isFresh after := (findFrom?_of_lineEnd ends isFresh).symm

/-! ## Deleting comments -/

theorem find?_of_spares {before : List Char} {comment : Comment} {after : List Char}
    (ends : comment.EndsAt after) (spares : Spares before comment after) :
    find? (before ++ after) = find? (before ++ (comment.text ++ after)) := by
  rw [find?, find?]
  cases spares with
  | behind isFound => rw [findFrom?_append isFound, findFrom?_append isFound, Standing.resume,
      Standing.resume]
  | @line text after oneLine standing known =>
      rw [findFrom?_append known, findFrom?_append known]
      cases standing with
      | found text => rfl
      | fresh => exact (findFrom?_line oneLine ends true).symm
      | stale => exact (findFrom?_line oneLine ends false).symm
  | block isStale silent =>
      rw [findFrom?_append isStale, findFrom?_append isStale]
      exact (findFrom?_block silent false after).symm
  | blockInFront isFresh silent otherwise =>
      rw [findFrom?_append isFresh, findFrom?_append isFresh]
      exact (findFrom?_of_opensLine otherwise).trans (findFrom?_block silent true after).symm

/-- A comment that spares the pragma can be deleted, and the source still asks for the same
compilers. -/
theorem ofSource?_of_spares {source : String} (occurrence : Occurrence source.toList)
    (spares : Spares (render occurrence.before) occurrence.comment occurrence.after) :
    ofSource? (String.ofList occurrence.deleted) = ofSource? source := by
  rw [ofSource?, ofSource?, String.toList_ofList, Occurrence.deleted,
    find?_of_spares occurrence.ends spares, ← occurrence.whole]

def annotated : String :=
  "// pragma solidity 0.4.0;\n/* pragma solidity 0.5.0;\n * pragma solidity 0.6.0; */\n" ++
    "pragma solidity ^0.8.0;\n"

def annotation : Occurrence annotated.toList where
  before := [.comment (.line " pragma solidity 0.4.0;".toList (by decide))]
  comment := .block " pragma solidity 0.5.0;\n * pragma solidity 0.6.0; ".toList (by decide)
  after := "\npragma solidity ^0.8.0;\n".toList
  ends := trivial
  whole := by decide +kernel

theorem ofSource?_of_annotation :
    Spares (render annotation.before) annotation.comment annotation.after ∧
      ofSource? (String.ofList annotation.deleted) = ofSource? annotated := by
  have spares : Spares (render annotation.before) annotation.comment annotation.after :=
    .blockInFront (by decide +kernel) (by decide +kernel) (by decide +kernel)
  exact ⟨spares, ofSource?_of_spares annotation spares⟩

def outcommented : String :=
  "/*\npragma solidity ^0.5.0;\n*/\npragma solidity ^0.8.0;\n"

def retired : Occurrence outcommented.toList where
  before := []
  comment := .block "\npragma solidity ^0.5.0;\n".toList (by decide)
  after := "\npragma solidity ^0.8.0;\n".toList
  ends := trivial
  whole := by decide +kernel

/-- The comment of a source without quotes decides what the source asks for. -/
theorem ofSource?_ne_of_retired :
    '"' ∉ outcommented.toList ∧ '\'' ∉ outcommented.toList ∧
      ofSource? (String.ofList retired.deleted) ≠ ofSource? outcommented := by
  decide +kernel

end Pragma

end SourceTree
