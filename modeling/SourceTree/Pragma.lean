import SourceTree.Constraint
import SourceTree.Text.Character

/-! # Version pragmas

A source says with a pragma which compilers may compile it. The pragma is looked for at the start
of lines in the text itself, so comments are not told apart from code. Its constraints are written
the way sources write them: a caret for compatibility, a bare release for equality, blanks between
a relation and its release, and commas between constraints. -/

namespace SourceTree.Pragma

/-! ## Finding the pragma -/

def atStart? (text : List Char) : Option (List Char) := do
  let afterPragma ← Text.afterWord? "pragma".toList text
  let afterName ← Text.afterWord? "solidity".toList (Text.skipBlanks afterPragma)
  pure ((Text.skipBlanks afterName).takeWhile fun character =>
    character ≠ ';' && character ≠ '\n')

/-- The text of the first pragma with nothing but blanks before it on its line; `isFresh` says
whether there were only blanks since the last line break. -/
def findFrom? (isFresh : Bool) : List Char → Option (List Char)
  | [] => none
  | character :: rest =>
      if Text.isBlank character then findFrom? (isFresh || character = '\n') rest
      else
        match if isFresh then atStart? (character :: rest) else none with
        | some found => some found
        | none => findFrom? false rest

def find? (source : List Char) : Option (List Char) :=
  findFrom? true source

/-! ## Reading its constraints -/

def dropEnds (isDropped : Char → Bool) (text : List Char) : List Char :=
  ((text.dropWhile isDropped).reverse.dropWhile isDropped).reverse

def normalized (part : List Char) : List Char :=
  let spelled := part.flatMap fun character =>
    if character = '^' then ['~', '='] else [character]
  match spelled with
  | [] => []
  | first :: rest =>
      if Text.isNumeral first then '=' :: '=' :: spelled
      else if first = '=' && rest.head?.any (· ≠ '=') then '=' :: spelled
      else spelled

structure Progress where
  found : List (List Char)
  begun : List Char

def addPart (progress : Progress) (part : List Char) : Progress :=
  if part.any Text.isNumeral then
    ⟨progress.found ++ [normalized (progress.begun.reverseAux part)], []⟩
  else
    ⟨progress.found, part.reverseAux progress.begun⟩

/-- Read the words of a pragma. A word with a comma inside needs a word after it, which continues
what stands behind the comma; `none` when there is no such word, or more than one comma. -/
def readWords? : Progress → List (List Char) → Option Progress
  | progress, [] => some progress
  | progress, [word] =>
      if word.contains ',' then none else some (addPart progress word)
  | progress, word :: next :: rest =>
      if word.contains ',' then
        match (word.splitOn ',').map Text.trimBlanks with
        | [before, behind] =>
            if next.isEmpty then none
            else readWords? (addPart (addPart progress before) (behind ++ next)) rest
        | _ => none
      else
        readWords? (addPart progress word) (next :: rest)

inductive Meaning where
  | constraints (set : ConstraintSet)
  /-- Its words are no constraints. -/
  | unusable
  /-- Its commas leave open where constraints begin. -/
  | unsupported (text : String)
  deriving DecidableEq, Repr

def meaning (text : List Char) : Meaning :=
  let words := (text.splitOn ' ').map (dropEnds fun character => character = ' ' || character = ',')
  match readWords? ⟨[], []⟩ words with
  | none => .unsupported (String.ofList text)
  | some progress =>
      let written := (progress.found.flatMap fun part => part.splitOn ',').filter fun part =>
        !(Text.trimBlanks part).isEmpty
      match ConstraintSet.ofTexts? written with
      | some set => .constraints set
      | none => .unusable

def unsupportedMessage (text : String) : String :=
  s!"Cannot handle pragma '{text}'."

def ofSource? (source : String) : Option Meaning :=
  (find? source.toList).map meaning

end SourceTree.Pragma
