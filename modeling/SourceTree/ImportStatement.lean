import SourceTree.Comments
import SourceTree.Text.Character
import SourceTree.Text.Occurrence
import SourceTree.Text.Word

/-! # Import statements

Statements are recognised in the text itself, without parsing the language around them:

- `import "path";` and `import "path" as Name;`
- `import * as Name from "path";`
- `import Name from "path";`
- `import {A, B as C} from "path";`

The keyword must not continue a word. Blanks may stand between any two tokens, either quote may
open or close a path, and the braces may hold anything but a closing brace. -/

namespace SourceTree.ImportStatement

open Text

def afterBlanks? (text : List Char) : Option (List Char) :=
  match text with
  | [] => none
  | character :: _ => if isBlank character then some (skipBlanks text) else none

def word? (text : List Char) : Option (List Char × List Char) :=
  let (word, rest) := text.span isWord
  if word.isEmpty then none else some (word, rest)

def afterFrom? (text : List Char) : Option (List Char) :=
  (afterWord? "from".toList (skipBlanks text)).map skipBlanks

/-- What follows a name and `from`. The keyword may be the end of the name's own word, as in
`Namefrom`, when the path comes next. -/
def afterNameFrom? (text : List Char) : Option (List Char) :=
  match word? text with
  | none => none
  | some (word, rest) =>
      match afterFrom? rest with
      | some after => some after
      | none =>
          if 4 < word.length ∧ "from".toList.isSuffixOf word then
            some (skipBlanks rest)
          else
            none

def afterNames? (text : List Char) : Option (List Char) :=
  match text with
  | '\x7b' :: inside =>
      match inside.dropWhile (· ≠ '\x7d') with
      | _ :: rest => afterFrom? rest
      | [] => none
  | '*' :: rest =>
      match (afterWord? "as".toList (skipBlanks rest)).bind afterBlanks? with
      | some name => afterNameFrom? name
      | none => none
  | '"' :: _ => some text
  | '\'' :: _ => some text
  | _ => afterNameFrom? text

def isQuote (character : Char) : Bool :=
  character = '"' || character = '\''

def quotedPath? (text : List Char) : Option (List Char × List Char) :=
  match text with
  | [] => none
  | character :: inside =>
      if isQuote character then
        match inside.span fun other => !isQuote other with
        | (_, []) => none
        | (path, _ :: rest) => if path.isEmpty then none else some (path, rest)
      else
        none

def afterEnd? (text : List Char) : Option (List Char) :=
  let rest := skipBlanks text
  let named : Option (List Char) :=
    match (afterWord? "as".toList rest).bind afterBlanks? with
    | some name => (word? name).map fun found => skipBlanks found.2
    | none => none
  match named.getD rest with
  | ';' :: after => some after
  | _ => none

def statement? (text : List Char) : Option (List Char × List Char) := do
  let afterKeyword ← afterWord? "import".toList text
  let clause ← afterBlanks? afterKeyword
  let beforePath ← afterNames? clause
  let (path, afterPath) ← quotedPath? beforePath
  let rest ← afterEnd? afterPath
  pure (path, rest)

/-- Find statements from left to right, none overlapping another. `inWord` says that the character
before the text continues a word. The paths found so far are in reverse; every step passes at
least one character, so the length of the text is fuel enough. -/
def scan : Nat → Bool → List (List Char) → List Char → List (List Char)
  | 0, _, found, _ => found.reverse
  | _ + 1, _, found, [] => found.reverse
  | fuel + 1, inWord, found, character :: rest =>
      match if inWord then none else statement? (character :: rest) with
      | some (path, after) => scan fuel false (path :: found) after
      | none => scan fuel (isWord character) found rest

def pathsIn (text : List Char) : List (List Char) :=
  scan text.length false [] text

end SourceTree.ImportStatement

namespace SourceTree

def importPaths (source : String) : List String :=
  (ImportStatement.pathsIn (Comments.strip source.toList)).eraseDups.map String.ofList

example : importPaths "import \x7bA\x7d from \"./a.sol\"; import './b.sol' as B;" =
    ["./a.sol", "./b.sol"] := by decide +kernel

end SourceTree
