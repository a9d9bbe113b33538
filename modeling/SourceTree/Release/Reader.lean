import SourceTree.Decimal.Written
import SourceTree.Release
import SourceTree.Text.Character

/-! # Written releases

Releases are written in many ways: capital letters, a `v` in front, long and short words for the
marks, and points, hyphens or underscores around the words or nothing at all. Their numbers may
not have more than a certain count of digits. -/

namespace SourceTree.Release

inductive Fault where
  | misspelled (written : String)
  /-- One of its numbers has too many digits to be read. -/
  | tooLong (digits : Nat)
  deriving DecidableEq, Repr

def digitsValue (digits : List Char) : Nat :=
  digits.foldl (fun value digit => value * 10 + (digit.toNat - '0'.toNat)) 0

def isSeparator (character : Char) : Bool :=
  character = '-' || character = '_' || character = '.'

def dropSeparator (text : List Char) : List Char :=
  match text with
  | [] => []
  | character :: rest => if isSeparator character then rest else text

def number? (text : List Char) : Option (Nat × List Char) :=
  let (digits, rest) := text.span Char.isDigit
  if digits.isEmpty then none else some (digitsValue digits, rest)

def moreNumbers : Nat → List Char → List Nat × List Char
  | 0, text => ([], text)
  | fuel + 1, text =>
      match text with
      | '.' :: rest =>
          match number? rest with
          | some (number, after) =>
              let (numbers, last) := moreNumbers fuel after
              (number :: numbers, last)
          | none => ([], text)
      | _ => ([], text)

def firstWord? (words : List String) (text : List Char) : Option (String × List Char) :=
  words.findSome? fun word =>
    let written := text.take word.length
    if written.map Text.foldCase = word.toList then
      some (String.ofList (written.flatMap Text.lowerCase), text.drop word.length)
    else
      none

def mark? (words : List String) (text : List Char) : Option ((String × Nat) × List Char) :=
  (firstWord? words (dropSeparator text)).map fun (word, rest) =>
    let (number, after) := (number? (dropSeparator rest)).getD (0, dropSeparator rest)
    ((word, number), after)

def previewWords : List String :=
  ["alpha", "a", "beta", "b", "preview", "pre", "rc", "c"]

def correctionWords : List String := ["post", "rev", "r"]

def correction? (text : List Char) : Option (Correction × List Char) :=
  let hyphened : Option (Correction × List Char) :=
    match text with
    | '-' :: rest => (number? rest).map fun (number, after) => (⟨"post", number⟩, after)
    | _ => none
  hyphened.or ((mark? correctionWords text).map fun ((word, number), rest) =>
    (.ofWord word number, rest))

def buildPart (written : List Char) : BuildPart :=
  if written.all Char.isDigit then .number (digitsValue written)
  else .word (String.ofList (written.flatMap Text.lowerCase))

def isBuildCharacter (character : Char) : Bool :=
  (Text.foldCase character).isAlphanum

def buildParts? : Nat → List Char → Option (List BuildPart × List Char)
  | 0, _ => none
  | fuel + 1, text =>
      let (written, rest) := text.span isBuildCharacter
      if written.isEmpty then none
      else
        match rest with
        | [] => some ([buildPart written], [])
        | character :: after =>
            if isSeparator character then
              (buildParts? fuel after).map fun (parts, last) => (buildPart written :: parts, last)
            else some ([buildPart written], rest)

def optionally {α : Type} (read : List Char → Option (α × List Char)) (text : List Char) :
    Option α × List Char :=
  match read text with
  | some (found, rest) => (some found, rest)
  | none => (none, text)

def dropLeadingV (text : List Char) : List Char :=
  match text with
  | [] => []
  | character :: rest => if character = 'v' ∨ character = 'V' then rest else text

def atStart? (text : List Char) : Option (Release × List Char) := do
  let unmarked := dropLeadingV text
  let (first, afterFirst) ← number? unmarked
  let (epoch, numbered) : Nat × List Char :=
    match afterFirst with
    | '!' :: rest => (first, rest)
    | _ => (0, unmarked)
  let (leading, afterLeading) ← number? numbered
  let (others, afterNumbers) := moreNumbers afterLeading.length afterLeading
  let (preview, afterPreview) := optionally (mark? previewWords) afterNumbers
  let (correction, afterCorrection) := optionally correction? afterPreview
  let (development, afterDevelopment) := optionally (mark? ["dev"]) afterCorrection
  let release : Release :=
    { epoch
      numbers := leading :: others
      preview := preview.map fun (word, number) => (.ofWord word, number)
      correction
      development := development.map Prod.snd
      build := [] }
  match afterDevelopment with
  | '+' :: rest =>
      let (build, last) ← buildParts? (rest.length + 1) rest
      pure ({ release with build }, last)
  | _ => pure (release, afterDevelopment)

def exactly? (written : List Char) : Option Release :=
  match atStart? written with
  | some (release, []) => some release
  | _ => none

def ofText? (written : String) : Option Release :=
  exactly? (Text.trimBlanks written.toList)

/-! ## Numbers of bounded length -/

def digitRuns : (run : Nat) → List Char → List Nat
  | run, [] => [run]
  | run, character :: rest =>
      if character.isDigit then digitRuns (run + 1) rest else run :: digitRuns 0 rest

/-- The length of the first number that is too long. In a build mark, only parts that consist of
digits are numbers. -/
def overlong? (written : List Char) : Option Nat :=
  let (numbered, build) := written.span (· ≠ '+')
  let parts := ((build.drop 1).splitOnP isSeparator).filter fun part => part.all Char.isDigit
  (digitRuns 0 numbered ++ parts.map List.length).find? (Decimal.maxDigits < ·)

def ofText (written : String) : Except Fault Release :=
  match ofText? written with
  | none => .error (.misspelled written)
  | some release =>
      match overlong? (Text.trimBlanks written.toList) with
      | some digits => .error (.tooLong digits)
      | none => .ok release

def withoutBuild (written : String) : Except Fault Release :=
  ofText (String.ofList (Text.trimBlanks (written.toList.takeWhile (· ≠ '+'))))

example : (ofText? "v0.8.21+commit.d9974bed").map text = some "0.8.21+commit.d9974bed" := by
  decide +kernel
example : (ofText? "1.0-RC.2").map text = some "1.0rc2" := by decide +kernel
example : ofText? "0.8.21-nightly" = none := by decide +kernel
example : (ofText? "1.0po\u017ft1").map text = some "1.0.post1" := by decide +kernel

end SourceTree.Release
