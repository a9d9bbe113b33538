/-! # Releases

The version numbers of compilers. A release has numbers separated by points, perhaps an epoch in
front of them, and perhaps marks for a preview, for a later correction, for a development state and
for a build. Releases are ordered; zeros at the end of the numbers make no difference. -/

namespace SourceTree

inductive PreviewStage where
  | alpha
  | beta
  | candidate
  /-- A stage in letters that only pass for those of a known word; it keeps its spelling. -/
  | spelled (word : String)
  deriving DecidableEq, Repr

namespace PreviewStage

def text : PreviewStage → String
  | .alpha => "a"
  | .beta => "b"
  | .candidate => "rc"
  | .spelled word => word

def ofWord (word : String) : PreviewStage :=
  if word = "alpha" ∨ word = "a" then .alpha
  else if word = "beta" ∨ word = "b" then .beta
  else if word = "preview" ∨ word = "pre" ∨ word = "rc" ∨ word = "c" then .candidate
  else .spelled word

end PreviewStage

/-- A correction of a release. Its word is `post`, unless it was spelled in letters that only pass
for those of a known word. -/
structure Correction where
  word : String
  number : Nat
  deriving DecidableEq, Repr

namespace Correction

def ofWord (word : String) (number : Nat) : Correction :=
  ⟨if word = "rev" ∨ word = "r" then "post" else word, number⟩

end Correction

inductive BuildPart where
  | word (text : String)
  | number (value : Nat)
  deriving DecidableEq, Repr, Ord

namespace BuildPart

def text : BuildPart → String
  | .word text => text
  | .number value => toString value

end BuildPart

structure Release where
  epoch : Nat
  numbers : List Nat
  preview : Option (PreviewStage × Nat)
  correction : Option Correction
  development : Option Nat
  /-- The parts of the build mark; none of them for a release without one. -/
  build : List BuildPart
  deriving DecidableEq, Repr

namespace Release

def isPreview (release : Release) : Bool :=
  release.preview.isSome || release.development.isSome

def isCorrection (release : Release) : Bool :=
  release.correction.isSome

/-- The release as its normal form gives it, without its build mark. The normal form has the usual
word for a correction, however it was spelled. -/
def published (release : Release) : Release :=
  { release with
    correction := release.correction.map fun correction => { correction with word := "post" }
    build := [] }

def base (release : Release) : Release :=
  ⟨release.epoch, release.numbers, none, none, none, []⟩

/-! ## Order -/

def dropTrailingZeros (numbers : List Nat) : List Nat :=
  (numbers.reverse.dropWhile (· = 0)).reverse

def wordRank (word : String) (number : Nat) : List Nat :=
  word.toList.map Char.toNat ++ [0, number]

/-- Previews come before the release itself, and development states of the release before its
previews. -/
def previewRank (release : Release) : List Nat :=
  match release.preview with
  | some (stage, number) => 1 :: wordRank stage.text number
  | none =>
      if release.correction.isNone && release.development.isSome then [0] else [2]

def correctionRank (release : Release) : List Nat :=
  release.correction.elim [] fun correction => wordRank correction.word correction.number

def developmentRank (release : Release) : List Nat :=
  match release.development with
  | some number => [0, number]
  | none => [1]

def rank (release : Release) : List (List Nat) :=
  [[release.epoch], dropTrailingZeros release.numbers, release.previewRank,
    release.correctionRank, release.developmentRank]

instance : Ord Release where
  compare left right :=
    (compare left.rank right.rank).then (compare left.build right.build)

def isSame (left right : Release) : Bool :=
  compare left right == .eq

def isBelow (left right : Release) : Bool :=
  compare left right == .lt

def isAtMost (left right : Release) : Bool :=
  compare left right != .gt

def greatest? : List Release → Option Release
  | [] => none
  | release :: rest =>
      some (rest.foldl (fun best other => if isBelow best other then other else best) release)

def descending (releases : List Release) : List Release :=
  releases.mergeSort fun left right => isAtMost right left

/-! ## Text -/

def numbersText (numbers : List Nat) : String :=
  String.intercalate "." (numbers.map toString)

def marksText (release : Release) : String :=
  let preview := release.preview.elim "" fun (stage, number) => stage.text ++ toString number
  let correction :=
    release.correction.elim "" fun correction => ".post" ++ toString correction.number
  let development := release.development.elim "" fun number => ".dev" ++ toString number
  let build :=
    if release.build.isEmpty then ""
    else "+" ++ String.intercalate "." (release.build.map BuildPart.text)
  preview ++ correction ++ development ++ build

def epochText (release : Release) : String :=
  if release.epoch = 0 then "" else toString release.epoch ++ "!"

def text (release : Release) : String :=
  release.epochText ++ numbersText release.numbers ++ release.marksText

def shortText (release : Release) : String :=
  let numbers := dropTrailingZeros release.numbers
  release.epochText ++ numbersText (if numbers.isEmpty then [0] else numbers) ++ release.marksText

end Release

end SourceTree
