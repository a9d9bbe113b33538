import SourceTree.Release.Reader
import SourceTree.Text.Occurrence

/-! # Constraints on releases

A constraint relates a release to one that is written down: equal to it, below it, compatible with
it, and so on. An equality may also name a family, as `0.8.*` does; its members agree with the
numbers that are given. A set of constraints is met by the releases that meet all of them.

A compatible release belongs to the family that is left when the last of the written pieces is
taken away. Marks are only told from numbers by the words they start with there, so a preview in
an unusual spelling stays in the family.

A constraint without a build mark does not look at the build marks of releases.

A number with too many digits makes a constraint unreadable, except in a family, where it is only
noticed when the constraint is used. Constraints that look at the normal form of a release cannot be
applied to one whose normal form does not read as a release. -/

namespace SourceTree

inductive Relation where
  /-- At least the release, and in the family of all but the last of its pieces. -/
  | compatible
  | equal
  | notEqual
  | atMost
  | atLeast
  | below
  | above
  | identical
  deriving DecidableEq, Repr

namespace Relation

def text : Relation → String
  | .compatible => "~="
  | .equal => "=="
  | .notEqual => "!="
  | .atMost => "<="
  | .atLeast => ">="
  | .below => "<"
  | .above => ">"
  | .identical => "==="

def all : List Relation :=
  [.compatible, .equal, .notEqual, .atMost, .atLeast, .below, .above, .identical]

end Relation

inductive Reference where
  | release (release : Release)
  | family (base : Release)
  /-- The releases of a family from a least one onward. -/
  | onward (least base : Release)
  | spelling (text : String)
  /-- A family with a number of too many digits. -/
  | overlong (digits : Nat)
  deriving DecidableEq, Repr

structure Constraint where
  relation : Relation
  reference : Reference
  written : String
  deriving DecidableEq, Repr

namespace Constraint

/-! ## Reading -/

def isPlainPreview (text : List Char) : Bool :=
  ["a", "b", "c", "rc"].any fun word =>
    match Text.afterWord? word.toList text with
    | some digits => !digits.isEmpty && digits.all Char.isDigit
    | none => false

def splitPreview (piece : List Char) : List (List Char) :=
  let (digits, rest) := piece.span Char.isDigit
  if !digits.isEmpty && isPlainPreview rest then [digits, rest] else [piece]

def startsMark (piece : List Char) : Bool :=
  ["dev", "a", "b", "rc", "post"].any fun word => word.toList.isPrefixOf piece

def compatibleFamily? (written : List Char) : Option Release :=
  let pieces := (written.splitOn '.').flatMap splitPreview
  let unmarked := pieces.takeWhile fun piece => !startsMark piece
  Release.exactly? (List.intercalate ['.'] unmarked.dropLast)

def reference? (relation : Relation) (written : List Char) : Option Reference :=
  match relation with
  | .identical =>
      if written.all fun character =>
          !Text.isBlank character && character ≠ ';' && character ≠ ')' then
        some (.spelling (String.ofList written))
      else
        none
  | .compatible => do
      let least ← (Release.exactly? written).filter fun release =>
        release.build.isEmpty && 2 ≤ release.numbers.length
      let base ← compatibleFamily? written
      pure (.onward least base)
  | .equal | .notEqual =>
      if ".*".toList.isSuffixOf written then
        let shared := written.take (written.length - 2)
        ((Release.exactly? shared).filter fun release => release = release.base).map fun base =>
          (Release.overlong? shared).elim (.family base) .overlong
      else
        (Release.exactly? written).map .release
  | _ =>
      ((Release.exactly? written).filter fun release => release.build.isEmpty).map .release

def isUnreadable (constraint : Constraint) : Bool :=
  match constraint.reference with
  | .release _ | .onward _ _ => (Release.overlong? constraint.written.toList).isSome
  | .spelling text =>
      match Release.ofText text with
      | .error (.tooLong _) => true
      | _ => false
  | .family _ | .overlong _ => false

def ofText? (text : List Char) : Option Constraint :=
  let trimmed := Text.trimBlanks text
  Relation.all.findSome? fun relation =>
    match Text.afterWord? relation.text.toList trimmed with
    | none => none
    | some rest =>
        let written := Text.trimBlanks rest
        (reference? relation written).map fun reference =>
          ⟨relation, reference, String.ofList written⟩

def text (constraint : Constraint) : String :=
  constraint.relation.text ++ constraint.written

def identity (constraint : Constraint) : Relation × String :=
  let reference :=
    match constraint.reference with
    | .release release => release.shortText
    | .family _ | .overlong _ => constraint.written
    | .onward least _ => least.text
    | .spelling text => ((Release.ofText? text).map Release.shortText).getD text
  (constraint.relation, reference)

/-! ## Meaning -/

def isApart : PreviewStage → Bool
  | .spelled _ => false
  | _ => true

/-- The numbers of a release and its preview, one piece each. The epoch belongs to the first number.
A preview belongs to the number before it when that has an epoch, or when the word of the preview is
not a known one. -/
def numberPieces (release : Release) : List String :=
  let preview := release.preview.elim "" fun (stage, number) => stage.text ++ toString number
  let apart := release.preview.all fun (stage, _) => isApart stage
  match release.numbers with
  | [] => []
  | first :: rest =>
      let leading := release.epochText ++ toString first
      match rest.reverse with
      | [] => if apart && release.epoch = 0 then [leading, preview] else [leading ++ preview]
      | last :: others =>
          leading :: others.reverse.map toString ++
            (if apart then [toString last, preview] else [toString last ++ preview])

def pieces (release : Release) : List String :=
  (numberPieces release).filter (· ≠ "") ++
    (release.correction.map fun correction => "post" ++ toString correction.number).toList ++
    (release.development.map fun number => "dev" ++ toString number).toList

def isPlain (piece : String) : Bool :=
  piece.toList.all Char.isDigit

/-- Whether a release starts with the pieces of the base. Plain numbers that it lacks count as
zeros, and a number with an epoch is not plain. -/
def inFamily (base release : Release) : Bool :=
  let (plain, marked) := (pieces release).span isPlain
  let width := ((pieces base).takeWhile isPlain).length
  (pieces base).isPrefixOf (plain ++ List.replicate (width - plain.length) "0" ++ marked)

def haveSameBase (left right : Release) : Bool :=
  Release.isSame left.base right.base

def equals (reference release : Release) : Bool :=
  if reference.build.isEmpty then Release.isSame release.published reference
  else Release.isSame release reference

/-- Below a final release, its own previews do not count. -/
def isBelow (reference release : Release) : Bool :=
  Release.isBelow release reference &&
    !(!reference.isPreview && release.isPreview && haveSameBase release reference)

/-- Above a release, its own corrections and builds do not count. -/
def isAbove (reference release : Release) : Bool :=
  Release.isBelow reference release &&
    !(!reference.isCorrection && release.isCorrection && haveSameBase release reference) &&
    !(!release.build.isEmpty && haveSameBase release reference)

def isCompatible (least base release : Release) : Bool :=
  Release.isAtMost least release.published && inFamily base release

def lowered (text : String) : List Char :=
  text.toList.flatMap Text.lowerCase

def admits (constraint : Constraint) (release : Release) : Bool :=
  match constraint.relation, constraint.reference with
  | _, .spelling text => lowered release.text = lowered text
  | .equal, .family base => inFamily base release
  | _, .family base => !inFamily base release
  | _, .overlong _ => false
  | _, .onward least base => isCompatible least base release
  | .equal, .release reference => equals reference release
  | .notEqual, .release reference => !equals reference release
  | .atMost, .release reference => Release.isAtMost release.published reference
  | .atLeast, .release reference => Release.isAtMost reference release.published
  | .below, .release reference => isBelow reference release
  | .above, .release reference => isAbove reference release
  | _, .release reference => equals reference release

/-- Why it cannot be told whether a constraint names a preview: the spelling that it asks for is not
that of a release, or a number in it cannot be read. Inequalities never name one. -/
def fault? (constraint : Constraint) : Option Release.Fault :=
  match constraint.relation, constraint.reference with
  | .notEqual, _ => none
  | _, .spelling text => if (Release.ofText? text).isNone then some (.misspelled text) else none
  | _, .overlong digits => some (.tooLong digits)
  | _, _ => none

def obscurity? (release : Release) : Option Release.Fault :=
  let written := release.published.text
  if (Release.ofText? written).isNone then some (.misspelled written) else none

def obstacle? (constraint : Constraint) (release : Release) : Option Release.Fault :=
  match constraint.relation, constraint.reference with
  | _, .overlong digits => some (.tooLong digits)
  | _, .spelling _ | _, .family _ => none
  | _, .onward _ _ => obscurity? release
  | .below, _ | .above, _ => none
  | .equal, .release reference | .notEqual, .release reference =>
      if reference.build.isEmpty then obscurity? release else none
  | _, .release _ => obscurity? release

def namesPreview (constraint : Constraint) : Bool :=
  match constraint.relation, constraint.reference with
  | .notEqual, _ => false
  | .below, _ => false
  | .above, _ => false
  | _, .release reference => reference.isPreview
  | _, .family base => base.isPreview
  | _, .overlong _ => false
  | _, .onward least _ => least.isPreview
  | _, .spelling text => (Release.ofText? text).any Release.isPreview

end Constraint

structure ConstraintSet where
  constraints : List Constraint
  deriving DecidableEq, Repr

namespace ConstraintSet

def add (constraints : List Constraint) (constraint : Constraint) : List Constraint :=
  if constraints.any fun other => other.identity = constraint.identity then constraints
  else constraints ++ [constraint]

def ofTexts? (texts : List (List Char)) : Option ConstraintSet :=
  (texts.mapM Constraint.ofText?).bind fun constraints =>
    if constraints.any Constraint.isUnreadable then none else some ⟨constraints.foldl add []⟩

def isEmpty (set : ConstraintSet) : Bool :=
  set.constraints.isEmpty

def text (set : ConstraintSet) : String :=
  String.intercalate ","
    ((set.constraints.map Constraint.text).mergeSort fun left right => left ≤ right)

/-- The releases that come into question. Previews only do when a constraint names one, or when
there are neither constraints nor final releases. -/
def candidates (set : ConstraintSet) (releases : List Release) : List Release :=
  let finals := releases.filter fun release => !release.isPreview
  if set.isEmpty then
    if finals.isEmpty then releases else finals
  else if set.constraints.any Constraint.namesPreview then releases
  else finals

def admits (set : ConstraintSet) (release : Release) : Bool :=
  set.constraints.all fun constraint => constraint.admits release

def filter (set : ConstraintSet) (releases : List Release) : List Release :=
  (set.candidates releases).filter set.admits

/-- Why constraints cannot be applied to a release. They are tried in order, up to one that the
release does not meet. -/
def obstacleIn? (release : Release) : List Constraint → Option Release.Fault
  | [] => none
  | constraint :: rest =>
      (constraint.obstacle? release).or
        (if constraint.admits release then obstacleIn? release rest else none)

def fault? (set : ConstraintSet) (releases : List Release) : Option Release.Fault :=
  (set.constraints.findSome? Constraint.fault?).or
    ((set.candidates releases).findSome? fun release => obstacleIn? release set.constraints)

def usable (set : ConstraintSet) (releases : List Release) :
    Except Release.Fault (List Release) :=
  match set.fault? releases with
  | some fault => .error fault
  | none => .ok (Release.descending (set.filter releases))

def select (set : ConstraintSet) (releases : List Release) :
    Except Release.Fault (Option Release) :=
  (set.usable releases).map List.head?

end ConstraintSet

end SourceTree
