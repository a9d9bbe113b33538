import SourceTree.Text.Character
import SourceTree.Text.Word

/-! # Search patterns

Patterns describe pieces of text. The library only asks whether a text has a piece that a pattern
describes, so the order in which alternatives are tried and the difference between short and long
repetitions carry no meaning here, except inside a settled pattern: such a pattern stays with the
first piece that it finds.

A pattern leads from the places of a text where a piece may start to those where it may end. All
places are followed together and repetitions go on from no place twice, so that a search takes time
in proportion to the text. -/

namespace SourceTree

/-! ## Sets of characters -/

inductive CharSet where
  | only (character : Char)
  | between (low high : Char)
  | word
  | digit
  | blank
  | all
  | nothing
  | union (left right : CharSet)
  | complement (set : CharSet)
  deriving DecidableEq, Repr

namespace CharSet

def contains : CharSet → Char → Bool
  | .only expected, character => character = expected
  | .between low high, character => low ≤ character && character ≤ high
  | .word, character => Text.isWord character
  | .digit, character => Text.isDigit character
  | .blank, character => Text.isBlank character
  | .all, _ => true
  | .nothing, _ => false
  | .union left right, character => left.contains character || right.contains character
  | .complement set, character => !set.contains character

end CharSet

inductive Pattern where
  | empty
  | one (set : CharSet)
  /-- A word starts or ends here; with `inside`, neither does. -/
  | boundary (inside : Bool)
  | textStart
  | textEnd
  | followed (first second : Pattern)
  | either (left right : Pattern)
  /-- Any number of times; `lazily`, fewer times are tried first. -/
  | many (lazily : Bool) (body : Pattern)
  /-- As many times as the first pieces that `body` describes follow one another. -/
  | exhausted (body : Pattern)
  /-- The first piece that is described by `body`, and no other. -/
  | settled (body : Pattern)
  /-- What follows is described by `body`; with `negated`, it is not. -/
  | ahead (negated : Bool) (body : Pattern)
  deriving DecidableEq, Repr

/-- A place in a text. It remembers the character before it, because word boundaries and the start
of the text depend on it. -/
structure Cursor where
  before : Option Char
  rest : List Char
  /-- How many characters are left. -/
  left : Nat
  leftCounted : left = rest.length
  deriving DecidableEq, Repr

namespace Cursor

def atStart (text : List Char) : Cursor :=
  ⟨none, text, text.length, rfl⟩

def isBoundary (cursor : Cursor) : Bool :=
  let wordBefore := cursor.before.any Text.isWord
  let wordAfter := cursor.rest.head?.any Text.isWord
  wordBefore != wordAfter

def isAtEnd (cursor : Cursor) : Bool :=
  cursor.rest.isEmpty || cursor.rest == ['\n']

def pass? (set : CharSet) (cursor : Cursor) : Option Cursor :=
  match follows : cursor.rest with
  | [] => none
  | character :: rest =>
      if set.contains character then
        some ⟨some character, rest, cursor.left - 1, by simp [cursor.leftCounted, follows]⟩
      else
        none

/-- The places that a step leads to one after another, the last one first. Each step has to advance,
so the number of characters left is fuel enough. -/
def chain (step : Cursor → Option Cursor) : Nat → Cursor → List Cursor → List Cursor
  | 0, cursor, passed => cursor :: passed
  | fuel + 1, cursor, passed =>
      match step cursor with
      | none => cursor :: passed
      | some next =>
          if next.left < cursor.left then chain step fuel next (cursor :: passed)
          else cursor :: passed

/-! ## Sets of places

Places are listed from the last to the first, each of them once. -/

def all (text : List Char) : List Cursor :=
  chain (pass? .all) text.length (atStart text) []

def passDownTo (place : Cursor) : List Cursor → List Cursor → List Cursor × List Cursor
  | passed, [] => (passed, [])
  | passed, other :: others =>
      if other.left < place.left then passDownTo place (other :: passed) others
      else if other.left = place.left then (passed, others)
      else (passed, other :: others)

def mergeOnto : List Cursor → List Cursor → List Cursor → List Cursor
  | passed, [], others => passed.reverseAux others
  | passed, place :: places, others =>
      let (after, before) := passDownTo place passed others
      mergeOnto (place :: after) places before

def merge (places others : List Cursor) : List Cursor :=
  mergeOnto [] places others

def apartOnto : List Cursor → List Cursor → List Cursor → List Cursor
  | kept, [], _ => kept.reverse
  | kept, place :: places, others =>
      let notAfter := others.dropWhile fun other => other.left < place.left
      if notAfter.head?.any fun other => other.left = place.left then
        apartOnto kept places notAfter
      else
        apartOnto (place :: kept) places notAfter

def apart (places others : List Cursor) : List Cursor :=
  apartOnto [] places others

def spread (step : List Cursor → List Cursor) : Nat → List Cursor → List Cursor → List Cursor
  | 0, _, taken => taken
  | _ + 1, [], taken => taken
  | fuel + 1, place :: places, taken =>
      let all := merge (place :: places) taken
      spread step fuel (apart (step (place :: places)) all) all

/-- The places that any number of steps lead to. None of them lies before the first place, so what
is left there bounds the number of rounds that find any. -/
def closure (step : List Cursor → List Cursor) (places : List Cursor) : List Cursor :=
  match places.getLast? with
  | none => []
  | some first => spread step (first.left + 1) places []

end Cursor

namespace Pattern

/-! ## The first piece -/

def repeatInOrder (lazily : Bool)
    (step : Cursor → (Cursor → Option Cursor) → Option Cursor)
    (accept : Cursor → Option Cursor) : Nat → Cursor → Option Cursor
  | 0, cursor => accept cursor
  | fuel + 1, cursor =>
      let again := fun (_ : Unit) => step cursor fun next =>
        if next.left < cursor.left then repeatInOrder lazily step accept fuel next
        else accept next
      if lazily then (accept cursor).orElse again
      else (again ()).orElse fun _ => accept cursor

def firstOnChain? (lazily : Bool) (step : Cursor → Option Cursor)
    (accept : Cursor → Option Cursor) (cursor : Cursor) : Option Cursor :=
  let places := cursor.chain step cursor.left []
  (if lazily then places.reverse else places).findSome? accept

/-- The first accepted end of a described piece that starts at the cursor, in the order of the
alternatives and with long repetitions before short ones unless they are lazy. -/
def firstEnd? : Pattern → Cursor → (Cursor → Option Cursor) → Option Cursor
  | .empty, cursor, accept => accept cursor
  | .one set, cursor, accept => (cursor.pass? set).bind accept
  | .boundary inside, cursor, accept =>
      if cursor.isBoundary != inside then accept cursor else none
  | .textStart, cursor, accept => if cursor.before.isNone then accept cursor else none
  | .textEnd, cursor, accept => if cursor.isAtEnd then accept cursor else none
  | .followed first second, cursor, accept =>
      first.firstEnd? cursor fun middle => second.firstEnd? middle accept
  | .either left right, cursor, accept =>
      (left.firstEnd? cursor accept).orElse fun _ => right.firstEnd? cursor accept
  | .many lazily (.one set), cursor, accept =>
      firstOnChain? lazily (Cursor.pass? set) accept cursor
  | .many lazily body, cursor, accept =>
      repeatInOrder lazily body.firstEnd? accept cursor.left cursor
  | .exhausted body, cursor, accept =>
      (cursor.chain (fun place => body.firstEnd? place some) cursor.left []).head?.bind accept
  | .settled body, cursor, accept => (body.firstEnd? cursor some).bind accept
  | .ahead negated body, cursor, accept =>
      if (body.firstEnd? cursor some).isSome != negated then accept cursor else none

def firstEnds (pattern : Pattern) (starts : List Cursor) : List Cursor :=
  starts.foldr (fun place found => Cursor.merge (pattern.firstEnd? place some).toList found) []

def isStuckAt (pattern : Pattern) (place : Cursor) : Bool :=
  (pattern.firstEnd? place some).all fun next => place.left ≤ next.left

/-! ## Any piece -/

def ends : Pattern → List Cursor → List Cursor
  | .empty, starts => starts
  | .one set, starts => starts.filterMap (Cursor.pass? set)
  | .boundary inside, starts => starts.filter fun place => place.isBoundary != inside
  | .textStart, starts => starts.filter fun place => place.before.isNone
  | .textEnd, starts => starts.filter Cursor.isAtEnd
  | .followed first second, starts => second.ends (first.ends starts)
  | .either left right, starts => Cursor.merge (left.ends starts) (right.ends starts)
  | .many _ body, starts => Cursor.closure body.ends starts
  | .exhausted body, starts => (Cursor.closure body.firstEnds starts).filter body.isStuckAt
  | .settled body, starts => body.firstEnds starts
  | .ahead negated body, starts =>
      starts.filter fun place => (body.ends [place]).isEmpty = negated

def occursIn (pattern : Pattern) (text : List Char) : Bool :=
  !(pattern.ends (Cursor.all text)).isEmpty

end Pattern

end SourceTree
