import SourceTree.Pattern
import SourceTree.Unexpected

/-! # Written patterns

Patterns are written with literals, classes in brackets, the escapes `\b \B \d \D \w \W \s \S \A
\Z`, groups, lookahead, alternatives, and the repetitions `? * + {n} {n,} {n,m}`. After a
repetition, a `?` makes it lazy and a `+` makes it settle for the first try of every round.

A search for a text of any other syntax, a pattern or not, ends with a fault and never counts as
one that found nothing. Libraries with such patterns are detected by another search. -/

namespace SourceTree.Pattern

def copies (pattern : Pattern) : Nat → Pattern
  | 0 => .empty
  | 1 => pattern
  | count + 1 => .followed pattern (copies pattern count)

def optionally (lazily : Bool) (pattern : Pattern) : Pattern :=
  if lazily then .either .empty pattern else .either pattern .empty

def atMost (lazily : Bool) (pattern : Pattern) : Nat → Pattern
  | 0 => .empty
  | 1 => optionally lazily pattern
  | count + 1 => optionally lazily (.followed pattern (atMost lazily pattern count))

def sequence : List Pattern → Pattern
  | [] => .empty
  | [only] => only
  | first :: rest => .followed first (sequence rest)

def lineBreak : CharSet := .only '\n'

def controlEscape? : Char → Option Char
  | 'n' => some '\n'
  | 'r' => some '\r'
  | 't' => some '\t'
  | 'f' => some (Char.ofNat 12)
  | 'v' => some (Char.ofNat 11)
  | 'a' => some (Char.ofNat 7)
  | _ => none

def classEscape? : Char → Option CharSet
  | 'd' => some .digit
  | 'D' => some (.complement .digit)
  | 'w' => some .word
  | 'W' => some (.complement .word)
  | 's' => some .blank
  | 'S' => some (.complement .blank)
  | _ => none

def escape? (character : Char) : Option Pattern :=
  match character with
  | 'b' => some (.boundary false)
  | 'B' => some (.boundary true)
  | 'A' => some .textStart
  | 'Z' => some (.ahead true (.one .all))
  | _ =>
      match classEscape? character, controlEscape? character with
      | some set, _ => some (.one set)
      | none, some control => some (.one (.only control))
      | none, none =>
          if character.isAlphanum then none else some (.one (.only character))

def classMember? : List Char → Option ((CharSet ⊕ Char) × List Char)
  | [] => none
  | '\\' :: 'b' :: rest => some (.inr (Char.ofNat 8), rest)
  | '\\' :: character :: rest =>
      match classEscape? character, controlEscape? character with
      | some set, _ => some (.inl set, rest)
      | none, some control => some (.inr control, rest)
      | none, none =>
          if character.isAlphanum then none else some (.inr character, rest)
  | character :: rest => some (.inr character, rest)

def classMembers? : Nat → Bool → CharSet → List Char → Option (CharSet × List Char)
  | 0, _, _, _ => none
  | fuel + 1, isFirst, set, text =>
      match text, isFirst with
      | ']' :: rest, false => some (set, rest)
      | _, _ =>
          match classMember? text with
          | none => none
          | some (.inl members, rest) => classMembers? fuel false (.union set members) rest
          | some (.inr low, '-' :: next :: rest) =>
              if next = ']' then
                classMembers? fuel false (.union set (.only low)) ('-' :: next :: rest)
              else
                match classMember? (next :: rest) with
                | some (.inr high, after) =>
                    if low ≤ high then
                      classMembers? fuel false (.union set (.between low high)) after
                    else none
                | _ => none
          | some (.inr character, rest) =>
              classMembers? fuel false (.union set (.only character)) rest

def class? (text : List Char) : Option (Pattern × List Char) :=
  match text with
  | '^' :: rest =>
      (classMembers? (rest.length + 1) true .nothing rest).map fun (set, after) =>
        (.one (.complement set), after)
  | _ =>
      (classMembers? (text.length + 1) true .nothing text).map fun (set, after) =>
        (.one set, after)

def naturalOf (digits : List Char) : Nat :=
  digits.foldl (fun value digit => value * 10 + (digit.toNat - '0'.toNat)) 0

structure Repetition where
  least : Nat
  most : Option Nat

def counted? (text : List Char) : Option (Repetition × List Char) :=
  let (low, rest) := text.span Char.isDigit
  match rest with
  | '\x7d' :: after =>
      if low.isEmpty then none else some (⟨naturalOf low, some (naturalOf low)⟩, after)
  | ',' :: more =>
      let (high, afterHigh) := more.span Char.isDigit
      match afterHigh with
      | '\x7d' :: after =>
          some (⟨naturalOf low, if high.isEmpty then none else some (naturalOf high)⟩, after)
      | _ => none
  | _ => none

def repetition? : List Char → Option (Repetition × List Char)
  | '*' :: rest => some (⟨0, none⟩, rest)
  | '+' :: rest => some (⟨1, none⟩, rest)
  | '?' :: rest => some (⟨0, some 1⟩, rest)
  | '\x7b' :: rest => counted? rest
  | _ => none

def atLeast (pattern : Pattern) (least : Nat) (further : Pattern) : Pattern :=
  if least = 0 then further
  else if further = .empty then pattern.copies least
  else .followed (pattern.copies least) further

def times (lazily : Bool) (repetition : Repetition) (pattern : Pattern) : Pattern :=
  pattern.atLeast repetition.least <|
    match repetition.most with
    | none => .many lazily pattern
    | some most => pattern.atMost lazily (most - repetition.least)

def timesSettled (repetition : Repetition) (pattern : Pattern) : Pattern :=
  let round := Pattern.settled pattern
  round.atLeast repetition.least <|
    match repetition.most with
    | none => .exhausted pattern
    | some most => .settled (round.atMost false (most - repetition.least))

def repeated (pattern : Pattern) (text : List Char) : Pattern × List Char :=
  match repetition? text with
  | none => (pattern, text)
  | some (repetition, '?' :: rest) => (pattern.times true repetition, rest)
  | some (repetition, '+' :: rest) => (pattern.timesSettled repetition, rest)
  | some (repetition, rest) => (pattern.times false repetition, rest)

mutual
def alternatives? : Nat → List Char → Option (Pattern × List Char)
  | 0, _ => none
  | fuel + 1, text =>
      match pieces? fuel [] text with
      | none => none
      | some (left, '|' :: rest) =>
          (alternatives? fuel rest).map fun (right, after) => (.either left right, after)
      | some read => some read

def pieces? : Nat → List Pattern → List Char → Option (Pattern × List Char)
  | 0, _, _ => none
  | _ + 1, reversed, [] => some (sequence reversed.reverse, [])
  | fuel + 1, reversed, character :: rest =>
      if character = '|' ∨ character = ')' then
        some (sequence reversed.reverse, character :: rest)
      else
        match atom? fuel (character :: rest) with
        | none => none
        | some (pattern, after) =>
            let (whole, left) := repeated pattern after
            pieces? fuel (whole :: reversed) left

def atom? : Nat → List Char → Option (Pattern × List Char)
  | 0, _ => none
  | fuel + 1, '(' :: '?' :: ':' :: rest => group? fuel id rest
  | fuel + 1, '(' :: '?' :: '=' :: rest => group? fuel (.ahead false) rest
  | fuel + 1, '(' :: '?' :: '!' :: rest => group? fuel (.ahead true) rest
  | _ + 1, '(' :: '?' :: _ => none
  | fuel + 1, '(' :: rest => group? fuel id rest
  | _ + 1, '[' :: rest => class? rest
  | _ + 1, '\\' :: character :: rest => (escape? character).map fun read => (read, rest)
  | _ + 1, '.' :: rest => some (.one (.complement lineBreak), rest)
  | _ + 1, '^' :: rest => some (.textStart, rest)
  | _ + 1, '$' :: rest => some (.textEnd, rest)
  | _ + 1, character :: rest =>
      if character = '*' ∨ character = '+' ∨ character = '?' ∨ character = '\\' then none
      else some (.one (.only character), rest)
  | _ + 1, [] => none

def group? : Nat → (Pattern → Pattern) → List Char → Option (Pattern × List Char)
  | 0, _, _ => none
  | fuel + 1, wrap, text =>
      match alternatives? fuel text with
      | some (inner, ')' :: rest) => some (wrap inner, rest)
      | _ => none
end

def ofText? (written : String) : Option Pattern :=
  let text := written.toList
  match alternatives? (4 * text.length + 4) text with
  | some (pattern, []) => some pattern
  | _ => none

/-- Whether a source has a piece that a written pattern describes. A text that is not read as a
pattern is refused. -/
def search (written : String) (source : List Char) : Except Unexpected Bool :=
  match ofText? written with
  | some pattern => .ok (pattern.occursIn source)
  | none => .error (.badPattern s!"cannot read pattern: {written}")

theorem search_of_ofText? {written : String} {pattern : Pattern}
    (isRead : ofText? written = some pattern) (source : List Char) :
    search written source = .ok (pattern.occursIn source) := by
  rw [search, isRead]

example : ofText? "a|b+" = some (.either (.one (.only 'a'))
    (.followed (.one (.only 'b')) (.many false (.one (.only 'b'))))) := by decide +kernel
example : (search "qa++b" "qaab".toList).toOption = some true := by decide +kernel
example : (search "qa*+a" "qaa".toList).toOption = some false := by decide +kernel

end SourceTree.Pattern
