import SourceTree.Decimal.Written
import SourceTree.Text.Character
import SourceTree.Value.Reader

/-! # Numbers that texts spell

Texts spell numbers more freely than JSON does: with white space around them, a plus sign, zeros in
front, and single underscores between digits. An integer may also have a fraction of zeros.

Zeros in front of an integer are passed over together with underscores among them, and what stands
behind them is read as an integer with a sign of its own. -/

namespace SourceTree.Numeral

inductive Integer where
  | read (number : Int)
  | unreadable
  | tooLong
  deriving DecidableEq, Repr

def ungrouped? (written : List Char) : Option (List Char) :=
  let pieces := written.splitOn '_'
  if pieces.all fun piece => !piece.isEmpty then some pieces.flatten else none

def naturalOf (room : Nat) (digits : List Char) : Integer :=
  let (leading, rest) := digits.span Char.isDigit
  if leading.isEmpty then .unreadable
  else if leading.head? = some '0' then
    if digits = ['0'] then .read 0 else .unreadable
  else if room < leading.length then .tooLong
  else if rest.isEmpty then .read (Value.digitsValue leading)
  else .unreadable

def plainInteger : List Char → Integer
  | '-' :: digits =>
      match naturalOf (Decimal.maxDigits - 1) digits with
      | .read number => .read (-number)
      | other => other
  | digits => naturalOf Decimal.maxDigits digits

/-- What follows the zeros in front, which are the characters passed so far; `last` is the last of
them. A zero stays in front of a point, and of nothing. -/
def afterZeros? (last : Char) : List Char → Option (List Char)
  | [] => some [last]
  | character :: rest =>
      if character = '0' ∨ character = '_' then afterZeros? character rest
      else if character = '.' then some (last :: character :: rest)
      else if character.isDigit ∨ character = '-' then some (character :: rest)
      else none

def withoutZeros? : List Char → Option (List Char)
  | [] => none
  | character :: rest =>
      if character = '0' then afterZeros? character rest
      else if character.isDigit ∨ character = '-' then some (character :: rest)
      else none

def withoutFraction (written : List Char) : List Char :=
  let (whole, fraction) := written.span (· ≠ '.')
  let zeros := fraction.drop 1
  if !zeros.isEmpty && zeros.all (· = '0') then whole else written

def plainSpelling? (written : List Char) : Option (List Char) :=
  let trimmed := Text.trimWhiteSpace written
  let (sign, unsigned) : List Char × List Char :=
    match trimmed with
    | '-' :: rest => (['-'], rest)
    | '+' :: rest => ([], if rest.head? = some '-' then [] else rest)
    | _ => ([], trimmed)
  (withoutZeros? unsigned).map fun spelled =>
    let whole := withoutFraction spelled
    sign ++ (ungrouped? whole).getD whole

def integer (written : List Char) : Integer :=
  match plainInteger written with
  | .unreadable =>
      match (plainSpelling? written).map plainInteger with
      | some (.read number) => .read number
      | _ => .unreadable
  | other => other

def splitSign : List Char → Bool × List Char
  | '-' :: rest => (true, rest)
  | '+' :: rest => (false, rest)
  | written => (false, written)

def decimal? (unsigned : List Char) : Option Float :=
  let (mantissa, power) := unsigned.span fun character => character ≠ 'e' && character ≠ 'E'
  let (whole, pointed) := mantissa.span (· ≠ '.')
  let fraction := pointed.drop 1
  let exponent : Option Int :=
    match power with
    | [] => some 0
    | _ :: written =>
        let (negative, digits) := splitSign written
        if digits.isEmpty || !digits.all Char.isDigit then none
        else some (if negative then -(Value.digitsValue digits : Int) else Value.digitsValue digits)
  if (whole ++ fraction).isEmpty || !(whole ++ fraction).all Char.isDigit then none
  else exponent.map fun scale =>
    Value.floatOfDigits (whole ++ fraction) (scale - fraction.length)

def signedDecimal? (written : List Char) : Option Float :=
  let (negative, unsigned) := splitSign written
  let lowered := String.ofList (unsigned.map Char.toLower)
  let magnitude :=
    if lowered = "inf" || lowered = "infinity" then some (1.0 / 0.0)
    else if lowered = "nan" then some (0.0 / 0.0)
    else decimal? unsigned
  magnitude.map fun number => if negative then -number else number

def number? (written : List Char) : Option Float :=
  (signedDecimal? (Text.trimWhiteSpace written)).or
    ((ungrouped? written).bind signedDecimal?)

example : integer "-00.000".toList = .read 0 := by decide +kernel
example : integer " 1_000.0".toList = .read 1000 := by decide +kernel
example : integer "9.".toList = .unreadable := by decide +kernel
example : integer "0-9".toList = .read (-9) := by decide +kernel

end SourceTree.Numeral
