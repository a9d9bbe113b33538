import SourceTree.Decimal.Written
import SourceTree.Value

/-! # Values from JSON text

Reading fails at the first character that no value can continue with. A fault says what was
expected there; its place is found from what was left of the text. Reading also fails at a list or
record that is nested too deep, and at an integer with too many digits.

Beside the standard grammar, the words for infinities and for a number that is none are accepted,
as are numbers too large for a float, which read as infinities. -/

namespace SourceTree.Value

inductive ReadCause where
  | value
  | propertyName
  | colon
  | comma
  | unterminated
  | control
  | escape
  | unicodeEscape
  | extra
  | byteOrderMark
  deriving DecidableEq, Repr

inductive ReadFault where
  /-- The text is no JSON; so many characters were left, the offending one included. -/
  | malformed (cause : ReadCause) (left : Nat)
  | tooDeep (isList : Bool)
  | tooLong (digits : Nat)
  deriving DecidableEq, Repr

def ReadCause.message : ReadCause → String
  | .value => "Expecting value"
  | .propertyName => "Expecting property name enclosed in double quotes"
  | .colon => "Expecting ':' delimiter"
  | .comma => "Expecting ',' delimiter"
  | .unterminated => "Unterminated string starting at"
  | .control => "Invalid control character at"
  | .escape => "Invalid \\escape"
  | .unicodeEscape => "Invalid \\uXXXX escape"
  | .extra => "Extra data"
  | .byteOrderMark => "Unexpected UTF-8 BOM (decode using utf-8-sig)"

def ReadCause.messageAt (cause : ReadCause) (left : Nat) (source : String) : String :=
  let characters := source.toList
  let offset := characters.length - left
  let before := characters.take offset
  let line := before.count '\n' + 1
  let column := (before.reverse.takeWhile (· != '\n')).length + 1
  s!"{cause.message}: line {line} column {column} (char {offset})"

def isJsonBlank (character : Char) : Bool :=
  character = ' ' || character = '\t' || character = '\n' || character = '\r'

def skipJsonBlanks (text : List Char) : List Char :=
  text.dropWhile isJsonBlank

def hexValue? (character : Char) : Option Nat :=
  if character.isDigit then some (character.toNat - '0'.toNat)
  else if 'a' ≤ character ∧ character ≤ 'f' then some (character.toNat - 'a'.toNat + 10)
  else if 'A' ≤ character ∧ character ≤ 'F' then some (character.toNat - 'A'.toNat + 10)
  else none

def fourHex? : List Char → Option (Nat × List Char)
  | a :: b :: c :: d :: rest => do
      let first ← hexValue? a
      let second ← hexValue? b
      let third ← hexValue? c
      let fourth ← hexValue? d
      pure (((first * 16 + second) * 16 + third) * 16 + fourth, rest)
  | _ => none

def unicodeEscape? (text : List Char) : Option (Char × List Char) := do
  let (unit, rest) ← fourHex? text
  if 0xD800 ≤ unit ∧ unit < 0xDC00 then
    match rest with
    | '\\' :: 'u' :: more =>
        match fourHex? more with
        | some (low, after) =>
            if 0xDC00 ≤ low ∧ low < 0xE000 then
              pure (Char.ofNat (0x10000 + (unit - 0xD800) * 0x400 + (low - 0xDC00)), after)
            else
              pure (Char.ofNat 0xFFFD, rest)
        | none => pure (Char.ofNat 0xFFFD, rest)
    | _ => pure (Char.ofNat 0xFFFD, rest)
  else if 0xDC00 ≤ unit ∧ unit < 0xE000 then
    pure (Char.ofNat 0xFFFD, rest)
  else
    pure (Char.ofNat unit, rest)

/-- The rest of a quoted text. `quoted` is what was left after its opening quote; the characters
read so far are kept in reverse. A numbered escape at the very end of the input is taken to be cut
off. -/
def readText (quoted : List Char) :
    Nat → List Char → List Char → Except ReadFault (String × List Char)
  | 0, _, _ => .error (.malformed .unterminated (quoted.length + 1))
  | _ + 1, _, [] => .error (.malformed .unterminated (quoted.length + 1))
  | _ + 1, reversed, '"' :: rest => .ok (String.ofList reversed.reverse, rest)
  | fuel + 1, reversed, '\\' :: rest =>
      match rest with
      | [] => .error (.malformed .unterminated (quoted.length + 1))
      | 'u' :: digits =>
          match unicodeEscape? digits with
          | some (_, []) => .error (.malformed .unicodeEscape 5)
          | some (character, after) => readText quoted fuel (character :: reversed) after
          | none => .error (.malformed .unicodeEscape (digits.length + 1))
      | '"' :: after => readText quoted fuel ('"' :: reversed) after
      | '\\' :: after => readText quoted fuel ('\\' :: reversed) after
      | '/' :: after => readText quoted fuel ('/' :: reversed) after
      | 'b' :: after => readText quoted fuel (Char.ofNat 8 :: reversed) after
      | 'f' :: after => readText quoted fuel (Char.ofNat 12 :: reversed) after
      | 'n' :: after => readText quoted fuel ('\n' :: reversed) after
      | 'r' :: after => readText quoted fuel ('\r' :: reversed) after
      | 't' :: after => readText quoted fuel ('\t' :: reversed) after
      | _ :: _ => .error (.malformed .escape (rest.length + 1))
  | fuel + 1, reversed, character :: rest =>
      if character.toNat < 32 then
        .error (.malformed .control (rest.length + 1))
      else
        readText quoted fuel (character :: reversed) rest

def digitsValue (digits : List Char) : Nat :=
  digits.foldl (fun value digit => value * 10 + (digit.toNat - '0'.toNat)) 0

def floatOfDecimal (significand : Nat) (exponent : Int) : Float :=
  if significand = 0 then 0.0
  else if 400 < exponent then 1.0 / 0.0
  else if exponent < -(400 + (toString significand).length : Int) then 0.0
  else if 0 ≤ exponent then Float.ofScientific significand false exponent.toNat
  else Float.ofScientific significand true (-exponent).toNat

/-- The float nearest to the number that digits spell, times a power of ten. A number halfway
between two floats has fewer than 800 digits, so of the digits after the first 800 it only matters
whether they are all zeros. -/
def floatOfDigits (digits : List Char) (exponent : Int) : Float :=
  let (kept, others) := (digits.dropWhile (· = '0')).splitAt 800
  if others.isEmpty then floatOfDecimal (digitsValue kept) exponent
  else
    let mark := if others.all (· = '0') then '0' else '1'
    floatOfDecimal (digitsValue (kept ++ [mark])) (exponent + others.length - 1)

structure WrittenNumber where
  negative : Bool
  whole : List Char
  fraction : List Char
  exponent : Option Int

def writtenExponent? (text : List Char) : Option (Int × List Char) :=
  let (sign, unsigned) : Int × List Char :=
    match text with
    | '+' :: rest => (1, rest)
    | '-' :: rest => (-1, rest)
    | _ => (1, text)
  let (digits, rest) := unsigned.span Char.isDigit
  if digits.isEmpty then none else some (sign * (digitsValue digits : Int), rest)

def writtenUnsigned? (negative : Bool) (text : List Char) : Option (WrittenNumber × List Char) :=
  let (whole, afterWhole) :=
    match text with
    | '0' :: rest => (['0'], rest)
    | _ => text.span Char.isDigit
  if whole.isEmpty then none
  else
    let (fraction, afterFraction) :=
      match afterWhole with
      | '.' :: rest =>
          let (digits, after) := rest.span Char.isDigit
          if digits.isEmpty then ([], afterWhole) else (digits, after)
      | _ => ([], afterWhole)
    let exponent :=
      match afterFraction with
      | 'e' :: after => writtenExponent? after
      | 'E' :: after => writtenExponent? after
      | _ => none
    some (⟨negative, whole, fraction, exponent.map Prod.fst⟩,
      (exponent.map Prod.snd).getD afterFraction)

def writtenNumber? : List Char → Option (WrittenNumber × List Char)
  | '-' :: rest => writtenUnsigned? true rest
  | input => writtenUnsigned? false input

def WrittenNumber.value (written : WrittenNumber) : Except ReadFault Value :=
  match written.fraction, written.exponent with
  | [], none =>
      if Decimal.maxDigits < written.whole.length then .error (.tooLong written.whole.length)
      else
        let magnitude : Int := digitsValue written.whole
        .ok (.int (if written.negative then -magnitude else magnitude))
  | fraction, exponent =>
      let magnitude :=
        floatOfDigits (written.whole ++ fraction) (exponent.getD 0 - fraction.length)
      .ok (.real (if written.negative then -magnitude else magnitude))

def dropWord? (word : String) (text : List Char) : Option (List Char) :=
  if word.toList.isPrefixOf text then some (text.drop word.length) else none

def readWord? (text : List Char) : Option (Value × List Char) :=
  let words : List (String × Value) :=
    [("null", .null), ("true", .bool true), ("false", .bool false),
      ("NaN", .real (0.0 / 0.0)), ("Infinity", .real (1.0 / 0.0)),
      ("-Infinity", .real (-1.0 / 0.0))]
  words.findSome? fun word => (dropWord? word.1 text).map fun rest => (word.2, rest)

def maxDepth : Nat := 990

def readScalar (input : List Char) : Except ReadFault (Value × List Char) :=
  match readWord? input, writtenNumber? input with
  | some read, _ => .ok read
  | none, some (written, rest) => written.value.map fun value => (value, rest)
  | none, none => .error (.malformed .value input.length)

mutual
def readValue (depth : Nat) : Nat → List Char → Except ReadFault (Value × List Char)
  | 0, input => .error (.malformed .value input.length)
  | _ + 1, [] => .error (.malformed .value 0)
  | fuel + 1, '"' :: rest =>
      (readText rest (fuel + 1) [] rest).map fun (content, after) => (.text content, after)
  | fuel + 1, '[' :: rest =>
      match depth with
      | 0 => .error (.tooDeep true)
      | inner + 1 =>
          match skipJsonBlanks rest with
          | ']' :: after => .ok (.list [], after)
          | items => readItems inner fuel [] items
  | fuel + 1, '\x7b' :: rest =>
      match depth with
      | 0 => .error (.tooDeep false)
      | inner + 1 =>
          match skipJsonBlanks rest with
          | '\x7d' :: after => .ok (.record [], after)
          | fields => readFields inner fuel [] fields
  | _ + 1, input => readScalar input

def readItems (depth : Nat) :
    Nat → List Value → List Char → Except ReadFault (Value × List Char)
  | 0, _, input => .error (.malformed .value input.length)
  | fuel + 1, reversed, input =>
      match readValue depth fuel input with
      | .error fault => .error fault
      | .ok (item, rest) =>
          match skipJsonBlanks rest with
          | ']' :: after => .ok (.list (item :: reversed).reverse, after)
          | ',' :: after => readItems depth fuel (item :: reversed) (skipJsonBlanks after)
          | other => .error (.malformed .comma other.length)

def readFields (depth : Nat) : Nat → List (String × Value) → List Char →
    Except ReadFault (Value × List Char)
  | 0, _, input => .error (.malformed .value input.length)
  | fuel + 1, reversed, '"' :: quoted =>
      match readText quoted (fuel + 1) [] quoted with
      | .error fault => .error fault
      | .ok (key, afterKey) =>
          match skipJsonBlanks afterKey with
          | ':' :: afterColon =>
              match readValue depth fuel (skipJsonBlanks afterColon) with
              | .error fault => .error fault
              | .ok (value, rest) =>
                  let fields := (key, value) :: reversed
                  match skipJsonBlanks rest with
                  | '\x7d' :: after => .ok (.recordOf fields.reverse, after)
                  | ',' :: after => readFields depth fuel fields (skipJsonBlanks after)
                  | other => .error (.malformed .comma other.length)
          | other => .error (.malformed .colon other.length)
  | _ + 1, _, input => .error (.malformed .propertyName input.length)
end

def byteOrderMark : Char := Char.ofNat 0xFEFF

/-- Read a whole text as one value. The fuel is twice what is left of the text and more, at every
character, so it is never what stops the reading. -/
def ofJson (source : String) : Except ReadFault Value :=
  let text := source.toList
  if text.head? = some byteOrderMark then .error (.malformed .byteOrderMark text.length)
  else
    match readValue maxDepth (2 * text.length + 2) (skipJsonBlanks text) with
    | .error fault => .error fault
    | .ok (value, rest) =>
        match skipJsonBlanks rest with
        | [] => .ok value
        | left => .error (.malformed .extra left.length)

end SourceTree.Value
