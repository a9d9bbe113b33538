import SourceTree.Text.Printable

/-! # Quoted texts

Messages show the names of missing things between single quotes, or between double quotes when the
text holds single quotes only. Backslashes, the quote in use and characters that are not printable
are escaped. -/

namespace SourceTree.Text

/-! ## Hexadecimal digits -/

def hexDigit (digit : Nat) : Char :=
  if digit < 10 then Char.ofNat ('0'.toNat + digit) else Char.ofNat ('a'.toNat + digit - 10)

def hexDigits : (width : Nat) → (number : Nat) → List Char
  | 0, _ => []
  | width + 1, number => hexDigits width (number / 16) ++ [hexDigit (number % 16)]

def lowerHex (character : Char) : Char :=
  if 'A' ≤ character ∧ character ≤ 'F' then
    Char.ofNat (character.toNat - 'A'.toNat + 'a'.toNat)
  else
    character

/-! ## Quotes -/

def quoteFor (content : List Char) : Char :=
  if content.contains '\'' && !content.contains '"' then '"' else '\''

def escapeIn (quote character : Char) : List Char :=
  if character = quote ∨ character = '\\' then ['\\', character]
  else if character = '\n' then ['\\', 'n']
  else if character = '\r' then ['\\', 'r']
  else if character = '\t' then ['\\', 't']
  else if isPrintable character then [character]
  else if character.toNat < 0x100 then '\\' :: 'x' :: hexDigits 2 character.toNat
  else if character.toNat < 0x10000 then '\\' :: 'u' :: hexDigits 4 character.toNat
  else '\\' :: 'U' :: hexDigits 8 character.toNat

def quoted (content : String) : String :=
  let characters := content.toList
  let quote := quoteFor characters
  String.ofList (quote :: characters.flatMap (escapeIn quote) ++ [quote])

example : quoted "evm" = "'evm'" := by decide +kernel
example : quoted "it's" = "\"it's\"" := by decide +kernel
example : quoted "a\n\"'" = "'a\\n\"\\''" := by decide +kernel

end SourceTree.Text
