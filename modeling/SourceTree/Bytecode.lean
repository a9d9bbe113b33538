import SourceTree.Text.Occurrence
import SourceTree.Text.Quoted

/-! # Bytecode

Code is written in hexadecimal digits, with or without a mark in front of them. Its normal form has
the mark, small letters, and an even number of digits. Code that waits for the address of a library
holds a placeholder instead of digits. -/

namespace SourceTree.Bytecode

def isMarked (written : String) : Bool :=
  "0x".toList.isPrefixOf written.toList || "0X".toList.isPrefixOf written.toList

def marked (written : String) : String :=
  if isMarked written then written else "0x" ++ written

def isUnlinked (written : String) : Bool :=
  Text.occursIn "__$".toList written.toList

def evenDigits (written : String) : List Char :=
  let digits := if isMarked written then written.toList.drop 2 else written.toList
  if digits.length % 2 = 0 then digits else '0' :: digits

def isAscii (character : Char) : Bool :=
  character.toNat < 128

def isHexDigit (character : Char) : Bool :=
  character.isDigit || ('a' ≤ Text.lowerHex character && Text.lowerHex character ≤ 'f')

def escaped (character : Char) : String :=
  let code := character.toNat
  if code < 0x100 then "\\x" ++ String.ofList (Text.hexDigits 2 code)
  else if code < 0x10000 then "\\u" ++ String.ofList (Text.hexDigits 4 code)
  else "\\U" ++ String.ofList (Text.hexDigits 8 code)

def foreignMessage (digits : List Char) : String :=
  let before := (digits.takeWhile isAscii).length
  let run := (digits.drop before).takeWhile fun character => !isAscii character
  let what :=
    match run with
    | [only] => s!"character '{escaped only}' in position {before}"
    | _ =>
        let last := before + run.length - 1
        s!"characters in position {before}-{last}"
  s!"'ascii' codec can't encode {what}: ordinal not in range(128)"

def normalForm (written : String) : Except String String :=
  let digits := evenDigits written
  if !digits.all isAscii then .error (foreignMessage digits)
  else if !digits.all isHexDigit then .error "Non-hexadecimal digit found"
  else .ok ("0x" ++ String.ofList (digits.map Text.lowerHex))

example : (normalForm "0X60A").toOption = some "0x060a" := by decide +kernel
example : (normalForm "").toOption = some "0x" := by decide +kernel
example : (normalForm "zz").toOption = none := by decide +kernel

end SourceTree.Bytecode
