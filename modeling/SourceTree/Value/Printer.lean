import SourceTree.Decimal.Written
import SourceTree.Text.Quoted
import SourceTree.Value

/-! # Values as JSON text

One line without blanks. Characters beyond ASCII stand for themselves; quotes, backslashes and
control characters are escaped. A number with a point or an exponent is written between quotes, so
that no reader rounds it and infinities can be written as well. -/

namespace SourceTree.Value

def escape (character : Char) : String :=
  if character = '"' then "\\\""
  else if character = '\\' then "\\\\"
  else if character = '\n' then "\\n"
  else if character = '\r' then "\\r"
  else if character = '\t' then "\\t"
  else if character.toNat < 32 then
    "\\u" ++ String.ofList (Text.hexDigits 4 character.toNat)
  else
    character.toString

def quote (content : String) : String :=
  content.toList.foldl (fun written character => written ++ escape character) "\"" ++ "\""

mutual
def writeTo (written : String) : Value → String
  | .null => written ++ "null"
  | .bool true => written ++ "true"
  | .bool false => written ++ "false"
  | .int number => written ++ toString number
  | .real number => written ++ quote (Decimal.writeFloat number)
  | .text content => written ++ quote content
  | .list items => writeItems (written ++ "[") true items ++ "]"
  | .record fields => writeFields (written ++ "\x7b") true fields ++ "\x7d"

def writeItems (written : String) (first : Bool) : List Value → String
  | [] => written
  | item :: rest =>
      writeItems (writeTo (if first then written else written ++ ",") item) false rest

def writeFields (written : String) (first : Bool) : List (String × Value) → String
  | [] => written
  | (key, value) :: rest =>
      let opened := if first then written else written ++ ","
      writeFields (writeTo (opened ++ quote key ++ ":") value) false rest
end

def render (value : Value) : String :=
  writeTo "" value

example : (Value.list [.int (-3), .text "a\"\n", .null]).render = "[-3,\"a\\\"\\n\",null]" := by
  decide +kernel

end SourceTree.Value
