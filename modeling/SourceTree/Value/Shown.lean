import SourceTree.Decimal.Written
import SourceTree.Text.Quoted
import SourceTree.Value

/-! Values as messages show them: a text as it stands, inside other values between quotes. -/

namespace SourceTree.Value

mutual
def shownInside : Value → String
  | .null => "None"
  | .bool true => "True"
  | .bool false => "False"
  | .int number => toString number
  | .real number => Decimal.writeFloat number
  | .text content => Text.quoted content
  | .list items => "[" ++ shownItems items ++ "]"
  | .record fields => "\x7b" ++ shownFields fields ++ "\x7d"

def shownItems : List Value → String
  | [] => ""
  | [last] => shownInside last
  | item :: next :: rest => shownInside item ++ ", " ++ shownItems (next :: rest)

def shownFields : List (String × Value) → String
  | [] => ""
  | [(key, value)] => Text.quoted key ++ ": " ++ shownInside value
  | (key, value) :: next :: rest =>
      Text.quoted key ++ ": " ++ shownInside value ++ ", " ++ shownFields (next :: rest)
end

def shown : Value → String
  | .text content => content
  | value => shownInside value

example : (Value.list [.null, .text "a", .bool true]).shown = "[None, 'a', True]" := by
  decide +kernel

end SourceTree.Value
