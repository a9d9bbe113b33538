import SourceTree.Fault

/-! # Parts of values

Values that come from elsewhere are taken apart without knowing their shape. Each way to take a
value apart suits some kinds of values and fails on the others. -/

namespace SourceTree.Value

def entry? (value : Value) (key : String) : Except Unexpected (Option Value) :=
  match value with
  | .record fields => .ok (fieldIn? fields key)
  | other => .error (.unanswered other.kindName .entry)

def entries (value : Value) : Except Unexpected (List (String × Value)) :=
  match value with
  | .record fields => .ok fields
  | other => .error (.unanswered other.kindName .entries)

def members? : Value → Option (List Value)
  | .list items => some items
  | .text content => some (content.toList.map fun character => .text character.toString)
  | .record fields => some (fields.map fun field => .text field.1)
  | _ => none

def members (value : Value) : Except Unexpected (List Value) :=
  (value.members?).elim (.error (.noMembers value.kindName)) .ok

def length (value : Value) : Except Unexpected Nat :=
  match value.members? with
  | some members => .ok members.length
  | none => .error (.noLength value.kindName)

def item (items : List Value) (place : Int) : Except Unexpected Value :=
  let index := if place < 0 then place + items.length else place
  match if index < 0 then none else items[index.toNat]? with
  | some found => .ok found
  | none => .error .noItem

def part (value key : Value) : Except Unexpected Value :=
  match value, key with
  | .record fields, .text name => (fieldIn? fields name).elim (.error (.missingKey name)) .ok
  | .list items, .int place => item items place
  | .list items, .bool second => item items (if second then 1 else 0)
  | other, _ => .error (.noParts other.kindName key.kindName)

def field (value : Value) (name : String) : Except Unexpected Value :=
  value.part (.text name)

def document : Value → Except Unexpected Value
  | .record fields => .ok (.record fields)
  | .text written => (ofJson written).mapError (.ofReading written)
  | other => .error (.notJson other.kindName)

end SourceTree.Value
