import SourceTree.Text.Occurrence
import SourceTree.Unexpected

/-! # Parameters

The parameters of an interface's entries. The internal type of a parameter may stand under a second
key; before a parameter is read it is brought under its own one, which is visible wherever the
interface is shown. Whoever looks for the second key has to be able to look into the value, so some
values cannot even be refused. -/

namespace SourceTree.Parameter

def secondKey : String := "internal_type"

def withOwnKey (fields : List (String × Value)) : List (String × Value) :=
  match Value.fieldIn? fields secondKey, Value.fieldIn? fields "internalType" with
  | none, _ => fields
  | some given, own =>
      if (own.getD .null).isBlank then
        Value.setField (fields.filter fun field => field.1 ≠ secondKey) "internalType" given
      else
        fields

mutual
def settled : Value → Value
  | .record fields => .record (withOwnKey (settledFields fields))
  | other => other

def settledFields : List (String × Value) → List (String × Value)
  | [] => []
  | (key, value) :: rest =>
      (key,
        if key = "type" then settled value
        else if key = "components" then settledList value
        else value) :: settledFields rest

def settledList : Value → Value
  | .list items => .list (settledItems items)
  | other => other

def settledItems : List Value → List Value
  | [] => []
  | item :: rest => settled item :: settledItems rest
end

def isSecondKey : Value → Bool
  | .text content => content = secondKey
  | _ => false

def lookFault? : Value → Option Unexpected
  | .record _ => none
  | .text content =>
      if Text.occursIn secondKey.toList content.toList then some (.unanswered "str" .entry)
      else none
  | .list items =>
      if items.any isSecondKey then some (.unanswered "list" .entry) else none
  | other => some (.notSearchable other.kindName)

mutual
def fault? : Value → Option Unexpected
  | .record fields => (typeFault? fields).or (componentsFault? fields)
  | other => lookFault? other

def typeFault? : List (String × Value) → Option Unexpected
  | [] => none
  | (key, value) :: rest =>
      if key = "type" then
        if value matches .text _ then none else fault? value
      else
        typeFault? rest

def componentsFault? : List (String × Value) → Option Unexpected
  | [] => none
  | (key, value) :: rest =>
      if key = "components" then listFault? value else componentsFault? rest

def listFault? : Value → Option Unexpected
  | .list items => itemsFault? items
  | _ => none

def itemsFault? : List Value → Option Unexpected
  | [] => none
  | item :: rest => (fault? item).or (itemsFault? rest)
end

end SourceTree.Parameter
