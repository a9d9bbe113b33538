/-! # Values

The dynamic values that requests, settings and compiler outputs are made of. A record keeps its
fields in order; reading one from text or building one with `Value.recordOf` leaves every key
once. -/

namespace SourceTree

inductive Value where
  | null
  | bool (truth : Bool)
  | int (number : Int)
  | real (number : Float)
  | text (content : String)
  | list (items : List Value)
  | record (fields : List (String × Value))
  deriving Inhabited

namespace Value

def setField (fields : List (String × Value)) (key : String) (value : Value) :
    List (String × Value) :=
  if fields.any fun field => field.1 = key then
    fields.map fun field => if field.1 = key then (key, value) else field
  else
    fields ++ [(key, value)]

/-- A record whose repeated keys keep their first place and their last value. -/
def recordOf (fields : List (String × Value)) : Value :=
  .record (fields.foldl (fun current field => setField current field.1 field.2) [])

def fieldIn? (fields : List (String × Value)) (key : String) : Option Value :=
  (fields.find? fun field => field.1 = key).map Prod.snd

def field? (value : Value) (key : String) : Option Value :=
  match value with
  | .record fields => fieldIn? fields key
  | _ => none

def isRecord : Value → Bool
  | .record _ => true
  | _ => false

def isBlank : Value → Bool
  | .null => true
  | .bool truth => !truth
  | .int number => number = 0
  | .real number => number == 0.0
  | .text content => content.isEmpty
  | .list items => items.isEmpty
  | .record fields => fields.isEmpty

def kindName : Value → String
  | .null => "NoneType"
  | .bool _ => "bool"
  | .int _ => "int"
  | .real _ => "float"
  | .text _ => "str"
  | .list _ => "list"
  | .record _ => "dict"

/-! ## Depth

One level for a value without parts, and one more around its deepest part for a list or a record. -/

mutual
def nesting : Value → Nat
  | .list items => itemsNesting items + 1
  | .record fields => fieldsNesting fields + 1
  | _ => 1

def itemsNesting : List Value → Nat
  | [] => 0
  | item :: rest => max (nesting item) (itemsNesting rest)

def fieldsNesting : List (String × Value) → Nat
  | [] => 0
  | (_, value) :: rest => max (nesting value) (fieldsNesting rest)
end

/-! ## Values that JSON can hold

JSON has no words for infinities and for a number that is none, so nothing stands in their place. -/

mutual
def finite : Value → Value
  | .real number => if number.isNaN || number.isInf then .null else .real number
  | .list items => .list (finiteItems items)
  | .record fields => .record (finiteFields fields)
  | other => other

def finiteItems : List Value → List Value
  | [] => []
  | item :: rest => finite item :: finiteItems rest

def finiteFields : List (String × Value) → List (String × Value)
  | [] => []
  | (key, value) :: rest => (key, finite value) :: finiteFields rest
end

theorem finiteItems_eq_map (items : List Value) : finiteItems items = items.map finite := by
  induction items with
  | nil => rfl
  | cons item rest induction => simp [finiteItems, induction]

end Value

end SourceTree
