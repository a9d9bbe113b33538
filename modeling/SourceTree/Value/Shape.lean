import SourceTree.Decimal.Written
import SourceTree.Listing
import SourceTree.Value.Numeral

/-! # Values of a required shape

A shape reads a value as something more definite. Reading does not stop at the first problem: it
collects all of them, each with the path to the value that is at fault, in the order in which the
parts are declared.

Numbers are read leniently. Texts that spell a number stand for it, a number without a fraction
stands for an integer unless it takes more than 64 bits, and truth values stand for one and zero;
texts are never made from other values. -/

namespace SourceTree

inductive Step where
  | field (name : String)
  | item (index : Nat)
  deriving DecidableEq, Repr

inductive Complaint where
  | missing
  | notText
  | notList
  | notTable
  | notRecord
  | notInteger
  | unreadableInteger
  | fractionalInteger
  | infiniteInteger
  | oversizedInteger
  | notNumber
  | unreadableNumber
  | notTruth
  | unreadableTruth
  /-- Only certain texts may stand here. -/
  | notLiteral
  | nestedTooDeep
  /-- The parts have their shapes but do not fit together. -/
  | refused (reason : String)
  deriving DecidableEq, Repr

namespace Complaint

def code : Complaint → String
  | .missing => "missing"
  | .notText => "string_type"
  | .notList => "list_type"
  | .notTable => "dict_type"
  | .notRecord => "model_type"
  | .notInteger => "int_type"
  | .unreadableInteger => "int_parsing"
  | .fractionalInteger => "int_from_float"
  | .infiniteInteger => "finite_number"
  | .oversizedInteger => "int_parsing_size"
  | .notNumber => "float_type"
  | .unreadableNumber => "float_parsing"
  | .notTruth => "bool_type"
  | .unreadableTruth => "bool_parsing"
  | .notLiteral => "literal_error"
  | .nestedTooDeep => "recursion_loop"
  | .refused _ => "value_error"

def message : Complaint → Option String
  | .refused reason => some ("Value error, " ++ reason)
  | _ => none

end Complaint

structure Issue where
  complaint : Complaint
  path : List Step
  deriving DecidableEq, Repr

inductive Reading (α : Type) where
  | accepted (result : α)
  | rejected (issues : List Issue)

namespace Reading

def apply {α β : Type} (first : Reading (α → β)) (second : Reading α) : Reading β :=
  match first, second with
  | .accepted function, .accepted argument => .accepted (function argument)
  | .accepted _, .rejected issues => .rejected issues
  | .rejected issues, .accepted _ => .rejected issues
  | .rejected issues, .rejected others => .rejected (issues ++ others)

instance : Applicative Reading where
  pure := .accepted
  seq first second := first.apply (second ())

def fail {α : Type} (complaint : Complaint) : Reading α :=
  .rejected [⟨complaint, []⟩]

def result {α : Type} : Reading α → Except (List Issue) α
  | .accepted result => .ok result
  | .rejected issues => .error issues

def within {α : Type} (step : Step) : Reading α → Reading α
  | .accepted result => .accepted result
  | .rejected issues =>
      .rejected (issues.map fun issue => { issue with path := step :: issue.path })

def check {α β : Type} (reading : Reading α) (verdict : α → Except String β) : Reading β :=
  match reading with
  | .rejected issues => .rejected issues
  | .accepted result =>
      match verdict result with
      | .ok checked => .accepted checked
      | .error reason => fail (.refused reason)

def items {α : Type} (shape : Value → Reading α) : Nat → List Value → Reading (List α)
  | _, [] => .accepted []
  | index, value :: rest =>
      List.cons <$> (shape value).within (.item index) <*> items shape (index + 1) rest

def entries {α : Type} (shape : Value → Reading α) :
    List (String × Value) → Reading (List (String × α))
  | [] => .accepted []
  | (key, value) :: rest =>
      (fun result others => (key, result) :: others) <$> (shape value).within (.field key)
        <*> entries shape rest

end Reading

abbrev Shape (α : Type) := Value → Reading α

namespace Shape

/-! ## Simple values -/

def text : Shape String
  | .text content => .accepted content
  | _ => .fail .notText

/-- The integer that a number stands for when it has no fraction. Its magnitude has to be below
`2 ^ 63`. -/
def integerOfNumber (number : Float) : Reading Int :=
  if number.isNaN || number.isInf then .fail .infiniteInteger
  else if number.floor != number then .fail .fractionalInteger
  else if 9223372036854775808.0 ≤ number.abs then .fail .oversizedInteger
  else
    let magnitude := Decimal.binaryOfBits (number.toBits.toNat % Nat.pow 2 63)
    let natural :=
      if 0 ≤ magnitude.exponent then magnitude.significand * Nat.pow 2 magnitude.exponent.toNat
      else magnitude.significand / Nat.pow 2 (-magnitude.exponent).toNat
    .accepted (if number < 0.0 then -(natural : Int) else natural)

def integer : Shape Int
  | .int number => .accepted number
  | .bool truth => .accepted (if truth then 1 else 0)
  | .real number => integerOfNumber number
  | .text written =>
      match Numeral.integer written.toList with
      | .read number => .accepted number
      | .unreadable => .fail .unreadableInteger
      | .tooLong => .fail .oversizedInteger
  | _ => .fail .notInteger

def floatOfInt (number : Int) : Float :=
  let magnitude := Value.floatOfDecimal number.natAbs 0
  if number < 0 then -magnitude else magnitude

def number : Shape Float
  | .real number => .accepted number
  | .int number =>
      let nearest := floatOfInt number
      if nearest.isInf then .fail .notNumber else .accepted nearest
  | .bool truth => .accepted (if truth then 1.0 else 0.0)
  | .text written =>
      match Numeral.number? written.toList with
      | some number => .accepted number
      | none => .fail .unreadableNumber
  | _ => .fail .notNumber

def trueWords : List String := ["1", "on", "t", "true", "y", "yes"]

def falseWords : List String := ["0", "off", "f", "false", "n", "no"]

def truthOfInteger (number : Int) : Reading Bool :=
  if number = 1 then .accepted true
  else if number = 0 then .accepted false
  else .fail .unreadableTruth

def truth : Shape Bool
  | .bool truth => .accepted truth
  | .text written =>
      let lowered := String.ofList (written.toList.map Char.toLower)
      if lowered ∈ trueWords then .accepted true
      else if lowered ∈ falseWords then .accepted false
      else .fail .unreadableTruth
  | .int number =>
      if -(Nat.pow 2 63 : Int) ≤ number ∧ number < (Nat.pow 2 63 : Int) then truthOfInteger number
      else .fail .notTruth
  | .real number =>
      match integerOfNumber number with
      | .accepted whole => truthOfInteger whole
      | .rejected _ => .fail .notTruth
  | _ => .fail .notTruth

/-! ## Composite values -/

def nullable {α : Type} (shape : Shape α) : Shape (Option α)
  | .null => .accepted none
  | value => some <$> shape value

def listOf {α : Type} (shape : Shape α) : Shape (List α)
  | .list values => Reading.items shape 0 values
  | _ => .fail .notList

def tableOf {α : Type} (shape : Shape α) : Shape (Listing String α)
  | .record fields => Listing.ofList <$> Reading.entries shape fields
  | _ => .fail .notTable

def record {α : Type} (fields : List (String × Value) → Reading α) : Shape α
  | .record given => fields given
  | _ => .fail .notRecord

def required {α : Type} (shape : Shape α) (name : String) (fields : List (String × Value)) :
    Reading α :=
  match Value.fieldIn? fields name with
  | some value => (shape value).within (.field name)
  | none => (Reading.fail .missing).within (.field name)

def optional {α : Type} (shape : Shape α) (name : String) (absent : α)
    (fields : List (String × Value)) : Reading α :=
  match Value.fieldIn? fields name with
  | some value => (shape value).within (.field name)
  | none => .accepted absent

end Shape

end SourceTree
