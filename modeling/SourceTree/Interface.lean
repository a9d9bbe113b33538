import SourceTree.Interface.Parameter

/-! # Interfaces

The interface of a contract is a list of entries: what can be called, what is announced, which
errors there are, and so on. Every kind of entry has fields of its own. An entry that does not say
its kind belongs to the kind that takes most of its fields, and one that says its kind without
fitting it keeps the kind but loses its name. -/

namespace SourceTree

structure InterfaceEntry where
  kind : String
  name : Option String
  deriving DecidableEq, Repr

namespace InterfaceEntry

/-! ## Parameters -/

def parameterLists : List String := ["inputs", "outputs", "members"]

def settled : Value → Value
  | .record fields => .record (fields.map fun (key, value) =>
      (key, if key ∈ parameterLists then Parameter.settledList value else value))
  | other => other

def parameterFault? (entry : Value) : Option Unexpected :=
  parameterLists.findSome? fun key => (entry.field? key).bind Parameter.listFault?

/-! ## Fields

Reading a field tells how well it fits. -/

/-- How well a description fits a record: how many fields it takes, those inside others included,
and whether it takes one only after converting it. -/
structure Fit where
  taken : Nat
  converts : Bool
  deriving DecidableEq, Repr

namespace Fit

def exact : Fit := ⟨0, false⟩

def join (left right : Fit) : Fit :=
  ⟨left.taken + right.taken, left.converts || right.converts⟩

/-- Of two descriptions, the one that takes more fields is better; if they take as many, one that
converts nothing is better than one that does. -/
def isBetter (fit other : Fit) : Bool :=
  other.taken < fit.taken || (fit.taken = other.taken && other.converts && !fit.converts)

end Fit

abbrev Fitting := Shape Fit

def leaf {α : Type} (shape : Shape α) : Fitting :=
  fun value => (fun _ => .exact) <$> shape value

def truth : Fitting :=
  fun value => (fun _ => ⟨0, !value matches .bool _⟩) <$> Shape.truth value

def literal (word : String) : Fitting
  | .text written => if written = word then .accepted .exact else .fail .notLiteral
  | _ => .fail .notLiteral

def nullable (fitting : Fitting) : Fitting
  | .null => .accepted .exact
  | value => fitting value

def each (fitting : Fitting) : Fitting :=
  fun value => List.foldl Fit.join .exact <$> Shape.listOf fitting value

def either (left right : String × Fitting) : Fitting :=
  fun value =>
    match left.2 value, right.2 value with
    | .accepted fit, _ => .accepted fit
    | .rejected _, .accepted fit => .accepted fit
    | .rejected issues, .rejected others =>
        .rejected (issues.map (fun issue => { issue with path := .field left.1 :: issue.path }) ++
          others.map fun issue => { issue with path := .field right.1 :: issue.path })

structure Field where
  name : String
  fitting : Fitting
  needed : Bool

def Field.fit (field : Field) (fields : List (String × Value)) : Reading Fit :=
  let present : Fitting := fun value => Fit.join ⟨1, false⟩ <$> field.fitting value
  if field.needed then Shape.required present field.name fields
  else Shape.optional present field.name .exact fields

def fitOf (description : List Field) (fields : List (String × Value)) : Reading Fit :=
  match description with
  | [] => .accepted .exact
  | field :: rest => Fit.join <$> field.fit fields <*> fitOf rest fields

def recordOf (description : List Field) : Fitting :=
  Shape.record (fitOf description)

def parameter (ofEvent : Bool) : Nat → Fitting
  | 0 => fun _ => .fail .nestedTooDeep
  | levels + 1 =>
      recordOf ([
        ⟨"name", nullable (leaf Shape.text), false⟩,
        ⟨"type", either ("str", leaf Shape.text) ("ABIType", parameter false levels), true⟩,
        ⟨"components", nullable (each (parameter false levels)), false⟩,
        ⟨"internalType", nullable (leaf Shape.text), false⟩] ++
        if ofEvent then [⟨"indexed", truth, false⟩] else [])

def maxLevels : Nat := 255

def parameters (ofEvent : Bool) : Fitting :=
  each (parameter ofEvent maxLevels)

/-! ## Kinds -/

structure Kind where
  label : String
  word : Option String
  isNamed : Bool
  fields : List Field

def nameField : Field := ⟨"name", leaf Shape.text, true⟩

def mutabilityField : Field := ⟨"stateMutability", leaf Shape.text, false⟩

def inputsField : Field := ⟨"inputs", parameters false, false⟩

def kinds : List Kind := [
  ⟨"MethodABI", some "function", true,
    [nameField, mutabilityField, inputsField, ⟨"outputs", parameters false, false⟩]⟩,
  ⟨"EventABI", some "event", true,
    [nameField, ⟨"inputs", parameters true, false⟩, ⟨"anonymous", truth, false⟩]⟩,
  ⟨"StructABI", some "struct", true, [nameField, ⟨"members", parameters false, true⟩]⟩,
  ⟨"ErrorABI", some "error", true, [nameField, inputsField]⟩,
  ⟨"ConstructorABI", some "constructor", false, [mutabilityField, inputsField]⟩,
  ⟨"FallbackABI", some "fallback", false, [mutabilityField]⟩,
  ⟨"ReceiveABI", some "receive", false, [⟨"stateMutability", literal "payable", true⟩]⟩,
  ⟨"UnprocessedABI", none, false, []⟩]

namespace Kind

def fit (kind : Kind) (entry : Value) : Reading Fit :=
  let type : Field :=
    match kind.word with
    | some word => ⟨"type", literal word, false⟩
    | none => ⟨"type", leaf Shape.text, true⟩
  recordOf (type :: kind.fields) entry

def textOf? (entry : Value) (key : String) : Option String :=
  match entry.field? key with
  | some (.text written) => some written
  | _ => none

def tell (kind : Kind) (entry : Value) : InterfaceEntry :=
  ⟨kind.word.getD ((textOf? entry "type").getD ""),
    if kind.isNamed then textOf? entry "name" else none⟩

end Kind

def bestKind? (entry : Value) : List Kind → Option (Kind × Fit)
  | [] => none
  | kind :: rest =>
      match kind.fit entry, bestKind? entry rest with
      | .accepted fit, some (other, otherFit) =>
          if otherFit.isBetter fit then some (other, otherFit) else some (kind, fit)
      | .accepted fit, none => some (kind, fit)
      | .rejected _, best => best

def issuesOf (entry : Value) (kind : Kind) : List Issue :=
  match (kind.fit entry).within (.field kind.label) with
  | .accepted _ => []
  | .rejected issues => issues

def shape : Shape InterfaceEntry :=
  fun entry =>
    match bestKind? entry kinds with
    | some (kind, _) => .accepted (kind.tell entry)
    | none => .rejected (kinds.flatMap (issuesOf entry))

def ofInterface : Value → Except Unexpected (Reading (List InterfaceEntry))
  | .list entries =>
      match entries.findSome? parameterFault? with
      | some fault => .error fault
      | none => .ok (Reading.items shape 0 (entries.map settled))
  | _ => .ok (.fail .notList)

end InterfaceEntry

end SourceTree
