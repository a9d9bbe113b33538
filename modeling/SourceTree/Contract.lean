import SourceTree.Bytecode
import SourceTree.Interface
import SourceTree.Value.Part

/-! # Contracts

What a compiler reports on contracts, source by source. Contracts are known by their bare names, so
of several contracts with one name the last one counts, at the place of the first. The interface of
a linked contract is shown in its settled form, that of any other as the compiler gave it. -/

namespace SourceTree

structure CompiledContract where
  interface : List Value
  bytecode : String

structure ContractType where
  sourceId : String
  interface : List InterfaceEntry
  /-- The code that creates the contract, in its normal form. -/
  deployment : String
  /-- The code of the contract itself, in its normal form. -/
  runtime : String
  userDocumentation : Value
  developerDocumentation : Value

structure ContractEntry where
  sourceId : String
  name : String
  data : Value

namespace Shape

def table : Shape Value
  | .record fields => .accepted (.record fields)
  | _ => .fail .notTable

def interface : Shape (List Value) :=
  listOf table

def code (written : String) : Reading String :=
  match Bytecode.normalForm written with
  | .ok normal => .accepted normal
  | .error reason => .fail (.refused reason)

def documentation : Shape Value
  | .null => .accepted .null
  | value => table value

end Shape

namespace ContractEntry

/-! ## Parts of the output -/

def object (data : Value) (key : String) : Except Unexpected Value := do
  let machine ← data.field "evm"
  let holder ← machine.field key
  holder.field "object"

def markedCode : Value → Except Unexpected String
  | .text written => .ok (Bytecode.marked written)
  | other => .error (.noCode other.shownInside)

def code (data : Value) (key : String) : Except Unexpected String := do
  markedCode (← object data key)

def interfaceOf (data : Value) : Except Unexpected Value :=
  (data.entry? "abi").map fun found => found.getD (.list [])

def documentation (data : Value) (key : String) : Except Unexpected Value := do
  ((← data.entry? key).getD (.record [])).document

def demand {α : Type} (reading : Reading α) : Except Unexpected α :=
  reading.result.mapError .misshapen

def codes (data : Value) : Except Unexpected (String × String) := do
  let deployment ← code data "bytecode"
  let runtime ← code data "deployedBytecode"
  pure (deployment, runtime)

def isUnlinked (codes : String × String) : Bool :=
  Bytecode.isUnlinked codes.1 || Bytecode.isUnlinked codes.2

def shown (data : Value) (entries : List Value) : List Value :=
  match codes data with
  | .ok found => if isUnlinked found then entries else entries.map InterfaceEntry.settled
  | .error _ => entries

/-! ## Readings of an entry -/

def compiled (entry : ContractEntry) : Except Unexpected CompiledContract := do
  let interface ← interfaceOf entry.data
  let bytecode ← code entry.data "bytecode"
  let entries ← demand ((Shape.interface interface).within (.field "abi"))
  pure ⟨shown entry.data entries, bytecode⟩

def contractTypeOf (sourceId deployment runtime : String)
    (interface : Reading (List InterfaceEntry)) (user developer : Value) : Reading ContractType :=
  (fun deployed running entries forUsers forDevelopers =>
      ⟨sourceId, entries, deployed, running, forUsers, forDevelopers⟩)
    <$> (Shape.code deployment).within (.field "deploymentBytecode")
    <*> (Shape.code runtime).within (.field "runtimeBytecode")
    <*> interface.within (.field "abi")
    <*> (Shape.documentation user).within (.field "userdoc")
    <*> (Shape.documentation developer).within (.field "devdoc")

def contractType? (entry : ContractEntry) : Except Unexpected (Option ContractType) := do
  let (deployment, runtime) ← codes entry.data
  if isUnlinked (deployment, runtime) then
    pure none
  else
    let interface ← interfaceOf entry.data
    let user ← documentation entry.data "userdoc"
    let developer ← documentation entry.data "devdoc"
    let entries ← InterfaceEntry.ofInterface interface
    let type ← demand
      (contractTypeOf entry.sourceId deployment runtime entries user developer)
    pure (some type)

/-! ## All entries of an output -/

def ofSource (source : String × Value) : Except Unexpected (List ContractEntry) :=
  source.2.entries.map fun named =>
    named.map fun contract => ⟨source.1, contract.1, contract.2⟩

def foldOutput {α : Type} (step : α → ContractEntry → Except Unexpected α) (start : α)
    (contracts : Value) : Except Unexpected α := do
  let sources ← contracts.entries
  sources.foldlM (fun state source => do (← ofSource source).foldlM step state) start

def addCompiled (contracts : Listing String CompiledContract) (entry : ContractEntry) :
    Except Unexpected (Listing String CompiledContract) :=
  entry.compiled.map fun contract => contracts.insert entry.name contract

def addContractType (types : Listing String ContractType) (entry : ContractEntry) :
    Except Unexpected (Listing String ContractType) :=
  entry.contractType?.map fun
    | some type => types.insert entry.name type
    | none => types

def compiledByName (contracts : Value) : Except Unexpected (Listing String CompiledContract) :=
  foldOutput addCompiled .empty contracts

def typesByName (contracts : Value) : Except Unexpected (Listing String ContractType) :=
  foldOutput addContractType .empty contracts

end ContractEntry

end SourceTree
