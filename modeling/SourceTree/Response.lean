import SourceTree.Compilation

/-! # Responses

Every request is answered: with a compilation, or with a refusal whose status code says whose fault
it was. Answers hold parts of a compiler's output, of which not all can be sent. -/

namespace SourceTree

structure Refusal where
  message : String
  statusCode : Int
  errors : List Value
  warnings : List Value
  unresolved : List String

def Refusal.toValue (refusal : Refusal) : Value :=
  .record [
    ("error", .text refusal.message), ("status_code", .int refusal.statusCode),
    ("errors", .list refusal.errors), ("warnings", .list refusal.warnings),
    ("unresolved_imports", .list (refusal.unresolved.map .text))]

def ContractType.body (type : ContractType) : Value :=
  let entries := type.interface.map fun entry =>
    Value.list [.text entry.kind, entry.name.elim .null .text]
  .record [
    ("source_id", .text type.sourceId), ("deployment", .text type.deployment),
    ("runtime", .text type.runtime), ("abi", .list entries),
    ("userdoc", type.userDocumentation), ("devdoc", type.developerDocumentation)]

def maxSentNesting : Nat := 256

def Compilation.passedOn {T : Type} (compilation : Compilation T) : List Value :=
  compilation.interface ++
    compilation.contracts.values.flatMap CompiledContract.interface ++
    compilation.contractTypes.values.flatMap (fun type =>
      [type.userDocumentation, type.developerDocumentation]) ++
    compilation.warnings

/-- The compilation as it is sent, contracts as pairs in their order. Numbers that JSON cannot hold
are left out. -/
def Compilation.toValue {T : Type} [Timescale T] (compilation : Compilation T) : Value :=
  let compiled := compilation.contracts.entries.map fun (name, contract) =>
    Value.list [.text name, .record [
      ("abi", .list contract.interface), ("bytecode", .text contract.bytecode)]]
  let types := compilation.contractTypes.entries.map fun (name, type) =>
    Value.list [.text name, type.body]
  let times := [
    ("compilation_time", Value.text (Timescale.text compilation.compilationTime)),
    ("total_time", .text (Timescale.text compilation.totalTime))]
  Value.finite (.record [
    ("contract_name", .text compilation.contractName), ("abi", .list compilation.interface),
    ("bytecode", .text compilation.bytecode),
    ("deployed_bytecode_size", .int compilation.deployedSize),
    ("compiler_version", .text compilation.compilerVersion),
    ("contracts", .list compiled), ("contract_types", .list types),
    ("warnings", .list compilation.warnings),
    ("unresolved_imports", .list (compilation.unresolved.map .text)),
    ("stats", .record (compilation.stats.fields ++ times))])

def Compilation.body {T : Type} [Timescale T] (compilation : Compilation T) :
    Except Unexpected Value :=
  if compilation.passedOn.all fun passed => passed.nesting ≤ maxSentNesting then
    .ok compilation.toValue
  else
    .error .unsendable

/-- What is wrong with the diagnostics of a refusal: all of them should be records. Diagnostics of
compilers are, so there is nothing unless a failure was made with others. -/
def Refusal.issues (refusal : Refusal) : List Issue :=
  let records (name : String) (diagnostics : List Value) : Reading (List Value) :=
    (Shape.interface (.list diagnostics)).within (.field name)
  let both := List.append <$> records "errors" refusal.errors <*>
    records "warnings" refusal.warnings
  match both with
  | .accepted _ => []
  | .rejected issues => issues

def Refusal.body (refusal : Refusal) : Except Unexpected Value :=
  if refusal.issues.isEmpty then .ok refusal.toValue else .error (.misshapen refusal.issues)

inductive Response (T : Type) where
  | compiled (compilation : Compilation T)
  | refused (refusal : Refusal)

namespace Response

variable {T : Type}

def statusCode : Response T → Int
  | .compiled _ => 200
  | .refused refusal => refusal.statusCode

def body [Timescale T] : Response T → Except Unexpected Value
  | .compiled compilation => compilation.body
  | .refused refusal => refusal.body

def sent [Timescale T] (response : Response T) : Except Unexpected (Int × Value) :=
  response.body.map fun body => (response.statusCode, body)

end Response

def unknownFaultMessage : String :=
  "Unknown error compiling contracts"

def Fault.refusal {T : Type} [Timescale T] : Fault T → Refusal
  | .known failure =>
      ⟨failure.message, failure.statusCode, failure.errors, failure.warnings, failure.unresolved⟩
  | .toolchain fault => ⟨fault.message, 500, [], [], []⟩
  | .unexpected fault =>
      let message := if fault.message.isEmpty then unknownFaultMessage else fault.message
      ⟨message, 500, [], [], []⟩

namespace Service

variable {T σ : Type} [Timescale T]

def mainFileOf (payload : Value) : Value :=
  ((payload.field? "mainFile").or (payload.field? "main_file")).getD .null

def handle (service : Service T σ) (payload : Value) (state : ServiceState T σ) :
    Response T × ServiceState T σ :=
  let files := (payload.field? "files").getD .null
  match service.compile files (mainFileOf payload) state with
  | (.ok compilation, after) => (.compiled compilation, after)
  | (.error fault, after) => (.refused fault.refusal, after)

def answer (service : Service T σ) (payload : Value) (state : ServiceState T σ) :
    Except Unexpected (Int × Value) × ServiceState T σ :=
  if payload.isRecord then
    let (response, after) := service.handle payload state
    (response.sent, after)
  else
    (.error (.unanswered payload.kindName .entry), state)

end Service

end SourceTree
