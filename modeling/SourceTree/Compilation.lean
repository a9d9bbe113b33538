import SourceTree.Contract
import SourceTree.ImportLookup
import SourceTree.Resolution
import SourceTree.Settings
import SourceTree.SourceRequest

/-! # Compilations

A request is checked, its imports are resolved, and a compiler gets all files with a lookup for
imports. Resolving and compiling share one deadline. What the compiler reports is sorted by
severity: any error fails the compilation, and so does an output without the main file's
contracts. An output of another shape than compilers give is a fault of its own. -/

namespace SourceTree

/-! ## Compilers -/

structure CompilerJob (T : Type) where
  sources : Listing String String
  lookup : ImportLookup T
  settings : Value
  mainFile : String

structure CompilerRun (T σ : Type) where
  /-- How long the run keeps its caller waiting; `none` for a run that does not end. -/
  waiting : Option T
  outcome : Except (Fault T) Value
  state : σ
  world : World T

structure SourceCompiler (T σ : Type) where
  compile : CompilerJob T → σ → World T → CompilerRun T σ

/-- The settings of a service that compiles source trees, with the search for patterns, the network
and the compiler that it works with. -/
structure Service (T σ : Type) where
  settings : Settings T
  search : PatternSearch
  network : Network T
  compiler : SourceCompiler T σ

structure ServiceState (T σ : Type) where
  cache : ContentCache (FetchError T)
  world : World T
  compilerState : σ

structure Compilation (T : Type) where
  contractName : String
  interface : List Value
  bytecode : String
  deployedSize : Nat
  compilerVersion : String
  contracts : Listing String CompiledContract
  contractTypes : Listing String ContractType
  warnings : List Value
  unresolved : List String
  stats : ResolutionStats
  compilationTime : T
  totalTime : T

/-! ## Diagnostics -/

namespace Diagnostics

def ofOutput (output : Value) : Except Unexpected (List Value) := do
  let reported := (← output.entry? "errors").getD .null
  if reported.isBlank then pure [] else reported.members

def ofSeverity (severity : String) (diagnostics : List Value) : Except Unexpected (List Value) :=
  diagnostics.filterM fun diagnostic =>
    (diagnostic.entry? "severity").map fun found =>
      match found with
      | some (.text written) => written = severity
      | _ => false

end Diagnostics

namespace Compilation

variable {T : Type}

inductive Hindrance where
  | useless (reason : CompilationFault)
  | misshapen (fault : Unexpected)

structure Findings where
  contracts : Value
  name : String
  data : Value

def firstContract (contracts named : Value) : Except Hindrance Findings := do
  let members ← named.members.mapError .misshapen
  match members.head? with
  | none => .error (.useless .noContracts)
  | some first =>
      if first.isBlank then .error (.useless .noContracts)
      else
        let data ← (named.part first).mapError .misshapen
        pure ⟨contracts, first.shown, data⟩

def find (mainFile : String) (output : Value) : Except Hindrance Findings := do
  let contracts := ((← (output.entry? "contracts").mapError .misshapen)).getD .null
  if contracts.isBlank then .error (.useless .noOutput)
  else
    match ← (contracts.entry? mainFile).mapError .misshapen with
    | none | some .null => .error (.useless (.mainFileAbsent mainFile))
    | some named => firstContract contracts named

def namedRelease (output : Value) : Except Unexpected String := do
  let named := (← output.entry? "compilerVersion").getD (.text "unknown")
  ContractEntry.demand ((Shape.text named).within (.field "compiler_version"))

def demandCountable [Timescale T] (length : T) : Except Unexpected Unit :=
  match Timescale.uncountable length with
  | some reason => .error (.uncountable reason)
  | none => .ok ()

def ofFindings [Timescale T] (findings : Findings) (resolution : Resolution) (output : Value)
    (warnings : List Value) (compilationTime totalTime : T) :
    Except Unexpected (Compilation T) := do
  let machine ← findings.data.field "evm"
  demandCountable totalTime
  let interface ← ContractEntry.interfaceOf findings.data
  let bytecode ← ContractEntry.markedCode (← (← machine.field "bytecode").field "object")
  let deployedLength ← (← (← machine.field "deployedBytecode").field "object").length
  let contracts ← ContractEntry.compiledByName findings.contracts
  let contractTypes ← ContractEntry.typesByName findings.contracts
  let entries ← ContractEntry.demand ((Shape.interface interface).within (.field "abi"))
  let compilerVersion ← namedRelease output
  pure {
    contractName := findings.name
    interface := ContractEntry.shown findings.data entries
    bytecode := bytecode
    deployedSize := deployedLength / 2
    compilerVersion := compilerVersion
    contracts := contracts
    contractTypes := contractTypes
    warnings := warnings
    unresolved := resolution.unresolved
    stats := resolution.stats
    compilationTime := compilationTime
    totalTime := totalTime }

def ofOutput [Timescale T] (mainFile : String) (resolution : Resolution) (output : Value)
    (compilationTime totalTime : T) : Except (Fault T) (Compilation T) := do
  let diagnostics ← (Diagnostics.ofOutput output).mapError .unexpected
  let errors ← (Diagnostics.ofSeverity "error" diagnostics).mapError .unexpected
  let warnings ← (Diagnostics.ofSeverity "warning" diagnostics).mapError .unexpected
  let failed (reason : CompilationFault) : Fault T :=
    .known (.compilationFailed reason errors warnings resolution.unresolved)
  if !errors.isEmpty then .error (failed .errors)
  else
    match find mainFile output with
    | .error (.useless reason) => .error (failed reason)
    | .error (.misshapen fault) => .error (.unexpected fault)
    | .ok findings =>
        (ofFindings findings resolution output warnings compilationTime totalTime).mapError
          .unexpected

end Compilation

/-! ## Services -/

namespace Service

variable {T σ : Type} [Timescale T]

omit [Timescale T] in
def registry (service : Service T σ) : Registry :=
  (Registry.configured service.settings.libraries).orCatalog

def engine (service : Service T σ) : Engine T :=
  let settings := service.settings
  .make service.registry service.search service.network settings.fetchPolicy settings.maxImports
    settings.iterationFactor settings.maxWorkers (some settings.compileTimeout)

def resolve (service : Service T σ) (files main : Value) (deadline : Option T)
    (state : ServiceState T σ) :
    Except (Fault T) (SourceRequest × Resolution) × ServiceState T σ :=
  match SourceRequest.check service.settings files main with
  | .error fault => (.error fault, state)
  | .ok request =>
      let (outcome, cache, world) :=
        service.engine.resolve request.files deadline state.cache state.world
      (outcome.map fun resolution => (request, resolution), { state with cache, world })

/-- The verdict on a run for which `remaining` time was left. A timeout that the compiler itself
reports counts like one of the run. -/
def verdict (service : Service T σ) (remaining : T) (run : CompilerRun T σ) :
    Except (Fault T) Value :=
  let timedOut : Except (Fault T) Value :=
    .error (.known (.compilationTimeout service.settings.compileTimeout))
  match run.waiting with
  | none => timedOut
  | some waiting =>
      if remaining < waiting then timedOut
      else
        match run.outcome with
        | .error (.unexpected (.timeout _)) => timedOut
        | outcome => outcome

def runCompiler (service : Service T σ) (job : CompilerJob T) (deadline : T)
    (state : ServiceState T σ) : Except (Fault T) Value × ServiceState T σ :=
  let remaining := deadline - state.world.now
  if remaining ≤ 0 then
    (.error (.known (.compilationTimeout service.settings.compileTimeout)), state)
  else
    let run := service.compiler.compile job state.compilerState state.world
    (service.verdict remaining run,
      { state with world := run.world, compilerState := run.state })

def compile (service : Service T σ) (files main : Value) (state : ServiceState T σ) :
    Except (Fault T) (Compilation T) × ServiceState T σ :=
  let start := state.world.now
  let deadline := start + service.settings.compileTimeout
  match service.resolve files main (some deadline) state with
  | (.error fault, resolved) => (.error fault, resolved)
  | (.ok (request, resolution), resolved) =>
      let job : CompilerJob T :=
        { sources := resolution.files
          lookup := .ofResolution resolution resolved.cache service.registry
          settings := service.settings.compilerSettings
          mainFile := request.mainFile }
      match service.runCompiler job deadline resolved with
      | (.error fault, compiled) => (.error fault, compiled)
      | (.ok output, compiled) =>
          let stop := compiled.world.now
          (Compilation.ofOutput request.mainFile resolution output
            (stop - resolved.world.now) (stop - start), compiled)

end Service

end SourceTree
