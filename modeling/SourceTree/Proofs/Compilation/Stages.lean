import SourceTree.Proofs.Compilation.Output
import SourceTree.Proofs.Network

/-! # The stages of a compilation

A request that ends in a compilation was checked, resolved and compiled in time, and the
compilation was read off the output of the compiler. -/

namespace SourceTree

namespace Service

variable {T σ : Type} [Timescale T]

def deadline (service : Service T σ) (state : ServiceState T σ) : T :=
  state.world.now + service.settings.compileTimeout

def jobFor (service : Service T σ) (request : SourceRequest) (resolution : Resolution)
    (cache : ContentCache (FetchError T)) : CompilerJob T where
  sources := resolution.files
  lookup := .ofResolution resolution cache service.registry
  settings := service.settings.compilerSettings
  mainFile := request.mainFile

structure Stages (service : Service T σ) (files main : Value) (state : ServiceState T σ)
    (compilation : Compilation T) where
  request : SourceRequest
  checked : SourceRequest.check service.settings files main = .ok request
  resolution : Resolution
  cache : ContentCache (FetchError T)
  world : World T
  resolved : service.engine.resolve request.files (some (service.deadline state)) state.cache
    state.world = (.ok resolution, cache, world)
  run : CompilerRun T σ
  started : service.compiler.compile (service.jobFor request resolution cache) state.compilerState
    world = run
  early : ¬service.deadline state - world.now ≤ 0
  waiting : T
  waited : run.waiting = some waiting
  inTime : ¬service.deadline state - world.now < waiting
  output : Value
  ended : run.outcome = .ok output
  described : Compilation.ofOutput request.mainFile resolution output
    (run.world.now - world.now) (run.world.now - state.world.now) = .ok compilation

variable {service : Service T σ}

theorem resolve_eq_ok {files main : Value} {deadline : Option T} {state after : ServiceState T σ}
    {request : SourceRequest} {resolution : Resolution}
    (resolves : service.resolve files main deadline state = (.ok (request, resolution), after)) :
    SourceRequest.check service.settings files main = .ok request ∧
      service.engine.resolve request.files deadline state.cache state.world =
        (.ok resolution, after.cache, after.world) ∧
      after.compilerState = state.compilerState := by
  simp only [resolve] at resolves
  split at resolves
  next => cases resolves
  next request checked =>
    rcases Prod.ext_iff.1 resolves with ⟨outcome, rfl⟩
    rcases map_eq_ok_iff.1 outcome with ⟨resolution, resolved, ⟨⟩⟩
    exact ⟨checked, Prod.ext resolved rfl, rfl⟩

theorem verdict_eq_ok {remaining : T} {run : CompilerRun T σ} {output : Value}
    (passes : service.verdict remaining run = .ok output) :
    (∃ waiting, run.waiting = some waiting ∧ ¬remaining < waiting) ∧ run.outcome = .ok output := by
  simp only [verdict] at passes
  split at passes
  next => cases passes
  next waiting waited =>
    split at passes
    next => cases passes
    next inTime =>
      split at passes
      · cases passes
      · exact ⟨⟨waiting, waited, inTime⟩, passes⟩

theorem verdict_eq_error {remaining : T} {run : CompilerRun T σ} {fault : Fault T}
    (fails : service.verdict remaining run = .error fault) :
    fault = .known (.compilationTimeout service.settings.compileTimeout) ∨
      run.outcome = .error fault := by
  simp only [verdict] at fails
  split at fails
  · exact Or.inl (Except.error.inj fails).symm
  · split at fails
    · exact Or.inl (Except.error.inj fails).symm
    · split at fails
      · exact Or.inl (Except.error.inj fails).symm
      · exact Or.inr fails

theorem runCompiler_eq_ok {job : CompilerJob T} {deadline : T} {state after : ServiceState T σ}
    {output : Value} (runs : service.runCompiler job deadline state = (.ok output, after)) :
    ¬deadline - state.world.now ≤ 0 ∧
      ∃ run, service.compiler.compile job state.compilerState state.world = run ∧
        service.verdict (deadline - state.world.now) run = .ok output ∧
        after = ⟨state.cache, run.world, run.state⟩ := by
  simp only [runCompiler] at runs
  split at runs
  next => cases runs
  next early =>
    rcases Prod.ext_iff.1 runs with ⟨passes, rfl⟩
    exact ⟨early, _, rfl, passes, rfl⟩

/-- A compilation went through all stages, and leaves the cache as resolving left it and the rest as
the compiler left it. -/
theorem stages_of_compile {files main : Value} {state after : ServiceState T σ}
    {compilation : Compilation T}
    (compiled : service.compile files main state = (.ok compilation, after)) :
    ∃ stages : service.Stages files main state compilation,
      after = ⟨stages.cache, stages.run.world, stages.run.state⟩ := by
  simp only [compile] at compiled
  split at compiled
  next => cases compiled
  next request resolution resolved resolves =>
    rcases resolve_eq_ok resolves with ⟨checked, isResolved, sameState⟩
    split at compiled
    next => cases compiled
    next output compiledState runs =>
      rcases runCompiler_eq_ok runs with ⟨early, run, started, passes, rfl⟩
      rcases verdict_eq_ok passes with ⟨⟨waiting, waited, inTime⟩, ended⟩
      rcases Prod.ext_iff.1 compiled with ⟨described, rfl⟩
      exact ⟨⟨request, checked, resolution, resolved.cache, resolved.world, isResolved, run,
        sameState ▸ started, early, waiting, waited, inTime, output, ended, described⟩, rfl⟩

end Service

def SourceCompiler.giving (output : Value) : SourceCompiler Rat Unit where
  compile := fun _ state world => ⟨some 0, .ok output, state, world⟩

namespace Service

def plainContract (code : String) : Value :=
  .record [("abi", .list []), ("evm", .record [
    ("bytecode", .record [("object", .text code)]),
    ("deployedBytecode", .record [("object", .text code)])])]

def tokenOutput (codes : List (String × String)) : Value :=
  .record [("contracts", .record (codes.map fun (source, code) =>
    (source, .record [("Token", plainContract code)])))]

def usualSettings : Settings Rat where
  maxFiles := 100
  maxFileSize := 512000
  maxTotalSize := 2097152
  maxImports := 200
  iterationFactor := 2
  maxFetchRetries := 3
  fetchTimeout := 10
  fetchBackoff := 1
  compileTimeout := 30
  maxWorkers := 1
  libraries := []
  version := none
  optimize := true
  optimizationRuns := 200
  evmVersion := some "london"
  further := []

def giving (output : Value) : Service Rat Unit :=
  ⟨usualSettings, Pattern.search, .serving .empty, .giving output⟩

def fresh : ServiceState Rat Unit :=
  ⟨.empty, .startingAt 0, ()⟩

end Service

end SourceTree
