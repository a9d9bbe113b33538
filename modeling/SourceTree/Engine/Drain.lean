import SourceTree.Engine
import SourceTree.ImportStatement
import SourceTree.ResolutionState

/-! # Draining the queue

A pass takes import paths from its queue in batches, fetches them and appends the imports of what
it fetched, so paths are fetched in breadth-first order. The number of paths it may take is
limited. A pool fetches the whole batch before any outcome is settled; without a pool every
outcome is settled before the next path is fetched. -/

namespace SourceTree

structure Pass (T : Type) where
  queue : List String
  state : ResolutionState T
  fetched : Listing String String
  holdings : Holdings T

inductive DrainExit (T : Type) where
  | finished
  | ceiling (limit remaining : Int)
  | timedOut (after : T) (unresolved : List String)
  | broken (fault : Unexpected)

structure Batch (T : Type) where
  paths : List String
  queue : List String
  /-- How many more paths may be taken from the queue. -/
  budget : Nat
  state : ResolutionState T

namespace Batch

variable {T : Type}

def take : (room budget : Nat) → ResolutionState T → List String → Batch T
  | room + 1, budget + 1, state, path :: queue =>
      if state.isDone path then
        take (room + 1) budget state queue
      else
        let rest := take room budget (state.start path) queue
        { rest with paths := path :: rest.paths }
  | _, budget, state, queue => ⟨[], queue, budget, state⟩

end Batch

namespace Pass

variable {T : Type}

def discoverNested (files : Listing String String) (importer : String) (pass : Pass T)
    (path : String) : Pass T :=
  let nested := ImportPath.meantIn importer path
  if nested = importer ∨ nested ∈ files ∨ nested ∈ pass.state.discovered then pass
  else { pass with queue := pass.queue ++ [nested], state := pass.state.discover nested }

def accept (files : Listing String String) (pass : Pass T) (path text : String) : Pass T :=
  (importPaths text).foldl (discoverNested files path)
    { pass with
      fetched := pass.fetched.insert path text
      state := pass.state.resolve path }

def settle (files : Listing String String) (pass : Pass T) (path : String) :
    ImportOutcome T → Except (Interruption T) (Pass T)
  | .content text => .ok (pass.accept files path text)
  | .failed failure => .ok { pass with state := pass.state.fail path (.known failure) }
  | .interrupted interruption => .error interruption

def finishAll (pass : Pass T) (paths : List String) : Pass T :=
  { pass with state := paths.foldl ResolutionState.finish pass.state }

end Pass

namespace Engine

variable {T : Type} [Timescale T]

def runInTurn (engine : Engine T) (files : Listing String String) (deadline : Option T) :
    List String → Pass T → Option (Interruption T) × Pass T
  | [], pass => (none, pass)
  | path :: rest, pass =>
      let (outcome, holdings) := engine.fetchImport deadline path pass.holdings
      let fetched := { pass with holdings }
      match fetched.settle files path outcome with
      | .ok settled => runInTurn engine files deadline rest settled
      | .error interruption => (some interruption, fetched)

def fetchAll (engine : Engine T) (deadline : Option T) :
    List String → Holdings T → List (String × ImportOutcome T) × Holdings T
  | [], holdings => ([], holdings)
  | path :: rest, holdings =>
      let (outcome, after) := engine.fetchImport deadline path holdings
      let (outcomes, last) := fetchAll engine deadline rest after
      ((path, outcome) :: outcomes, last)

omit [Timescale T] in
def settleAll (files : Listing String String) :
    List (String × ImportOutcome T) → Pass T → Option (Interruption T) × Pass T
  | [], pass => (none, pass)
  | (path, outcome) :: rest, pass =>
      match pass.settle files path outcome with
      | .ok settled => settleAll files rest settled
      | .error interruption => (some interruption, pass)

def runBatch (engine : Engine T) (pooled : Bool) (files : Listing String String)
    (deadline : Option T) (paths : List String) (pass : Pass T) :
    Option (Interruption T) × Pass T :=
  if pooled then
    let (outcomes, holdings) := engine.fetchAll deadline paths pass.holdings
    settleAll files outcomes { pass with holdings }
  else
    engine.runInTurn files deadline paths pass

def exitFor (engine : Engine T) (state : ResolutionState T) : Interruption T → DrainExit T
  | .late after => .timedOut (Timescale.limitOr engine.timeout after) state.unresolved
  | .broken fault => .broken fault

def closing (engine : Engine T) (pass : Pass T) : DrainExit T :=
  let remaining := (pass.queue.filter fun path => !pass.state.isDone path).eraseDups
  if remaining.isEmpty then .finished else .ceiling engine.maxIterations remaining.length

/-- Fetch batch after batch. Every batch uses up some of the budget, so as many rounds as the
budget is large are enough. -/
def drainRounds (engine : Engine T) (pooled : Bool) (files : Listing String String)
    (deadline : Option T) : (rounds budget : Nat) → Pass T → DrainExit T × Pass T
  | 0, _, pass => (engine.closing pass, pass)
  | rounds + 1, budget, pass =>
      if pass.queue.isEmpty || budget = 0 then
        (engine.closing pass, pass)
      else if FetchPolicy.isReached deadline pass.holdings.world.now then
        (.timedOut (Timescale.limitOr engine.timeout 0) pass.state.unresolved, pass)
      else
        let batch := Batch.take engine.maxWorkers budget pass.state pass.queue
        let started := { pass with queue := batch.queue, state := batch.state }
        let (interruption, run) := engine.runBatch pooled files deadline batch.paths started
        match interruption with
        | none =>
            drainRounds engine pooled files deadline rounds batch.budget
              (run.finishAll batch.paths)
        | some cause => (engine.exitFor run.state cause, run.finishAll batch.paths)

def drain (engine : Engine T) (pooled : Bool) (files : Listing String String)
    (deadline : Option T) (pass : Pass T) : DrainExit T × Pass T :=
  engine.drainRounds pooled files deadline engine.maxIterations.toNat engine.maxIterations.toNat
    pass

end Engine

end SourceTree
