import SourceTree.Proofs.Engine.Budget
import SourceTree.Proofs.Engine.Requests

/-! # The ceiling of a resolution

A resolution ends by itself. Whatever the network answers, it fetches no more paths than its ceiling
allows, none of them twice, and each with few requests. If it discovers no more paths than that, it
gets to all of them. -/

namespace SourceTree

namespace Engine

open Pass Resolution

variable {T : Type} [Timescale T]

def ceiling (engine : Engine T) : Nat :=
  engine.maxIterations.toNat

structure WithinBudget (engine : Engine T) (visits : List (Visit T)) : Prop where
  few : visits.length ≤ engine.ceiling
  once : (visits.map Visit.path).Nodup
  brief : ∀ visit ∈ visits, visit.holdings.world.Sends (visit.after engine).world
    (engine.requestLimit visit.path)

/-- Whether a resolution got to all paths that it discovered. -/
structure Exhaustive (engine : Engine T) (files : Listing String String) (pass : Pass T)
    (resolution : Resolution) : Prop where
  distinct : pass.state.discovered.Nodup
  accounted : ∀ path ∈ pass.state.discovered, path ∉ resolution.aliases →
    (path ∈ resolution.files ∧ path ∉ files) ∨ path ∈ resolution.failures
  unlimited : ∀ limit remaining,
    Failure.message (.iterationLimit limit remaining : Failure T) ∉ resolution.warnings

theorem drainSeedsLog_spends {engine : Engine T} (workers : 0 < engine.maxWorkers)
    (files : Listing String String) (deadline : Option T) (holdings : Holdings T) :
    ∃ taken, (engine.drainSeedsLog files deadline holdings).Spends
      (openPass (Seeds.ofFiles files) holdings) engine.ceiling taken :=
  drainLogged_spends workers (1 < engine.maxWorkers) files
    (engine.deadlineFrom deadline holdings.world.now) le_rfl (queued_openPass _ holdings)

theorem visitsOf_withinBudget {engine : Engine T} (workers : 0 < engine.maxWorkers)
    (files : Listing String String) (preference : Option Preference) (deadline : Option T)
    (cache : ContentCache (FetchError T)) (world : World T) :
    WithinBudget engine (engine.visitsOf (.resolve files preference deadline) cache world) := by
  have brief := fun visit : Visit T =>
    fetchImport_sends engine visit.deadline visit.path visit.holdings
  cases starts : engine.holdingsFor files preference cache world with
  | error fault =>
      simp only [visitsOf, starts]
      exact ⟨Nat.zero_le _, List.nodup_nil, fun visit _ => brief visit⟩
  | ok holdings =>
      simp only [visitsOf, starts]
      have visited := map_path_visitsWith engine files deadline holdings
      rcases drainSeedsLog_spends workers files deadline holdings with ⟨taken, spends⟩
      refine ⟨?_, nodup_visitsWith engine files deadline holdings, fun visit _ => brief visit⟩
      rw [← List.length_map Visit.path]
      exact (visited.trans spends.asked).length_le.trans spends.affordable

theorem waiting_drainSeeds {engine : Engine T} (workers : 0 < engine.maxWorkers)
    {files : Listing String String} {deadline : Option T} {holdings : Holdings T}
    (completes : (engine.drainSeeds files deadline holdings).1.Completes)
    (fits : (engine.drainSeeds files deadline holdings).2.state.discovered.length ≤
      engine.ceiling) : (engine.drainSeeds files deadline holdings).2.waiting = [] := by
  rcases drainSeedsLog_spends workers files deadline holdings with ⟨taken, spends⟩
  rw [← drainSeedsLog_eq] at completes fits ⊢
  generalize engine.drainSeedsLog files deadline holdings = drain at *
  -- The queue held the seeds at first, so everything that was discovered went through it.
  have conserved : drain.last.state.discovered = taken ++ drain.last.queue := by
    rcases spends.takes with ⟨added, discovered, conserved⟩
    exact discovered.trans conserved
  have isEmpty : drain.last.queue = [] := by
    rcases spends.stops completes with isEmpty | spent
    · exact isEmpty
    · rw [conserved, List.length_append, spent] at fits
      exact List.length_eq_zero_iff.1 (by omega)
  simp only [waiting, isEmpty, List.filter_nil, List.eraseDups_nil]

theorem exhaustive_of_fits {engine : Engine T} (workers : 0 < engine.maxWorkers)
    {files : Listing String String} {deadline : Option T} {holdings : Holdings T}
    {resolution : Resolution}
    (resolved : (engine.resolveWith files deadline holdings).1 = .ok resolution)
    (fits : resolution.stats.externalImports ≤ engine.ceiling) :
    Exhaustive engine files (engine.drainSeeds files deadline holdings).2 resolution := by
  rcases resolveWith_eq_ok_iff.1 resolved with ⟨_, completes, rfl⟩
  rcases drained_drainSeeds completes with ⟨books, closing⟩
  have tracks := drainSeeds_tracks engine files deadline holdings
  have none := waiting_drainSeeds workers completes fits
  rw [closing]
  generalize (engine.drainSeeds files deadline holdings).2 = pass at *
  refine ⟨books.distinct, fun path known unmapped => ?_, fun limit remaining isCeiling => ?_⟩
  · by_cases isResolved : path ∈ pass.state.resolved
    · have isFetched := (tracks.fetchedIff path).2 isResolved
      exact Or.inl ⟨(Listing.mem_merge _ _ _).2 (Or.inl isFetched),
        foreign_of_mem_fetched tracks isFetched⟩
    · have unresolved := (ResolutionState.mem_unresolved _ _).2 ⟨known, isResolved, unmapped⟩
      have hasFailed : path ∈ pass.state.failed := by
        by_contra unfailed
        have waits := (books.mem_waiting_iff path).2 ⟨unresolved, unfailed⟩
        rw [none] at waits
        exact absurd waits List.not_mem_nil
      refine Or.inr ?_
      rw [ofPass, Listing.mem_iff, Listing.keys_mapValues]
      exact hasFailed
  · rw [mem_warnings_ofPass, mem_ceilingWarnings_closing] at isCeiling
    exact isCeiling.1 none

/-- Whatever is answered, a resolution ends before it runs out of rounds, all that it does is done
by visits that stay within its budget, and it gets to every path unless it discovers more than its
ceiling allows. -/
theorem resolveWith_withinBudget {engine : Engine T} (workers : 0 < engine.maxWorkers)
    (files : Listing String String) (preference : Option Preference) (deadline : Option T)
    (cache : ContentCache (FetchError T)) (world : World T) :
    (∀ rounds pass, engine.ceiling ≤ rounds →
      engine.drainRounds (1 < engine.maxWorkers) files (engine.deadlineFrom deadline world.now)
          rounds engine.ceiling pass =
        engine.drain (1 < engine.maxWorkers) files (engine.deadlineFrom deadline world.now) pass) ∧
    Leads engine ⟨cache, world.past⟩
      (engine.visitsOf (.resolve files preference deadline) cache world)
      ⟨(engine.serve (.resolve files preference deadline) cache world).1,
        (engine.serve (.resolve files preference deadline) cache world).2.past⟩ ∧
    WithinBudget engine (engine.visitsOf (.resolve files preference deadline) cache world) ∧
    ∀ holdings resolution, engine.holdingsFor files preference cache world = .ok holdings →
      (engine.resolveWith files deadline holdings).1 = .ok resolution →
        resolution.stats.externalImports ≤ engine.ceiling →
          Exhaustive engine files (engine.drainSeeds files deadline holdings).2 resolution := by
  refine ⟨fun rounds pass enough => ?_, leads_visitsOf engine _ cache world,
    visitsOf_withinBudget workers files preference deadline cache world,
    fun holdings resolution _ resolved fits => exhaustive_of_fits workers resolved fits⟩
  rw [drain, ← drainLogged_eq, ← drainLogged_eq,
    drainLogged_enough workers (1 < engine.maxWorkers) files _ enough le_rfl pass]
  rfl

def exactSample : Engine Rat :=
  { librarySample with
    network := .serving (.ofList
      [("https://lib/a.sol", "import './b.sol'; import './c.sol';"), ("https://lib/b.sol", "")])
    maxImports := 3
    iterationFactor := 1
    maxWorkers := 2 }

def endlessSample : Engine Rat :=
  { exactSample with
    network := ⟨fun past _ =>
      ⟨0, .answered 200 ("import './" ++ toString past.length ++ ".sol';")⟩⟩ }

def importingFile : Listing String String :=
  .ofList [("m.sol", "import '@lib/a.sol';")]

theorem withinBudget_of_exact_and_endless :
    0 < exactSample.maxWorkers ∧ 0 < endlessSample.maxWorkers ∧
    (∃ resolution : Resolution,
      (exactSample.resolveWith importingFile none ⟨.empty, .empty, .startingAt 0⟩).1 =
        .ok resolution ∧
      resolution.stats.externalImports = exactSample.ceiling ∧
      resolution.failures.keys = ["@lib/c.sol"] ∧
      Exhaustive exactSample importingFile
        (exactSample.drainSeeds importingFile none ⟨.empty, .empty, .startingAt 0⟩).2 resolution) ∧
    (endlessSample.visitsOf (.resolve importingFile (some .empty) none) .empty
      (.startingAt 0)).map Visit.path = ["@lib/a.sol", "@lib/0.sol", "@lib/1.sol"] ∧
    WithinBudget endlessSample
      (endlessSample.visitsOf (.resolve importingFile (some .empty) none) .empty
        (.startingAt 0)) := by
  have report : (exactSample.resolveWith importingFile none
      ⟨.empty, .empty, .startingAt 0⟩).1.toOption.map (fun resolution =>
        (resolution.stats.externalImports, resolution.failures.keys)) =
      some (3, ["@lib/c.sol"]) := by
    decide +kernel
  have exact := @resolveWith_withinBudget _ _ exactSample (by decide) importingFile
    (some .empty) none .empty (.startingAt 0)
  have endless := @resolveWith_withinBudget _ _ endlessSample (by decide) importingFile
    (some .empty) none .empty (.startingAt 0)
  rcases exists_of_toOption_map report with ⟨resolution, resolved, parts⟩
  simp only [Prod.mk.injEq] at parts
  exact ⟨by decide, by decide,
    ⟨resolution, resolved, parts.1, parts.2, exact.2.2.2 _ resolution rfl resolved parts.1.le⟩,
    by decide +kernel, endless.2.2.1⟩

end Engine

end SourceTree
