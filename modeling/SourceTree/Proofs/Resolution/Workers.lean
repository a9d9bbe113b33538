import SourceTree.Proofs.Engine.Calls
import SourceTree.Proofs.Engine.Turns

/-! # Numbers of workers

Without a deadline, the number of workers decides how many paths are fetched before the first of
them is settled, and nothing else. As long as no fetch is interrupted, an engine resolves source
trees in the same way with any number of workers. -/

namespace SourceTree

namespace Engine

variable {T : Type} [Timescale T]

def withWorkers (engine : Engine T) (workers : Nat) : Engine T :=
  { engine with maxWorkers := workers }

def Undisturbed (engine : Engine T) (files : Listing String String) (holdings : Holdings T) :
    Prop :=
  ∀ visit ∈ engine.visitsOf (.resolve files (some holdings.preference) none) holdings.cache
    holdings.world, (visit.outcome engine).settles = true

theorem fetchSubstitutes_withWorkers (engine : Engine T) (workers : Nat) (library : Library)
    (deadline : Option T) (path : String) (first : FetchError T) (candidates : List Candidate)
    (attempted : List String) (holdings : Holdings T) :
    (engine.withWorkers workers).fetchSubstitutes library deadline path first candidates attempted
        holdings =
      engine.fetchSubstitutes library deadline path first candidates attempted holdings := by
  induction candidates generalizing attempted holdings with
  | nil => rfl
  | cons candidate rest induction =>
      simp only [fetchSubstitutes, induction]
      rfl

theorem fetchImport_withWorkers (engine : Engine T) (workers : Nat) (deadline : Option T)
    (path : String) (holdings : Holdings T) :
    (engine.withWorkers workers).fetchImport deadline path holdings =
      engine.fetchImport deadline path holdings := by
  simp only [fetchImport, fetchFromLibrary, fetchSubstitutes_withWorkers]
  rfl

theorem drainInTurn_withWorkers (engine : Engine T) (workers : Nat)
    (files : Listing String String) (budget : Nat) (pass : Pass T) :
    (engine.withWorkers workers).drainInTurn files budget pass =
      engine.drainInTurn files budget pass := by
  induction budget generalizing pass with
  | zero => rfl
  | succ budget induction =>
      simp only [drainInTurn, fetchImport_withWorkers, induction]
      rfl

theorem drainSeedsLog_inTurn {engine : Engine T} (untimed : engine.timeout = none) {workers : Nat}
    (any : 0 < workers) (files : Listing String String) (holdings : Holdings T) :
    let batched := (engine.withWorkers workers).drainSeedsLog files none holdings
    let inTurn := engine.drainInTurn files engine.maxIterations.toNat
      (openPass (Resolution.Seeds.ofFiles files) holdings)
    (unsettled batched.outcomes = [] ↔ unsettled inTurn.outcomes = []) ∧
      (unsettled batched.outcomes = [] → batched = inTurn) := by
  have queued := queued_openPass (Resolution.Seeds.ofFiles files) holdings
  have turns := @drainLogged_inTurn _ _ (engine.withWorkers workers) any (1 < workers) files
    engine.maxIterations.toNat engine.maxIterations.toNat le_rfl _ queued
  have endless : (engine.withWorkers workers).deadlineFrom none holdings.world.now = none := by
    simp only [deadlineFrom, withWorkers, untimed, Option.map_none, Option.or_none]
  simp only [drainInTurn_withWorkers] at turns
  simp only [drainSeedsLog, drainLog, endless]
  refine ⟨⟨fun all => ?_, not_imp_not.1 turns.2⟩, turns.1⟩
  rw [← turns.1 all]
  exact all

theorem Undisturbed.unsettled_eq_nil {engine : Engine T} {files : Listing String String}
    {holdings : Holdings T} (undisturbed : engine.Undisturbed files holdings)
    (allowed : ¬engine.maxImports < (Resolution.Seeds.ofFiles files).discovered.length) :
    unsettled (engine.drainSeedsLog files none holdings).outcomes = [] := by
  have outcomes := outcomes_visitsWith engine allowed none holdings
  refine List.dropWhile_eq_nil_iff.2 fun outcome made => ?_
  rcases List.mem_map.1 (outcomes.symm ▸ made) with ⟨visit, isVisit, rfl⟩
  exact undisturbed visit isVisit

/-- Without a deadline, a resolution of which no fetch is interrupted gives the same result, and
leaves the same cache, the same preference and the same past, with any number of workers as with
one. -/
theorem resolveWith_withWorkers {engine : Engine T} (untimed : engine.timeout = none)
    {workers : Nat} (any : 0 < workers) {files : Listing String String} {holdings : Holdings T}
    (undisturbed : (engine.withWorkers workers).Undisturbed files holdings ∨
      (engine.withWorkers 1).Undisturbed files holdings) :
    (engine.withWorkers workers).resolveWith files none holdings =
      (engine.withWorkers 1).resolveWith files none holdings := by
  by_cases tooMany : engine.maxImports < (Resolution.Seeds.ofFiles files).discovered.length
  · have refused : ∀ workers, (engine.withWorkers workers).resolveWith files none holdings =
        (.error (.known (.inputTooLarge .imports engine.maxImports
          (Resolution.Seeds.ofFiles files).discovered.length)), holdings) := fun _ =>
      if_pos tooMany
    rw [refused workers, refused 1]
  · have many := drainSeedsLog_inTurn untimed any files holdings
    have one := drainSeedsLog_inTurn untimed Nat.one_pos files holdings
    have manySettled : unsettled
        ((engine.withWorkers workers).drainSeedsLog files none holdings).outcomes = [] := by
      rcases undisturbed with ofMany | ofOne
      · exact ofMany.unsettled_eq_nil tooMany
      · exact many.1.2 (one.1.1 (ofOne.unsettled_eq_nil tooMany))
    have same := (many.2 manySettled).trans (one.2 (one.1.2 (many.1.1 manySettled))).symm
    have sameDrain : (engine.withWorkers workers).drainSeeds files none holdings =
        (engine.withWorkers 1).drainSeeds files none holdings := by
      rw [← drainSeedsLog_eq, ← drainSeedsLog_eq, same]
    simp only [drainSeeds] at sameDrain
    simp only [resolveWith, sameDrain]
    rfl

/-- Four workers have room for both of the paths that wait in the end, but the ceiling leaves them
one of these. -/
theorem resolveWith_of_cut_batch :
    shortSample.timeout = none ∧ 0 < 4 ∧
    (shortSample.withWorkers 4).Undisturbed mixedFiles ⟨.empty, .empty, .startingAt 0⟩ ∧
    ((shortSample.withWorkers 4).resolveWith mixedFiles none
        ⟨.empty, .empty, .startingAt 0⟩).1.toOption.map (fun resolution =>
          (resolution.files.keys, resolution.unresolved)) =
      some (["@lib/a.sol", "@lib/b.sol", "m.sol", "sub/y.sol"], ["./gone.sol", "@lib/c.sol"]) ∧
    (shortSample.withWorkers 4).resolveWith mixedFiles none ⟨.empty, .empty, .startingAt 0⟩ =
      (shortSample.withWorkers 1).resolveWith mixedFiles none ⟨.empty, .empty, .startingAt 0⟩ := by
  have settled : ((shortSample.withWorkers 4).visitsOf (.resolve mixedFiles (some .empty) none)
      .empty (.startingAt 0)).all
        (fun visit => (visit.outcome (shortSample.withWorkers 4)).settles) = true := by
    decide +kernel
  have undisturbed : (shortSample.withWorkers 4).Undisturbed mixedFiles
      ⟨.empty, .empty, .startingAt 0⟩ := List.all_eq_true.1 settled
  exact ⟨rfl, by decide, undisturbed, by decide +kernel,
    resolveWith_withWorkers rfl (by decide) (Or.inl undisturbed)⟩

end Engine

end SourceTree
