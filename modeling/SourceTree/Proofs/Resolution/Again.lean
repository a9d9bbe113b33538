import SourceTree.Proofs.Engine.Recall
import SourceTree.Proofs.Resolution.Lockstep
import SourceTree.Proofs.Resolution.Versions

/-! # Resolving again

When a resolution is over, all of its outcomes can be recalled. So a second resolution of the same
files goes through the same batches without a request, and finds what the first has found. Only the
versions that it reports are those that it prefers itself. -/

namespace SourceTree

namespace Engine

variable {T : Type} [Timescale T] {engine : Engine T}

theorem recalls_of_resolved {files : Listing String String} {deadline : Option T}
    {holdings : Holdings T} {resolution : Resolution}
    (resolved : (engine.resolveWith files deadline holdings).1 = .ok resolution) :
    ∀ entry ∈ (engine.drainSeedsLog files deadline holdings).outcomes,
      Recalls engine (engine.resolveWith files deadline holdings).2.cache entry.1 entry.2 := by
  rcases resolveWith_eq_ok_iff.1 resolved with ⟨allowed, completes, _⟩
  have accounted := drainSeedsLog_accounted engine files deadline holdings
  have left : (engine.resolveWith files deadline holdings).2 =
      (engine.drainSeedsLog files deadline holdings).last.holdings := by
    rw [snd_resolveWith, if_neg allowed, ← drainSeedsLog_eq]
  rw [← drainSeedsLog_eq] at completes
  have all := (accounted.ends.closing_of_completes completes).1
  have fetched : engine.fetchAll (engine.deadlineFrom deadline holdings.world.now)
      ((engine.drainSeedsLog files deadline holdings).outcomes.map Prod.fst) holdings =
        ((engine.drainSeedsLog files deadline holdings).outcomes,
          (engine.drainSeedsLog files deadline holdings).last.holdings) := accounted.fetched
  have recalled := @recalls_of_mem_fetchAll T _ engine
    (engine.deadlineFrom deadline holdings.world.now)
    ((engine.drainSeedsLog files deadline holdings).outcomes.map Prod.fst) holdings
  rw [fetched, ← left] at recalled
  exact recalled all

theorem resolveWith_resolveWith_of_early {files : Listing String String} {deadline : Option T}
    {holdings : Holdings T} {resolution : Resolution}
    (resolved : (engine.resolveWith files deadline holdings).1 = .ok resolution)
    {later : Option T} {second : Holdings T}
    (same : second.cache = (engine.resolveWith files deadline holdings).2.cache)
    (early : FetchPolicy.isReached (engine.deadlineFrom later second.world.now)
      second.world.now = false) :
    ∃ versions, engine.resolveWith files later second =
      (.ok { resolution with versions }, second) := by
  have recalls := recalls_of_resolved resolved
  rw [← same] at recalls
  rw [← resolveVia_ownWay] at resolved ⊢
  -- The second run stays where it starts: no batch of the first is fetched anew.
  have step : ∀ demand ∈ (engine.courseVia engine.ownWay files deadline holdings).demands,
      ∀ other, other = second →
        unsettled (engine.ownWay (engine.deadlineFrom deadline holdings.world.now) demand.paths
          demand.holdings).1 = [] →
          (engine.ownWay (engine.deadlineFrom later second.world.now) demand.paths other).1 =
              (engine.ownWay (engine.deadlineFrom deadline holdings.world.now) demand.paths
                demand.holdings).1 ∧
            (engine.ownWay (engine.deadlineFrom later second.world.now) demand.paths
              other).2 = second := by
    rintro demand asked other rfl all
    have known : ∀ entry ∈ (engine.ownWay (engine.deadlineFrom deadline holdings.world.now)
        demand.paths demand.holdings).1, Recalls engine other.cache entry.1 entry.2 := by
      intro entry told
      refine recalls entry ?_
      rw [← told_courseVia_ownWay]
      exact List.mem_flatMap.2 ⟨demand, asked, told⟩
    unfold ownWay at all known ⊢
    have again := fetchBatch_of_recalls (1 < engine.maxWorkers)
      (engine.deadlineFrom later other.world.now) all known
    rw [fetchBatch_complete engine _ _ all] at again
    rw [again]
    exact ⟨rfl, rfl⟩
  rcases resolveVia_lockstep (fun _ other => other = second) (fun held _ => held ▸ early) rfl
    resolved step with ⟨paths, _, rfl, _, again⟩
  exact ⟨_, again⟩

/-- Resolving the same files again at once, without a deadline, makes no request, keeps the cache
and reports the same; only the versions in use may be others. -/
theorem resolve_resolve_of_untimed (untimed : engine.timeout = none) {files : Listing String String}
    {cache : ContentCache (FetchError T)} {world : World T} {resolution : Resolution}
    (resolved : (engine.resolve files none cache world).1 = .ok resolution) :
    ∃ versions, engine.resolve files none (engine.resolve files none cache world).2.1
        (engine.resolve files none cache world).2.2 =
      (.ok { resolution with versions }, (engine.resolve files none cache world).2) := by
  rcases exists_detect_of_resolve resolved with ⟨preference, detected, isResolved⟩
  simp only [resolve_of_detect detected]
  generalize left : (engine.resolveWith files none ⟨cache, preference, world⟩).2 = first
  have early : FetchPolicy.isReached (engine.deadlineFrom none first.world.now) first.world.now =
      false := by
    rw [deadlineFrom_eq_none untimed]
    rfl
  have again := @resolveWith_resolveWith_of_early T _ engine files none _ resolution isResolved none
    ⟨first.cache, preference, first.world⟩ (by rw [left]) early
  rcases again with ⟨versions, again⟩
  refine ⟨versions, ?_⟩
  rw [again]

def mixedImports : Listing String String :=
  .ofList [("m.sol",
    "import '@lib/b.sol'; import '@lib/a.sol'; import '@lib/gone.sol'; import 'else/c.sol';")]

/-- The second time everything is recalled, so no version is found to lack a file: the text is still
that of the old version, but the new version is reported. -/
theorem resolve_resolve_of_fallback :
    splitSample.timeout = none ∧
    ∃ resolution again,
      (splitSample.resolve mixedImports none .empty (.startingAt 0)).1 = .ok resolution ∧
      splitSample.resolve mixedImports none
          (splitSample.resolve mixedImports none .empty (.startingAt 0)).2.1
          (splitSample.resolve mixedImports none .empty (.startingAt 0)).2.2 =
        (.ok again, (splitSample.resolve mixedImports none .empty (.startingAt 0)).2) ∧
      again = { resolution with versions := again.versions } ∧
      again.files.get? "@lib/a.sol" = some "old a" ∧
      again.unresolved = ["@lib/gone.sol", "else/c.sol"] ∧
      resolution.versions.get? "@lib" = some "1" ∧ again.versions.get? "@lib" = some "2" := by
  have report : (splitSample.resolve mixedImports none .empty (.startingAt 0)).1.toOption.map
      (fun resolution => (resolution.files.get? "@lib/a.sol", resolution.unresolved,
        resolution.versions.get? "@lib")) =
      some (some "old a", ["@lib/gone.sol", "else/c.sol"], some "1") := by
    decide +kernel
  have reportAgain : (splitSample.resolve mixedImports none
      (splitSample.resolve mixedImports none .empty (.startingAt 0)).2.1
      (splitSample.resolve mixedImports none .empty (.startingAt 0)).2.2).1.toOption.map
        (fun again => again.versions.get? "@lib") = some (some "2") := by
    decide +kernel
  rcases exists_of_toOption_map report with ⟨resolution, resolved, parts⟩
  rcases resolve_resolve_of_untimed rfl resolved with ⟨versions, again⟩
  rw [again] at reportAgain
  simp only [Prod.mk.injEq] at parts
  exact ⟨rfl, resolution, _, resolved, again, rfl, parts.1, parts.2.1, parts.2.2,
    Option.some.inj reportAgain⟩

end Engine

end SourceTree
