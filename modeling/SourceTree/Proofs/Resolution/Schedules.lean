import SourceTree.Proofs.Engine.Commuting
import SourceTree.Proofs.Resolution.Lockstep
import SourceTree.Proofs.Resolution.Versions

/-! # Schedules

A pool may make the fetches of a batch in any order; their outcomes are settled in the order of the
batch. The order decides what is found when one fetch switches a library to another version and
another fetch of the batch asks the same library. Where no batch has such fetches, a resolution is
the same under every schedule. -/

namespace SourceTree

def ImportOutcome.text? {T : Type} : ImportOutcome T → Option String
  | .content text => some text
  | .failed _ => none
  | .interrupted _ => none

/-- The order in which a pool makes the fetches of each batch. -/
structure Schedule where
  order : List String → List String
  perm : ∀ paths, (order paths).Perm paths

def Schedule.reversed : Schedule where
  order := List.reverse
  perm := List.reverse_perm

namespace Engine

variable {T : Type} [Timescale T] {engine : Engine T}

/-- Fetch a batch under a schedule, and list the outcomes in the order of the batch. -/
def fetchScheduled (engine : Engine T) (schedule : Schedule) (deadline : Option T) : Asking T :=
  fun paths holdings =>
    let (outcomes, last) := engine.fetchAll deadline (schedule.order paths) holdings
    (paths.filterMap fun path => outcomes.find? fun outcome => outcome.1 = path, last)

omit [Timescale T] in
theorem filterMap_find? (outcome : String → ImportOutcome T) {paths asked : List String}
    (complete : ∀ path ∈ paths, path ∈ asked) :
    (paths.filterMap fun path =>
        (asked.map fun other => (other, outcome other)).find? fun entry => entry.1 = path) =
      paths.map fun path => (path, outcome path) := by
  refine Eq.trans (List.filterMap_congr fun path inPaths => ?_)
    (congrFun List.filterMap_eq_map' paths)
  cases found : (asked.map fun other => (other, outcome other)).find? fun entry =>
      entry.1 = path with
  | none =>
      have absent := List.find?_eq_none.1 found (path, outcome path)
        (List.mem_map_of_mem (complete path inPaths))
      exact absurd (decide_eq_true rfl) absent
  | some entry =>
      have named : entry.1 = path := by simpa using List.find?_some found
      rcases List.mem_map.1 (List.mem_of_find?_eq_some found) with ⟨other, _, rfl⟩
      obtain rfl : other = path := named
      rfl

theorem Calm.fetchScheduled (stable : engine.network.Stable) {paths : List String}
    {holdings second : Holdings T} (calm : Calm engine holdings paths) (distinct : paths.Nodup)
    (alike : holdings.Alike second) (schedule : Schedule) :
    (engine.fetchScheduled schedule none paths second).1 =
        (engine.fetchAll none paths holdings).1 ∧
      (engine.fetchAll none paths holdings).2.Alike
        (engine.fetchScheduled schedule none paths second).2 := by
  have reordered := schedule.perm paths
  have told := calm.outcomes_fetchAll stable distinct
  have toldToo := (calm.perm reordered.symm).outcomes_fetchAll stable
    (reordered.nodup_iff.2 distinct)
  rcases fetchAll_alike stable (schedule.order paths) alike with ⟨same, last⟩
  refine ⟨?_, (calm.alike_fetchAll stable reordered.symm distinct).trans last⟩
  simp only [Engine.fetchScheduled, ← same, toldToo, told]
  exact filterMap_find? _ fun path inPaths => reordered.mem_iff.2 inPaths

omit [Timescale T] in
theorem versionsUsed_of_alike (registry : Registry) {first second : Holdings T}
    (alike : first.Alike second) (paths : List String) :
    Resolution.versionsUsed registry first.preference paths =
      Resolution.versionsUsed registry second.preference paths := by
  have same : ∀ library, first.preference.select library = second.preference.select library :=
    fun library => congrArg library.version (alike.preference library.root)
  simp only [Resolution.versionsUsed, same]

/-- A resolution of which every batch is calm is the same under every schedule. -/
theorem resolveVia_fetchScheduled (stable : engine.network.Stable) (untimed : engine.timeout = none)
    {files : Listing String String} {holdings : Holdings T} {resolution : Resolution}
    (resolved : (engine.resolveWith files none holdings).1 = .ok resolution)
    (calm : ∀ demand ∈ (engine.courseVia engine.ownWay files none holdings).demands,
      Calm engine demand.holdings demand.paths) (schedule : Schedule) :
    (engine.resolveVia (engine.fetchScheduled schedule) files none holdings).1 =
      .ok resolution := by
  rw [← resolveVia_ownWay] at resolved
  have step : ∀ demand ∈ (engine.courseVia engine.ownWay files none holdings).demands, ∀ other,
      demand.holdings.Alike other →
        unsettled (engine.ownWay (engine.deadlineFrom none holdings.world.now) demand.paths
          demand.holdings).1 = [] →
          (engine.fetchScheduled schedule (engine.deadlineFrom none holdings.world.now)
              demand.paths other).1 =
            (engine.ownWay (engine.deadlineFrom none holdings.world.now) demand.paths
              demand.holdings).1 ∧
          (engine.ownWay (engine.deadlineFrom none holdings.world.now) demand.paths
              demand.holdings).2.Alike
            (engine.fetchScheduled schedule (engine.deadlineFrom none holdings.world.now)
              demand.paths other).2 := by
    intro demand asked other alike all
    rw [deadlineFrom_eq_none untimed] at all ⊢
    have distinct : demand.paths.Nodup := nodup_of_mem_demands engine _ files _ _ _ _ demand asked
    unfold ownWay at all ⊢
    rw [fetchBatch_eq_fetchAll engine _ none all]
    exact (calm demand asked).fetchScheduled stable distinct alike schedule
  have early : ∀ {left right : Holdings T}, left.Alike right →
      FetchPolicy.isReached (engine.deadlineFrom none holdings.world.now) left.world.now = false →
        FetchPolicy.isReached (engine.deadlineFrom none holdings.world.now) right.world.now =
          false := by
    intro left right _ _
    rw [deadlineFrom_eq_none untimed]
    rfl
  rcases resolveVia_lockstep Holdings.Alike early (.refl holdings) resolved step with
    ⟨paths, last, alike, versions, scheduled⟩
  rw [scheduled, ← versionsUsed_of_alike engine.registry alike paths, ← versions]

/-- Over a stable network and without a deadline, two paths have the same outcomes in both orders
exactly when neither sways the other, and in any case the same ones fail. A resolution of which
every batch is calm is the same under every schedule. -/
theorem indifferent_iff_and_resolveVia_of_calm (stable : engine.network.Stable) :
    (∀ (holdings : Holdings T) (first second : String), first ≠ second →
      (Indifferent engine holdings first second ↔
          ¬Sways engine holdings first second ∧ ¬Sways engine holdings second first) ∧
        ((∃ failure, (engine.fetchImport none second
            (engine.fetchImport none first holdings).2).1 = .failed failure) ↔
          ∃ failure, (engine.fetchImport none second holdings).1 = .failed failure)) ∧
    (engine.timeout = none → ∀ files (holdings : Holdings T) resolution,
      (engine.resolveWith files none holdings).1 = .ok resolution →
        (∀ demand ∈ (engine.courseVia engine.ownWay files none holdings).demands,
          Calm engine demand.holdings demand.paths) →
          ∀ schedule, (engine.resolveVia (engine.fetchScheduled schedule) files none holdings).1 =
            .ok resolution) :=
  ⟨fun holdings _ _ different => ⟨indifferent_iff stable holdings different,
      failed_after_iff stable holdings different.symm⟩,
    fun untimed _ _ _ resolved calm schedule =>
      resolveVia_fetchScheduled stable untimed resolved calm schedule⟩

def pooledSample : Engine Rat :=
  { Engine.serving
      (splitSample.registry.register
        (.ofVersions "@util" ⟨"1", "https://util/", none, [], []⟩ [] (by decide)))
      (.ofList [("https://two/a.sol", "new a"), ("https://one/a.sol", "old a"),
        ("https://one/b.sol", "old b"), ("https://util/c.sol", "c")]) with
    maxWorkers := 2 }

/-- The missing file switches the library, so the text of the file that both versions have depends
on which of the two is fetched first; with two workers the schedule decides. -/
theorem not_indifferent_of_fallback :
    pooledSample.network.Stable ∧
    ¬Indifferent pooledSample ⟨.empty, .empty, .startingAt 0⟩ "@lib/b.sol" "@lib/a.sol" ∧
    ∃ inOrder reversed : Resolution,
      (pooledSample.resolveWith missingFirst none ⟨.empty, .empty, .startingAt 0⟩).1 =
        .ok inOrder ∧
      (pooledSample.resolveVia (pooledSample.fetchScheduled .reversed) missingFirst none
        ⟨.empty, .empty, .startingAt 0⟩).1 = .ok reversed ∧
      inOrder.files.get? "@lib/a.sol" = some "old a" ∧
      reversed.files.get? "@lib/a.sol" = some "new a" := by
  have alone : (pooledSample.fetchImport none "@lib/a.sol"
      ⟨.empty, .empty, .startingAt 0⟩).1.text? = some "new a" := by
    decide +kernel
  have after : (pooledSample.fetchImport none "@lib/a.sol"
      (pooledSample.fetchImport none "@lib/b.sol" ⟨.empty, .empty, .startingAt 0⟩).2).1.text? =
        some "old a" := by
    decide +kernel
  have report : (pooledSample.resolveWith missingFirst none
      ⟨.empty, .empty, .startingAt 0⟩).1.toOption.map (fun resolution =>
        resolution.files.get? "@lib/a.sol") = some (some "old a") := by
    decide +kernel
  have reportReversed : (pooledSample.resolveVia (pooledSample.fetchScheduled .reversed)
      missingFirst none ⟨.empty, .empty, .startingAt 0⟩).1.toOption.map (fun resolution =>
        resolution.files.get? "@lib/a.sol") = some (some "new a") := by
    decide +kernel
  rcases exists_of_toOption_map report with ⟨inOrder, resolved, text⟩
  rcases exists_of_toOption_map reportReversed with ⟨reversed, resolvedReversed, textReversed⟩
  refine ⟨Network.stable_serving _, fun indifferent => ?_, inOrder, reversed, resolved,
    resolvedReversed, text, textReversed⟩
  rw [indifferent.2, alone] at after
  exact absurd after (by decide)

def twoLibraries : Listing String String :=
  .ofList [("m.sol", "import '@lib/b.sol'; import '@util/c.sol';")]

theorem scheduled_of_two_libraries :
    pooledSample.network.Stable ∧ pooledSample.timeout = none ∧ "@lib/b.sol" ≠ "@util/c.sol" ∧
    (Indifferent pooledSample ⟨.empty, .empty, .startingAt 0⟩ "@lib/b.sol" "@util/c.sol" ↔
      ¬Sways pooledSample ⟨.empty, .empty, .startingAt 0⟩ "@lib/b.sol" "@util/c.sol" ∧
        ¬Sways pooledSample ⟨.empty, .empty, .startingAt 0⟩ "@util/c.sol" "@lib/b.sol") ∧
    ∃ resolution : Resolution,
      (pooledSample.resolveWith twoLibraries none ⟨.empty, .empty, .startingAt 0⟩).1 =
        .ok resolution ∧
      resolution.versions.get? "@lib" = some "1" ∧
      (∀ demand ∈ (pooledSample.courseVia pooledSample.ownWay twoLibraries none
          ⟨.empty, .empty, .startingAt 0⟩).demands,
        Calm pooledSample demand.holdings demand.paths) ∧
      (pooledSample.resolveVia (pooledSample.fetchScheduled .reversed) twoLibraries none
        ⟨.empty, .empty, .startingAt 0⟩).1 = .ok resolution := by
  have report : (pooledSample.resolveWith twoLibraries none
      ⟨.empty, .empty, .startingAt 0⟩).1.toOption.map (fun resolution =>
        resolution.versions.get? "@lib") = some (some "1") := by
    decide +kernel
  have calm : ∀ demand ∈ (pooledSample.courseVia pooledSample.ownWay twoLibraries none
      ⟨.empty, .empty, .startingAt 0⟩).demands,
        Calm pooledSample demand.holdings demand.paths := by
    decide +kernel
  have stable : pooledSample.network.Stable := Network.stable_serving _
  rcases exists_of_toOption_map report with ⟨resolution, resolved, version⟩
  rcases indifferent_iff_and_resolveVia_of_calm stable with ⟨pairs, passes⟩
  exact ⟨stable, rfl, by decide, (pairs _ _ _ (by decide)).1, resolution, resolved, version, calm,
    passes rfl _ _ _ resolved calm .reversed⟩

end Engine

end SourceTree
