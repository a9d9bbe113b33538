import SourceTree.Proofs.Engine.Turns
import SourceTree.Proofs.Registration
import SourceTree.Proofs.Resolution.Lockstep
import SourceTree.Proofs.Resolution.Versions

/-! # Resolving with one library more

A library that is registered under a new root is never asked as long as it owns none of the paths
that a resolution discovers. The files may ask for a version of it, which is preferred then; but
only its own paths are fetched at that version. So the resolution goes the same way as without it,
request by request, and reports the same. -/

namespace SourceTree

structure Holdings.SameBut {T : Type} (root : String) (first second : Holdings T) : Prop where
  cache : first.cache = second.cache
  world : first.world = second.world
  preference : ∀ other, other ≠ root →
    first.preference.get? other = second.preference.get? other

namespace Registry

theorem root_ne_of_find {registry : Registry} {added library : Library} {path : String}
    (fresh : added.root ∉ registry.listing) (found : registry.find path = some library) :
    library.root ≠ added.root := by
  intro same
  rcases Listing.mem_values_iff.1 (mem_of_find found) with ⟨root, isEntry⟩
  have isRoot : library.root = root := registry.rootsAgree _ isEntry
  exact fresh (same ▸ isRoot ▸ Listing.mem_of_mem_entries isEntry)

end Registry

namespace Engine

open Resolution

variable {T : Type} [Timescale T] {engine : Engine T} {added : Library}

def register (engine : Engine T) (library : Library) : Engine T :=
  { engine with registry := engine.registry.register library }

def discovered (engine : Engine T) (files : Listing String String) (deadline : Option T)
    (cache : ContentCache (FetchError T)) (world : World T) : List String :=
  match engine.detect files with
  | .error _ => []
  | .ok preference =>
      (engine.drainSeeds files deadline ⟨cache, preference, world⟩).2.state.discovered

/-! ## Single paths -/

theorem fetchSubstitutes_register (library : Library) (deadline : Option T) (path : String)
    (error : FetchError T) (candidates : List Candidate) (attempted : List String)
    {first second : Holdings T} (same : first.SameBut added.root second) :
    ((engine.register added).fetchSubstitutes library deadline path error candidates attempted
          second).1 =
        (engine.fetchSubstitutes library deadline path error candidates attempted first).1 ∧
      (engine.fetchSubstitutes library deadline path error candidates attempted
          first).2.SameBut added.root
        ((engine.register added).fetchSubstitutes library deadline path error candidates attempted
          second).2 := by
  induction candidates generalizing attempted first second with
  | nil => exact ⟨rfl, same⟩
  | cons candidate rest induction =>
      simp only [fetchSubstitutes, ← same.world]
      split
      · exact ⟨rfl, same⟩
      · simp only [register]
        generalize engine.policy.fetch engine.network deadline candidate.url first.world = result
        rcases result with ⟨fetched, world⟩
        cases fetched with
        | interrupted interruption => exact ⟨rfl, same.cache, rfl, same.preference⟩
        | failed reason => exact induction _ ⟨same.cache, rfl, same.preference⟩
        | content text =>
            refine ⟨rfl, same.cache, rfl, fun other apart => ?_⟩
            cases candidate.version with
            | none => exact same.preference other apart
            | some version =>
                simp only [Preference.get?_set, same.preference other apart]

theorem fetchFromLibrary_register {library : Library} (other : library.root ≠ added.root)
    (deadline : Option T) (path : String) {first second : Holdings T}
    (same : first.SameBut added.root second) :
    ((engine.register added).fetchFromLibrary library deadline path second).1 =
        (engine.fetchFromLibrary library deadline path first).1 ∧
      (engine.fetchFromLibrary library deadline path first).2.SameBut added.root
        ((engine.register added).fetchFromLibrary library deadline path second).2 := by
  have selected : second.preference.select library = first.preference.select library :=
    congrArg library.version (same.preference library.root other).symm
  have substitutes := @fetchSubstitutes_register T _ engine added library deadline path
  simp only [fetchFromLibrary, selected, ← same.world]
  simp only [register] at substitutes ⊢
  generalize engine.policy.fetch engine.network deadline
    ((first.preference.select library).url (library.relativePath path)) first.world = result
  rcases result with ⟨fetched, world⟩
  cases fetched with
  | content text => exact ⟨rfl, same.cache, rfl, same.preference⟩
  | interrupted interruption => exact ⟨rfl, same.cache, rfl, same.preference⟩
  | failed reason => exact substitutes reason _ _ ⟨same.cache, rfl, same.preference⟩

omit [Timescale T] in
theorem remember_sameBut {root path : String} {first second : ImportOutcome T × Holdings T}
    (outcome : second.1 = first.1) (same : first.2.SameBut root second.2) :
    (remember path second).1 = (remember path first).1 ∧
      (remember path first).2.SameBut root (remember path second).2 := by
  rcases first with ⟨told, held⟩
  rcases second with ⟨_, heldToo⟩
  cases outcome
  cases told with
  | interrupted interruption => exact ⟨rfl, same⟩
  | content text =>
      exact ⟨rfl, congrArg (·.put path text) same.cache, same.world, same.preference⟩
  | failed failure =>
      cases failure with
      | fetch error =>
          exact ⟨rfl, congrArg (·.recordFailure path error) same.cache, same.world,
            same.preference⟩
      | _ => exact ⟨rfl, same⟩

theorem fetchImport_register (fresh : added.root ∉ engine.registry.listing) {path : String}
    (unowned : added.owns path = false) (deadline : Option T) {first second : Holdings T}
    (same : first.SameBut added.root second) :
    ((engine.register added).fetchImport deadline path second).1 =
        (engine.fetchImport deadline path first).1 ∧
      (engine.fetchImport deadline path first).2.SameBut added.root
        ((engine.register added).fetchImport deadline path second).2 := by
  have found : (engine.register added).registry.find path = engine.registry.find path :=
    Registry.find_register fresh unowned
  simp only [fetchImport, found, ← same.cache]
  split
  · exact ⟨rfl, same⟩
  · cases owner : engine.registry.find path with
    | none => exact ⟨rfl, same⟩
    | some library =>
        simp only
        split
        · exact ⟨rfl, same⟩
        · exact ⟨rfl, same⟩
        · have fetched := @fetchFromLibrary_register T _ engine added library
            (Registry.root_ne_of_find fresh owner) deadline path first second same
          exact remember_sameBut fetched.1 fetched.2

/-! ## Batches -/

theorem fetchAll_register (fresh : added.root ∉ engine.registry.listing) (deadline : Option T)
    {paths : List String} (unowned : ∀ path ∈ paths, added.owns path = false)
    {first second : Holdings T} (same : first.SameBut added.root second) :
    ((engine.register added).fetchAll deadline paths second).1 =
        (engine.fetchAll deadline paths first).1 ∧
      (engine.fetchAll deadline paths first).2.SameBut added.root
        ((engine.register added).fetchAll deadline paths second).2 := by
  induction paths generalizing first second with
  | nil => exact ⟨rfl, same⟩
  | cons path rest induction =>
      rcases fetchImport_register fresh (unowned path List.mem_cons_self) deadline same with
        ⟨outcome, after⟩
      rcases induction (fun other inRest => unowned other (List.mem_cons_of_mem path inRest)) after
        with ⟨outcomes, last⟩
      simp only [fetchAll]
      exact ⟨by rw [outcome, outcomes], last⟩

theorem fetchBatch_register (fresh : added.root ∉ engine.registry.listing) (pooled : Bool)
    (deadline : Option T) {paths : List String}
    (unowned : ∀ path ∈ paths, added.owns path = false) {first second : Holdings T}
    (same : first.SameBut added.root second)
    (all : unsettled (engine.fetchBatch pooled deadline paths first).1 = []) :
    ((engine.register added).fetchBatch pooled deadline paths second).1 =
        (engine.fetchBatch pooled deadline paths first).1 ∧
      (engine.fetchBatch pooled deadline paths first).2.SameBut added.root
        ((engine.register added).fetchBatch pooled deadline paths second).2 := by
  have alike := fetchBatch_eq_fetchAll engine pooled deadline all
  have inTurn := fetchAll_register fresh deadline unowned same
  rw [alike] at all ⊢
  rw [← inTurn.1] at all
  rw [fetchBatch_eq_fetchAll _ pooled deadline (unsettled_fetchAll _ pooled deadline all)]
  exact inTurn

/-! ## Resolutions -/

theorem drainVia_register (engine : Engine T) (added : Library) (ask : Asking T)
    (files : Listing String String) (deadline : Option T) (rounds budget : Nat) (pass : Pass T) :
    (engine.register added).drainVia ask files deadline rounds budget pass =
      engine.drainVia ask files deadline rounds budget pass := by
  induction rounds generalizing budget pass with
  | zero => rfl
  | succ rounds induction =>
      simp only [drainVia, induction]
      rfl

theorem last_courseVia_ownWay (engine : Engine T) (files : Listing String String)
    (deadline : Option T) (holdings : Holdings T) :
    (engine.courseVia engine.ownWay files deadline holdings).last =
      (engine.drainSeeds files deadline holdings).2 := by
  rw [← drainSeedsLog_eq, ← told_courseVia_ownWay]
  rfl

theorem discovered_of_mem_demands {files : Listing String String} {deadline : Option T}
    {holdings : Holdings T} {demand : Demand T}
    (asked : demand ∈ (engine.courseVia engine.ownWay files deadline holdings).demands)
    (all : unsettled (engine.ownWay (engine.deadlineFrom deadline holdings.world.now)
      demand.paths demand.holdings).1 = []) :
    ∀ path ∈ demand.paths,
      path ∈ (engine.courseVia engine.ownWay files deadline holdings).last.state.discovered := by
  intro path inBatch
  have told : path ∈ (engine.drainSeedsLog files deadline holdings).outcomes.map Prod.fst := by
    rw [← fetchBatch_complete engine _ _ all, List.mem_map] at inBatch
    rcases inBatch with ⟨outcome, isOutcome, rfl⟩
    rw [← told_courseVia_ownWay]
    exact List.mem_map_of_mem (List.mem_flatMap.2 ⟨demand, asked, isOutcome⟩)
  rw [last_courseVia_ownWay, ← drainSeedsLog_eq]
  exact (drainSeedsLog_accounted engine files deadline holdings).advances.known path told

omit [Timescale T] in
theorem versionsUsed_register (fresh : added.root ∉ engine.registry.listing)
    {resolved : List String} (unowned : ∀ path ∈ resolved, added.owns path = false)
    {first second : Holdings T} (same : first.SameBut added.root second) :
    versionsUsed (engine.register added).registry second.preference resolved =
      versionsUsed engine.registry first.preference resolved := by
  induction resolved using List.reverseRecOn with
  | nil => rfl
  | append_singleton earlier last induction =>
      have found : (engine.register added).registry.find last = engine.registry.find last :=
        Registry.find_register fresh (unowned last (List.mem_append_right earlier
          List.mem_cons_self))
      rw [versionsUsed_concat, versionsUsed_concat, found,
        induction fun path isEarlier => unowned path (List.mem_append_left _ isEarlier)]
      cases owner : engine.registry.find last with
      | none => rfl
      | some library =>
          have selected : second.preference.select library = first.preference.select library :=
            congrArg library.version
              (same.preference library.root (Registry.root_ne_of_find fresh owner)).symm
          simp only [selected]

/-- With the further library a course that completes is told the same, and so it ends alike. -/
theorem courseVia_register (fresh : added.root ∉ engine.registry.listing)
    {files : Listing String String} {deadline : Option T} {first second : Holdings T}
    (completes : (engine.courseVia engine.ownWay files deadline first).exit.Completes)
    (unowned : ∀ path ∈ (engine.courseVia engine.ownWay files deadline first).last.state.discovered,
      added.owns path = false) (same : first.SameBut added.root second) :
    ∃ last, (engine.courseVia engine.ownWay files deadline first).last.holdings.SameBut added.root
        last ∧
      ((engine.register added).courseVia (engine.register added).ownWay files deadline
        second).exit = (engine.courseVia engine.ownWay files deadline first).exit ∧
      ((engine.register added).courseVia (engine.register added).ownWay files deadline
        second).last = { (engine.courseVia engine.ownWay files deadline first).last with
          holdings := last } := by
  have limit : (engine.register added).deadlineFrom deadline second.world.now =
      engine.deadlineFrom deadline first.world.now := by
    rw [← same.world]
    rfl
  have course : (engine.register added).courseVia (engine.register added).ownWay files deadline
      second = engine.drainVia ((engine.register added).ownWay
        (engine.deadlineFrom deadline first.world.now)) files
        (engine.deadlineFrom deadline first.world.now) engine.maxIterations.toNat
        engine.maxIterations.toNat (openPass (Seeds.ofFiles files) second) := by
    rw [courseVia, limit, drainVia_register]
    rfl
  -- What is asked for is discovered, so the further library owns none of it.
  have told : ∀ demand ∈ (engine.courseVia engine.ownWay files deadline first).demands,
      ∀ held, demand.holdings.SameBut added.root held →
        unsettled (engine.ownWay (engine.deadlineFrom deadline first.world.now) demand.paths
          demand.holdings).1 = [] →
        ((engine.register added).ownWay (engine.deadlineFrom deadline first.world.now) demand.paths
            held).1 = (engine.ownWay (engine.deadlineFrom deadline first.world.now) demand.paths
              demand.holdings).1 ∧
          (engine.ownWay (engine.deadlineFrom deadline first.world.now) demand.paths
            demand.holdings).2.SameBut added.root
              ((engine.register added).ownWay (engine.deadlineFrom deadline first.world.now)
                demand.paths held).2 :=
    fun demand asked held alike all => fetchBatch_register fresh _ _
      (fun path inBatch => unowned path (discovered_of_mem_demands asked all path inBatch)) alike
      all
  rw [course]
  exact drainVia_lockstep (Holdings.SameBut added.root)
    (fun alike early => alike.world ▸ early) _ _ same completes told

theorem resolveWith_register (fresh : added.root ∉ engine.registry.listing)
    {files : Listing String String} {deadline : Option T} {first second : Holdings T}
    {resolution : Resolution}
    (resolved : (engine.resolveWith files deadline first).1 = .ok resolution)
    (unowned : ∀ path ∈ (engine.drainSeeds files deadline first).2.state.discovered,
      added.owns path = false) (same : first.SameBut added.root second) :
    ((engine.register added).resolveWith files deadline second).1 = .ok resolution ∧
      (engine.resolveWith files deadline first).2.SameBut added.root
        ((engine.register added).resolveWith files deadline second).2 := by
  have tracks := drainSeeds_tracks engine files deadline first
  rw [← last_courseVia_ownWay] at tracks unowned
  rw [← resolveVia_ownWay] at resolved ⊢
  rw [← resolveVia_ownWay]
  rcases resolveVia_eq_ok resolved with ⟨allowed, completes, rfl⟩
  rcases courseVia_register fresh completes unowned same with ⟨last, alike, sameExit, sameLast⟩
  have versions := versionsUsed_register fresh
    (fun path isResolved => unowned path (tracks.resolved path isResolved)) alike
  have report := @resolveVia_of_completes T _ (engine.register added) _ files deadline second
    allowed (sameExit ▸ completes)
  rw [resolveVia_of_completes allowed completes, report, sameExit, sameLast]
  exact ⟨by simp only [ofPass, versions], alike⟩

theorem resolve_register (fresh : added.root ∉ engine.registry.listing)
    (searchable : added.Searchable engine.search) {files : Listing String String}
    {deadline : Option T} {cache : ContentCache (FetchError T)} {world : World T}
    {resolution : Resolution}
    (resolved : (engine.resolve files deadline cache world).1 = .ok resolution)
    (unowned : ∀ path ∈ engine.discovered files deadline cache world, added.owns path = false) :
    (engine.register added).resolve files deadline cache world =
      engine.resolve files deadline cache world := by
  rcases exists_detect_of_resolve resolved with ⟨preference, detected, resolvedWith⟩
  rcases Preference.exists_detect_register detected searchable with ⟨other, isOther, elsewhere⟩
  rw [discovered, detected] at unowned
  have isDetected : (engine.register added).detect files = .ok other := isOther
  have same : (⟨cache, preference, world⟩ : Holdings T).SameBut added.root
      ⟨cache, other, world⟩ :=
    ⟨rfl, rfl, fun root apart => (elsewhere root apart).symm⟩
  rcases resolveWith_register fresh resolvedWith unowned same with ⟨outcome, alike⟩
  rw [resolve_of_detect detected, resolve_of_detect isDetected]
  exact Prod.ext (outcome.trans resolvedWith.symm)
    (Prod.ext alike.cache.symm alike.world.symm)

omit [Timescale T] in
theorem make_register {registry : Registry} (populated : registry.libraries ≠ [])
    (added : Library) (search : PatternSearch) (network : Network T) (policy : FetchPolicy T)
    (maxImports iterationFactor maxWorkers : Int) (timeout : Option T) :
    make (registry.register added) search network policy maxImports iterationFactor maxWorkers
        timeout =
      (make registry search network policy maxImports iterationFactor maxWorkers timeout).register
        added := by
  simp only [make, register, Registry.orCatalog_of_populated populated,
    Registry.orCatalog_of_populated (Registry.populated_register registry added)]

/-- A library that is registered besides others, under a root of its own and with patterns that can
be searched for, leaves a resolution that returns a report as it is, provided that it owns none of
the paths that the resolution discovers: the report, the versions in it, the cache, the clock and
all requests are the same. -/
theorem resolve_make_register {registry : Registry} (populated : registry.libraries ≠ [])
    {added : Library} (fresh : added.root ∉ registry.roots) {search : PatternSearch}
    (searchable : added.Searchable search) (network : Network T) (policy : FetchPolicy T)
    (maxImports iterationFactor maxWorkers : Int) (timeout : Option T)
    {files : Listing String String} {deadline : Option T} {cache : ContentCache (FetchError T)}
    {world : World T} {resolution : Resolution}
    (resolved : ((make registry search network policy maxImports iterationFactor maxWorkers
      timeout).resolve files deadline cache world).1 = .ok resolution)
    (unowned : ∀ path ∈ (make registry search network policy maxImports iterationFactor maxWorkers
      timeout).discovered files deadline cache world, added.owns path = false) :
    (make (registry.register added) search network policy maxImports iterationFactor maxWorkers
        timeout).resolve files deadline cache world =
      (make registry search network policy maxImports iterationFactor maxWorkers timeout).resolve
        files deadline cache world := by
  have isFresh : added.root ∉ (make registry search network policy maxImports iterationFactor
      maxWorkers timeout).registry.listing := by
    simp only [make, Registry.orCatalog_of_populated populated]
    exact fresh
  rw [make_register populated]
  exact resolve_register isFresh searchable resolved unowned

def splitPages : Listing String String :=
  .ofList [("https://two/a.sol", "new a"), ("https://one/a.sol", "old a"),
    ("https://one/b.sol", "old b")]

def neighbourLibrary : Library :=
  .ofVersions "@lib-extra" ⟨"9", "https://nine/", none, [], []⟩
    [⟨"8", "https://eight/", none, [], ["\\beigh?th\\b"]⟩] (by decide)

def neighbourFile : Listing String String :=
  .ofList [("m.sol", "import '@lib/b.sol'; import '@lib/a.sol'; // the eighth @lib-extra")]

/-- The further library has its own version chosen, and the other one is switched to its old version
as if it were alone. -/
theorem resolve_beside_neighbour :
    splitSample.registry.libraries ≠ [] ∧ neighbourLibrary.root ∉ splitSample.registry.roots ∧
    neighbourLibrary.Searchable Pattern.search ∧
    ((splitSample.register neighbourLibrary).detect neighbourFile).toOption.map
      (fun preference => preference.get? "@lib-extra") = some (some "8") ∧
    (∃ resolution, (splitSample.resolve neighbourFile none .empty (.startingAt 0)).1 =
        .ok resolution ∧ resolution.versions.get? "@lib" = some "1") ∧
    (∀ path ∈ splitSample.discovered neighbourFile none .empty (.startingAt 0),
      neighbourLibrary.owns path = false) ∧
    (serving (splitSample.registry.register neighbourLibrary) splitPages).resolve neighbourFile none
        .empty (.startingAt 0) =
      splitSample.resolve neighbourFile none .empty (.startingAt 0) := by
  have report : (splitSample.resolve neighbourFile none .empty (.startingAt 0)).1.toOption.map
      (fun resolution => resolution.versions.get? "@lib") = some (some "1") := by
    decide +kernel
  have populated : splitSample.registry.libraries ≠ [] := by decide
  have fresh : neighbourLibrary.root ∉ splitSample.registry.roots := by decide
  have unowned : ∀ path ∈ splitSample.discovered neighbourFile none .empty (.startingAt 0),
      neighbourLibrary.owns path = false := by
    decide +kernel
  have searchable : neighbourLibrary.Searchable Pattern.search :=
    Library.searchable_of_isRead (by decide +kernel)
  rcases exists_of_toOption_map report with ⟨resolution, resolved, version⟩
  exact ⟨populated, fresh, searchable, by decide +kernel, ⟨resolution, resolved, version⟩, unowned,
    resolve_make_register populated fresh searchable (.serving splitPages) ⟨15, 2, 1⟩ 200 2 1 none
      resolved unowned⟩

end Engine

end SourceTree
