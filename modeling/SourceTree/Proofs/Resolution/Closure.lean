import SourceTree.Proofs.Engine.Moves
import SourceTree.Proofs.Network
import SourceTree.Proofs.Resolution.Seeds

/-! # The import closure

A resolution accounts for every import of the user's files and of the files that were fetched, and
for nothing else. A pass keeps track of this move by move: what it discovered is reached, and what
it fetched has been followed. -/

namespace SourceTree

open ImportPath

def DrainExit.Completes {T : Type} : DrainExit T → Prop
  | .finished => True
  | .ceiling _ _ => True
  | .timedOut _ _ => False
  | .broken _ => False

namespace Resolution

/-- The paths that a tree of files leads to: the imports of user files that no local file answers,
and the imports of fetched files among them. -/
inductive Reached (files tree : Listing String String) : String → Prop
  | direct {importer text path : String} (isFile : files.get? importer = some text)
      (imports : path ∈ importPaths text) (foreign : Seeds.Foreign files importer path) :
      Reached files tree path
  | nested {importer text path : String} (reached : Reached files tree importer)
      (isFetched : importer ∉ files) (isSource : tree.get? importer = some text)
      (imports : path ∈ importPaths text) : Reached files tree (meantIn importer path)

theorem Reached.mono {files tree larger : Listing String String} {path : String}
    (reached : Reached files tree path)
    (grows : ∀ importer text, importer ∉ files → tree.get? importer = some text →
      larger.get? importer = some text) : Reached files larger path := by
  induction reached with
  | direct isFile imports foreign => exact .direct isFile imports foreign
  | nested _ isFetched isSource imports induction =>
      exact .nested induction isFetched (grows _ _ isFetched isSource) imports

/-- A resolution accounts for every import of a user file and of a fetched file, and everything
that it fetched or left unresolved is reached. -/
structure IsClosure (files : Listing String String) (resolution : Resolution) : Prop where
  user : ∀ importer text, files.get? importer = some text → ∀ path ∈ importPaths text,
    path ∈ files ∨ dropLeadingSlash path ∈ files ∨
      (isRelative path = true ∧ ImportPath.resolve importer path ∈ files) ∨
        path ∈ resolution.aliases ∨ path ∈ resolution.files ∨ path ∈ resolution.unresolved
  fetched : ∀ importer text, importer ∉ files → resolution.files.get? importer = some text →
    ∀ path ∈ importPaths text, meantIn importer path ∈ resolution.files ∨
      meantIn importer path ∈ resolution.aliases ∨ meantIn importer path ∈ resolution.unresolved
  reached : ∀ path, (path ∈ resolution.files ∧ path ∉ files) ∨ path ∈ resolution.unresolved →
    Reached files resolution.files path

end Resolution

namespace Pass

open Resolution

variable {T : Type} {files : Listing String String}

structure Tracks (files : Listing String String) (pass : Pass T) : Prop where
  queued : ∀ path ∈ pass.queue, path ∈ pass.state.discovered
  started : ∀ path ∈ pass.state.processing,
    path ∈ pass.state.discovered ∧ path ∉ pass.state.resolved
  resolved : ∀ path ∈ pass.state.resolved, path ∈ pass.state.discovered
  fetchedIff : ∀ path, path ∈ pass.fetched ↔ path ∈ pass.state.resolved
  foreign : ∀ path ∈ pass.state.discovered, path ∉ files
  reached : ∀ path ∈ pass.state.discovered, Reached files pass.fetched path
  followed : ∀ importer text, pass.fetched.get? importer = some text →
    ∀ path ∈ importPaths text, meantIn importer path = importer ∨ meantIn importer path ∈ files ∨
      meantIn importer path ∈ pass.state.discovered

theorem Tracks.accept {pass : Pass T} (tracks : Tracks files pass) {path : String} (text : String)
    (started : path ∈ pass.state.processing) : Tracks files (pass.accept files path text) := by
  rcases accept_cases files pass path text with ⟨added, accepted, follows⟩
  rcases tracks.started path started with ⟨known, unresolved⟩
  have unfetched : path ∉ pass.fetched := fun present =>
    unresolved ((tracks.fetchedIff path).1 present)
  have kept : ∀ importer content, importer ∉ files →
      pass.fetched.get? importer = some content →
        (pass.fetched.insert path text).get? importer = some content := by
    intro importer content _ found
    have different : importer ≠ path := fun equal =>
      unfetched (equal ▸ Listing.mem_of_get?_eq_some found)
    rw [Listing.get?_insert_of_ne _ different]
    exact found
  rw [accepted]
  exact {
    queued := by
      intro other inQueue
      rcases List.mem_append.1 inQueue with earlier | isAdded
      · exact List.mem_append_left added (tracks.queued other earlier)
      · exact List.mem_append_right _ isAdded
    started := by
      intro other inFlight
      rcases (ResolutionState.mem_remove _ _ _).1 inFlight with ⟨wasStarted, different⟩
      rcases tracks.started other wasStarted with ⟨otherKnown, otherUnresolved⟩
      refine ⟨List.mem_append_left added otherKnown, fun isResolved => ?_⟩
      exact ((ResolutionState.mem_appendNew _ _ _).1 isResolved).elim otherUnresolved different
    resolved := by
      intro other isResolved
      rcases (ResolutionState.mem_appendNew _ _ _).1 isResolved with earlier | equal
      · exact List.mem_append_left added (tracks.resolved other earlier)
      · subst equal
        exact List.mem_append_left added known
    fetchedIff := by
      intro other
      simp only [enqueue, receive, ResolutionState.resolve, Listing.mem_insert,
        ResolutionState.mem_appendNew, tracks.fetchedIff other, or_comm]
    foreign := by
      intro other seen
      rcases List.mem_append.1 seen with earlier | isAdded
      · exact tracks.foreign other earlier
      · exact (follows.fresh other isAdded).2.1
    reached := by
      intro other seen
      rcases List.mem_append.1 seen with earlier | isAdded
      · exact (tracks.reached other earlier).mono kept
      · rcases (follows.fresh other isAdded).2.2 with ⟨nested, imports, rfl⟩
        exact .nested ((tracks.reached path known).mono kept) (tracks.foreign path known)
          (Listing.get?_insert_self _ path text) imports
    followed := by
      intro importer content found nested imports
      by_cases same : importer = path
      · -- The imports of the accepted text are those that were just followed.
        subst same
        obtain rfl := Option.some.inj ((Listing.get?_insert_self _ importer text).symm.trans found)
        exact follows.complete nested imports
      · rw [enqueue, receive, Listing.get?_insert_of_ne _ same] at found
        exact (tracks.followed importer content found nested imports).imp_right fun rest =>
          rest.imp_right (List.mem_append_left added) }

variable [Timescale T] {engine : Engine T} {deadline : Option T}

theorem Tracks.move {before after : Pass T} (tracks : Tracks files before)
    (move : Move engine deadline files before after) : Tracks files after := by
  cases move with
  | skip next done =>
      exact { tracks with
        queued := fun path inQueue => tracks.queued path (next ▸ List.mem_cons_of_mem _ inQueue) }
  | @start path queue next pending =>
      have known : path ∈ before.state.discovered := tracks.queued path (next ▸ List.mem_cons_self)
      have unresolved := ((before.state.not_isDone_iff path).1 pending).2.1
      rw [ResolutionState.start_eq known pending]
      exact { tracks with
        queued := fun other inQueue =>
          tracks.queued other (next ▸ List.mem_cons_of_mem path inQueue)
        started := by
          intro other inFlight
          rcases List.mem_append.1 inFlight with earlier | isStarted
          · exact tracks.started other earlier
          · rw [List.mem_singleton.1 isStarted]
            exact ⟨known, unresolved⟩ }
  | fetch _ => exact { tracks with }
  | accept text started => exact tracks.accept text started
  | fail fault started =>
      exact { tracks with
        started := fun path inFlight =>
          tracks.started path ((ResolutionState.mem_remove _ _ _).1 inFlight).1 }
  | finish path =>
      exact { tracks with
        started := fun other inFlight =>
          tracks.started other ((ResolutionState.mem_remove _ _ _).1 inFlight).1 }

theorem Move.aliases_eq {before after : Pass T} (move : Move engine deadline files before after) :
    after.state.aliases = before.state.aliases := by
  cases move with
  | @accept path text started => exact aliases_accept files before path text
  | skip _ _ => rfl
  | start _ _ => rfl
  | fetch _ => rfl
  | fail _ _ => rfl
  | finish _ => rfl

theorem Move.discovered_subset {before after : Pass T}
    (move : Move engine deadline files before after) {path : String}
    (known : path ∈ before.state.discovered) : path ∈ after.state.discovered := by
  cases move with
  | @accept other text started =>
      rcases accept_cases files before other text with ⟨added, accepted, _⟩
      rw [accepted]
      exact List.mem_append_left added known
  | start _ _ => exact (ResolutionState.mem_appendNew _ _ _).2 (Or.inl known)
  | skip _ _ => exact known
  | fetch _ => exact known
  | fail _ _ => exact known
  | finish _ => exact known

end Pass

namespace Resolution

variable {T : Type} [Timescale T] {files : Listing String String}

theorem get?_files_ofPass (registry : Registry) (files : Listing String String)
    (ambiguous : Listing String (List String)) (exit : DrainExit T) (pass : Pass T)
    (path : String) :
    (ofPass registry files ambiguous exit pass).files.get? path =
      (files.get? path).or (pass.fetched.get? path) :=
  Listing.get?_merge pass.fetched files path

theorem isClosure_ofPass {pass : Pass T} (tracks : Pass.Tracks files pass)
    (aliases : pass.state.aliases = (Seeds.ofFiles files).locals.aliases)
    (seeded : ∀ path ∈ (Seeds.ofFiles files).discovered, path ∈ pass.state.discovered)
    (registry : Registry) (ambiguous : Listing String (List String)) (exit : DrainExit T) :
    IsClosure files (ofPass registry files ambiguous exit pass) := by
  have accounted : ∀ path ∈ pass.state.discovered,
      path ∈ (ofPass registry files ambiguous exit pass).files ∨ path ∈ pass.state.aliases ∨
        path ∈ pass.state.unresolved := by
    intro path known
    by_cases isResolved : path ∈ pass.state.resolved
    · exact Or.inl ((Listing.mem_merge _ _ _).2
        (Or.inl ((tracks.fetchedIff path).2 isResolved)))
    · by_cases isMapped : path ∈ pass.state.aliases
      · exact Or.inr (Or.inl isMapped)
      · exact Or.inr (Or.inr ((ResolutionState.mem_unresolved _ _).2
          ⟨known, isResolved, isMapped⟩))
  have foreignText : ∀ importer, importer ∉ files →
      (ofPass registry files ambiguous exit pass).files.get? importer =
        pass.fetched.get? importer := by
    intro importer isFetched
    rw [get?_files_ofPass, (Listing.get?_eq_none_iff files importer).2 isFetched, Option.none_or]
  exact {
    user := by
      intro importer text isFile path imports
      have provided := Seeds.provided_ofFiles (Seeds.mem_asked.2 ⟨text, isFile, imports⟩)
      unfold Seeds.Provided at provided
      rw [(Seeds.consistent_ofFiles files).sameFiles, ← aliases] at provided
      refine provided.imp_right fun rest => rest.imp_right fun rest => rest.imp_right fun rest => ?_
      rcases rest with isMapped | seen
      · exact Or.inl isMapped
      · rcases accounted path (seeded path seen) with inFiles | isMapped | isUnresolved
        · exact Or.inr (Or.inl inFiles)
        · exact Or.inl isMapped
        · exact Or.inr (Or.inr isUnresolved)
    fetched := by
      intro importer text isFetched isSource path imports
      rw [foreignText importer isFetched] at isSource
      rcases tracks.followed importer text isSource path imports with same | isFile | known
      · rw [same]
        exact Or.inl ((Listing.mem_merge _ _ _).2 (Or.inl (Listing.mem_of_get?_eq_some isSource)))
      · exact Or.inl ((Listing.mem_merge _ _ _).2 (Or.inr isFile))
      · exact accounted _ known
    reached := by
      intro path accountedFor
      have known : path ∈ pass.state.discovered := by
        rcases accountedFor with ⟨inFiles, notUser⟩ | isUnresolved
        · rcases (Listing.mem_merge _ _ _).1 inFiles with isFetched | isFile
          · exact tracks.resolved path ((tracks.fetchedIff path).1 isFetched)
          · exact absurd isFile notUser
        · exact ((ResolutionState.mem_unresolved _ _).1 isUnresolved).1
      refine (tracks.reached path known).mono fun importer text isFetched isSource => ?_
      rw [foreignText importer isFetched]
      exact isSource }

end Resolution

namespace Engine

open Pass Resolution

variable {T : Type} [Timescale T] {files : Listing String String}

omit [Timescale T] in
theorem openPass_tracks (files : Listing String String) (holdings : Holdings T) :
    Tracks files (openPass (Seeds.ofFiles files) holdings) where
  queued := fun _ inQueue => inQueue
  started := fun _ inFlight => absurd inFlight List.not_mem_nil
  resolved := fun _ isResolved => absurd isResolved List.not_mem_nil
  fetchedIff := fun path => iff_of_false (Listing.not_mem_empty path) List.not_mem_nil
  foreign := by
    intro path seen
    rcases (Seeds.consistent_ofFiles files).foreign path seen with ⟨importer, _, isForeign⟩
    exact ((LocalFiles.resolve_fst_eq_none_iff _ _ _).1 isForeign).1
  reached := by
    intro path seen
    rcases (Seeds.consistent_ofFiles files).foreign path seen with ⟨importer, isAsked, isForeign⟩
    rcases Seeds.mem_asked.1 isAsked with ⟨text, isFile, imports⟩
    exact .direct isFile imports isForeign
  followed := fun _ _ found => by cases found

def drainSeeds (engine : Engine T) (files : Listing String String) (deadline : Option T)
    (holdings : Holdings T) : DrainExit T × Pass T :=
  engine.drain (1 < engine.maxWorkers) files (engine.deadlineFrom deadline holdings.world.now)
    (openPass (Seeds.ofFiles files) holdings)

theorem resolveWith_eq_ok_iff {engine : Engine T} {deadline : Option T} {holdings : Holdings T}
    {resolution : Resolution} :
    (engine.resolveWith files deadline holdings).1 = .ok resolution ↔
      ¬engine.maxImports < (Seeds.ofFiles files).discovered.length ∧
        (engine.drainSeeds files deadline holdings).1.Completes ∧
        resolution = ofPass engine.registry files (Seeds.ofFiles files).locals.ambiguous
          (engine.drainSeeds files deadline holdings).1
          (engine.drainSeeds files deadline holdings).2 := by
  unfold resolveWith drainSeeds
  simp only
  split
  next tooMany => simp [tooMany]
  next allowed =>
    generalize engine.drain _ files _ _ = result
    rcases result with ⟨exit, pass⟩
    cases exit <;> simp [allowed, DrainExit.Completes, eq_comm]

theorem resolve_of_detect {engine : Engine T} {preference : Preference}
    (detected : engine.detect files = .ok preference) (deadline : Option T)
    (cache : ContentCache (FetchError T)) (world : World T) :
    engine.resolve files deadline cache world =
      ((engine.resolveWith files deadline ⟨cache, preference, world⟩).1,
        (engine.resolveWith files deadline ⟨cache, preference, world⟩).2.cache,
        (engine.resolveWith files deadline ⟨cache, preference, world⟩).2.world) := by
  rw [resolve, detected]

theorem exists_detect_of_resolve {engine : Engine T} {deadline : Option T}
    {cache : ContentCache (FetchError T)} {world : World T} {resolution : Resolution}
    (resolved : (engine.resolve files deadline cache world).1 = .ok resolution) :
    ∃ preference, engine.detect files = .ok preference ∧
      (engine.resolveWith files deadline ⟨cache, preference, world⟩).1 = .ok resolution := by
  cases detected : engine.detect files with
  | error fault =>
      rw [resolve, detected] at resolved
      cases resolved
  | ok preference =>
      rw [resolve_of_detect detected] at resolved
      exact ⟨preference, rfl, resolved⟩

theorem resolve_eq_error {engine : Engine T} {deadline : Option T}
    {cache : ContentCache (FetchError T)} {world : World T} {fault : Fault T}
    (failed : (engine.resolve files deadline cache world).1 = .error fault) :
    (∃ cause, fault = .unexpected cause) ∨
      (∃ actual, fault = .known (.inputTooLarge .imports engine.maxImports actual)) ∨
      ∃ after unresolved, fault = .known (.resolutionTimeout after unresolved) := by
  cases detected : engine.detect files with
  | error cause =>
      rw [resolve, detected] at failed
      cases failed
      exact .inl ⟨cause, rfl⟩
  | ok preference =>
      rw [resolve_of_detect detected, resolveWith] at failed
      simp only at failed
      split at failed
      · cases failed
        exact .inr (.inl ⟨_, rfl⟩)
      · generalize engine.drain _ files _ _ = result at failed
        rcases result with ⟨exit, pass⟩
        cases exit with
        | finished => cases failed
        | ceiling limit remaining => cases failed
        | timedOut after unresolved =>
            cases failed
            exact .inr (.inr ⟨after, unresolved, rfl⟩)
        | broken cause =>
            cases failed
            exact .inl ⟨cause, rfl⟩

/-- A resolution is the report of a pass that moved on from the seeds of the files. -/
theorem pass_of_resolveWith {engine : Engine T} {deadline : Option T} {holdings : Holdings T}
    {resolution : Resolution}
    (resolved : (engine.resolveWith files deadline holdings).1 = .ok resolution) :
    ∃ (exit : DrainExit T) (pass : Pass T), Tracks files pass ∧
      pass.state.aliases = (Seeds.ofFiles files).locals.aliases ∧
      (∀ path ∈ (Seeds.ofFiles files).discovered, path ∈ pass.state.discovered) ∧
      resolution =
        ofPass engine.registry files (Seeds.ofFiles files).locals.ambiguous exit pass := by
  have moves := drain_moves engine (1 < engine.maxWorkers) files
    (engine.deadlineFrom deadline holdings.world.now) (openPass (Seeds.ofFiles files) holdings)
  have kept := moves.preserves (motive := fun pass => Tracks files pass ∧
      pass.state.aliases = (Seeds.ofFiles files).locals.aliases ∧
      ∀ path ∈ (Seeds.ofFiles files).discovered, path ∈ pass.state.discovered) ?_
    ⟨openPass_tracks files holdings, rfl, fun _ seen => seen⟩
  · exact ⟨_, _, kept.1, kept.2.1, kept.2.2, (resolveWith_eq_ok_iff.1 resolved).2.2⟩
  · rintro before after ⟨tracks, aliases, seeded⟩ move
    exact ⟨tracks.move move, move.aliases_eq.trans aliases,
      fun path seen => move.discovered_subset (seeded path seen)⟩

/-- Whatever an engine, its cache, its network and the preferred versions are, a resolution that
it returns is the import closure of the files. -/
theorem resolveWith_isClosure {engine : Engine T} {files : Listing String String}
    {deadline : Option T} {holdings : Holdings T} {resolution : Resolution}
    (resolved : (engine.resolveWith files deadline holdings).1 = .ok resolution) :
    IsClosure files resolution := by
  rcases pass_of_resolveWith resolved with ⟨exit, pass, tracks, aliases, seeded, rfl⟩
  exact isClosure_ofPass tracks aliases seeded engine.registry _ exit

def librarySample : Engine Rat :=
  .serving
    (.ofLibraries [.ofVersions "@lib" ⟨"1", "https://lib/", none, [], []⟩ [] (by decide)])
    (.ofList [("https://lib/a.sol", "import './b.sol';"), ("https://lib/b.sol", "")])

theorem isClosure_of_library_import :
    ∃ resolution : Resolution,
      (librarySample.resolveWith
        (.ofList [("m.sol", "import '@lib/a.sol'; import './gone.sol';")]) none
        ⟨.empty, .empty, .startingAt 0⟩).1 = .ok resolution ∧
      resolution.files.keys = ["@lib/a.sol", "@lib/b.sol", "m.sol"] ∧
      resolution.unresolved = ["./gone.sol"] ∧
      IsClosure (.ofList [("m.sol", "import '@lib/a.sol'; import './gone.sol';")]) resolution := by
  have report : ((librarySample.resolveWith
        (.ofList [("m.sol", "import '@lib/a.sol'; import './gone.sol';")]) none
        ⟨.empty, .empty, .startingAt 0⟩).1.toOption.map fun resolution =>
          (resolution.files.keys, resolution.unresolved)) =
      some (["@lib/a.sol", "@lib/b.sol", "m.sol"], ["./gone.sol"]) := by
    decide +kernel
  rcases exists_of_toOption_map report with ⟨resolution, resolved, parts⟩
  simp only [Prod.mk.injEq] at parts
  exact ⟨resolution, resolved, parts.1, parts.2, resolveWith_isClosure resolved⟩

end Engine

end SourceTree
