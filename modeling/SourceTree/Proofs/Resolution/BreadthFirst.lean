import SourceTree.Proofs.Engine.Calls
import SourceTree.Proofs.Engine.Turns
import SourceTree.Proofs.Resolution.Layers

/-! # Breadth first

A pass takes paths in the order in which they were discovered, and each file that it fetches brings
its imports to light before any path that is taken later does. So paths are asked for in the order
of their distances from the user's files, whatever fails, is mapped to a local file or is known
already on the way, and what is left when the pass stops is no nearer than what was asked for. -/

namespace SourceTree

open Resolution

namespace Pass

variable {T : Type} {files : Listing String String}

/-- A pass that asked for paths in the order of their discovery and has taken others to ask for. -/
structure InOrder (files : Listing String String) (asked taken : List String) (pass : Pass T) :
    Prop where
  discovered : pass.state.discovered = discoveredFrom files (offers files pass.fetched.entries)
  turn : InTurn files pass.fetched.entries
  queue : (asked ++ (taken ++ pass.queue)).Sublist pass.state.discovered
  fetched : pass.fetched.keys.Sublist asked

theorem inOrder_openPass (files : Listing String String) (holdings : Holdings T) :
    InOrder files [] [] (Engine.openPass (Seeds.ofFiles files) holdings) where
  discovered := discovered_ofFiles files
  turn := .nothing
  queue := List.Sublist.refl _
  fetched := List.Sublist.refl _

theorem InOrder.queued {asked taken : List String} {pass : Pass T}
    (inOrder : InOrder files asked taken pass) :
    ∀ path ∈ pass.queue, path ∈ pass.state.discovered := fun _ waits =>
  inOrder.queue.subset (List.mem_append_right _ (List.mem_append_right _ waits))

theorem InOrder.accept {asked taken : List String} {pass : Pass T} {path : String}
    (inOrder : InOrder files asked (path :: taken) pass) (text : String) :
    InOrder files (asked ++ [path]) taken (pass.accept files path text) := by
  rcases inOrder with ⟨discovered, turn, queue, fetched⟩
  have known : path ∈ pass.state.discovered :=
    queue.subset (List.mem_append_right _ List.mem_cons_self)
  have unfetched : path ∉ pass.fetched := by
    intro isFetched
    have distinct : pass.state.discovered.Nodup := discovered ▸ nodup_discoveredFrom files _
    exact (List.nodup_append.1 (queue.nodup distinct)).2.2 path
      (fetched.subset (Listing.mem_iff.1 isFetched)) path List.mem_cons_self rfl
  have entries : (pass.fetched.insert path text).entries = pass.fetched.entries ++ [(path, text)] :=
    Listing.entries_insert_of_not_mem unfetched text
  have before : (pass.fetched.entries.map Prod.fst ++ [path]).Sublist pass.state.discovered :=
    (fetched.append (List.singleton_sublist.2 List.mem_cons_self)).trans queue
  rw [accept_eq, discoveries_eq_fresh _ known]
  -- The file offers its imports last, so what is fresh among them is discovered last.
  exact {
    discovered := by
      change pass.state.discovered ++ _ = discoveredFrom files
        (offers files (pass.fetched.insert path text).entries)
      rw [entries, offers_concat, discoveredFrom_concat, ← discovered]
      rfl
    turn := by
      change InTurn files (pass.fetched.insert path text).entries
      rw [entries]
      exact .next text turn (discovered ▸ before)
    queue := by
      change ((asked ++ [path]) ++ (taken ++ (pass.queue ++ _))).Sublist
        (pass.state.discovered ++ _)
      have longer := queue.append (List.Sublist.refl
        (fresh files pass.state.discovered ((importPaths text).map (ImportPath.meantIn path))))
      simpa only [List.append_assoc, List.cons_append, List.nil_append] using longer
    fetched := by
      change (pass.fetched.insert path text).keys.Sublist (asked ++ [path])
      rw [Listing.keys, entries, List.map_append]
      exact fetched.append (List.Sublist.refl [path]) }

theorem InOrder.fail {asked taken : List String} {pass : Pass T} {path : String}
    (inOrder : InOrder files asked (path :: taken) pass) (fault : Fault T) :
    InOrder files (asked ++ [path]) taken { pass with state := pass.state.fail path fault } where
  discovered := inOrder.discovered
  turn := inOrder.turn
  queue := by
    have queue := inOrder.queue
    rw [List.append_assoc]
    exact queue
  fetched := inOrder.fetched.trans (List.sublist_append_left asked [path])

theorem InOrder.settleAll {asked : List String} {outcomes : List (String × ImportOutcome T)}
    {pass : Pass T} (all : Engine.unsettled outcomes = [])
    (inOrder : InOrder files asked (outcomes.map Prod.fst) pass) :
    InOrder files (asked ++ outcomes.map Prod.fst) [] (Engine.settleAll files outcomes pass).2 := by
  induction outcomes generalizing asked pass with
  | nil =>
      rw [List.map_nil, List.append_nil]
      exact inOrder
  | cons entry rest induction =>
      rcases entry with ⟨path, outcome⟩
      rw [List.map_cons, List.append_cons]
      cases outcome with
      | content text => exact induction all (inOrder.accept text)
      | failed failure => exact induction all (inOrder.fail (.known failure))
      | interrupted interruption => cases all

end Pass

namespace Engine

open Pass

variable {T : Type} [Timescale T] {engine : Engine T} {files : Listing String String}

theorem inOrder_round (engine : Engine T) (pooled : Bool) (deadline : Option T) (budget : Nat)
    {asked : List String} {pass : Pass T} (inOrder : InOrder files asked [] pass)
    (all : unsettled (engine.round pooled files deadline budget pass).outcomes = []) :
    InOrder files
      (asked ++ (engine.round pooled files deadline budget pass).outcomes.map Prod.fst) []
      (engine.round pooled files deadline budget pass).pass := by
  have told : (engine.round pooled files deadline budget pass).outcomes =
      (engine.fetchBatch pooled deadline
        (Batch.take engine.maxWorkers budget pass.state pass.queue).paths pass.holdings).1 := rfl
  rw [round_pass_eq engine pooled files deadline budget inOrder.queued]
  rw [told] at all ⊢
  have complete := fetchBatch_complete engine pooled deadline all
  rcases Batch.take_accounts engine.maxWorkers budget pass.state pass.queue with
    ⟨taken, isQueue, _, among⟩
  have queue := inOrder.queue
  rw [List.nil_append, isQueue] at queue
  refine InOrder.settleAll all ⟨inOrder.discovered, inOrder.turn, ?_, inOrder.fetched⟩
  rw [complete]
  exact ((List.Sublist.refl asked).append (among.append (List.Sublist.refl _))).trans queue

theorem inOrder_drainLogged (engine : Engine T) (pooled : Bool) (deadline : Option T)
    (rounds budget : Nat) {asked : List String} {pass : Pass T}
    (inOrder : InOrder files asked [] pass)
    (all : unsettled (engine.drainLogged pooled files deadline rounds budget pass).outcomes = []) :
    InOrder files
      (asked ++
        (engine.drainLogged pooled files deadline rounds budget pass).outcomes.map Prod.fst) []
      (engine.drainLogged pooled files deadline rounds budget pass).last := by
  induction rounds generalizing budget asked pass with
  | zero =>
      simp only [drainLogged, List.map_nil, List.append_nil]
      exact inOrder
  | succ rounds induction =>
      by_cases stops : pass.queue = [] ∨ budget = 0
      · rw [drainLogged_stop engine pooled files deadline (rounds + 1) stops, List.map_nil,
          List.append_nil]
        exact inOrder
      · rcases drainLogged_succ_cases engine pooled files deadline rounds stops with
          ⟨_, late⟩ | ⟨_, ⟨settles, goesOn⟩ | ⟨breaks, cause, interrupted⟩⟩
        · rw [late, List.map_nil, List.append_nil]
          exact inOrder
        · rw [goesOn] at all ⊢
          have next := inOrder_round engine pooled deadline budget inOrder settles
          rw [Drain.after, unsettled_append settles] at all
          rw [Drain.after, List.map_append, ← List.append_assoc]
          exact induction _ next all
        · rw [interrupted] at all
          exact absurd all breaks

end Engine

namespace Resolution

/-- Whether a resolution is breadth first: the paths that it asked for and the files that it
fetched stand in the order of their distances from the user's files and, at one distance, in the
order of their first offers; and everything that it left without asking for it comes after what it
asked for. -/
structure BreadthFirst (files : Listing String String) (asked : List String)
    (resolution : Resolution) : Prop where
  distances : ∀ path, path ∈ asked ∨ path ∈ resolution.unresolved →
    ∃ distance, IsDistance files (resolution.fetchedFrom files) distance path
  attempts : asked.Pairwise (Precedes files (resolution.fetchedFrom files))
  fetches : ((resolution.fetchedFrom files).map Prod.fst).Pairwise
    (Precedes files (resolution.fetchedFrom files))
  left : ∀ path ∈ asked, ∀ other ∈ resolution.unresolved, other ∉ asked →
    Precedes files (resolution.fetchedFrom files) path other

/-- A pass that asked for paths in the order of their discovery, and that still has in its queue
what it never asked for, is breadth first. -/
theorem breadthFirst_ofPass {T : Type} [Timescale T] {files : Listing String String}
    {asked : List String} {pass : Pass T} (inOrder : pass.InOrder files asked [])
    (tracks : pass.Tracks files) (registry : Registry) (ambiguous : Listing String (List String))
    (exit : DrainExit T)
    (waits : ∀ path ∈ pass.state.unresolved, path ∉ asked → path ∈ pass.queue) :
    (ofPass registry files ambiguous exit pass).BreadthFirst files asked := by
  have precedes := inOrder.turn.pairwise_precedes
  have distance := fun path => @InTurn.exists_isDistance files _ inOrder.turn path
  rw [← inOrder.discovered] at precedes distance
  have queue := inOrder.queue
  rw [List.nil_append] at queue
  have asks := (List.sublist_append_left asked pass.queue).trans queue
  constructor <;> rw [fetchedFrom_ofPass tracks]
  · rintro path (isAsked | unresolved)
    · exact distance path (asks.subset isAsked)
    · exact distance path ((ResolutionState.mem_unresolved _ _).1 unresolved).1
  · exact precedes.sublist asks
  · exact precedes.sublist (inOrder.fetched.trans asks)
  · intro path isAsked other unresolved unasked
    exact (List.pairwise_append.1 (precedes.sublist queue)).2.2 path isAsked other
      (waits other unresolved unasked)

end Resolution

namespace Engine

open Pass

variable {T : Type} [Timescale T] {engine : Engine T} {files : Listing String String}

/-- Whatever the files, the preference, the deadline, the cache and the network are, a resolution
that returns a report is breadth first. -/
theorem resolveWith_breadthFirst {preference : Option Preference} {deadline : Option T}
    {cache : ContentCache (FetchError T)} {world : World T} {holdings : Holdings T}
    (starts : engine.holdingsFor files preference cache world = .ok holdings)
    {resolution : Resolution}
    (resolved : (engine.resolveWith files deadline holdings).1 = .ok resolution) :
    resolution.BreadthFirst files
      ((engine.visitsOf (.resolve files preference deadline) cache world).map Visit.path) := by
  rcases resolveWith_eq_ok_iff.1 resolved with ⟨allowed, completes, rfl⟩
  rcases drained_drainSeeds completes with ⟨books, _⟩
  have tracks := drainSeeds_tracks engine files deadline holdings
  have accounted := drainSeedsLog_accounted engine files deadline holdings
  have asked : (engine.visitsOf (.resolve files preference deadline) cache world).map Visit.path =
      (engine.drainSeedsLog files deadline holdings).outcomes.map Prod.fst := by
    simp only [visitsOf, starts]
    rw [← outcomes_visitsWith engine allowed, List.map_map]
    rfl
  rw [asked]
  rw [← drainSeedsLog_eq] at completes books tracks ⊢
  have all := (accounted.ends.closing_of_completes completes).1
  have inOrder := inOrder_drainLogged engine (1 < engine.maxWorkers)
    (engine.deadlineFrom deadline holdings.world.now) engine.maxIterations.toNat
    engine.maxIterations.toNat (inOrder_openPass files holdings) all
  rw [List.nil_append] at inOrder
  refine breadthFirst_ofPass inOrder tracks _ _ _ fun path unresolved unasked => ?_
  -- What failed was asked for, so what was not waits in the queue.
  have unfailed : path ∉ (engine.drainSeedsLog files deadline holdings).last.state.failed := by
    intro hasFailed
    rcases (accounted.advances.settles.failed path).1 hasFailed with earlier | isFailure
    · exact Listing.not_mem_empty path earlier
    · rw [settled_eq_self all] at isFailure
      rcases mem_failures_iff.1 isFailure with ⟨failure, made⟩
      exact unasked (List.mem_map_of_mem made)
  exact (Pass.mem_waiting.1 ((books.mem_waiting_iff path).2 ⟨unresolved, unfailed⟩)).1

theorem breadthFirst_of_ceiling :
    ∃ resolution : Resolution,
      shortSample.holdingsFor mixedFiles (some .empty) .empty (.startingAt 0) =
        .ok ⟨.empty, .empty, .startingAt 0⟩ ∧
      (shortSample.resolveWith mixedFiles none ⟨.empty, .empty, .startingAt 0⟩).1 =
        .ok resolution ∧
      resolution.unresolved = ["./gone.sol", "@lib/c.sol"] ∧
      (shortSample.visitsOf (.resolve mixedFiles (some .empty) none) .empty
        (.startingAt 0)).map Visit.path = ["@lib/a.sol", "./gone.sol", "@lib/b.sol"] ∧
      resolution.BreadthFirst mixedFiles ["@lib/a.sol", "./gone.sol", "@lib/b.sol"] := by
  have report : (shortSample.resolveWith mixedFiles none
      ⟨.empty, .empty, .startingAt 0⟩).1.toOption.map Resolution.unresolved =
      some ["./gone.sol", "@lib/c.sol"] := by
    decide +kernel
  have starts : shortSample.holdingsFor mixedFiles (some .empty) .empty (.startingAt 0) =
      .ok ⟨.empty, .empty, .startingAt 0⟩ := rfl
  have asked : (shortSample.visitsOf (.resolve mixedFiles (some .empty) none) .empty
      (.startingAt 0)).map Visit.path = ["@lib/a.sol", "./gone.sol", "@lib/b.sol"] := by
    decide +kernel
  rcases exists_of_toOption_map report with ⟨resolution, resolved, unresolved⟩
  have breadthFirst := resolveWith_breadthFirst starts resolved
  rw [asked] at breadthFirst
  exact ⟨resolution, starts, resolved, unresolved, asked, breadthFirst⟩

end Engine

end SourceTree
