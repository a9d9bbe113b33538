import SourceTree.Proofs.Engine.Draining
import SourceTree.Proofs.Resolution.Closure

/-! # The books of a drain

Whichever way a drain ends, its books are in order: what it fetched is what it resolved, nothing is
marked as in flight that was not before, and no path was asked for twice. A drain that runs out of
time names the paths that have neither content nor a local file. -/

namespace SourceTree

namespace ResolutionState

variable {T : Type}

structure Sound (state : ResolutionState T) : Prop where
  processingDiscovered : ∀ path ∈ state.processing, path ∈ state.discovered
  resolvedDiscovered : ∀ path ∈ state.resolved, path ∈ state.discovered
  processingUnresolved : ∀ path ∈ state.processing, path ∉ state.resolved
  resolvedUnfailed : ∀ path ∈ state.resolved, path ∉ state.failed

end ResolutionState

open Engine

variable {T : Type}

theorem Pass.Advances.sound {before after : Pass T} {outcomes : List (String × ImportOutcome T)}
    (advances : Pass.Advances before outcomes after) (sound : before.state.Sound) :
    after.state.Sound := by
  have names := (settled_sublist outcomes).map Prod.fst
  have asked : ∀ {path}, path ∈ (texts (settled outcomes)).map Prod.fst →
      path ∈ outcomes.map Prod.fst := fun isText =>
    names.subset (mem_map_settled_iff.2 (Or.inl isText))
  exact {
    processingDiscovered := by
      intro path inFlight
      rw [advances.processing] at inFlight
      exact advances.settles.discovered.subset (sound.processingDiscovered path inFlight)
    resolvedDiscovered := by
      intro path isResolved
      rw [advances.settles.resolved, List.mem_append] at isResolved
      rcases isResolved with earlier | isText
      · exact advances.settles.discovered.subset (sound.resolvedDiscovered path earlier)
      · exact advances.known path (asked isText)
    processingUnresolved := by
      intro path inFlight isResolved
      rw [advances.processing] at inFlight
      rw [advances.settles.resolved, List.mem_append] at isResolved
      rcases isResolved with earlier | isText
      · exact sound.processingUnresolved path inFlight earlier
      · exact ((ResolutionState.not_isDone_iff _ _).1
          (advances.pending path (asked isText))).1 inFlight
    resolvedUnfailed := by
      intro path isResolved hasFailed
      rw [advances.settles.resolved, List.mem_append] at isResolved
      -- Either may have been so before; what is asked for now was neither.
      rcases isResolved with earlier | isText <;>
        rcases (advances.settles.failed path).1 hasFailed with failedEarlier | isFailure
      · exact sound.resolvedUnfailed path earlier failedEarlier
      · have pending := advances.pending path
          (names.subset (mem_map_settled_iff.2 (Or.inr isFailure)))
        exact ((ResolutionState.not_isDone_iff _ _).1 pending).2.1 earlier
      · exact ((ResolutionState.not_isDone_iff _ _).1
          (advances.pending path (asked isText))).2.2.1 failedEarlier
      · exact not_mem_failures_of_mem_texts (names.nodup advances.distinct) isText isFailure }

theorem Pass.Advances.fresh {before after : Pass T} {outcomes : List (String × ImportOutcome T)}
    (advances : Pass.Advances before outcomes after) :
    ∀ path ∈ (texts (settled outcomes)).map Prod.fst, path ∉ before.state.resolved := by
  intro path isText
  have asked := ((settled_sublist outcomes).map Prod.fst).subset
    (mem_map_settled_iff.2 (Or.inl isText))
  exact ((ResolutionState.not_isDone_iff _ _).1 (advances.pending path asked)).2.1

theorem Pass.Advances.unsettled_unresolved {before after : Pass T}
    {outcomes : List (String × ImportOutcome T)} (advances : Pass.Advances before outcomes after)
    {path : String} (unfinished : path ∈ (unsettled outcomes).map Prod.fst) :
    path ∈ after.state.unresolved := by
  have asked := ((unsettled_sublist outcomes).map Prod.fst).subset unfinished
  have pending := (ResolutionState.not_isDone_iff _ _).1 (advances.pending path asked)
  refine (ResolutionState.mem_unresolved _ _).2 ⟨advances.known path asked, ?_, ?_⟩
  · rw [advances.settles.resolved, List.mem_append]
    rintro (earlier | isText)
    · exact pending.2.1 earlier
    · -- A path stands once among the outcomes, so it is not settled and unsettled.
      have distinct := advances.distinct
      rw [← settled_append_unsettled outcomes, List.map_append, List.nodup_append] at distinct
      exact distinct.2.2 path (mem_map_settled_iff.2 (Or.inl isText)) path unfinished rfl
  · rw [advances.settles.aliases]
    exact pending.2.2.2

namespace Engine

/-- Whether the books of a drain are in order. -/
structure Drain.KeepsBooks (first : Pass T) (drain : Drain T) : Prop where
  sound : drain.last.state.Sound
  processing : drain.last.state.processing = first.state.processing
  fetched : drain.last.fetched = first.fetched.insertAll (texts (settled drain.outcomes))
  resolved : drain.last.state.resolved =
    first.state.resolved ++ (texts (settled drain.outcomes)).map Prod.fst
  fresh : ∀ path ∈ (texts (settled drain.outcomes)).map Prod.fst, path ∉ first.state.resolved
  once : (drain.outcomes.map Prod.fst).Nodup
  timedOut : ∀ after unresolved, drain.exit = .timedOut after unresolved →
    unresolved = (drain.last.state.discovered.filter fun path =>
        path ∉ drain.last.state.resolved ∧ path ∉ drain.last.state.aliases) ∧
      ∀ path ∈ (unsettled drain.outcomes).map Prod.fst, path ∈ unresolved

variable [Timescale T]

theorem Ends.timedOut {engine : Engine T} {deadline : Option T}
    {outcomes : List (String × ImportOutcome T)} {last : Pass T} {after : T}
    {unresolved : List String}
    (ends : Ends engine deadline outcomes last (.timedOut after unresolved)) :
    unresolved = last.state.unresolved := by
  generalize way : DrainExit.timedOut after unresolved = exit at ends
  cases ends with
  | closed all =>
      simp only [closing] at way
      split at way <;> cases way
  | late all reached =>
      cases way
      rfl
  | @interrupted path cause rest first =>
      cases cause <;> cases way
      rfl

theorem Drain.Accounted.keepsBooks {engine : Engine T} {deadline : Option T} {first : Pass T}
    {drain : Drain T} (accounted : drain.Accounted engine deadline first)
    (sound : first.state.Sound) : drain.KeepsBooks first where
  sound := accounted.advances.sound sound
  processing := accounted.advances.processing
  fetched := accounted.advances.settles.fetched
  resolved := accounted.advances.settles.resolved
  fresh := accounted.advances.fresh
  once := accounted.advances.distinct
  timedOut := by
    intro after unresolved isLate
    have ends := accounted.ends
    rw [isLate] at ends
    have listed := ends.timedOut
    refine ⟨listed, fun path unfinished => ?_⟩
    rw [listed]
    exact accounted.advances.unsettled_unresolved unfinished

def drainLog (engine : Engine T) (pooled : Bool) (files : Listing String String)
    (deadline : Option T) (pass : Pass T) : Drain T :=
  engine.drainLogged pooled files deadline engine.maxIterations.toNat engine.maxIterations.toNat
    pass

theorem drainLog_eq (engine : Engine T) (pooled : Bool) (files : Listing String String)
    (deadline : Option T) (pass : Pass T) :
    ((engine.drainLog pooled files deadline pass).exit,
      (engine.drainLog pooled files deadline pass).last) =
        engine.drain pooled files deadline pass :=
  drainLogged_eq engine pooled files deadline _ _ pass

theorem drainLog_accounted (engine : Engine T) (pooled : Bool) (files : Listing String String)
    (deadline : Option T) (pass : Pass T) :
    (engine.drainLog pooled files deadline pass).Accounted engine deadline pass :=
  drainLogged_accounted engine pooled files deadline _ _ pass

def drainSeedsLog (engine : Engine T) (files : Listing String String) (deadline : Option T)
    (holdings : Holdings T) : Drain T :=
  engine.drainLog (1 < engine.maxWorkers) files (engine.deadlineFrom deadline holdings.world.now)
    (openPass (Resolution.Seeds.ofFiles files) holdings)

theorem drainSeedsLog_eq (engine : Engine T) (files : Listing String String) (deadline : Option T)
    (holdings : Holdings T) :
    ((engine.drainSeedsLog files deadline holdings).exit,
      (engine.drainSeedsLog files deadline holdings).last) =
        engine.drainSeeds files deadline holdings :=
  drainLog_eq engine (1 < engine.maxWorkers) files _ _

theorem drainSeedsLog_accounted (engine : Engine T) (files : Listing String String)
    (deadline : Option T) (holdings : Holdings T) :
    (engine.drainSeedsLog files deadline holdings).Accounted engine
      (engine.deadlineFrom deadline holdings.world.now)
      (openPass (Resolution.Seeds.ofFiles files) holdings) :=
  drainLog_accounted engine (1 < engine.maxWorkers) files _ _

/-- Whatever is queued and whichever way the drain ends, a sound state stays sound and the books of
the drain are in order. -/
theorem drain_keepsBooks (engine : Engine T) (pooled : Bool) (files : Listing String String)
    (deadline : Option T) {pass : Pass T} (sound : pass.state.Sound) :
    ((engine.drainLog pooled files deadline pass).exit,
        (engine.drainLog pooled files deadline pass).last) =
      engine.drain pooled files deadline pass ∧
    (engine.drainLog pooled files deadline pass).Accounted engine deadline pass ∧
    (engine.drainLog pooled files deadline pass).KeepsBooks pass :=
  ⟨drainLog_eq engine pooled files deadline pass,
    drainLog_accounted engine pooled files deadline pass,
    (drainLog_accounted engine pooled files deadline pass).keepsBooks sound⟩

def slowSample : Engine Rat :=
  make
    (.ofLibraries [.ofVersions "@lib" ⟨"1", "https://one/", none, [], []⟩
      [⟨"2", "https://two/", none, [], []⟩] (by decide)])
    Pattern.search
    ⟨fun _ url => ⟨3, if url = "https://one/a.sol" then .answered 200 "import './b.sol';"
      else .answered 404 ""⟩⟩
    ⟨15, 0, 1⟩ 200 2 1 none

def crowdedPass : Pass Rat where
  queue := ["busy", "@lib/a.sol", "old", "bad", "./mapped", "@lib/a.sol"]
  state :=
    { discovered := ["busy", "old", "bad"]
      processing := ["busy"]
      resolved := ["old"]
      failed := .ofList [("bad", .known (.unsupportedImport "bad"))]
      aliases := .ofList [("./mapped", "m.sol")] }
  fetched := .ofList [("old", "")]
  holdings := ⟨.empty, .empty, .startingAt 0⟩

theorem crowdedPass_sound : crowdedPass.state.Sound where
  processingDiscovered := by decide
  resolvedDiscovered := by decide
  processingUnresolved := by decide
  resolvedUnfailed := by decide

theorem keepsBooks_of_late_import :
    crowdedPass.state.Sound ∧
    (slowSample.drainLog false .empty (some 5) crowdedPass).outcomes.map Prod.fst =
      ["@lib/a.sol", "@lib/b.sol"] ∧
    (∃ after, (slowSample.drain false .empty (some 5) crowdedPass).1 =
      .timedOut after ["busy", "bad", "@lib/b.sol"]) ∧
    (slowSample.drainLog false .empty (some 5) crowdedPass).KeepsBooks crowdedPass := by
  have asked : (slowSample.drainLog false .empty (some 5) crowdedPass).outcomes.map Prod.fst =
      ["@lib/a.sol", "@lib/b.sol"] := by
    decide +kernel
  have listed : (match (slowSample.drain false .empty (some 5) crowdedPass).1 with
      | .timedOut _ unresolved => some unresolved
      | _ => none) = some ["busy", "bad", "@lib/b.sol"] := by
    decide +kernel
  have isLate : ∃ after, (slowSample.drain false .empty (some 5) crowdedPass).1 =
      .timedOut after ["busy", "bad", "@lib/b.sol"] := by
    split at listed
    next after unresolved way => exact ⟨after, way.trans (congrArg _ (Option.some.inj listed))⟩
    next => cases listed
  have kept := drain_keepsBooks slowSample false .empty (some 5) crowdedPass_sound
  exact ⟨crowdedPass_sound, asked, isLate, kept.2.2⟩

end Engine

end SourceTree
