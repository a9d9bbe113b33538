import Std.Data.String.ToInt
import SourceTree.Proofs.Engine.Coverage
import SourceTree.Proofs.Resolution.History

/-! # The accounts of a resolution

The numbers that a resolution reports add up. Its files are the fetched ones and the user's, every
discovered import is counted as resolved, as failed or as mapped to a local file, and the warning
about the ceiling stands for the unresolved imports that did not fail. -/

namespace SourceTree

/-! ## The message about the ceiling -/

namespace Failure

variable {T : Type} [Timescale T]

theorem message_iterationLimit (limit remaining : Int) :
    message (.iterationLimit limit remaining : Failure T) =
      "Reached maximum iterations (" ++ toString limit ++ ") while resolving imports " ++
        ("with " ++ toString remaining ++
          " import(s) still queued. This may indicate circular dependencies.") :=
  rfl

theorem not_mem_toString (number : Int) : ')' ∉ (toString number).toList := by
  have digits : ∀ count : Nat, ')' ∉ count.repr.toList := by
    intro count mark
    rw [Nat.toList_repr] at mark
    exact absurd (Nat.isDigit_of_mem_toDigits (by decide) (by decide) mark) (by decide)
  rw [Int.toString_eq_repr, Int.repr_eq_if]
  split
  · exact digits _
  · rw [String.toList_append, List.mem_append]
    rintro (mark | mark)
    · revert mark
      decide
    · exact digits _ mark

theorem eq_of_append_bracket {left right back otherBack : List Char} (openLeft : ')' ∉ left)
    (openRight : ')' ∉ right) (equal : left ++ ')' :: back = right ++ ')' :: otherBack) :
    left = right ∧ back = otherBack := by
  have before : ∀ {chars : List Char} (rest : List Char), ')' ∉ chars →
      (chars ++ ')' :: rest).takeWhile (· ≠ ')') = chars := by
    intro chars rest opens
    rw [List.takeWhile_append_of_pos, List.takeWhile_cons_of_neg (by simp), List.append_nil]
    intro char member
    exact decide_eq_true fun isBracket : char = ')' => opens (isBracket ▸ member)
  have same : left = right := by
    rw [← before back openLeft, equal, before otherBack openRight]
  subst same
  exact ⟨rfl, (List.cons.inj (List.append_cancel_left equal)).2⟩

theorem message_iterationLimit_inj {limit remaining otherLimit otherRemaining : Int} :
    message (.iterationLimit limit remaining : Failure T) =
        message (.iterationLimit otherLimit otherRemaining : Failure T) ↔
      limit = otherLimit ∧ remaining = otherRemaining := by
  constructor
  · intro equal
    have bracket : ") while resolving imports ".toList =
        ')' :: " while resolving imports ".toList := rfl
    have written : ∀ {left right : Int}, (toString left).toList = (toString right).toList →
        left = right := fun same => Int.repr_injective (String.toList_inj.1 same)
    rw [message_iterationLimit, message_iterationLimit, ← String.toList_inj] at equal
    simp only [String.toList_append, List.append_assoc, bracket, List.cons_append] at equal
    rcases eq_of_append_bracket (not_mem_toString limit) (not_mem_toString otherLimit)
      (List.append_cancel_left equal) with ⟨limits, rest⟩
    have counts := List.append_cancel_right
      (List.append_cancel_left (List.append_cancel_left rest))
    exact ⟨written limits, written counts⟩
  · rintro ⟨rfl, rfl⟩
    rfl

end Failure

namespace Resolution

open Engine

variable {T : Type} [Timescale T] {files : Listing String String}

theorem append_ne_append {first second : String} (different : first ≠ second)
    (length : first.length = second.length) (back otherBack : String) :
    first ++ back ≠ second ++ otherBack := by
  intro equal
  have chars := congrArg String.toList equal
  rw [String.toList_append, String.toList_append] at chars
  exact different (String.toList_inj.1 (List.append_inj_left chars length))

theorem ambiguityWarning_ne (path : String) (candidates : List String) (limit remaining : Int) :
    ambiguityWarning path candidates ≠
      Failure.message (.iterationLimit limit remaining : Failure T) := by
  have written : ambiguityWarning path candidates = "Rel" ++ "ative import " ++ path ++
      " matched multiple files (" ++ String.intercalate ", " candidates ++ "); used '" ++
        candidates.headD "" ++ "'." := rfl
  have reached : "Reached maximum iterations (" = "Rea" ++ "ched maximum iterations (" := rfl
  rw [written, Failure.message_iterationLimit, reached]
  have different : "Rel" ≠ "Rea" := by decide
  have length : "Rel".length = "Rea".length := by decide
  simp only [String.append_assoc]
  exact append_ne_append different length _ _

theorem unresolvedWarning_ne (path : String) (limit remaining : Int) :
    unresolvedWarning path ≠ Failure.message (.iterationLimit limit remaining : Failure T) := by
  have written : unresolvedWarning path = "U" ++ "nresolved import: " ++ path := rfl
  have reached : "Reached maximum iterations (" = "R" ++ "eached maximum iterations (" := rfl
  rw [written, Failure.message_iterationLimit, reached]
  have different : "U" ≠ "R" := by decide
  have length : "U".length = "R".length := by decide
  simp only [String.append_assoc]
  exact append_ne_append different length _ _

theorem mem_ceilingWarnings_closing (engine : Engine T) (pass : Pass T) (limit remaining : Int) :
    Failure.message (.iterationLimit limit remaining : Failure T) ∈
        ceilingWarnings (engine.closing pass) ↔
      pass.waiting ≠ [] ∧ limit = engine.maxIterations ∧ remaining = pass.waiting.length := by
  have closing : engine.closing pass = if pass.waiting.isEmpty then .finished
      else .ceiling engine.maxIterations pass.waiting.length := rfl
  rw [closing]
  split
  next none => simp [ceilingWarnings, List.isEmpty_iff.1 none]
  next some =>
    rw [List.isEmpty_iff] at some
    simp [ceilingWarnings, some, Failure.message_iterationLimit_inj]

/-- Of all warnings only the one about the ceiling reads like it. -/
theorem mem_warnings_ofPass (registry : Registry) (files : Listing String String)
    (ambiguous : Listing String (List String)) (exit : DrainExit T) (pass : Pass T)
    (limit remaining : Int) :
    Failure.message (.iterationLimit limit remaining : Failure T) ∈
        (ofPass registry files ambiguous exit pass).warnings ↔
      Failure.message (.iterationLimit limit remaining : Failure T) ∈ ceilingWarnings exit := by
  simp only [ofPass, List.mem_append, List.mem_map]
  constructor
  · rintro ((isCeiling | ⟨entry, _, equal⟩) | ⟨path, _, equal⟩)
    · exact isCeiling
    · exact absurd equal (ambiguityWarning_ne entry.1 entry.2 limit remaining)
    · exact absurd equal (unresolvedWarning_ne path limit remaining)
  · exact fun isCeiling => Or.inl (Or.inl isCeiling)

/-! ## Accounts -/

structure Balanced (engine : Engine T) (files : Listing String String) (pass : Pass T)
    (resolution : Resolution) : Prop where
  entries : resolution.files.entries = pass.fetched.entries ++ files.entries
  foreign : ∀ path ∈ pass.fetched, path ∉ files
  kept : ∀ path text, files.get? path = some text → resolution.files.get? path = some text
  total : resolution.stats.totalFiles = files.size
  size : resolution.files.size = resolution.stats.totalFiles + resolution.stats.resolvedImports
  failed : resolution.stats.failedImports = resolution.unresolved.length
  discovered : pass.state.discovered.Nodup
  external : resolution.stats.externalImports =
    resolution.stats.resolvedImports + resolution.stats.failedImports +
      (pass.state.discovered.filter fun path => path ∈ resolution.aliases).length
  exclusive : ∀ path ∈ resolution.failures, path ∉ pass.fetched
  unresolved : ∀ path ∈ resolution.failures, path ∈ resolution.unresolved
  ceiling : ∀ limit remaining,
    Failure.message (.iterationLimit limit remaining : Failure T) ∈ resolution.warnings ↔
      (∃ path ∈ resolution.unresolved, path ∉ resolution.failures) ∧
        limit = engine.maxIterations ∧
        remaining = (resolution.unresolved.length : Int) - resolution.failures.size

omit [Timescale T] in
theorem size_fetched {pass : Pass T} (tracks : Pass.Tracks files pass) (books : pass.Drained) :
    pass.fetched.size = pass.state.resolved.length := by
  have same : pass.fetched.keys.Perm pass.state.resolved :=
    (List.perm_ext_iff_of_nodup pass.fetched.nodup_keys books.resolvedDistinct).2
      fun path => Listing.mem_iff.symm.trans (tracks.fetchedIff path)
  rw [← same.length_eq, Listing.length_keys]

theorem balanced_ofPass {engine : Engine T} {pass : Pass T} (tracks : Pass.Tracks files pass)
    (books : pass.Drained) (ambiguous : Listing String (List String)) :
    Balanced engine files pass
      (ofPass engine.registry files ambiguous (engine.closing pass) pass) := by
  have foreign : ∀ path ∈ pass.fetched, path ∉ files := fun path isFetched =>
    foreign_of_mem_fetched tracks isFetched
  have entries : (pass.fetched.merge files).entries = pass.fetched.entries ++ files.entries :=
    Listing.entries_insertAll_of_fresh pass.fetched files.keysDistinct
      fun path isFile isFetched => foreign path isFetched isFile
  have hasFailed : ∀ path, path ∈ pass.state.failed.mapValues Fault.message ↔
      path ∈ pass.state.failed := fun path => by
    rw [Listing.mem_iff, Listing.mem_iff, Listing.keys_mapValues]
  -- Whatever is unresolved failed or waits.
  have waiting : (pass.waiting.length : Int) =
      (pass.state.unresolved.length : Int) - (pass.state.failed.mapValues Fault.message).size := by
    rw [books.unresolved_perm.length_eq, List.length_append, ← Listing.length_keys,
      Listing.keys_mapValues]
    omega
  refine
    { entries := entries
      foreign := foreign
      kept := ?_
      total := rfl
      size := ?_
      failed := rfl
      discovered := books.distinct
      external := books.length_discovered
      exclusive := ?_
      unresolved := fun path fails => books.failed_unresolved ((hasFailed path).1 fails)
      ceiling := ?_ }
  · intro path text isFile
    rw [get?_files_ofPass, isFile]
    rfl
  · have counted : (pass.fetched.merge files).size = files.size + pass.fetched.size := by
      rw [Listing.size, entries, List.length_append, Nat.add_comm]
      rfl
    rw [size_fetched tracks books] at counted
    exact counted
  · intro path fails isFetched
    exact (books.resolved path ((tracks.fetchedIff path).1 isFetched)).2.1
      ((hasFailed path).1 fails)
  · intro limit remaining
    rw [mem_warnings_ofPass, mem_ceilingWarnings_closing, waiting]
    refine and_congr_left fun _ => ?_
    rw [← List.length_pos_iff, List.length_pos_iff_exists_mem]
    refine exists_congr fun path => ?_
    rw [books.mem_waiting_iff]
    exact and_congr_right fun _ => not_congr (hasFailed path).symm

end Resolution

namespace Pass

variable {T : Type} [Timescale T] {engine : Engine T} {deadline : Option T}
  {files : Listing String String}

theorem Move.nodup_discovered {before after : Pass T}
    (distinct : before.state.discovered.Nodup) (move : Move engine deadline files before after) :
    after.state.discovered.Nodup := by
  cases move with
  | @accept path text started =>
      rcases accept_cases files before path text with ⟨added, accepted, follows⟩
      rw [accepted]
      refine List.nodup_append.2 ⟨distinct, follows.distinct, ?_⟩
      rintro known isKnown other isAdded rfl
      exact (follows.fresh known isAdded).1 isKnown
  | start _ _ => exact ResolutionState.nodup_appendNew distinct _
  | skip _ _ => exact distinct
  | fetch _ => exact distinct
  | fail _ _ => exact distinct
  | finish _ => exact distinct

end Pass

namespace Engine

open Pass Resolution

variable {T : Type} [Timescale T] {engine : Engine T} {deadline : Option T}

theorem Ends.closing_of_completes {outcomes : List (String × ImportOutcome T)} {last : Pass T}
    {exit : DrainExit T} (ends : Ends engine deadline outcomes last exit)
    (completes : exit.Completes) : unsettled outcomes = [] ∧ exit = engine.closing last := by
  cases ends with
  | closed all => exact ⟨all, rfl⟩
  | late all reached => exact completes.elim
  | interrupted first => exact absurd completes (not_completes_exitFor engine _ _)

theorem Drain.Accounted.drained {seeds : Seeds} {holdings : Holdings T} {drain : Drain T}
    (accounted : drain.Accounted engine deadline (openPass seeds holdings))
    (distinct : drain.last.state.discovered.Nodup)
    (queued : ∀ path ∈ drain.last.queue, path ∈ drain.last.state.discovered)
    (covered : Covered drain.last.state drain.last.queue) : drain.last.Drained := by
  have advances := accounted.advances
  -- Nothing was resolved or failed at first, so all that is was settled by one of the fetches.
  have names := (settled_sublist drain.outcomes).map Prod.fst
  have resolved : drain.last.state.resolved = (texts (settled drain.outcomes)).map Prod.fst :=
    advances.settles.resolved
  have unmapped : ∀ path ∈ (settled drain.outcomes).map Prod.fst,
      path ∉ drain.last.state.aliases := by
    intro path isSettled
    rw [advances.settles.aliases]
    exact ((ResolutionState.not_isDone_iff _ _).1
      (advances.pending path (names.subset isSettled))).2.2.2
  have known : ∀ path ∈ (settled drain.outcomes).map Prod.fst,
      path ∈ drain.last.state.discovered := fun path isSettled =>
    advances.known path (names.subset isSettled)
  have sound := advances.sound
    { processingDiscovered := fun _ inFlight => absurd inFlight List.not_mem_nil
      resolvedDiscovered := fun _ isResolved => absurd isResolved List.not_mem_nil
      processingUnresolved := fun _ inFlight => absurd inFlight List.not_mem_nil
      resolvedUnfailed := fun _ isResolved => absurd isResolved List.not_mem_nil }
  refine
    { distinct := distinct
      idle := advances.processing
      resolvedDistinct := ?_
      resolved := ?_
      failed := ?_
      queued := queued
      covered := covered }
  · rw [resolved]
    exact ((map_fst_texts_sublist _).trans names).nodup advances.distinct
  · intro path isResolved
    have unfailed := sound.resolvedUnfailed path isResolved
    rw [resolved] at isResolved
    have isSettled := mem_map_settled_iff.2 (Or.inl isResolved)
    exact ⟨known path isSettled, unfailed, unmapped path isSettled⟩
  · intro path hasFailed
    have isFailure := ((advances.settles.failed path).1 hasFailed).resolve_left
      (Listing.not_mem_empty path)
    have isSettled := mem_map_settled_iff.2 (Or.inr isFailure)
    exact ⟨known path isSettled, unmapped path isSettled⟩

theorem drained_drainSeeds {files : Listing String String} {holdings : Holdings T}
    (completes : (engine.drainSeeds files deadline holdings).1.Completes) :
    (engine.drainSeeds files deadline holdings).2.Drained ∧
      (engine.drainSeeds files deadline holdings).1 =
        engine.closing (engine.drainSeeds files deadline holdings).2 := by
  have tracks := drainSeeds_tracks engine files deadline holdings
  have distinct := (drain_moves engine (1 < engine.maxWorkers) files
    (engine.deadlineFrom deadline holdings.world.now)
    (openPass (Seeds.ofFiles files) holdings)).preserves
      (motive := fun pass => pass.state.discovered.Nodup)
      (fun _ _ kept move => move.nodup_discovered kept)
      (Seeds.consistent_ofFiles files).distinct
  have accounted := drainSeedsLog_accounted engine files deadline holdings
  have opened : Covered (openPass (Seeds.ofFiles files) holdings).state
      (openPass (Seeds.ofFiles files) holdings).queue := fun _ known _ => known
  have covered := covered_drainLogged engine (1 < engine.maxWorkers) files
    (engine.deadlineFrom deadline holdings.world.now) engine.maxIterations.toNat
    engine.maxIterations.toNat opened
  change (engine.drainSeeds files deadline holdings).2.state.discovered.Nodup at distinct
  rw [← drainSeedsLog_eq] at completes tracks distinct ⊢
  rcases accounted.ends.closing_of_completes completes with ⟨all, closing⟩
  exact ⟨accounted.drained distinct tracks.queued (covered all), closing⟩

/-- The report of every resolution that is returned adds up. -/
theorem resolveWith_balanced {files : Listing String String} {holdings : Holdings T}
    {resolution : Resolution}
    (resolved : (engine.resolveWith files deadline holdings).1 = .ok resolution) :
    Balanced engine files (engine.drainSeeds files deadline holdings).2 resolution := by
  rcases resolveWith_eq_ok_iff.1 resolved with ⟨_, completes, rfl⟩
  rcases drained_drainSeeds completes with ⟨books, closing⟩
  rw [closing]
  exact balanced_ofPass (drainSeeds_tracks engine files deadline holdings) books _

def shortSample : Engine Rat :=
  { librarySample with
    network := .serving (.ofList
      [("https://lib/a.sol", "import './b.sol'; import './c.sol'; import '../../../y.sol';"),
        ("https://lib/b.sol", "")])
    maxImports := 3
    iterationFactor := 1 }

def mixedFiles : Listing String String :=
  .ofList [("m.sol", "import '@lib/a.sol'; import './gone.sol'; import '../../../y.sol';"),
    ("sub/y.sol", "")]

theorem balanced_of_ceiling :
    ∃ resolution : Resolution,
      (shortSample.resolveWith mixedFiles none ⟨.empty, .empty, .startingAt 0⟩).1 =
        .ok resolution ∧
      resolution.stats = ⟨2, 5, 2, 2⟩ ∧
      resolution.unresolved = ["./gone.sol", "@lib/c.sol"] ∧
      resolution.failures.keys = ["./gone.sol"] ∧
      Balanced shortSample mixedFiles
        (shortSample.drainSeeds mixedFiles none ⟨.empty, .empty, .startingAt 0⟩).2 resolution := by
  have report : (shortSample.resolveWith mixedFiles none
      ⟨.empty, .empty, .startingAt 0⟩).1.toOption.map (fun resolution =>
        (resolution.stats, resolution.unresolved, resolution.failures.keys)) =
      some (⟨2, 5, 2, 2⟩, ["./gone.sol", "@lib/c.sol"], ["./gone.sol"]) := by
    decide +kernel
  rcases exists_of_toOption_map report with ⟨resolution, resolved, parts⟩
  simp only [Prod.mk.injEq] at parts
  exact ⟨resolution, resolved, parts.1, parts.2.1, parts.2.2, resolveWith_balanced resolved⟩

end Engine

end SourceTree
