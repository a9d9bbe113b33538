import SourceTree.Proofs.Engine.Comparison
import SourceTree.Proofs.Resolution.Closure

/-! # Passes that share a cache

A pass over a tree of files is run alone, and after other passes with the cache that they left. The
passes go abreast as long as the cache gives the second the texts that the first one fetched. -/

namespace SourceTree

namespace Pass

variable {T : Type} [Timescale T] {engine : Engine T} {deadline : Option T}
  {files : Listing String String}

theorem Move.fetched_grows {before after : Pass T} (tracks : Tracks files before)
    (move : Move engine deadline files before after) :
    ∃ more, after.fetched.entries = before.fetched.entries ++ more := by
  cases move with
  | @accept path text started =>
      have unfetched : path ∉ before.fetched := fun present =>
        (tracks.started path started).2 ((tracks.fetchedIff path).1 present)
      rw [fetched_accept]
      exact ⟨[(path, text)], Listing.entries_insert_of_not_mem unfetched text⟩
  | skip _ _ => exact ⟨[], by simp⟩
  | start _ _ => exact ⟨[], by simp⟩
  | fetch _ => exact ⟨[], by simp⟩
  | fail _ _ => exact ⟨[], by simp⟩
  | finish _ => exact ⟨[], by simp⟩

theorem Moves.tracks {first last : Pass T} (moves : Moves engine deadline files first last)
    (tracks : Tracks files first) : Tracks files last :=
  moves.preserves (fun _ _ tracks move => tracks.move move) tracks

theorem Moves.fetched_grows {first last : Pass T} (tracks : Tracks files first)
    (moves : Moves engine deadline files first last) :
    ∃ more, last.fetched.entries = first.fetched.entries ++ more := by
  have kept := moves.preserves (motive := fun pass => Tracks files pass ∧
    ∃ more, pass.fetched.entries = first.fetched.entries ++ more) ?_ ⟨tracks, [], by simp⟩
  · exact kept.2
  · rintro before after ⟨beforeTracks, more, grown⟩ move
    rcases move.fetched_grows beforeTracks with ⟨later, grownLater⟩
    exact ⟨beforeTracks.move move, more ++ later, by rw [grownLater, grown, List.append_assoc]⟩

theorem Moves.get?_fetched {first last : Pass T} (tracks : Tracks files first)
    (moves : Moves engine deadline files first last) {path text : String}
    (found : first.fetched.get? path = some text) : last.fetched.get? path = some text := by
  rcases moves.fetched_grows tracks with ⟨more, grown⟩
  rw [Listing.get?_eq_some_iff] at found ⊢
  rw [grown]
  exact List.mem_append_left more found

def launch (pass : Pass T) (room budget : Nat) : Pass T :=
  { pass with
    queue := (Batch.take room budget pass.state pass.queue).queue
    state := (Batch.take room budget pass.state pass.queue).state }

omit [Timescale T] in
theorem launch_ready (pass : Pass T) (room budget : Nat) :
    (Batch.take room budget pass.state pass.queue).paths.Nodup ∧
      ∀ path ∈ (Batch.take room budget pass.state pass.queue).paths,
        path ∈ (pass.launch room budget).state.processing ∧
          path ∉ (pass.launch room budget).state.resolved ∧
            path ∉ (pass.launch room budget).state.failed := by
  rcases Batch.done_take room budget pass.state pass.queue with ⟨resolved, failed⟩
  refine ⟨Batch.nodup_take room budget pass.state pass.queue, fun path member => ?_⟩
  have undone := Batch.not_done_of_mem_take member
  rw [← Bool.not_eq_true, ResolutionState.isDone_iff] at undone
  simp only [launch, resolved, failed]
  refine ⟨(Batch.mem_processing_take room budget pass.state pass.queue path).2 (Or.inr member),
    fun isResolved => undone (Or.inr (Or.inl isResolved)),
    fun hasFailed => undone (Or.inr (Or.inr (Or.inl hasFailed)))⟩

end Pass

namespace Engine

open Pass

variable {T : Type} [Timescale T] {engine : Engine T} {files : Listing String String}

/-- A pass that started without a cache and one that started with a cache go abreast: they are
twins, neither cache has changed where the passes have not been yet, and the cache has given the
texts that were fetched. -/
structure Abreast (engine : Engine T) (cache : ContentCache (FetchError T))
    (preference : Preference) (files : Listing String String) (alone shared : Pass T) : Prop where
  twin : Twin alone shared
  tracks : Tracks files alone
  sharedTracks : Tracks files shared
  fresh : ∀ path, path ∉ alone.state.resolved → path ∉ alone.state.failed →
    alone.holdings.cache.AgreeAt .empty path
  same : ∀ path, path ∉ alone.state.resolved → path ∉ alone.state.failed →
    shared.holdings.cache.AgreeAt cache path
  replayed : ∀ rest, Agrees engine cache preference (alone.fetched.entries ++ rest) ↔
    Agrees engine cache shared.holdings.preference rest

variable {cache : ContentCache (FetchError T)} {preference : Preference}

theorem Abreast.launch {alone shared : Pass T}
    (abreast : Abreast engine cache preference files alone shared) (room budget : Nat) :
    Abreast engine cache preference files (alone.launch room budget)
      (shared.launch room budget) := by
  have taken := Batch.take_twin room budget abreast.twin.state alone.queue
  rcases Batch.done_take room budget alone.state alone.queue with ⟨resolved, failed⟩
  have twin : Twin (alone.launch room budget) (shared.launch room budget) := by
    simp only [Pass.launch, ← abreast.twin.queue]
    exact ⟨taken.2.1, abreast.twin.fetched, taken.2.2.2⟩
  exact {
    twin
    tracks := (Batch.take_moves engine none files room budget alone).tracks abreast.tracks
    sharedTracks :=
      (Batch.take_moves engine none files room budget shared).tracks abreast.sharedTracks
    fresh := by
      intro path notResolved notFailed
      rw [Pass.launch, resolved] at notResolved
      rw [Pass.launch, failed] at notFailed
      exact abreast.fresh path notResolved notFailed
    same := by
      intro path notResolved notFailed
      rw [Pass.launch, resolved] at notResolved
      rw [Pass.launch, failed] at notFailed
      exact abreast.same path notResolved notFailed
    replayed := abreast.replayed }

theorem Abreast.completed {alone shared after sharedAfter : Pass T}
    (abreast : Abreast engine cache preference files alone shared) {pooled : Bool}
    {paths : List String} (distinct : paths.Nodup)
    (started : ∀ path ∈ paths, path ∈ alone.state.processing)
    (completed : engine.runBatch pooled files none paths alone = (none, after))
    (sharedCompleted : engine.runBatch pooled files none paths shared = (none, sharedAfter))
    (twin : Twin after sharedAfter)
    (replayed : ∀ rest, Agrees engine cache preference (after.fetched.entries ++ rest) ↔
      Agrees engine cache sharedAfter.holdings.preference rest) :
    Abreast engine cache preference files (after.finishAll paths)
      (sharedAfter.finishAll paths) := by
  have moves := runBatch_moves engine pooled files none distinct started
  have sharedMoves := runBatch_moves engine pooled files none distinct
    (abreast.twin.started started)
  rw [completed] at moves
  rw [sharedCompleted] at sharedMoves
  rcases done_finishAll after paths with ⟨resolved, failed⟩
  have untouched : ∀ path, path ∉ (after.finishAll paths).state.resolved →
      path ∉ (after.finishAll paths).state.failed →
        path ∉ alone.state.resolved ∧ path ∉ alone.state.failed ∧ path ∉ paths := by
    intro path notResolved notFailed
    rw [resolved] at notResolved
    rw [failed] at notFailed
    have undone := mt (done_runBatch completed path).2 (not_or.2 ⟨notResolved, notFailed⟩)
    rw [not_or, not_or] at undone
    exact ⟨undone.1.1, undone.1.2, undone.2⟩
  exact {
    twin := twin.finishAll paths
    tracks := Moves.tracks (moves.trans (finishAll_moves engine none files after paths))
      abreast.tracks
    sharedTracks :=
      Moves.tracks (sharedMoves.trans (finishAll_moves engine none files sharedAfter paths))
        abreast.sharedTracks
    fresh := by
      intro path notResolved notFailed
      rcases untouched path notResolved notFailed with ⟨wasNotResolved, wasNotFailed, absent⟩
      exact (runBatch_frame completed absent).trans
        (abreast.fresh path wasNotResolved wasNotFailed)
    same := by
      intro path notResolved notFailed
      rcases untouched path notResolved notFailed with ⟨wasNotResolved, wasNotFailed, absent⟩
      exact (runBatch_frame sharedCompleted absent).trans
        (abreast.same path wasNotResolved wasNotFailed)
    replayed }

theorem Abreast.run (stable : engine.network.Stable) (honest : Honest engine cache)
    {alone shared : Pass T} (abreast : Abreast engine cache preference files alone shared)
    (pooled : Bool) {paths : List String} (distinct : paths.Nodup)
    (started : ∀ path ∈ paths, path ∈ alone.state.processing)
    (unresolved : ∀ path ∈ paths, path ∉ alone.state.resolved)
    (unfailed : ∀ path ∈ paths, path ∉ alone.state.failed) (after : Pass T)
    (completed : engine.runBatch pooled files none paths alone = (none, after)) :
    ((engine.runBatch pooled files none paths shared).1 = none ∧
        Abreast engine cache preference files (after.finishAll paths)
          ((engine.runBatch pooled files none paths shared).2.finishAll paths)) ∨
      ((∀ rest, ¬Agrees engine cache preference (after.fetched.entries ++ rest)) ∧
        ((engine.runBatch pooled files none paths shared).1 ≠ none ∨
          Parted after (engine.runBatch pooled files none paths shared).2)) := by
  have compared := fetchAll_compared stable honest distinct
    (fun path member => abreast.fresh path (unresolved path member) (unfailed path member))
    (fun path member => abreast.same path (unresolved path member) (unfailed path member))
  have twin : Twin
      { alone with holdings := (engine.fetchAll none paths alone.holdings).2 }
      { shared with holdings := (engine.fetchAll none paths shared.holdings).2 } :=
    ⟨abreast.twin.queue, abreast.twin.fetched, abreast.twin.state⟩
  have outcomesDistinct :
      ((engine.fetchAll none paths alone.holdings).1.map Prod.fst).Nodup := by
    rw [map_fst_fetchAll]
    exact distinct
  have grown := entries_runBatch completed distinct fun path member present =>
    unresolved path member ((abreast.tracks.fetchedIff path).1 present)
  have sharedRun := runBatch_cases engine pooled files none paths shared
  -- A batch that completes is settled as if all of it had been fetched first.
  rcases settleAll_compared compared outcomesDistinct twin (settleAll_of_runBatch completed) with
    ⟨sharedNone, stillTwin, replay⟩ | ⟨never, apart⟩
  · rw [← sharedRun.1] at sharedNone
    rw [← sharedRun.2 sharedNone] at stillTwin
    refine Or.inl ⟨sharedNone, abreast.completed distinct started completed
      (Prod.ext sharedNone rfl) stillTwin fun rest => ?_⟩
    rw [sharedRun.2 sharedNone, holdings_settleAll, grown, List.append_assoc, abreast.replayed,
      replay]
  · refine Or.inr ⟨fun rest => ?_, ?_⟩
    · rw [grown, List.append_assoc, abreast.replayed]
      exact never rest
    · by_cases sharedNone : (engine.runBatch pooled files none paths shared).1 = none
      · rw [sharedRun.2 sharedNone]
        exact apart.imp_left fun broken isNone => broken (sharedRun.1 ▸ sharedNone)
      · exact Or.inl sharedNone

theorem drainRounds_succ (engine : Engine T) (pooled : Bool) (files : Listing String String)
    (rounds budget : Nat) (pass : Pass T) :
    engine.drainRounds pooled files none (rounds + 1) budget pass =
      if pass.queue.isEmpty || budget = 0 then
        (engine.closing pass, pass)
      else
        let batch := Batch.take engine.maxWorkers budget pass.state pass.queue
        let run := engine.runBatch pooled files none batch.paths
          (pass.launch engine.maxWorkers budget)
        match run.1 with
        | none =>
            engine.drainRounds pooled files none rounds batch.budget (run.2.finishAll batch.paths)
        | some cause => (engine.exitFor run.2.state cause, run.2.finishAll batch.paths) := by
  simp only [drainRounds, FetchPolicy.isReached, Option.any_none, Bool.false_eq_true, if_false]
  rfl

theorem not_completes_exitFor (engine : Engine T) (state : ResolutionState T)
    (cause : Interruption T) : ¬(engine.exitFor state cause).Completes := by
  cases cause <;> exact id

theorem drainRounds_finishAll_moves (engine : Engine T) (pooled : Bool)
    (files : Listing String String) (paths : List String) (rounds budget : Nat) (pass : Pass T) :
    Moves engine none files pass
      (engine.drainRounds pooled files none rounds budget (pass.finishAll paths)).2 :=
  (finishAll_moves engine none files pass paths).trans
    (drainRounds_moves engine pooled files none rounds budget (pass.finishAll paths))

theorem Parted.later {alone shared aloneLast sharedLast : Pass T}
    (parted : Parted alone shared) (tracks : Tracks files alone)
    (sharedTracks : Tracks files shared) (moves : Moves engine none files alone aloneLast)
    (sharedMoves : Moves engine none files shared sharedLast) : Parted aloneLast sharedLast := by
  rcases parted with ⟨path, text, other, different, found, otherFound⟩
  exact ⟨path, text, other, different, moves.get?_fetched tracks found,
    sharedMoves.get?_fetched sharedTracks otherFound⟩

inductive EndCompared (engine : Engine T) (cache : ContentCache (FetchError T))
    (preference : Preference) (alone shared : DrainExit T × Pass T) : Prop
  | agree (sameExit : shared.1 = alone.1) (twin : Twin alone.2 shared.2)
      (agrees : Agrees engine cache preference alone.2.fetched.entries) :
      EndCompared engine cache preference alone shared
  | differ (disagrees : ¬Agrees engine cache preference alone.2.fetched.entries)
      (apart : ¬shared.1.Completes ∨ Parted alone.2 shared.2) :
      EndCompared engine cache preference alone shared

theorem Abreast.stop {alone shared : Pass T}
    (abreast : Abreast engine cache preference files alone shared) :
    EndCompared engine cache preference (engine.closing alone, alone)
      (engine.closing shared, shared) := by
  have replayed := abreast.replayed []
  rw [List.append_nil] at replayed
  exact .agree (closing_twin engine abreast.twin).symm abreast.twin (replayed.2 trivial)

/-- When the pass without the cache completes, either the cache gives its texts and the other pass
ends the same way, or it does not and the other pass fails or fetches another text. -/
theorem drainRounds_compared (stable : engine.network.Stable) (honest : Honest engine cache)
    (pooled : Bool) (rounds budget : Nat) {alone shared : Pass T}
    (abreast : Abreast engine cache preference files alone shared)
    (completes : (engine.drainRounds pooled files none rounds budget alone).1.Completes) :
    EndCompared engine cache preference
      (engine.drainRounds pooled files none rounds budget alone)
      (engine.drainRounds pooled files none rounds budget shared) := by
  -- Both passes change from round to round; that they go abreast is what a round keeps.
  induction rounds generalizing budget alone shared with
  | zero => exact abreast.stop
  | succ rounds induction =>
      have taken := Batch.take_twin engine.maxWorkers budget abreast.twin.state alone.queue
      have launched := abreast.launch engine.maxWorkers budget
      simp only [drainRounds_succ, ← abreast.twin.queue, ← taken.1, ← taken.2.2.1] at completes ⊢
      split at completes
      next stops =>
        simp only [if_pos stops]
        exact abreast.stop
      next goesOn =>
        simp only [if_neg goesOn]
        rcases alone.launch_ready engine.maxWorkers budget with ⟨distinct, ready⟩
        generalize (Batch.take engine.maxWorkers budget alone.state alone.queue).paths = paths
          at distinct ready completes ⊢
        generalize (Batch.take engine.maxWorkers budget alone.state alone.queue).budget = left
          at completes ⊢
        generalize alone.launch engine.maxWorkers budget = first at launched ready completes ⊢
        generalize shared.launch engine.maxWorkers budget = second at launched ⊢
        have started := fun path member => (ready path member).1
        have aloneMoves := runBatch_moves engine pooled files none distinct started
        have sharedMoves := runBatch_moves engine pooled files none distinct
          (launched.twin.started started)
        have compared := launched.run stable honest pooled distinct started
          (fun path member => (ready path member).2.1)
          (fun path member => (ready path member).2.2)
        generalize engine.runBatch pooled files none paths first = aloneRun
          at aloneMoves compared completes ⊢
        generalize engine.runBatch pooled files none paths second = sharedRun
          at sharedMoves compared ⊢
        rcases aloneRun with ⟨aloneCause, after⟩
        rcases sharedRun with ⟨sharedCause, sharedAfter⟩
        cases aloneCause with
        | some cause => exact absurd completes (not_completes_exitFor engine _ cause)
        | none =>
            rcases compared after rfl with ⟨sharedNone, next⟩ | ⟨never, apart⟩
            · simp only at sharedNone
              subst sharedNone
              exact induction _ next completes
            · -- Whatever the passes do in the other rounds, what parted them stays fetched.
              have rest := drainRounds_finishAll_moves engine pooled files paths rounds left
              have tracks := Moves.tracks aloneMoves launched.tracks
              refine .differ (fun agrees => ?_) ?_
              · rcases (rest after).fetched_grows tracks with ⟨more, grown⟩
                simp only [grown] at agrees
                exact never more agrees
              · cases sharedCause with
                | some cause => exact Or.inl (not_completes_exitFor engine _ cause)
                | none =>
                    have parted := apart.resolve_left fun broken => broken rfl
                    exact Or.inr (parted.later tracks
                      (Moves.tracks sharedMoves launched.sharedTracks) (rest after)
                      (rest sharedAfter))

end Engine

end SourceTree
