import Mathlib.Logic.Relation
import SourceTree.Engine.Drain

/-! # The moves of a pass

However it batches its paths, a pass goes on by few kinds of moves: it drops a path that is done,
starts one that is not, fetches, settles a path that it started, or marks a path as finished. What
a pass keeps is derived from what these moves keep. -/

namespace SourceTree

open ImportPath

namespace Pass

variable {T : Type} {files : Listing String String}

/-! ## Following the imports of a fetched file -/

def enqueue (pass : Pass T) (paths : List String) : Pass T :=
  { pass with
    queue := pass.queue ++ paths
    state := { pass.state with discovered := pass.state.discovered ++ paths } }

def receive (pass : Pass T) (path text : String) : Pass T :=
  { pass with
    fetched := pass.fetched.insert path text
    state := pass.state.resolve path }

/-- What following some imports of a file adds to the known paths: some of them, each once, so
that of each import the file itself, a user file or a known path is meant. -/
structure Follows (files : Listing String String) (importer : String) (paths known : List String)
    (added : List String) : Prop where
  distinct : added.Nodup
  fresh : ∀ nested ∈ added, nested ∉ known ∧ nested ∉ files ∧
    ∃ path ∈ paths, meantIn importer path = nested
  complete : ∀ path ∈ paths, meantIn importer path = importer ∨ meantIn importer path ∈ files ∨
    meantIn importer path ∈ known ++ added

@[simp] theorem enqueue_nil (pass : Pass T) : pass.enqueue [] = pass := by
  simp [enqueue]

theorem enqueue_enqueue (pass : Pass T) (first second : List String) :
    (pass.enqueue first).enqueue second = pass.enqueue (first ++ second) := by
  simp [enqueue]

theorem discoverNested_cases (files : Listing String String) (importer : String) (pass : Pass T)
    (path : String) :
    ∃ added, pass.discoverNested files importer path = pass.enqueue added ∧
      Follows files importer [path] pass.state.discovered added := by
  unfold discoverNested
  simp only
  split
  next known =>
    refine ⟨[], by simp, List.nodup_nil, by simp, ?_⟩
    simpa using known
  next unknown =>
    simp only [not_or] at unknown
    refine ⟨[meantIn importer path], ?_, by simp, ?_, by simp⟩
    · simp [enqueue, ResolutionState.discover, ResolutionState.appendNew, unknown.2.2]
    · simp [unknown.2.1, unknown.2.2]

theorem foldl_discoverNested_cases (files : Listing String String) (importer : String)
    (paths : List String) (pass : Pass T) :
    ∃ added, paths.foldl (discoverNested files importer) pass = pass.enqueue added ∧
      Follows files importer paths pass.state.discovered added := by
  induction paths generalizing pass with
  | nil => exact ⟨[], by simp, List.nodup_nil, by simp, by simp⟩
  | cons path rest induction =>
      rcases discoverNested_cases files importer pass path with ⟨first, isFirst, followed⟩
      rcases induction (pass.enqueue first) with ⟨later, isLater, followedLater⟩
      rw [List.foldl_cons, isFirst, isLater, enqueue_enqueue]
      refine ⟨first ++ later, rfl, ?_, ?_, ?_⟩
      · rw [List.nodup_append]
        refine ⟨followed.distinct, followedLater.distinct, ?_⟩
        intro left inFirst right inLater equal
        exact (followedLater.fresh right inLater).1
          (List.mem_append_right _ (equal ▸ inFirst))
      · intro nested isAdded
        rcases List.mem_append.1 isAdded with inFirst | inLater
        · rcases followed.fresh nested inFirst with ⟨unknown, foreign, only, isOnly, means⟩
          exact ⟨unknown, foreign, only, List.mem_cons.2 (Or.inl (List.mem_singleton.1 isOnly)),
            means⟩
        · rcases followedLater.fresh nested inLater with ⟨unknown, foreign, other, inRest, means⟩
          exact ⟨fun known => unknown (List.mem_append_left _ known), foreign, other,
            List.mem_cons_of_mem path inRest, means⟩
      · intro other isImport
        rcases List.mem_cons.1 isImport with equal | inRest
        · subst equal
          refine (followed.complete other (List.mem_singleton.2 rfl)).imp_right fun rest =>
            rest.imp_right fun known => ?_
          rw [← List.append_assoc]
          exact List.mem_append_left _ known
        · have known := followedLater.complete other inRest
          rwa [enqueue, List.append_assoc] at known

theorem accept_cases (files : Listing String String) (pass : Pass T) (path text : String) :
    ∃ added, pass.accept files path text = (pass.receive path text).enqueue added ∧
      Follows files path (importPaths text) pass.state.discovered added :=
  foldl_discoverNested_cases files path (importPaths text) (pass.receive path text)

theorem processing_accept (files : Listing String String) (pass : Pass T) (path text : String) :
    (pass.accept files path text).state.processing =
      ResolutionState.remove pass.state.processing path := by
  rcases accept_cases files pass path text with ⟨added, accepted, _⟩
  rw [accepted]
  rfl

theorem resolved_accept (files : Listing String String) (pass : Pass T) (path text : String) :
    (pass.accept files path text).state.resolved =
      ResolutionState.appendNew pass.state.resolved path := by
  rcases accept_cases files pass path text with ⟨added, accepted, _⟩
  rw [accepted]
  rfl

theorem failed_accept (files : Listing String String) (pass : Pass T) (path text : String) :
    (pass.accept files path text).state.failed = pass.state.failed.erase path := by
  rcases accept_cases files pass path text with ⟨added, accepted, _⟩
  rw [accepted]
  rfl

theorem aliases_accept (files : Listing String String) (pass : Pass T) (path text : String) :
    (pass.accept files path text).state.aliases = pass.state.aliases := by
  rcases accept_cases files pass path text with ⟨added, accepted, _⟩
  rw [accepted]
  rfl

theorem fetched_accept (files : Listing String String) (pass : Pass T) (path text : String) :
    (pass.accept files path text).fetched = pass.fetched.insert path text := by
  rcases accept_cases files pass path text with ⟨added, accepted, _⟩
  rw [accepted]
  rfl

theorem holdings_accept (files : Listing String String) (pass : Pass T) (path text : String) :
    (pass.accept files path text).holdings = pass.holdings := by
  rcases accept_cases files pass path text with ⟨added, accepted, _⟩
  rw [accepted]
  rfl

/-! ## Moves -/

section

variable [Timescale T] {engine : Engine T} {deadline : Option T}

inductive Move (engine : Engine T) (deadline : Option T) (files : Listing String String) :
    Pass T → Pass T → Prop
  | skip {pass : Pass T} {path : String} {queue : List String}
      (next : pass.queue = path :: queue) (done : pass.state.isDone path = true) :
      Move engine deadline files pass { pass with queue }
  | start {pass : Pass T} {path : String} {queue : List String}
      (next : pass.queue = path :: queue) (pending : pass.state.isDone path = false) :
      Move engine deadline files pass { pass with queue, state := pass.state.start path }
  | fetch (pass : Pass T) (path : String) :
      Move engine deadline files pass
        { pass with holdings := (engine.fetchImport deadline path pass.holdings).2 }
  | accept {pass : Pass T} {path : String} (text : String)
      (started : path ∈ pass.state.processing) :
      Move engine deadline files pass (pass.accept files path text)
  | fail {pass : Pass T} {path : String} (fault : Fault T)
      (started : path ∈ pass.state.processing) :
      Move engine deadline files pass { pass with state := pass.state.fail path fault }
  | finish (pass : Pass T) (path : String) :
      Move engine deadline files pass { pass with state := pass.state.finish path }

abbrev Moves (engine : Engine T) (deadline : Option T) (files : Listing String String) :
    Pass T → Pass T → Prop :=
  Relation.ReflTransGen (Move engine deadline files)

theorem Moves.preserves {motive : Pass T → Prop}
    (step : ∀ before after, motive before → Move engine deadline files before after → motive after)
    {first last : Pass T} (moves : Moves engine deadline files first last)
    (initially : motive first) : motive last := by
  induction moves with
  | refl => exact initially
  | tail _ move induction => exact step _ _ induction move

theorem settle_move {pass settled : Pass T} {path : String} {outcome : ImportOutcome T}
    (isSettled : pass.settle files path outcome = .ok settled)
    (started : path ∈ pass.state.processing) :
    Move engine deadline files pass settled ∧
      settled.state.processing = ResolutionState.remove pass.state.processing path := by
  cases outcome with
  | content text =>
      cases isSettled
      exact ⟨.accept text started, processing_accept files pass path text⟩
  | failed failure =>
      cases isSettled
      exact ⟨.fail (.known failure) started, rfl⟩
  | interrupted interruption => cases isSettled

theorem finishAll_moves (engine : Engine T) (deadline : Option T) (files : Listing String String)
    (pass : Pass T) (paths : List String) :
    Moves engine deadline files pass (pass.finishAll paths) := by
  induction paths generalizing pass with
  | nil => exact .refl
  | cons path rest induction =>
      exact .head (.finish pass path) (induction { pass with state := pass.state.finish path })

end

end Pass

namespace Batch

variable {T : Type} {files : Listing String String}

theorem take_moves [Timescale T] (engine : Engine T) (deadline : Option T)
    (files : Listing String String) (room budget : Nat) (pass : Pass T) :
    Pass.Moves engine deadline files pass
      { pass with
        queue := (take room budget pass.state pass.queue).queue
        state := (take room budget pass.state pass.queue).state } := by
  rcases pass with ⟨queue, state, fetched, holdings⟩
  simp only
  induction queue generalizing room budget state with
  | nil => cases room <;> cases budget <;> exact .refl
  | cons path queue induction =>
      cases room with
      | zero => cases budget <;> exact .refl
      | succ room =>
          cases budget with
          | zero => exact .refl
          | succ budget =>
              simp only [take]
              split
              next done => exact .head (.skip rfl done) (induction (room + 1) budget state)
              next undone =>
                exact .head (.start rfl (Bool.not_eq_true _ ▸ undone))
                  (induction room budget (state.start path))

theorem mem_processing_start (state : ResolutionState T) (path other : String) :
    other ∈ (state.start path).processing ↔ other ∈ state.processing ∨ other = path :=
  ResolutionState.mem_appendNew state.processing path other

theorem mem_processing_take (room budget : Nat) (state : ResolutionState T) (queue : List String)
    (path : String) :
    path ∈ (take room budget state queue).state.processing ↔
      path ∈ state.processing ∨ path ∈ (take room budget state queue).paths := by
  induction queue generalizing room budget state with
  | nil => cases room <;> cases budget <;> simp [take]
  | cons head queue induction =>
      cases room with
      | zero => cases budget <;> simp [take]
      | succ room =>
          cases budget with
          | zero => simp [take]
          | succ budget =>
              simp only [take]
              split
              · exact induction (room + 1) budget state
              · rw [induction room budget (state.start head), mem_processing_start, List.mem_cons,
                  or_assoc]

theorem not_done_of_mem_take {room budget : Nat} {state : ResolutionState T}
    {queue : List String} {path : String}
    (member : path ∈ (take room budget state queue).paths) : state.isDone path = false := by
  induction queue generalizing room budget state with
  | nil => cases room <;> cases budget <;> simp [take] at member
  | cons head queue induction =>
      cases room with
      | zero => cases budget <;> simp [take] at member
      | succ room =>
          cases budget with
          | zero => simp [take] at member
          | succ budget =>
              simp only [take] at member
              split at member
              next => exact induction member
              next undone =>
                rcases List.mem_cons.1 member with equal | inRest
                · exact equal ▸ Bool.not_eq_true _ ▸ undone
                · have later := induction inRest
                  rw [← Bool.not_eq_true, ResolutionState.isDone_iff] at later ⊢
                  exact fun done => later (done.imp_left fun inFlight =>
                    (mem_processing_start state head path).2 (Or.inl inFlight))

theorem nodup_take (room budget : Nat) (state : ResolutionState T) (queue : List String) :
    (take room budget state queue).paths.Nodup := by
  induction queue generalizing room budget state with
  | nil => cases room <;> cases budget <;> simp [take]
  | cons head queue induction =>
      cases room with
      | zero => cases budget <;> simp [take]
      | succ room =>
          cases budget with
          | zero => simp [take]
          | succ budget =>
              simp only [take]
              split
              · exact induction (room + 1) budget state
              · refine List.nodup_cons.2 ⟨fun again => ?_, induction room budget _⟩
                have undone := not_done_of_mem_take again
                rw [← Bool.not_eq_true, ResolutionState.isDone_iff] at undone
                exact undone (Or.inl ((mem_processing_start state head head).2 (Or.inr rfl)))

end Batch

namespace Engine

open Pass

variable {T : Type} [Timescale T] {engine : Engine T} {deadline : Option T}
  {files : Listing String String}

theorem runInTurn_moves (engine : Engine T) (files : Listing String String) (deadline : Option T)
    {paths : List String} (distinct : paths.Nodup) {pass : Pass T}
    (started : ∀ path ∈ paths, path ∈ pass.state.processing) :
    Moves engine deadline files pass (engine.runInTurn files deadline paths pass).2 := by
  induction paths generalizing pass with
  | nil => exact .refl
  | cons path rest induction =>
      rcases List.nodup_cons.1 distinct with ⟨notAgain, restDistinct⟩
      simp only [runInTurn]
      split
      next settled isSettled =>
        rcases settle_move isSettled (started path List.mem_cons_self) with ⟨move, processing⟩
        refine .head (.fetch _ path) (.head move (induction restDistinct fun other inRest => ?_))
        rw [processing, ResolutionState.mem_remove]
        exact ⟨started other (List.mem_cons_of_mem path inRest),
          fun equal => notAgain (equal ▸ inRest)⟩
      next => exact .single (.fetch _ path)

theorem settleAll_moves {outcomes : List (String × ImportOutcome T)}
    (distinct : (outcomes.map Prod.fst).Nodup) {pass : Pass T}
    (started : ∀ path ∈ outcomes.map Prod.fst, path ∈ pass.state.processing) :
    Moves engine deadline files pass (settleAll files outcomes pass).2 := by
  induction outcomes generalizing pass with
  | nil => exact .refl
  | cons outcome rest induction =>
      rcases outcome with ⟨path, outcome⟩
      rcases List.nodup_cons.1 distinct with ⟨notAgain, restDistinct⟩
      simp only [settleAll]
      split
      next settled isSettled =>
        rcases settle_move isSettled (started path List.mem_cons_self) with ⟨move, processing⟩
        refine .head move (induction restDistinct fun other inRest => ?_)
        rw [processing, ResolutionState.mem_remove]
        exact ⟨started other (List.mem_cons_of_mem path inRest),
          fun equal => notAgain (equal ▸ inRest)⟩
      next => exact .refl

theorem map_fst_fetchAll (engine : Engine T) (deadline : Option T) (paths : List String)
    (holdings : Holdings T) :
    (engine.fetchAll deadline paths holdings).1.map Prod.fst = paths := by
  induction paths generalizing holdings with
  | nil => rfl
  | cons path rest induction => simp only [fetchAll, List.map_cons, induction]

theorem fetchAll_moves (engine : Engine T) (files : Listing String String) (deadline : Option T)
    (paths : List String) (pass : Pass T) :
    Moves engine deadline files pass
      { pass with holdings := (engine.fetchAll deadline paths pass.holdings).2 } := by
  induction paths generalizing pass with
  | nil => exact .refl
  | cons path rest induction =>
      exact .head (.fetch pass path)
        (induction { pass with holdings := (engine.fetchImport deadline path pass.holdings).2 })

theorem runBatch_moves (engine : Engine T) (pooled : Bool) (files : Listing String String)
    (deadline : Option T) {paths : List String} (distinct : paths.Nodup) {pass : Pass T}
    (started : ∀ path ∈ paths, path ∈ pass.state.processing) :
    Moves engine deadline files pass (engine.runBatch pooled files deadline paths pass).2 := by
  unfold runBatch
  split
  · have fetched := map_fst_fetchAll engine deadline paths pass.holdings
    refine (fetchAll_moves engine files deadline paths pass).trans ?_
    apply settleAll_moves
    · rw [fetched]
      exact distinct
    · rw [fetched]
      exact started
  · exact runInTurn_moves engine files deadline distinct started

theorem drainRounds_moves (engine : Engine T) (pooled : Bool) (files : Listing String String)
    (deadline : Option T) (rounds budget : Nat) (pass : Pass T) :
    Moves engine deadline files pass
      (engine.drainRounds pooled files deadline rounds budget pass).2 := by
  induction rounds generalizing budget pass with
  | zero => exact .refl
  | succ rounds induction =>
      simp only [drainRounds]
      split
      · exact .refl
      · split
        · exact .refl
        · have taken := Batch.take_moves engine deadline files engine.maxWorkers budget pass
          have distinct := Batch.nodup_take engine.maxWorkers budget pass.state pass.queue
          have started : ∀ path ∈ (Batch.take engine.maxWorkers budget pass.state pass.queue).paths,
              path ∈ (Batch.take engine.maxWorkers budget pass.state pass.queue).state.processing :=
            fun path member => (Batch.mem_processing_take _ _ _ _ path).2 (Or.inr member)
          have run := taken.trans (runBatch_moves engine pooled files deadline distinct started)
          split
          · exact (run.trans (finishAll_moves engine deadline files _ _)).trans (induction _ _)
          · exact run.trans (finishAll_moves engine deadline files _ _)

theorem drain_moves (engine : Engine T) (pooled : Bool) (files : Listing String String)
    (deadline : Option T) (pass : Pass T) :
    Moves engine deadline files pass (engine.drain pooled files deadline pass).2 :=
  drainRounds_moves engine pooled files deadline _ _ pass

end Engine

end SourceTree
