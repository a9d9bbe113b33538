import SourceTree.Proofs.Engine.Moves

/-! # Twin passes

Two passes are twins when they differ in nothing but what they hold and why paths failed. Twins
take the same batches, and settling the same contents and failures leaves them twins. -/

namespace SourceTree

namespace ResolutionState

variable {T : Type}

structure Twin (left right : ResolutionState T) : Prop where
  discovered : left.discovered = right.discovered
  processing : left.processing = right.processing
  resolved : left.resolved = right.resolved
  failed : ∀ path, path ∈ left.failed ↔ path ∈ right.failed
  aliases : left.aliases = right.aliases

theorem Twin.isDone_eq {left right : ResolutionState T} (twin : Twin left right) (path : String) :
    left.isDone path = right.isDone path := by
  rw [Bool.eq_iff_iff, isDone_iff, isDone_iff, twin.processing, twin.resolved, twin.failed,
    twin.aliases]

theorem Twin.start {left right : ResolutionState T} (twin : Twin left right) (path : String) :
    Twin (left.start path) (right.start path) where
  discovered := congrArg (appendNew · path) twin.discovered
  processing := congrArg (appendNew · path) twin.processing
  resolved := twin.resolved
  failed := twin.failed
  aliases := twin.aliases

theorem Twin.finish {left right : ResolutionState T} (twin : Twin left right) (path : String) :
    Twin (left.finish path) (right.finish path) :=
  { twin with processing := congrArg (remove · path) twin.processing }

theorem Twin.fail {left right : ResolutionState T} (twin : Twin left right) (path : String)
    (leftFault rightFault : Fault T) :
    Twin (left.fail path leftFault) (right.fail path rightFault) :=
  { twin with
    processing := congrArg (remove · path) twin.processing
    failed := fun other => by simp [ResolutionState.fail, twin.failed other] }

theorem Twin.resolve {left right : ResolutionState T} (twin : Twin left right) (path : String) :
    Twin (left.resolve path) (right.resolve path) :=
  { twin with
    processing := congrArg (remove · path) twin.processing
    resolved := congrArg (appendNew · path) twin.resolved
    failed := fun other => by
      simp [ResolutionState.resolve, Listing.mem_erase, twin.failed other] }

theorem Twin.discover {left right : ResolutionState T} (twin : Twin left right) (path : String) :
    Twin (left.discover path) (right.discover path) :=
  { twin with discovered := congrArg (appendNew · path) twin.discovered }

end ResolutionState

namespace Batch

variable {T : Type}

theorem take_twin (room budget : Nat) {left right : ResolutionState T} (twin : left.Twin right)
    (queue : List String) :
    (take room budget left queue).paths = (take room budget right queue).paths ∧
      (take room budget left queue).queue = (take room budget right queue).queue ∧
      (take room budget left queue).budget = (take room budget right queue).budget ∧
      (take room budget left queue).state.Twin (take room budget right queue).state := by
  induction queue generalizing room budget left right with
  | nil => cases room <;> cases budget <;> exact ⟨rfl, rfl, rfl, twin⟩
  | cons path queue induction =>
      cases room with
      | zero => cases budget <;> exact ⟨rfl, rfl, rfl, twin⟩
      | succ room =>
          cases budget with
          | zero => exact ⟨rfl, rfl, rfl, twin⟩
          | succ budget =>
              simp only [take, twin.isDone_eq path]
              split
              · exact induction (room + 1) budget twin
              · rcases induction room budget (twin.start path) with ⟨paths, rest⟩
                exact ⟨congrArg (path :: ·) paths, rest⟩

theorem done_take (room budget : Nat) (state : ResolutionState T) (queue : List String) :
    (take room budget state queue).state.resolved = state.resolved ∧
      (take room budget state queue).state.failed = state.failed := by
  induction queue generalizing room budget state with
  | nil => cases room <;> cases budget <;> exact ⟨rfl, rfl⟩
  | cons path queue induction =>
      cases room with
      | zero => cases budget <;> exact ⟨rfl, rfl⟩
      | succ room =>
          cases budget with
          | zero => exact ⟨rfl, rfl⟩
          | succ budget =>
              simp only [take]
              split
              · exact induction (room + 1) budget state
              · exact induction room budget (state.start path)

end Batch

namespace Pass

variable {T : Type} {files : Listing String String}

structure Twin (left right : Pass T) : Prop where
  queue : left.queue = right.queue
  fetched : left.fetched = right.fetched
  state : left.state.Twin right.state

theorem Twin.discoverNested {left right : Pass T} (twin : Twin left right)
    (files : Listing String String) (importer path : String) :
    Twin (left.discoverNested files importer path) (right.discoverNested files importer path) := by
  unfold Pass.discoverNested
  simp only [twin.state.discovered]
  split
  · exact twin
  · exact ⟨congrArg (· ++ _) twin.queue, twin.fetched, twin.state.discover _⟩

theorem Twin.accept {left right : Pass T} (twin : Twin left right)
    (files : Listing String String) (path text : String) :
    Twin (left.accept files path text) (right.accept files path text) := by
  have received : Twin (left.receive path text) (right.receive path text) :=
    ⟨twin.queue, congrArg (·.insert path text) twin.fetched, twin.state.resolve path⟩
  revert received
  change Twin (left.receive path text) (right.receive path text) →
    Twin ((importPaths text).foldl (Pass.discoverNested files path) (left.receive path text))
      ((importPaths text).foldl (Pass.discoverNested files path) (right.receive path text))
  generalize left.receive path text = first
  generalize right.receive path text = second
  intro received
  induction importPaths text generalizing first second with
  | nil => exact received
  | cons nested rest induction => exact induction _ _ (received.discoverNested files path nested)

theorem Twin.started {left right : Pass T} (twin : Twin left right) {paths : List String}
    (started : ∀ path ∈ paths, path ∈ left.state.processing) :
    ∀ path ∈ paths, path ∈ right.state.processing := by
  rw [← twin.state.processing]
  exact started

theorem Twin.finishAll {left right : Pass T} (twin : Twin left right) (paths : List String) :
    Twin (left.finishAll paths) (right.finishAll paths) := by
  refine ⟨twin.queue, twin.fetched, ?_⟩
  have state := twin.state
  revert state
  unfold Pass.finishAll
  generalize left.state = first
  generalize right.state = second
  intro state
  induction paths generalizing first second with
  | nil => exact state
  | cons path rest induction => exact induction _ _ (state.finish path)

theorem done_finishAll (pass : Pass T) (paths : List String) :
    (pass.finishAll paths).state.resolved = pass.state.resolved ∧
      (pass.finishAll paths).state.failed = pass.state.failed := by
  unfold Pass.finishAll
  simp only
  generalize pass.state = state
  induction paths generalizing state with
  | nil => exact ⟨rfl, rfl⟩
  | cons path rest induction => exact induction (state.finish path)

/-! ## Settling and holdings -/

theorem discoverNested_holdings (files : Listing String String) (importer : String)
    (pass : Pass T) (holdings : Holdings T) (path : String) :
    Pass.discoverNested files importer { pass with holdings } path =
      { pass.discoverNested files importer path with holdings } := by
  unfold Pass.discoverNested
  simp only
  split <;> rfl

theorem accept_holdings (files : Listing String String) (pass : Pass T) (holdings : Holdings T)
    (path text : String) :
    Pass.accept files { pass with holdings } path text =
      { pass.accept files path text with holdings } := by
  change (importPaths text).foldl (Pass.discoverNested files path)
      { pass.receive path text with holdings } =
    { (importPaths text).foldl (Pass.discoverNested files path) (pass.receive path text) with
      holdings }
  generalize pass.receive path text = received
  induction importPaths text generalizing received with
  | nil => rfl
  | cons nested rest induction =>
      rw [List.foldl_cons, List.foldl_cons, discoverNested_holdings]
      exact induction (received.discoverNested files path nested)

end Pass

namespace Engine

open Pass

variable {T : Type} [Timescale T]

omit [Timescale T] in
theorem closing_twin (engine : Engine T) {left right : Pass T} (twin : Twin left right) :
    engine.closing left = engine.closing right := by
  simp only [closing, twin.queue, twin.state.isDone_eq]

omit [Timescale T] in
theorem settleAll_holdings (files : Listing String String)
    (outcomes : List (String × ImportOutcome T)) (pass : Pass T) (holdings : Holdings T) :
    settleAll files outcomes { pass with holdings } =
      ((settleAll files outcomes pass).1, { (settleAll files outcomes pass).2 with holdings }) := by
  induction outcomes generalizing pass with
  | nil => rfl
  | cons entry rest induction =>
      rcases entry with ⟨path, outcome⟩
      cases outcome with
      | content text =>
          simp only [settleAll, settle, accept_holdings]
          exact induction (pass.accept files path text)
      | failed failure =>
          exact induction { pass with state := pass.state.fail path (.known failure) }
      | interrupted interruption => rfl

omit [Timescale T] in
theorem holdings_settleAll (files : Listing String String)
    (outcomes : List (String × ImportOutcome T)) (pass : Pass T) :
    (settleAll files outcomes pass).2.holdings = pass.holdings := by
  have unchanged := settleAll_holdings files outcomes pass pass.holdings
  exact congrArg (fun result : Option (Interruption T) × Pass T => result.2.holdings) unchanged

/-- Without a pool a batch is fetched and settled alternately. Unless it is interrupted, the
outcome is the same as with a pool. -/
theorem runInTurn_cases (engine : Engine T) (files : Listing String String) (deadline : Option T)
    (paths : List String) (pass : Pass T) :
    (engine.runInTurn files deadline paths pass).1 =
        (settleAll files (engine.fetchAll deadline paths pass.holdings).1
          { pass with holdings := (engine.fetchAll deadline paths pass.holdings).2 }).1 ∧
      ((engine.runInTurn files deadline paths pass).1 = none →
        engine.runInTurn files deadline paths pass =
          settleAll files (engine.fetchAll deadline paths pass.holdings).1
            { pass with holdings := (engine.fetchAll deadline paths pass.holdings).2 }) := by
  induction paths generalizing pass with
  | nil => exact ⟨rfl, fun _ => rfl⟩
  | cons path rest induction =>
      simp only [runInTurn, fetchAll, settleAll]
      generalize engine.fetchImport deadline path pass.holdings = result
      rcases result with ⟨outcome, holdings⟩
      cases outcome with
      | content text =>
          simp only [settle, accept_holdings]
          exact induction { pass.accept files path text with holdings }
      | failed failure =>
          exact induction
            { pass with state := pass.state.fail path (.known failure), holdings }
      | interrupted interruption => exact ⟨rfl, fun isNone => by cases isNone⟩

theorem runBatch_cases (engine : Engine T) (pooled : Bool) (files : Listing String String)
    (deadline : Option T) (paths : List String) (pass : Pass T) :
    (engine.runBatch pooled files deadline paths pass).1 =
        (settleAll files (engine.fetchAll deadline paths pass.holdings).1
          { pass with holdings := (engine.fetchAll deadline paths pass.holdings).2 }).1 ∧
      ((engine.runBatch pooled files deadline paths pass).1 = none →
        engine.runBatch pooled files deadline paths pass =
          settleAll files (engine.fetchAll deadline paths pass.holdings).1
            { pass with holdings := (engine.fetchAll deadline paths pass.holdings).2 }) := by
  unfold runBatch
  split
  · exact ⟨rfl, fun _ => rfl⟩
  · exact runInTurn_cases engine files deadline paths pass

end Engine

end SourceTree
