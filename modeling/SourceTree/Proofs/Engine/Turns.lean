import SourceTree.Proofs.Engine.Budget

/-! # One path at a time

A drain in turns takes one path from the queue, settles it, and only then looks at the next.
Draining in batches comes to the same as long as no fetch is interrupted: the paths of a batch are
those that would have had their turns one after another, and what is settled between two turns
neither reorders the queue nor makes a path of the batch done. -/

namespace SourceTree

open ImportPath

namespace Pass

variable {T : Type} {files : Listing String String}

/-! ## Accepting as an equation -/

def discoveries (files : Listing String String) (importer : String) :
    (known : List String) → List String → List String
  | _, [] => []
  | known, path :: rest =>
      let nested := meantIn importer path
      if nested = importer ∨ nested ∈ files ∨ nested ∈ known then
        discoveries files importer known rest
      else
        nested :: discoveries files importer (known ++ [nested]) rest

theorem foldl_discoverNested_eq (files : Listing String String) (importer : String)
    (paths : List String) (pass : Pass T) :
    paths.foldl (discoverNested files importer) pass =
      pass.enqueue (discoveries files importer pass.state.discovered paths) := by
  induction paths generalizing pass with
  | nil => exact (enqueue_nil pass).symm
  | cons path rest induction =>
      rw [List.foldl_cons, induction]
      simp only [discoverNested, discoveries]
      split
      next => rfl
      next unknown =>
        simp only [not_or] at unknown
        simp only [enqueue, ResolutionState.discover, ResolutionState.appendNew,
          if_neg unknown.2.2, List.append_assoc, List.cons_append, List.nil_append]

theorem accept_eq (files : Listing String String) (pass : Pass T) (path text : String) :
    pass.accept files path text = (pass.receive path text).enqueue
      (discoveries files path pass.state.discovered (importPaths text)) :=
  foldl_discoverNested_eq files path (importPaths text) (pass.receive path text)

/-! ## Marks -/

def marked (pass : Pass T) (marks : List String) : Pass T :=
  { pass with state := { pass.state with processing := marks } }

theorem marked_self (pass : Pass T) : pass.marked pass.state.processing = pass := rfl

theorem marked_marked (pass : Pass T) (first second : List String) :
    (pass.marked first).marked second = pass.marked second := rfl

theorem settleAll_marked (files : Listing String String)
    (outcomes : List (String × ImportOutcome T)) (pass : Pass T) (marks : List String) :
    ∃ rest, Engine.settleAll files outcomes (pass.marked marks) =
      ((Engine.settleAll files outcomes pass).1,
        (Engine.settleAll files outcomes pass).2.marked rest) := by
  induction outcomes generalizing pass marks with
  | nil => exact ⟨marks, rfl⟩
  | cons entry rest induction =>
      rcases entry with ⟨path, outcome⟩
      cases outcome with
      | content text =>
          have accepted : (pass.marked marks).accept files path text =
              (pass.accept files path text).marked (ResolutionState.remove marks path) := by
            rw [accept_eq, accept_eq]
            rfl
          simp only [Engine.settleAll, settle, accepted]
          exact induction (pass.accept files path text) _
      | failed failure =>
          exact induction { pass with state := pass.state.fail path (.known failure) }
            (ResolutionState.remove marks path)
      | interrupted interruption => exact ⟨marks, rfl⟩

theorem finishAll_marked (pass : Pass T) (paths : List String) :
    ∃ marks, pass.finishAll paths = pass.marked marks :=
  ⟨_, finishAll_eq pass paths⟩

end Pass

namespace Engine

open Pass

variable {T : Type} [Timescale T]

/-! ## Turns -/

def drainInTurn (engine : Engine T) (files : Listing String String) :
    (budget : Nat) → Pass T → Drain T
  | 0, pass => ⟨[], engine.closing pass, pass⟩
  | budget + 1, pass =>
      match pass.queue with
      | [] => ⟨[], engine.closing pass, pass⟩
      | path :: queue =>
          if pass.state.isDone path then
            drainInTurn engine files budget { pass with queue }
          else
            let (outcome, holdings) := engine.fetchImport none path pass.holdings
            match Pass.settle files { pass with queue, holdings } path outcome with
            | .ok settled =>
                let rest := drainInTurn engine files budget settled
                { rest with outcomes := (path, outcome) :: rest.outcomes }
            | .error cause =>
                ⟨[(path, outcome)], engine.exitFor pass.state cause, { pass with queue, holdings }⟩

theorem drainInTurn_stop (engine : Engine T) (files : Listing String String) {budget : Nat}
    {pass : Pass T} (stops : pass.queue = [] ∨ budget = 0) :
    engine.drainInTurn files budget pass = ⟨[], engine.closing pass, pass⟩ := by
  cases budget with
  | zero => rfl
  | succ budget =>
      have isEmpty : pass.queue = [] := stops.resolve_right (Nat.succ_ne_zero budget)
      simp only [drainInTurn, isEmpty]

theorem drainInTurn_skip (engine : Engine T) (files : Listing String String) (budget : Nat)
    {pass : Pass T} {path : String} {queue : List String} (next : pass.queue = path :: queue)
    (done : pass.state.isDone path = true) :
    engine.drainInTurn files (budget + 1) pass =
      engine.drainInTurn files budget { pass with queue } := by
  simp only [drainInTurn, next, done, if_true]

theorem drainInTurn_settle (engine : Engine T) (files : Listing String String) (budget : Nat)
    {pass settled : Pass T} {path : String} {queue : List String} {outcome : ImportOutcome T}
    {holdings : Holdings T} (next : pass.queue = path :: queue)
    (pending : pass.state.isDone path = false)
    (told : engine.fetchImport none path pass.holdings = (outcome, holdings))
    (isSettled : Pass.settle files { pass with queue, holdings } path outcome = .ok settled) :
    engine.drainInTurn files (budget + 1) pass =
      { engine.drainInTurn files budget settled with
        outcomes := (path, outcome) :: (engine.drainInTurn files budget settled).outcomes } := by
  simp only [drainInTurn, next, pending, told, isSettled, Bool.false_eq_true, if_false]

theorem drainInTurn_interrupted (engine : Engine T) (files : Listing String String) (budget : Nat)
    {pass : Pass T} {path : String} {queue : List String} {cause : Interruption T}
    {holdings : Holdings T} (next : pass.queue = path :: queue)
    (pending : pass.state.isDone path = false)
    (told : engine.fetchImport none path pass.holdings = (.interrupted cause, holdings)) :
    (engine.drainInTurn files (budget + 1) pass).outcomes = [(path, .interrupted cause)] := by
  simp only [drainInTurn, next, pending, told, Pass.settle, Bool.false_eq_true, if_false]

omit [Timescale T] in
theorem isDone_settle {pass settled : Pass T} {path : String} {outcome : ImportOutcome T}
    (isSettled : pass.settle files path outcome = .ok settled) (other : String) :
    settled.state.isDone other = true ↔ pass.state.isDone other = true ∨ other = path := by
  rw [ResolutionState.isDone_iff, ResolutionState.isDone_iff]
  cases outcome with
  | content text =>
      cases isSettled
      rw [processing_accept, resolved_accept, failed_accept, aliases_accept]
      simp only [ResolutionState.mem_remove, ResolutionState.mem_appendNew, Listing.mem_erase]
      grind
  | failed failure =>
      cases isSettled
      simp only [ResolutionState.fail, ResolutionState.mem_remove, Listing.mem_insert]
      grind
  | interrupted cause => cases isSettled

omit [Timescale T] in
theorem isDone_start (state : ResolutionState T) (path other : String) :
    (state.start path).isDone other = true ↔ state.isDone other = true ∨ other = path := by
  rw [ResolutionState.isDone_iff, ResolutionState.isDone_iff, Batch.mem_processing_start]
  simp only [ResolutionState.start, ResolutionState.discover]
  grind

omit [Timescale T] in
theorem settle_requeue (pass : Pass T) {settled : Pass T} {path : String}
    {outcome : ImportOutcome T} (isSettled : pass.settle files path outcome = .ok settled) :
    ∃ added, settled.queue = pass.queue ++ added ∧ settled.holdings = pass.holdings ∧
      ∀ queue holdings, Pass.settle files { pass with queue, holdings } path outcome =
        .ok { settled with queue := queue ++ added, holdings } := by
  cases outcome with
  | content text =>
      cases isSettled
      refine ⟨discoveries files path pass.state.discovered (importPaths text), ?_, ?_, ?_⟩
      · rw [accept_eq]
        rfl
      · exact holdings_accept files pass path text
      · intro queue holdings
        rw [Pass.settle, accept_eq, accept_eq]
        rfl
  | failed failure =>
      cases isSettled
      refine ⟨[], (List.append_nil _).symm, rfl, fun queue holdings => ?_⟩
      rw [List.append_nil]
      rfl
  | interrupted cause => cases isSettled

omit [Timescale T] in
theorem settles_of_settle {pass settled : Pass T} {path : String} {outcome : ImportOutcome T}
    (isSettled : pass.settle files path outcome = .ok settled) : outcome.settles = true := by
  cases outcome with
  | content text => rfl
  | failed failure => rfl
  | interrupted cause => cases isSettled

omit [Timescale T] in
theorem unsettled_cons {outcome : ImportOutcome T} (settles : outcome.settles = true)
    (path : String) (rest : List (String × ImportOutcome T)) :
    unsettled ((path, outcome) :: rest) = unsettled rest := by
  simp only [unsettled, List.dropWhile_cons, settles, if_true]

/-- The turns of the paths of a batch: unless one is interrupted, they leave what settling the
batch leaves. Imports that were found since the batch was taken stand at the end of the queue. -/
theorem drainInTurn_take (engine : Engine T) (files : Listing String String) (room budget : Nat)
    {state : ResolutionState T} {queue extra : List String} {pass : Pass T}
    (next : pass.queue = queue ++ extra)
    (same : ∀ path, state.isDone path = pass.state.isDone path) :
    let batch := Batch.take room budget state queue
    let told := engine.fetchAll none batch.paths pass.holdings
    let settled := settleAll files told.1
      { pass with queue := batch.queue ++ extra, holdings := told.2 }
    (unsettled told.1 = [] → engine.drainInTurn files budget pass =
        (engine.drainInTurn files batch.budget settled.2).after told.1) ∧
      (unsettled told.1 ≠ [] → unsettled (engine.drainInTurn files budget pass).outcomes ≠ []) := by
  fun_induction Batch.take room budget state queue generalizing pass extra with
  | case1 room budget state path queue done induction =>
      have isDone : pass.state.isDone path = true := (same path).symm.trans done
      rw [drainInTurn_skip engine files budget next isDone]
      exact @induction extra { pass with queue := queue ++ extra } rfl same
  | case2 room budget state path queue undone rest =>
      next induction =>
        have pending : pass.state.isDone path = false :=
          (same path).symm.trans (Bool.not_eq_true _ ▸ undone)
        simp only [fetchAll]
        generalize told : engine.fetchImport none path pass.holdings = result
        rcases result with ⟨outcome, holdings⟩
        cases isSettled : Pass.settle files { pass with queue := queue ++ extra, holdings } path
            outcome with
        | error cause =>
            cases outcome with
            | content text => cases isSettled
            | failed failure => cases isSettled
            | interrupted interruption =>
                have alone := drainInTurn_interrupted engine files budget next pending told
                refine ⟨fun all => absurd all (List.cons_ne_nil _ _), fun _ => ?_⟩
                rw [alone]
                exact List.cons_ne_nil _ _
        | ok settled =>
            rcases settle_requeue _ isSettled with ⟨added, isQueue, isHeld, requeue⟩
            simp only at isQueue isHeld
            have turn := drainInTurn_settle engine files budget next pending told isSettled
            have sameAfter : ∀ other,
                (state.start path).isDone other = settled.state.isDone other := by
              intro other
              rw [Bool.eq_iff_iff, isDone_start, isDone_settle isSettled, same other]
            have later := @induction (extra ++ added) settled
              (isQueue.trans (List.append_assoc queue extra added)) sameAfter
            have settles := settles_of_settle isSettled
            simp only [isHeld] at later
            simp only [unsettled_cons settles, turn, settleAll, requeue, List.append_assoc]
            refine ⟨fun all => ?_, later.2⟩
            rw [later.1 all]
            rfl
  | case3 room budget state queue none =>
      refine ⟨fun _ => ?_, fun some => absurd rfl some⟩
      simp only [fetchAll, settleAll, Drain.after, List.nil_append, ← next]

/-! ## Batches -/

theorem fetchBatch_eq_fetchAll (engine : Engine T) (pooled : Bool) (deadline : Option T)
    {paths : List String} {holdings : Holdings T}
    (all : unsettled (engine.fetchBatch pooled deadline paths holdings).1 = []) :
    engine.fetchBatch pooled deadline paths holdings =
      engine.fetchAll deadline paths holdings := by
  have told := fetchAll_map_fst_fetchBatch engine pooled deadline paths holdings
  rw [fetchBatch_complete engine pooled deadline all] at told
  exact told.symm

theorem unsettled_fetchAll (engine : Engine T) (pooled : Bool) (deadline : Option T)
    {paths : List String} {holdings : Holdings T}
    (all : unsettled (engine.fetchAll deadline paths holdings).1 = []) :
    unsettled (engine.fetchBatch pooled deadline paths holdings).1 = [] := by
  have told := fetchAll_map_fst_fetchBatch engine pooled deadline paths holdings
  rcases fetchBatch_prefix engine pooled deadline paths holdings with ⟨others, isBatch⟩
  rw [← isBatch, fetchAll_append, told, unsettled, List.dropWhile_eq_nil_iff] at all
  exact List.dropWhile_eq_nil_iff.2 fun outcome asked => all outcome (List.mem_append_left _ asked)

theorem round_pass_eq (engine : Engine T) (pooled : Bool) (files : Listing String String)
    (deadline : Option T) (budget : Nat) {pass : Pass T}
    (queued : ∀ path ∈ pass.queue, path ∈ pass.state.discovered) :
    let batch := Batch.take engine.maxWorkers budget pass.state pass.queue
    let told := engine.fetchBatch pooled deadline batch.paths pass.holdings
    (engine.round pooled files deadline budget pass).pass =
      (settleAll files told.1 { pass with queue := batch.queue, holdings := told.2 }).2 := by
  have advances := round_advances engine pooled files deadline budget pass
  have known := Batch.state_take engine.maxWorkers budget queued
  simp only [round, Round.pass] at advances ⊢
  generalize Batch.take engine.maxWorkers budget pass.state pass.queue = batch at *
  generalize engine.fetchBatch pooled deadline batch.paths pass.holdings = told at *
  rcases told with ⟨outcomes, holdings⟩
  simp only at advances ⊢
  have isMarked : ({ pass with queue := batch.queue, state := batch.state, holdings } : Pass T) =
      ({ pass with queue := batch.queue, holdings } : Pass T).marked batch.state.processing := by
    rw [known]
    rfl
  rcases settleAll_marked files outcomes { pass with queue := batch.queue, holdings }
    batch.state.processing with ⟨rest, settledMarked⟩
  rw [isMarked, settledMarked] at advances ⊢
  rcases finishAll_marked ((settleAll files outcomes
    { pass with queue := batch.queue, holdings }).2.marked rest) batch.paths with
    ⟨marks, finished⟩
  rw [finished, marked_marked] at advances ⊢
  -- Neither way leaves a mark, because nothing that is asked for was marked before.
  have unmarked := processing_settleAll files outcomes { pass with queue := batch.queue, holdings }
  have idle : ∀ path ∈ pass.state.processing, path ∉ (settled outcomes).map Prod.fst := by
    intro path inFlight isSettled
    have asked := ((settled_sublist outcomes).map Prod.fst).subset isSettled
    exact ((pass.state.not_isDone_iff path).1 (advances.pending path asked)).1 inFlight
  rw [List.filter_eq_self.2 fun path inFlight => decide_eq_true (idle path inFlight)] at unmarked
  have same := advances.processing.trans unmarked.symm
  exact (congrArg (marked _) same).trans (marked_self _)

theorem drainInTurn_round (engine : Engine T) (pooled : Bool) (files : Listing String String)
    (budget : Nat) {pass : Pass T} (queued : ∀ path ∈ pass.queue, path ∈ pass.state.discovered) :
    let round := engine.round pooled files none budget pass
    (unsettled round.outcomes = [] → engine.drainInTurn files budget pass =
        (engine.drainInTurn files round.budget round.pass).after round.outcomes) ∧
      (unsettled round.outcomes ≠ [] →
        unsettled (engine.drainInTurn files budget pass).outcomes ≠ []) := by
  have turns := drainInTurn_take engine files engine.maxWorkers budget
    (List.append_nil pass.queue).symm fun path => rfl
  have isPass := round_pass_eq engine pooled files none budget queued
  simp only at turns isPass ⊢
  rw [isPass]
  simp only [round, List.append_nil] at turns ⊢
  refine ⟨fun all => ?_, fun broken => turns.2 fun all => broken ?_⟩
  · have told := fetchBatch_eq_fetchAll engine pooled none all
    rw [told] at all ⊢
    exact turns.1 all
  · exact unsettled_fetchAll engine pooled none all

/-- A drain in batches that is not interrupted takes every path its turn. -/
theorem drainLogged_inTurn {engine : Engine T} (workers : 0 < engine.maxWorkers) (pooled : Bool)
    (files : Listing String String) {rounds budget : Nat} (enough : budget ≤ rounds)
    {pass : Pass T} (queued : ∀ path ∈ pass.queue, path ∈ pass.state.discovered) :
    let batched := engine.drainLogged pooled files none rounds budget pass
    (unsettled batched.outcomes = [] → batched = engine.drainInTurn files budget pass) ∧
      (unsettled batched.outcomes ≠ [] →
        unsettled (engine.drainInTurn files budget pass).outcomes ≠ []) := by
  induction rounds generalizing budget pass with
  | zero =>
      have spent : budget = 0 := Nat.le_zero.1 enough
      subst spent
      exact ⟨fun _ => rfl, fun broken => absurd rfl broken⟩
  | succ rounds induction =>
      by_cases stops : pass.queue = [] ∨ budget = 0
      · rw [drainLogged_stop engine pooled files none (rounds + 1) stops,
          drainInTurn_stop engine files stops]
        exact ⟨fun _ => rfl, fun broken => absurd rfl broken⟩
      · have less := budget_round_lt workers pooled files none stops
        have affords := Nat.le_of_lt_succ (less.trans_le enough)
        have turns := drainInTurn_round engine pooled files budget queued
        rcases round_takes engine pooled files none budget queued with ⟨taken, takes, _, _⟩
        rcases drainLogged_succ_cases engine pooled files none rounds stops with
          ⟨late, _⟩ | ⟨_, ⟨all, goesOn⟩ | ⟨broken, cause, interrupted⟩⟩
        · cases late
        · have rest := induction affords (takes.queued queued)
          simp only [goesOn, turns.1 all, Drain.after, unsettled_append all]
          exact ⟨fun later => by rw [rest.1 later], rest.2⟩
        · simp only [interrupted]
          exact ⟨fun all => absurd all broken, turns.2⟩

end Engine

end SourceTree
