import SourceTree.Proofs.Engine.Outcomes

/-! # Draining, round by round

A round takes a batch, asks for it and settles what it is told up to the first interruption; then
the marks of the batch are removed. A drain is a series of rounds of which only the last may be
interrupted. What a round does to the pass composes, so that a drain is accounted for by the
outcomes of its fetches, whichever way it ends. -/

namespace SourceTree

namespace Batch

variable {T : Type}

theorem processing_take (room budget : Nat) (state : ResolutionState T) (queue : List String) :
    (take room budget state queue).state.processing =
      state.processing ++ (take room budget state queue).paths := by
  fun_induction take room budget state queue with
  | case1 room budget state path queue done induction => exact induction
  | case2 room budget state path queue undone rest induction =>
      have absent : path ∉ state.processing :=
        ((state.not_isDone_iff path).1 (Bool.not_eq_true _ ▸ undone)).1
      have marked : (state.start path).processing = state.processing ++ [path] := if_neg absent
      rw [induction, marked, List.append_assoc]
      rfl
  | case3 => exact (List.append_nil _).symm

theorem discovered_take (room budget : Nat) (state : ResolutionState T) (queue : List String) :
    state.discovered <+: (take room budget state queue).state.discovered ∧
      ∀ path ∈ (take room budget state queue).paths,
        path ∈ (take room budget state queue).state.discovered := by
  fun_induction take room budget state queue with
  | case1 room budget state path queue done induction => exact induction
  | case2 room budget state path queue undone rest induction =>
      have grows : state.discovered <+: (state.start path).discovered := by
        simp only [ResolutionState.start, ResolutionState.discover, ResolutionState.appendNew]
        split
        · exact List.prefix_refl _
        · exact List.prefix_append _ _
      refine ⟨grows.trans induction.1, fun other taken => ?_⟩
      rcases List.mem_cons.1 taken with equal | later
      · subst equal
        exact induction.1.subset ((ResolutionState.mem_appendNew _ _ _).2 (Or.inr rfl))
      · exact induction.2 other later
  | case3 => exact ⟨List.prefix_refl _, fun _ taken => absurd taken List.not_mem_nil⟩

theorem aliases_take (room budget : Nat) (state : ResolutionState T) (queue : List String) :
    (take room budget state queue).state.aliases = state.aliases := by
  fun_induction take room budget state queue with
  | case1 room budget state path queue done induction => exact induction
  | case2 room budget state path queue undone rest induction => exact induction
  | case3 => rfl

theorem unmark_mark {marks paths unmarked : List String} (fresh : ∀ path ∈ paths, path ∉ marks)
    (taken : ∀ path ∈ unmarked, path ∈ paths) :
    ((marks ++ paths).filter fun path => path ∉ unmarked).filter (fun path => path ∉ paths) =
      marks := by
  rw [List.filter_filter, List.filter_append, List.filter_eq_self.2, List.filter_eq_nil_iff.2,
    List.append_nil]
  · intro path inBatch
    simp [inBatch]
  · intro path marked
    have untaken : path ∉ paths := fun inBatch => fresh path inBatch marked
    have kept : path ∉ unmarked := fun gone => untaken (taken path gone)
    simp [untaken, kept]

end Batch

namespace Pass

variable {T : Type}

theorem finishAll_eq (pass : Pass T) (paths : List String) :
    pass.finishAll paths = { pass with
      state := { pass.state with
        processing := pass.state.processing.filter fun path => path ∉ paths } } := by
  induction paths generalizing pass with
  | nil => simp [finishAll]
  | cons path rest induction =>
      have first : pass.finishAll (path :: rest) =
          ({ pass with state := pass.state.finish path } : Pass T).finishAll rest := rfl
      rw [first, induction]
      simp only [ResolutionState.finish, ResolutionState.remove, List.filter_filter]
      congr 3
      funext other
      simp only [List.mem_cons, not_or, Bool.decide_and, Bool.and_comm, ne_eq]

open Engine

/-- What fetches make of a pass: their outcomes are settled up to the first interruption, nothing
stays in flight, and nothing that was done, or that was asked for already, is asked for. -/
structure Advances (before : Pass T) (outcomes : List (String × ImportOutcome T))
    (after : Pass T) : Prop where
  settles : Settles before (settled outcomes) after
  processing : after.state.processing = before.state.processing
  distinct : (outcomes.map Prod.fst).Nodup
  pending : ∀ path ∈ outcomes.map Prod.fst, before.state.isDone path = false
  known : ∀ path ∈ outcomes.map Prod.fst, path ∈ after.state.discovered

theorem Advances.refl (pass : Pass T) : Advances pass [] pass where
  settles := .refl pass
  processing := rfl
  distinct := List.nodup_nil
  pending := fun _ asked => absurd asked List.not_mem_nil
  known := fun _ asked => absurd asked List.not_mem_nil

theorem Advances.settled_done {before after : Pass T}
    {outcomes : List (String × ImportOutcome T)} (advances : Advances before outcomes after)
    {path : String} (asked : path ∈ (settled outcomes).map Prod.fst) :
    path ∈ after.state.resolved ∨ path ∈ after.state.failed := by
  rw [advances.settles.resolved, advances.settles.failed, List.mem_append]
  rcases mem_map_settled_iff.1 asked with isText | isFailure
  · exact Or.inl (Or.inr isText)
  · exact Or.inr (Or.inr isFailure)

theorem Advances.isDone {before after : Pass T} {outcomes : List (String × ImportOutcome T)}
    (advances : Advances before outcomes after) {path : String}
    (done : before.state.isDone path = true) : after.state.isDone path = true := by
  rw [ResolutionState.isDone_iff] at done ⊢
  rw [advances.processing, advances.settles.resolved, advances.settles.failed,
    advances.settles.aliases, List.mem_append]
  exact done.imp_right (Or.imp Or.inl (Or.imp Or.inl id))

theorem Advances.trans {first second third : Pass T}
    {outcomes later : List (String × ImportOutcome T)} (left : Advances first outcomes second)
    (all : unsettled outcomes = []) (right : Advances second later third) :
    Advances first (outcomes ++ later) third where
  settles := by
    have earlier := left.settles
    rw [settled_eq_self all] at earlier
    rw [settled_append all]
    exact earlier.trans right.settles
  processing := right.processing.trans left.processing
  distinct := by
    rw [List.map_append, List.nodup_append]
    refine ⟨left.distinct, right.distinct, ?_⟩
    rintro path inFirst other inLater rfl
    rw [← settled_eq_self all] at inFirst
    have done : second.state.isDone path = true :=
      (ResolutionState.isDone_iff _ _).2
        (Or.inr ((left.settled_done inFirst).imp_right Or.inl))
    exact Bool.false_ne_true ((right.pending path inLater).symm.trans done)
  pending := by
    intro path asked
    rw [List.map_append, List.mem_append] at asked
    rcases asked with inFirst | inLater
    · exact left.pending path inFirst
    · refine Bool.eq_false_iff.2 fun done => ?_
      exact Bool.false_ne_true ((right.pending path inLater).symm.trans (left.isDone done))
  known := by
    intro path asked
    rw [List.map_append, List.mem_append] at asked
    rcases asked with inFirst | inLater
    · exact right.settles.discovered.subset (left.known path inFirst)
    · exact right.known path inLater

end Pass

/-! ## Rounds -/

structure Round (T : Type) where
  paths : List String
  outcomes : List (String × ImportOutcome T)
  interruption : Option (Interruption T)
  /-- The pass with its paths still marked as in flight. -/
  run : Pass T
  budget : Nat

def Round.pass {T : Type} (round : Round T) : Pass T :=
  round.run.finishAll round.paths

namespace Engine

open Pass

variable {T : Type} [Timescale T]

def round (engine : Engine T) (pooled : Bool) (files : Listing String String)
    (deadline : Option T) (budget : Nat) (pass : Pass T) : Round T :=
  let batch := Batch.take engine.maxWorkers budget pass.state pass.queue
  let (outcomes, holdings) := engine.fetchBatch pooled deadline batch.paths pass.holdings
  let (interruption, run) :=
    settleAll files outcomes { pass with queue := batch.queue, state := batch.state, holdings }
  ⟨batch.paths, outcomes, interruption, run, batch.budget⟩

theorem round_advances (engine : Engine T) (pooled : Bool) (files : Listing String String)
    (deadline : Option T) (budget : Nat) (pass : Pass T) :
    Advances pass (engine.round pooled files deadline budget pass).outcomes
      (engine.round pooled files deadline budget pass).pass := by
  have asked := fetchBatch_prefix engine pooled deadline
    (Batch.take engine.maxWorkers budget pass.state pass.queue).paths pass.holdings
  have distinct := asked.sublist.nodup
    (Batch.nodup_take engine.maxWorkers budget pass.state pass.queue)
  have pending : ∀ path ∈ (Batch.take engine.maxWorkers budget pass.state pass.queue).paths,
      pass.state.isDone path = false := fun path taken => Batch.not_done_of_mem_take taken
  rcases Batch.done_take engine.maxWorkers budget pass.state pass.queue with ⟨resolved, failed⟩
  rcases Batch.discovered_take engine.maxWorkers budget pass.state pass.queue with
    ⟨discovered, known⟩
  have aliases := Batch.aliases_take engine.maxWorkers budget pass.state pass.queue
  have processing := Batch.processing_take engine.maxWorkers budget pass.state pass.queue
  -- From here on only these facts about the batch matter, and no longer how it was taken.
  simp only [round, Round.pass, finishAll_eq]
  generalize Batch.take engine.maxWorkers budget pass.state pass.queue = batch at *
  generalize engine.fetchBatch pooled deadline batch.paths pass.holdings = told at *
  rcases told with ⟨outcomes, holdings⟩
  simp only at asked distinct ⊢
  have fresh : ∀ path ∈ outcomes.map Prod.fst,
      path ∉ batch.state.resolved ∧ path ∉ batch.state.failed := by
    intro path isAsked
    have unasked := (pass.state.not_isDone_iff path).1 (pending path (asked.subset isAsked))
    rw [resolved, failed]
    exact ⟨unasked.2.1, unasked.2.2.1⟩
  have settles : Settles { pass with queue := batch.queue, state := batch.state, holdings }
      (settled outcomes) _ := settleAll_settles files distinct fresh
  have marks := processing_settleAll files outcomes
    { pass with queue := batch.queue, state := batch.state, holdings }
  exact
    { settles :=
        { fetched := settles.fetched
          resolved := settles.resolved.trans (by rw [resolved])
          failed := fun path => (settles.failed path).trans (by rw [failed])
          discovered := discovered.trans settles.discovered
          aliases := settles.aliases.trans aliases }
      processing := by
        simp only at marks ⊢
        have idle : ∀ path ∈ batch.paths, path ∉ pass.state.processing := fun path taken =>
          ((pass.state.not_isDone_iff path).1 (pending path taken)).1
        have settledTaken : ∀ path ∈ (settled outcomes).map Prod.fst, path ∈ batch.paths :=
          fun path isSettled => asked.subset (((settled_sublist outcomes).map Prod.fst).subset
            isSettled)
        rw [marks, processing]
        exact Batch.unmark_mark idle settledTaken
      distinct := distinct
      pending := fun path isAsked => pending path (asked.subset isAsked)
      known := fun path isAsked =>
        settles.discovered.subset (known path (asked.subset isAsked)) }

theorem round_interruption (engine : Engine T) (pooled : Bool) (files : Listing String String)
    (deadline : Option T) (budget : Nat) (pass : Pass T) :
    ((engine.round pooled files deadline budget pass).interruption = none ∧
        unsettled (engine.round pooled files deadline budget pass).outcomes = []) ∨
      ∃ path cause rest,
        (engine.round pooled files deadline budget pass).interruption = some cause ∧
          unsettled (engine.round pooled files deadline budget pass).outcomes =
            (path, .interrupted cause) :: rest :=
  settleAll_cases files _ _

theorem fetchAll_round (engine : Engine T) (pooled : Bool) (files : Listing String String)
    (deadline : Option T) (budget : Nat) (pass : Pass T) :
    engine.fetchAll deadline
        ((engine.round pooled files deadline budget pass).outcomes.map Prod.fst) pass.holdings =
      ((engine.round pooled files deadline budget pass).outcomes,
        (engine.round pooled files deadline budget pass).pass.holdings) := by
  have told := fetchAll_map_fst_fetchBatch engine pooled deadline
    (Batch.take engine.maxWorkers budget pass.state pass.queue).paths pass.holdings
  simp only [round, Round.pass, finishAll_eq, holdings_settleAll]
  exact told

theorem unresolved_round (engine : Engine T) (pooled : Bool) (files : Listing String String)
    (deadline : Option T) (budget : Nat) (pass : Pass T) :
    (engine.round pooled files deadline budget pass).pass.state.unresolved =
      (engine.round pooled files deadline budget pass).run.state.unresolved := by
  rw [Round.pass, finishAll_eq]
  rfl

/-! ## Drains -/

structure Drain (T : Type) where
  outcomes : List (String × ImportOutcome T)
  exit : DrainExit T
  last : Pass T

def drainLogged (engine : Engine T) (pooled : Bool) (files : Listing String String)
    (deadline : Option T) : (rounds budget : Nat) → Pass T → Drain T
  | 0, _, pass => ⟨[], engine.closing pass, pass⟩
  | rounds + 1, budget, pass =>
      if pass.queue.isEmpty || budget = 0 then
        ⟨[], engine.closing pass, pass⟩
      else if FetchPolicy.isReached deadline pass.holdings.world.now then
        ⟨[], .timedOut (Timescale.limitOr engine.timeout 0) pass.state.unresolved, pass⟩
      else
        let round := engine.round pooled files deadline budget pass
        match round.interruption with
        | none =>
            let rest := drainLogged engine pooled files deadline rounds round.budget round.pass
            { rest with outcomes := round.outcomes ++ rest.outcomes }
        | some cause => ⟨round.outcomes, engine.exitFor round.run.state cause, round.pass⟩

theorem drainLogged_eq (engine : Engine T) (pooled : Bool) (files : Listing String String)
    (deadline : Option T) (rounds budget : Nat) (pass : Pass T) :
    ((engine.drainLogged pooled files deadline rounds budget pass).exit,
        (engine.drainLogged pooled files deadline rounds budget pass).last) =
      engine.drainRounds pooled files deadline rounds budget pass := by
  induction rounds generalizing budget pass with
  | zero => rfl
  | succ rounds induction =>
      simp only [drainLogged, drainRounds, runBatch_eq]
      split
      · rfl
      · split
        · rfl
        · simp only [← induction, round, Round.pass]
          generalize settleAll files _ _ = result
          rcases result with ⟨interruption, run⟩
          cases interruption with
          | none => rfl
          | some cause => rfl

/-- How a drain ends, given the outcomes of its fetches and the pass that it leaves: in order, late
between two rounds, or with the first fetch that was interrupted. -/
inductive Ends (engine : Engine T) (deadline : Option T)
    (outcomes : List (String × ImportOutcome T)) (last : Pass T) : DrainExit T → Prop
  | closed (all : unsettled outcomes = []) :
      Ends engine deadline outcomes last (engine.closing last)
  | late (all : unsettled outcomes = [])
      (reached : FetchPolicy.isReached deadline last.holdings.world.now = true) :
      Ends engine deadline outcomes last
        (.timedOut (Timescale.limitOr engine.timeout 0) last.state.unresolved)
  | interrupted {path : String} {cause : Interruption T}
      {rest : List (String × ImportOutcome T)}
      (first : unsettled outcomes = (path, .interrupted cause) :: rest) :
      Ends engine deadline outcomes last (engine.exitFor last.state cause)

theorem Ends.prepend {engine : Engine T} {deadline : Option T}
    {outcomes later : List (String × ImportOutcome T)} {last : Pass T} {exit : DrainExit T}
    (ends : Ends engine deadline later last exit) (all : unsettled outcomes = []) :
    Ends engine deadline (outcomes ++ later) last exit := by
  cases ends with
  | closed rest => exact .closed ((unsettled_append all later).trans rest)
  | late rest reached => exact .late ((unsettled_append all later).trans rest) reached
  | interrupted first => exact .interrupted ((unsettled_append all later).trans first)

/-- Whether a drain is accounted for by its fetches: they were made one after another, they advance
the pass, and they say how the drain ends. -/
structure Drain.Accounted (engine : Engine T) (deadline : Option T) (first : Pass T)
    (drain : Drain T) : Prop where
  fetched : engine.fetchAll deadline (drain.outcomes.map Prod.fst) first.holdings =
    (drain.outcomes, drain.last.holdings)
  advances : Advances first drain.outcomes drain.last
  ends : Ends engine deadline drain.outcomes drain.last drain.exit

theorem drainLogged_accounted (engine : Engine T) (pooled : Bool) (files : Listing String String)
    (deadline : Option T) (rounds budget : Nat) (pass : Pass T) :
    (engine.drainLogged pooled files deadline rounds budget pass).Accounted engine deadline
      pass := by
  induction rounds generalizing budget pass with
  | zero => exact ⟨rfl, .refl pass, .closed rfl⟩
  | succ rounds induction =>
      unfold drainLogged
      split
      · exact ⟨rfl, .refl pass, .closed rfl⟩
      · split
        next reached => exact ⟨rfl, .refl pass, .late rfl reached⟩
        next =>
          have advances := round_advances engine pooled files deadline budget pass
          have fetched := fetchAll_round engine pooled files deadline budget pass
          have unresolved := unresolved_round engine pooled files deadline budget pass
          have ways := round_interruption engine pooled files deadline budget pass
          generalize engine.round pooled files deadline budget pass = round at *
          rcases ways with ⟨completed, all⟩ | ⟨path, cause, rest, interrupted, first⟩
          · have rest := induction round.budget round.pass
            simp only [completed]
            refine ⟨?_, advances.trans all rest.advances, rest.ends.prepend all⟩
            rw [List.map_append, fetchAll_append, fetched]
            simp only [rest.fetched]
          · have same : engine.exitFor round.run.state cause =
                engine.exitFor round.pass.state cause := by
              cases cause with
              | late after => simp only [exitFor, unresolved]
              | broken fault => rfl
            simp only [interrupted, same]
            exact ⟨fetched, advances, .interrupted first⟩

end Engine

end SourceTree
