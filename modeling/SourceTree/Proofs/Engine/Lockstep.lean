import SourceTree.Proofs.Engine.Books
import SourceTree.Proofs.Resolution.SharedCache

/-! # Drains in lockstep

What a drain makes of a batch depends on nothing but what it is told of its paths. So two drains
that are told the same of every batch take the same batches and end alike, however each of them
asks: with another cache, with more time or in another order. -/

namespace SourceTree

abbrev Asking (T : Type) :=
  List String → Holdings T → List (String × ImportOutcome T) × Holdings T

structure Demand (T : Type) where
  paths : List String
  holdings : Holdings T

namespace Engine

open Pass

structure Course (T : Type) where
  demands : List (Demand T)
  exit : DrainExit T
  last : Pass T

def Course.told {T : Type} (course : Course T) (ask : Asking T) : Drain T where
  outcomes := course.demands.flatMap fun demand => (ask demand.paths demand.holdings).1
  exit := course.exit
  last := course.last

variable {T : Type}

section

def roundVia (engine : Engine T) (ask : Asking T) (files : Listing String String) (budget : Nat)
    (pass : Pass T) : Round T :=
  let batch := Batch.take engine.maxWorkers budget pass.state pass.queue
  let (outcomes, holdings) := ask batch.paths pass.holdings
  let (interruption, run) :=
    settleAll files outcomes { pass with queue := batch.queue, state := batch.state, holdings }
  ⟨batch.paths, outcomes, interruption, run, batch.budget⟩

theorem roundVia_lockstep (engine : Engine T) (ask again : Asking T)
    (files : Listing String String) (budget : Nat) (pass : Pass T) {holdings : Holdings T}
    (same : (again (engine.roundVia ask files budget pass).paths holdings).1 =
      (ask (engine.roundVia ask files budget pass).paths pass.holdings).1) :
    engine.roundVia again files budget { pass with holdings } =
      { engine.roundVia ask files budget pass with
        run := { (engine.roundVia ask files budget pass).run with
          holdings := (again (engine.roundVia ask files budget pass).paths holdings).2 } } := by
  simp only [roundVia] at same ⊢
  rw [same]
  rw [settleAll_holdings files _ { pass with queue := _, state := _ }
    (again (Batch.take engine.maxWorkers budget pass.state pass.queue).paths holdings).2,
    settleAll_holdings files _ { pass with queue := _, state := _ }
    (ask (Batch.take engine.maxWorkers budget pass.state pass.queue).paths pass.holdings).2]

theorem holdings_roundVia (engine : Engine T) (ask : Asking T) (files : Listing String String)
    (budget : Nat) (pass : Pass T) :
    (engine.roundVia ask files budget pass).pass.holdings =
      (ask (engine.roundVia ask files budget pass).paths pass.holdings).2 := by
  simp only [roundVia, Round.pass, finishAll_eq, holdings_settleAll]

theorem unsettled_of_completed (engine : Engine T) (ask : Asking T)
    (files : Listing String String) (budget : Nat) (pass : Pass T)
    (completed : (engine.roundVia ask files budget pass).interruption = none) :
    unsettled (ask (engine.roundVia ask files budget pass).paths pass.holdings).1 = [] := by
  simp only [roundVia] at completed ⊢
  rcases settleAll_cases files _ _ with ⟨_, all⟩ | ⟨_, cause, _, isSome, _⟩
  · exact all
  · rw [completed] at isSome
    cases isSome

end

variable [Timescale T]

def drainVia (engine : Engine T) (ask : Asking T) (files : Listing String String)
    (deadline : Option T) : (rounds budget : Nat) → Pass T → Course T
  | 0, _, pass => ⟨[], engine.closing pass, pass⟩
  | rounds + 1, budget, pass =>
      if pass.queue.isEmpty || budget = 0 then
        ⟨[], engine.closing pass, pass⟩
      else if FetchPolicy.isReached deadline pass.holdings.world.now then
        ⟨[], .timedOut (Timescale.limitOr engine.timeout 0) pass.state.unresolved, pass⟩
      else
        let round := engine.roundVia ask files budget pass
        let demand := ⟨round.paths, pass.holdings⟩
        match round.interruption with
        | none =>
            let rest := drainVia engine ask files deadline rounds round.budget round.pass
            { rest with demands := demand :: rest.demands }
        | some cause => ⟨[demand], engine.exitFor round.run.state cause, round.pass⟩

theorem drainVia_fetchBatch (engine : Engine T) (pooled : Bool) (files : Listing String String)
    (deadline : Option T) (rounds budget : Nat) (pass : Pass T) :
    (engine.drainVia (engine.fetchBatch pooled deadline) files deadline rounds budget pass).told
        (engine.fetchBatch pooled deadline) =
      engine.drainLogged pooled files deadline rounds budget pass := by
  induction rounds generalizing budget pass with
  | zero => rfl
  | succ rounds induction =>
      have same : engine.roundVia (engine.fetchBatch pooled deadline) files budget pass =
        engine.round pooled files deadline budget pass := rfl
      have outcomes : (engine.fetchBatch pooled deadline
          (engine.round pooled files deadline budget pass).paths pass.holdings).1 =
        (engine.round pooled files deadline budget pass).outcomes := rfl
      simp only [drainVia, drainLogged, same]
      split
      · rfl
      · split
        · rfl
        · generalize engine.round pooled files deadline budget pass = round at outcomes ⊢
          cases round.interruption with
          | none => simp only [← induction, Course.told, List.flatMap_cons, outcomes]
          | some cause => simp [Course.told, outcomes]

theorem nodup_of_mem_demands (engine : Engine T) (ask : Asking T)
    (files : Listing String String) (deadline : Option T) (rounds budget : Nat) (pass : Pass T) :
    ∀ demand ∈ (engine.drainVia ask files deadline rounds budget pass).demands,
      demand.paths.Nodup := by
  induction rounds generalizing budget pass with
  | zero => exact fun _ made => absurd made List.not_mem_nil
  | succ rounds induction =>
      have distinct : (engine.roundVia ask files budget pass).paths.Nodup :=
        Batch.nodup_take engine.maxWorkers budget pass.state pass.queue
      simp only [drainVia]
      split
      · exact fun _ made => absurd made List.not_mem_nil
      · split
        · exact fun _ made => absurd made List.not_mem_nil
        · generalize engine.roundVia ask files budget pass = round at distinct ⊢
          cases round.interruption with
          | some cause => exact fun demand made => List.mem_singleton.1 made ▸ distinct
          | none =>
              intro demand made
              rcases List.mem_cons.1 made with rfl | later
              · exact distinct
              · exact induction _ _ demand later

/-- Two drains of one queue end alike if what they hold is related, and being told the same relates
it again: the second is never late where the first is not, and it is told the same of every batch
that the first asks for without being interrupted. -/
theorem drainVia_lockstep {engine : Engine T} {ask again : Asking T}
    {files : Listing String String} {deadline later : Option T}
    (related : Holdings T → Holdings T → Prop)
    (inTime : ∀ {first second : Holdings T}, related first second →
      FetchPolicy.isReached deadline first.world.now = false →
        FetchPolicy.isReached later second.world.now = false)
    (rounds budget : Nat) {pass : Pass T} {holdings : Holdings T}
    (initially : related pass.holdings holdings)
    (completes : (engine.drainVia ask files deadline rounds budget pass).exit.Completes)
    (step : ∀ demand ∈ (engine.drainVia ask files deadline rounds budget pass).demands,
      ∀ second, related demand.holdings second →
        unsettled (ask demand.paths demand.holdings).1 = [] →
          (again demand.paths second).1 = (ask demand.paths demand.holdings).1 ∧
            related (ask demand.paths demand.holdings).2 (again demand.paths second).2) :
    ∃ last, related (engine.drainVia ask files deadline rounds budget pass).last.holdings last ∧
      (engine.drainVia again files later rounds budget { pass with holdings }).exit =
        (engine.drainVia ask files deadline rounds budget pass).exit ∧
      (engine.drainVia again files later rounds budget { pass with holdings }).last =
        { (engine.drainVia ask files deadline rounds budget pass).last with holdings := last } := by
  induction rounds generalizing budget pass holdings with
  | zero => exact ⟨holdings, initially, rfl, rfl⟩
  | succ rounds induction =>
      simp only [drainVia] at completes step ⊢
      by_cases idle : (pass.queue.isEmpty || decide (budget = 0)) = true
      · simp only [if_pos idle]
        exact ⟨holdings, initially, rfl, rfl⟩
      · simp only [if_neg idle] at completes step ⊢
        cases reached : FetchPolicy.isReached deadline pass.holdings.world.now with
        | true =>
            simp only [reached, if_true] at completes
            exact completes.elim
        | false =>
            have stillInTime := inTime initially reached
            have settles := unsettled_of_completed engine ask files budget pass
            have lockstep := @roundVia_lockstep T engine ask again files budget pass holdings
            have held := holdings_roundVia engine ask files budget pass
            simp only [reached, stillInTime, Bool.false_eq_true, if_false] at completes step ⊢
            -- The second drain is told the same, so only what is held after its round differs.
            generalize engine.roundVia ask files budget pass = round at *
            cases interruption : round.interruption with
            | some cause =>
                simp only [interruption] at completes
                exact absurd completes (not_completes_exitFor engine _ cause)
            | none =>
                simp only [interruption] at completes step
                rcases step ⟨round.paths, pass.holdings⟩ List.mem_cons_self holdings initially
                  (settles interruption) with ⟨same, relatedAgain⟩
                simp only at same relatedAgain
                rw [lockstep same]
                simp only [interruption]
                refine induction round.budget (held ▸ relatedAgain) completes
                  fun demand made => step demand (List.mem_cons_of_mem _ made)

end Engine

end SourceTree
