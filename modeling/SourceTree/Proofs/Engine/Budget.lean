import SourceTree.Proofs.Resolution.Accounts

/-! # The budget of a drain

A drain takes paths from the front of its queue and appends what it discovers. Every path that it
takes uses up some of its budget, whether the path is fetched or was done already. So a drain never
fetches more than its budget allows, and it ends with paths in its queue only if the budget went to
those that were discovered before them. Rounds beyond the budget make no difference. -/

namespace SourceTree

open Engine

variable {T : Type}

namespace Batch

theorem state_take (room budget : Nat) {state : ResolutionState T} {queue : List String}
    (queued : ∀ path ∈ queue, path ∈ state.discovered) :
    (take room budget state queue).state = { state with
      processing := state.processing ++ (take room budget state queue).paths } := by
  fun_induction take room budget state queue with
  | case1 room budget state path queue done induction =>
      exact induction fun other waits => queued other (List.mem_cons_of_mem path waits)
  | case2 room budget state path queue undone rest induction =>
      have started := ResolutionState.start_eq (queued path List.mem_cons_self)
        (Bool.not_eq_true _ ▸ undone)
      have later : rest.state = { state.start path with
          processing := (state.start path).processing ++ rest.paths } := by
        refine induction fun other waits => ?_
        rw [started]
        exact queued other (List.mem_cons_of_mem path waits)
      simp only [later, started, List.append_assoc, List.cons_append, List.nil_append]
  | case3 => simp only [List.append_nil]

theorem take_accounts (room budget : Nat) (state : ResolutionState T) (queue : List String) :
    ∃ taken, queue = taken ++ (take room budget state queue).queue ∧
      budget = taken.length + (take room budget state queue).budget ∧
      (take room budget state queue).paths.Sublist taken := by
  fun_induction take room budget state queue with
  | case1 room budget state path queue done induction =>
      rcases induction with ⟨taken, isQueue, isBudget, asked⟩
      refine ⟨path :: taken, ?_, ?_, asked.cons path⟩
      · rw [List.cons_append, ← isQueue]
      · rw [List.length_cons, Nat.add_right_comm, ← isBudget]
  | case2 room budget state path queue undone rest induction =>
      rcases induction with ⟨taken, isQueue, isBudget, asked⟩
      refine ⟨path :: taken, ?_, ?_, asked.cons_cons path⟩
      · rw [List.cons_append, ← isQueue]
      · rw [List.length_cons, Nat.add_right_comm, ← isBudget]
  | case3 => exact ⟨[], rfl, (Nat.zero_add _).symm, List.Sublist.slnil⟩

theorem budget_take_le (room budget : Nat) (state : ResolutionState T) (queue : List String) :
    (take room budget state queue).budget ≤ budget := by
  rcases take_accounts room budget state queue with ⟨taken, _, isBudget, _⟩
  omega

theorem budget_take_lt {room budget : Nat} (hasRoom : 0 < room) (affords : 0 < budget)
    (state : ResolutionState T) {queue : List String} (waits : queue ≠ []) :
    (take room budget state queue).budget < budget := by
  rcases Nat.exists_eq_succ_of_ne_zero hasRoom.ne' with ⟨room, rfl⟩
  rcases Nat.exists_eq_succ_of_ne_zero affords.ne' with ⟨budget, rfl⟩
  rcases List.exists_cons_of_ne_nil waits with ⟨path, queue, rfl⟩
  simp only [take]
  split
  · exact Nat.lt_succ_of_le (budget_take_le _ _ _ _)
  · exact Nat.lt_succ_of_le (budget_take_le _ _ _ _)

theorem length_paths_take_le (room budget : Nat) (state : ResolutionState T)
    (queue : List String) : (take room budget state queue).paths.length ≤ room := by
  fun_induction take room budget state queue with
  | case1 room budget state path queue done induction => exact induction
  | case2 room budget state path queue undone rest induction => exact Nat.succ_le_succ induction
  | case3 => exact Nat.zero_le _

end Batch

namespace Pass

def Takes (before : Pass T) (taken : List String) (after : Pass T) : Prop :=
  ∃ added, after.state.discovered = before.state.discovered ++ added ∧
    before.queue ++ added = taken ++ after.queue

theorem Takes.refl (pass : Pass T) : Takes pass [] pass :=
  ⟨[], (List.append_nil _).symm, List.append_nil _⟩

theorem Takes.trans {first second third : Pass T} {taken later : List String}
    (left : Takes first taken second) (right : Takes second later third) :
    Takes first (taken ++ later) third := by
  rcases left with ⟨added, discovered, conserved⟩
  rcases right with ⟨addedLater, discoveredLater, conservedLater⟩
  refine ⟨added ++ addedLater, ?_, ?_⟩
  · rw [discoveredLater, discovered, List.append_assoc]
  · rw [← List.append_assoc, conserved, List.append_assoc, conservedLater, List.append_assoc]

theorem Takes.queued {before after : Pass T} {taken : List String}
    (takes : Takes before taken after)
    (queued : ∀ path ∈ before.queue, path ∈ before.state.discovered) :
    ∀ path ∈ after.queue, path ∈ after.state.discovered := by
  rcases takes with ⟨added, discovered, conserved⟩
  intro path waits
  have among : path ∈ before.queue ++ added := conserved ▸ List.mem_append_right taken waits
  rw [discovered, List.mem_append]
  exact (List.mem_append.1 among).imp_left (queued path)

theorem settleAll_takes (files : Listing String String)
    (outcomes : List (String × ImportOutcome T)) (pass : Pass T) :
    Takes pass [] (settleAll files outcomes pass).2 := by
  induction outcomes generalizing pass with
  | nil => exact .refl pass
  | cons outcome rest induction =>
      rcases outcome with ⟨path, outcome⟩
      cases outcome with
      | content text =>
          have accepts : Takes pass [] (pass.accept files path text) := by
            rcases accept_cases files pass path text with ⟨added, accepted, _⟩
            rw [accepted]
            exact ⟨added, rfl, rfl⟩
          exact accepts.trans (induction (pass.accept files path text))
      | failed failure =>
          exact induction { pass with state := pass.state.fail path (.known failure) }
      | interrupted interruption => exact .refl pass

end Pass

namespace Engine

theorem queued_openPass (seeds : Resolution.Seeds) (holdings : Holdings T) :
    ∀ path ∈ (openPass seeds holdings).queue,
      path ∈ (openPass seeds holdings).state.discovered :=
  fun _ waits => waits

variable [Timescale T]

theorem round_takes (engine : Engine T) (pooled : Bool) (files : Listing String String)
    (deadline : Option T) (budget : Nat) {pass : Pass T}
    (queued : ∀ path ∈ pass.queue, path ∈ pass.state.discovered) :
    ∃ taken, Pass.Takes pass taken (engine.round pooled files deadline budget pass).pass ∧
      ((engine.round pooled files deadline budget pass).outcomes.map Prod.fst).Sublist taken ∧
      budget = taken.length + (engine.round pooled files deadline budget pass).budget := by
  have known := Batch.state_take engine.maxWorkers budget queued
  have asked := fetchBatch_prefix engine pooled deadline
    (Batch.take engine.maxWorkers budget pass.state pass.queue).paths pass.holdings
  rcases Batch.take_accounts engine.maxWorkers budget pass.state pass.queue with
    ⟨taken, isQueue, isBudget, among⟩
  refine ⟨taken, ?_, asked.sublist.trans among, isBudget⟩
  simp only [round, Round.pass, Pass.finishAll_eq]
  generalize Batch.take engine.maxWorkers budget pass.state pass.queue = batch at *
  generalize engine.fetchBatch pooled deadline batch.paths pass.holdings = told
  rcases Pass.settleAll_takes files told.1
    { pass with queue := batch.queue, state := batch.state, holdings := told.2 } with
    ⟨added, discovered, conserved⟩
  refine ⟨added, ?_, ?_⟩
  · rw [discovered, known]
  · rw [isQueue, List.append_assoc]
    exact congrArg (taken ++ ·) conserved

theorem budget_round_lt {engine : Engine T} (workers : 0 < engine.maxWorkers) (pooled : Bool)
    (files : Listing String String) (deadline : Option T) {budget : Nat} {pass : Pass T}
    (goesOn : ¬(pass.queue = [] ∨ budget = 0)) :
    (engine.round pooled files deadline budget pass).budget < budget := by
  rw [not_or] at goesOn
  exact Batch.budget_take_lt workers (Nat.pos_of_ne_zero goesOn.2) pass.state goesOn.1

/-! ## Drains -/

theorem drainLogged_stop (engine : Engine T) (pooled : Bool) (files : Listing String String)
    (deadline : Option T) (rounds : Nat) {budget : Nat} {pass : Pass T}
    (stops : pass.queue = [] ∨ budget = 0) :
    engine.drainLogged pooled files deadline rounds budget pass =
      ⟨[], engine.closing pass, pass⟩ := by
  cases rounds with
  | zero => rfl
  | succ rounds =>
      rw [← List.isEmpty_iff, ← decide_eq_true_iff (p := budget = 0), ← Bool.or_eq_true] at stops
      rw [drainLogged, if_pos stops]

theorem drainLogged_succ (engine : Engine T) (pooled : Bool) (files : Listing String String)
    (deadline : Option T) (rounds : Nat) {budget : Nat} {pass : Pass T}
    (goesOn : ¬(pass.queue = [] ∨ budget = 0)) :
    engine.drainLogged pooled files deadline (rounds + 1) budget pass =
      if FetchPolicy.isReached deadline pass.holdings.world.now then
        ⟨[], .timedOut (Timescale.limitOr engine.timeout 0) pass.state.unresolved, pass⟩
      else
        let round := engine.round pooled files deadline budget pass
        match round.interruption with
        | none =>
            let rest := engine.drainLogged pooled files deadline rounds round.budget round.pass
            { rest with outcomes := round.outcomes ++ rest.outcomes }
        | some cause => ⟨round.outcomes, engine.exitFor round.run.state cause, round.pass⟩ := by
  rw [← List.isEmpty_iff, ← decide_eq_true_iff (p := budget = 0), ← Bool.or_eq_true] at goesOn
  exact if_neg goesOn

def Drain.after {T : Type} (outcomes : List (String × ImportOutcome T)) (drain : Drain T) :
    Drain T :=
  { drain with outcomes := outcomes ++ drain.outcomes }

theorem drainLogged_succ_cases (engine : Engine T) (pooled : Bool) (files : Listing String String)
    (deadline : Option T) (rounds : Nat) {budget : Nat} {pass : Pass T}
    (goesOn : ¬(pass.queue = [] ∨ budget = 0)) :
    let round := engine.round pooled files deadline budget pass
    let drain := engine.drainLogged pooled files deadline (rounds + 1) budget pass
    (FetchPolicy.isReached deadline pass.holdings.world.now = true ∧
        drain = ⟨[], .timedOut (Timescale.limitOr engine.timeout 0) pass.state.unresolved, pass⟩) ∨
      FetchPolicy.isReached deadline pass.holdings.world.now = false ∧
        ((unsettled round.outcomes = [] ∧ drain =
            (engine.drainLogged pooled files deadline rounds round.budget round.pass).after
              round.outcomes) ∨
          unsettled round.outcomes ≠ [] ∧ ∃ cause,
            drain = ⟨round.outcomes, engine.exitFor round.run.state cause, round.pass⟩) := by
  have ways := round_interruption engine pooled files deadline budget pass
  simp only [drainLogged_succ engine pooled files deadline rounds goesOn]
  split
  next late => exact Or.inl ⟨late, rfl⟩
  next early =>
    refine Or.inr ⟨Bool.not_eq_true _ ▸ early, ?_⟩
    rcases ways with ⟨completed, all⟩ | ⟨_, cause, _, interrupted, first⟩
    · rw [completed]
      exact Or.inl ⟨all, rfl⟩
    · rw [interrupted]
      exact Or.inr ⟨first ▸ List.cons_ne_nil _ _, cause, rfl⟩

/-- What a drain may spend, and when it may stop: it takes no more from its queue than the budget
allows, asks for no other path, and closes only with an empty queue or without budget. -/
structure Drain.Spends (first : Pass T) (budget : Nat) (drain : Drain T) (taken : List String) :
    Prop where
  takes : Pass.Takes first taken drain.last
  asked : (drain.outcomes.map Prod.fst).Sublist taken
  affordable : taken.length ≤ budget
  stops : drain.exit.Completes → drain.last.queue = [] ∨ taken.length = budget

theorem drainLogged_spends {engine : Engine T} (workers : 0 < engine.maxWorkers) (pooled : Bool)
    (files : Listing String String) (deadline : Option T) {rounds budget : Nat}
    (enough : budget ≤ rounds) {pass : Pass T}
    (queued : ∀ path ∈ pass.queue, path ∈ pass.state.discovered) :
    ∃ taken, (engine.drainLogged pooled files deadline rounds budget pass).Spends pass budget
      taken := by
  induction rounds generalizing budget pass with
  | zero =>
      exact ⟨[], .refl pass, List.Sublist.slnil, Nat.zero_le _,
        fun _ => Or.inr (Nat.le_zero.1 enough).symm⟩
  | succ rounds induction =>
      by_cases stops : pass.queue = [] ∨ budget = 0
      · rw [drainLogged_stop engine pooled files deadline (rounds + 1) stops]
        exact ⟨[], .refl pass, List.Sublist.slnil, Nat.zero_le _, fun _ => stops.imp_right Eq.symm⟩
      · have less := budget_round_lt workers pooled files deadline stops
        have affords := Nat.le_of_lt_succ (less.trans_le enough)
        rcases round_takes engine pooled files deadline budget queued with
          ⟨taken, takes, asked, isBudget⟩
        -- A drain that is late or interrupted does not complete, so it may stop anywhere.
        rcases drainLogged_succ_cases engine pooled files deadline rounds stops with
          ⟨_, late⟩ | ⟨_, ⟨_, goesOn⟩ | ⟨_, cause, interrupted⟩⟩
        · rw [late]
          exact ⟨[], .refl pass, List.Sublist.slnil, Nat.zero_le _, False.elim⟩
        · rw [goesOn]
          rcases induction affords (takes.queued queued) with ⟨later, spends⟩
          have affordable := spends.affordable
          refine ⟨taken ++ later, takes.trans spends.takes, ?_, ?_, fun completes => ?_⟩
          · rw [Drain.after, List.map_append]
            exact asked.append spends.asked
          · rw [List.length_append]
            omega
          · refine (spends.stops completes).imp_right fun spent => ?_
            rw [List.length_append]
            omega
        · rw [interrupted]
          exact ⟨taken, takes, asked, by omega,
            fun completes => absurd completes (not_completes_exitFor engine _ cause)⟩

/-- A drain ends before it runs out of rounds. -/
theorem drainLogged_enough {engine : Engine T} (workers : 0 < engine.maxWorkers) (pooled : Bool)
    (files : Listing String String) (deadline : Option T) {rounds more budget : Nat}
    (enough : budget ≤ rounds) (enoughToo : budget ≤ more) (pass : Pass T) :
    engine.drainLogged pooled files deadline rounds budget pass =
      engine.drainLogged pooled files deadline more budget pass := by
  induction rounds generalizing more budget pass with
  | zero =>
      have spent : budget = 0 := Nat.le_zero.1 enough
      rw [drainLogged_stop engine pooled files deadline 0 (Or.inr spent),
        drainLogged_stop engine pooled files deadline more (Or.inr spent)]
  | succ rounds induction =>
      by_cases stops : pass.queue = [] ∨ budget = 0
      · rw [drainLogged_stop engine pooled files deadline (rounds + 1) stops,
          drainLogged_stop engine pooled files deadline more stops]
      · have affords := not_or.1 stops
        rcases Nat.exists_eq_succ_of_ne_zero (n := more) (by omega) with ⟨more, rfl⟩
        have less := budget_round_lt workers pooled files deadline stops
        simp only [drainLogged_succ engine pooled files deadline _ stops]
        rw [induction (by omega) (by omega : _ ≤ more)]

end Engine

end SourceTree
