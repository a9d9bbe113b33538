import SourceTree.Proofs.Engine.Books

/-! # What a drain leaves in the queue

A drain that is not interrupted loses no path: whatever is discovered and not done waits in the
queue. At the end of such a drain the paths that wait are the unresolved ones that did not fail. -/

namespace SourceTree

open Engine

variable {T : Type}

def Covered (state : ResolutionState T) (queue : List String) : Prop :=
  ∀ path ∈ state.discovered, state.isDone path = false → path ∈ queue

theorem Batch.covered_take (room budget : Nat) {state : ResolutionState T} {queue : List String}
    (covered : Covered state queue) :
    Covered (take room budget state queue).state (take room budget state queue).queue := by
  fun_induction take room budget state queue with
  | case1 room budget state path queue done induction =>
      refine induction fun other known pending => ?_
      rcases List.mem_cons.1 (covered other known pending) with equal | waits
      · subst equal
        exact absurd (pending.symm.trans done) Bool.false_ne_true
      · exact waits
  | case2 room budget state path queue undone rest induction =>
      refine induction fun other known pending => ?_
      rw [ResolutionState.not_isDone_iff, mem_processing_start, not_or] at pending
      have knownBefore : other ∈ state.discovered :=
        ((ResolutionState.mem_appendNew _ _ _).1 known).resolve_right pending.1.2
      have pendingBefore : state.isDone other = false :=
        (ResolutionState.not_isDone_iff _ _).2 ⟨pending.1.1, pending.2⟩
      exact (List.mem_cons.1 (covered other knownBefore pendingBefore)).resolve_left pending.1.2
  | case3 => exact covered

namespace Pass

theorem covered_accept (files : Listing String String) {pass : Pass T}
    (covered : Covered pass.state pass.queue) (path text : String) :
    Covered (pass.accept files path text).state (pass.accept files path text).queue := by
  rcases accept_cases files pass path text with ⟨added, accepted, _⟩
  rw [accepted]
  intro other known pending
  rcases List.mem_append.1 known with earlier | isAdded
  · refine List.mem_append_left added (covered other earlier ?_)
    simp only [ResolutionState.not_isDone_iff, enqueue, receive, ResolutionState.resolve,
      ResolutionState.mem_remove, ResolutionState.mem_appendNew, Listing.mem_erase] at pending ⊢
    grind
  · exact List.mem_append_right _ isAdded

theorem covered_fail {state : ResolutionState T} {queue : List String}
    (covered : Covered state queue) (path : String) (fault : Fault T) :
    Covered (state.fail path fault) queue := by
  intro other known pending
  refine covered other known ?_
  simp only [ResolutionState.not_isDone_iff, ResolutionState.fail, ResolutionState.mem_remove,
    Listing.mem_insert] at pending ⊢
  grind

theorem covered_settleAll (files : Listing String String)
    (outcomes : List (String × ImportOutcome T)) {pass : Pass T}
    (covered : Covered pass.state pass.queue) :
    Covered (settleAll files outcomes pass).2.state (settleAll files outcomes pass).2.queue := by
  induction outcomes generalizing pass with
  | nil => exact covered
  | cons outcome rest induction =>
      rcases outcome with ⟨path, outcome⟩
      cases outcome with
      | content text => exact induction (covered_accept files covered path text)
      | failed failure =>
          have kept := covered_fail covered path (.known failure)
          exact @induction { pass with state := pass.state.fail path (.known failure) } kept
      | interrupted interruption => exact covered

end Pass

namespace Engine

variable [Timescale T]

theorem covered_round (engine : Engine T) (pooled : Bool) (files : Listing String String)
    (deadline : Option T) (budget : Nat) {pass : Pass T} (covered : Covered pass.state pass.queue)
    (all : unsettled (engine.round pooled files deadline budget pass).outcomes = []) :
    Covered (engine.round pooled files deadline budget pass).pass.state
      (engine.round pooled files deadline budget pass).pass.queue := by
  have advances := round_advances engine pooled files deadline budget pass
  have told : (engine.round pooled files deadline budget pass).outcomes.map Prod.fst =
      (engine.round pooled files deadline budget pass).paths :=
    fetchBatch_complete engine pooled deadline all
  have run : Covered (engine.round pooled files deadline budget pass).run.state
      (engine.round pooled files deadline budget pass).run.queue :=
    Pass.covered_settleAll files _ (Batch.covered_take _ _ covered)
  generalize engine.round pooled files deadline budget pass = round at *
  have settledDone : ∀ path ∈ round.paths,
      path ∈ round.pass.state.resolved ∨ path ∈ round.pass.state.failed := by
    intro path taken
    rw [← told, ← settled_eq_self all] at taken
    exact advances.settled_done taken
  simp only [Round.pass, Pass.finishAll_eq] at settledDone ⊢
  intro path known pending
  refine run path known ?_
  rw [ResolutionState.not_isDone_iff] at pending ⊢
  rcases pending with ⟨idle, unresolved, unfailed, unmapped⟩
  refine ⟨fun inFlight => ?_, unresolved, unfailed, unmapped⟩
  by_cases taken : path ∈ round.paths
  · exact (settledDone path taken).elim unresolved unfailed
  · exact idle (List.mem_filter.2 ⟨inFlight, by simpa using taken⟩)

theorem covered_drainLogged (engine : Engine T) (pooled : Bool) (files : Listing String String)
    (deadline : Option T) (rounds budget : Nat) {pass : Pass T}
    (covered : Covered pass.state pass.queue)
    (all : unsettled (engine.drainLogged pooled files deadline rounds budget pass).outcomes = []) :
    Covered (engine.drainLogged pooled files deadline rounds budget pass).last.state
      (engine.drainLogged pooled files deadline rounds budget pass).last.queue := by
  induction rounds generalizing budget pass with
  | zero => exact covered
  | succ rounds induction =>
      revert all
      unfold drainLogged
      split
      · exact fun _ => covered
      · split
        · exact fun _ => covered
        · have ways := round_interruption engine pooled files deadline budget pass
          have kept := covered_round engine pooled files deadline budget covered
          generalize engine.round pooled files deadline budget pass = round at *
          rcases ways with ⟨completed, allSettled⟩ | ⟨path, cause, rest, interrupted, first⟩
          · simp only [completed, unsettled_append allSettled]
            exact induction round.budget (kept allSettled)
          · simp only [interrupted, first]
            exact fun all => absurd all (List.cons_ne_nil _ _)

end Engine

/-! ## The paths that wait -/

theorem nodup_eraseDups (paths : List String) : paths.eraseDups.Nodup := by
  induction length : paths.length using Nat.strong_induction_on generalizing paths with
  | _ count induction =>
      cases paths with
      | nil => exact List.nodup_nil
      | cons path rest =>
          rw [List.eraseDups_cons, List.nodup_cons]
          refine ⟨fun again => ?_, induction _ ?_ _ rfl⟩
          · simpa using List.mem_eraseDups.1 again
          · rw [← length]
            exact Nat.lt_succ_of_le (List.length_filter_le _ rest)

namespace Pass

def waiting (pass : Pass T) : List String :=
  (pass.queue.filter fun path => !pass.state.isDone path).eraseDups

theorem mem_waiting {pass : Pass T} {path : String} :
    path ∈ pass.waiting ↔ path ∈ pass.queue ∧ pass.state.isDone path = false := by
  rw [waiting, List.mem_eraseDups, List.mem_filter, Bool.not_eq_true']

/-- The books of a pass that is over: every discovered path is either resolved, failed, mapped to a
local file or waiting. -/
structure Drained (pass : Pass T) : Prop where
  distinct : pass.state.discovered.Nodup
  idle : pass.state.processing = []
  resolvedDistinct : pass.state.resolved.Nodup
  resolved : ∀ path ∈ pass.state.resolved,
    path ∈ pass.state.discovered ∧ path ∉ pass.state.failed ∧ path ∉ pass.state.aliases
  failed : ∀ path ∈ pass.state.failed,
    path ∈ pass.state.discovered ∧ path ∉ pass.state.aliases
  queued : ∀ path ∈ pass.queue, path ∈ pass.state.discovered
  covered : Covered pass.state pass.queue

variable {pass : Pass T}

theorem Drained.failed_unresolved (books : pass.Drained) {path : String}
    (hasFailed : path ∈ pass.state.failed) : path ∈ pass.state.unresolved :=
  (ResolutionState.mem_unresolved _ _).2 ⟨(books.failed path hasFailed).1,
    fun isResolved => (books.resolved path isResolved).2.1 hasFailed,
    (books.failed path hasFailed).2⟩

theorem Drained.mem_waiting_iff (books : pass.Drained) (path : String) :
    path ∈ pass.waiting ↔ path ∈ pass.state.unresolved ∧ path ∉ pass.state.failed := by
  rw [mem_waiting, ResolutionState.not_isDone_iff, ResolutionState.mem_unresolved, books.idle]
  constructor
  · rintro ⟨waits, _, unresolved, unfailed, unmapped⟩
    exact ⟨⟨books.queued path waits, unresolved, unmapped⟩, unfailed⟩
  · rintro ⟨⟨known, unresolved, unmapped⟩, unfailed⟩
    have pending : pass.state.isDone path = false := by
      rw [ResolutionState.not_isDone_iff, books.idle]
      exact ⟨List.not_mem_nil, unresolved, unfailed, unmapped⟩
    exact ⟨books.covered path known pending, List.not_mem_nil, unresolved, unfailed, unmapped⟩

theorem Drained.unresolved_perm (books : pass.Drained) :
    pass.state.unresolved.Perm (pass.state.failed.keys ++ pass.waiting) := by
  refine (List.perm_ext_iff_of_nodup (books.distinct.filter _) ?_).2 fun path => ?_
  · rw [List.nodup_append]
    refine ⟨pass.state.failed.nodup_keys, nodup_eraseDups _, ?_⟩
    rintro path hasFailed other waits rfl
    exact ((books.mem_waiting_iff path).1 waits).2 hasFailed
  · rw [List.mem_append, books.mem_waiting_iff, ← Listing.mem_iff]
    constructor
    · exact fun unresolved => (Decidable.em (path ∈ pass.state.failed)).imp_right fun unfailed =>
        ⟨unresolved, unfailed⟩
    · rintro (hasFailed | waits)
      · exact books.failed_unresolved hasFailed
      · exact waits.1

theorem Drained.length_discovered (books : pass.Drained) :
    pass.state.discovered.length = pass.state.resolved.length + pass.state.unresolved.length +
      (pass.state.discovered.filter fun path => path ∈ pass.state.aliases).length := by
  have resolved : (pass.state.discovered.filter fun path => path ∈ pass.state.resolved).Perm
      pass.state.resolved := by
    refine (List.perm_ext_iff_of_nodup (books.distinct.filter _)
      books.resolvedDistinct).2 fun path => ?_
    rw [List.mem_filter, decide_eq_true_eq]
    exact ⟨And.right, fun isResolved => ⟨(books.resolved path isResolved).1, isResolved⟩⟩
  have mapped : ((pass.state.discovered.filter
      fun path => !decide (path ∈ pass.state.resolved)).filter
        fun path => path ∈ pass.state.aliases) =
        pass.state.discovered.filter fun path => path ∈ pass.state.aliases := by
    rw [List.filter_filter]
    refine List.filter_congr fun path _ => ?_
    by_cases isMapped : path ∈ pass.state.aliases
    · have unresolved : path ∉ pass.state.resolved := fun isResolved =>
        (books.resolved path isResolved).2.2 isMapped
      simp [isMapped, unresolved]
    · simp [isMapped]
  have rest : ((pass.state.discovered.filter
      fun path => !decide (path ∈ pass.state.resolved)).filter
        fun path => !decide (path ∈ pass.state.aliases)) = pass.state.unresolved := by
    rw [List.filter_filter]
    refine List.filter_congr fun path _ => ?_
    simp [Bool.and_comm]
  have byResolved := List.length_eq_length_filter_add (l := pass.state.discovered)
    fun path => decide (path ∈ pass.state.resolved)
  have byMapped := List.length_eq_length_filter_add
    (l := pass.state.discovered.filter fun path => !decide (path ∈ pass.state.resolved))
    fun path => decide (path ∈ pass.state.aliases)
  rw [mapped, rest] at byMapped
  rw [resolved.length_eq] at byResolved
  omega

end Pass

end SourceTree
