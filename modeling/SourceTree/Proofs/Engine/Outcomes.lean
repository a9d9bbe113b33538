import Mathlib.Data.List.TakeWhile
import SourceTree.Proofs.Engine.Comparison

/-! # The outcomes of a batch

A batch is told outcomes, path by path. A pool asks for all of its paths; without a pool nothing is
asked after an interruption. Either way the outcomes before the first interruption are settled, in
the order of the batch, and no other. -/

namespace SourceTree

def ImportOutcome.settles {T : Type} : ImportOutcome T → Bool
  | .content _ => true
  | .failed _ => true
  | .interrupted _ => false

namespace Engine

variable {T : Type}

def settled (outcomes : List (String × ImportOutcome T)) : List (String × ImportOutcome T) :=
  outcomes.takeWhile fun outcome => outcome.2.settles

def unsettled (outcomes : List (String × ImportOutcome T)) : List (String × ImportOutcome T) :=
  outcomes.dropWhile fun outcome => outcome.2.settles

def failures (outcomes : List (String × ImportOutcome T)) : List String :=
  outcomes.filterMap fun
    | (path, .failed _) => some path
    | _ => none

theorem settled_append_unsettled (outcomes : List (String × ImportOutcome T)) :
    settled outcomes ++ unsettled outcomes = outcomes :=
  List.takeWhile_append_dropWhile

theorem settled_sublist (outcomes : List (String × ImportOutcome T)) :
    (settled outcomes).Sublist outcomes :=
  List.takeWhile_sublist _

theorem unsettled_sublist (outcomes : List (String × ImportOutcome T)) :
    (unsettled outcomes).Sublist outcomes :=
  List.dropWhile_sublist _

theorem settles_of_mem_settled {outcomes : List (String × ImportOutcome T)}
    {outcome : String × ImportOutcome T} (member : outcome ∈ settled outcomes) :
    outcome.2.settles = true :=
  List.mem_takeWhile_imp (p := fun outcome : String × ImportOutcome T => outcome.2.settles) member

theorem settled_append {first : List (String × ImportOutcome T)} (all : unsettled first = [])
    (second : List (String × ImportOutcome T)) :
    settled (first ++ second) = first ++ settled second :=
  List.takeWhile_append_of_pos (List.dropWhile_eq_nil_iff.1 all)

theorem unsettled_append {first : List (String × ImportOutcome T)} (all : unsettled first = [])
    (second : List (String × ImportOutcome T)) :
    unsettled (first ++ second) = unsettled second :=
  List.dropWhile_append_of_pos (List.dropWhile_eq_nil_iff.1 all)

theorem settled_eq_self {outcomes : List (String × ImportOutcome T)}
    (all : unsettled outcomes = []) : settled outcomes = outcomes := by
  rw [← List.append_nil (settled outcomes), ← all, settled_append_unsettled]

theorem mem_map_texts_iff {outcomes : List (String × ImportOutcome T)} {path : String} :
    path ∈ (texts outcomes).map Prod.fst ↔ ∃ text, (path, .content text) ∈ outcomes := by
  simp only [texts, List.mem_map, List.mem_filterMap, Prod.exists]
  constructor
  · rintro ⟨other, text, ⟨name, outcome, member, isText⟩, rfl⟩
    cases outcome <;> cases isText
    exact ⟨text, member⟩
  · rintro ⟨text, member⟩
    exact ⟨path, text, ⟨path, .content text, member, rfl⟩, rfl⟩

theorem map_fst_texts_sublist (outcomes : List (String × ImportOutcome T)) :
    ((texts outcomes).map Prod.fst).Sublist (outcomes.map Prod.fst) := by
  induction outcomes with
  | nil => exact List.Sublist.slnil
  | cons outcome rest induction =>
      rcases outcome with ⟨path, outcome⟩
      cases outcome with
      | content text => exact induction.cons_cons path
      | failed failure => exact induction.cons path
      | interrupted interruption => exact induction.cons path

theorem mem_failures_iff {outcomes : List (String × ImportOutcome T)} {path : String} :
    path ∈ failures outcomes ↔ ∃ failure, (path, .failed failure) ∈ outcomes := by
  simp only [failures, List.mem_filterMap, Prod.exists]
  constructor
  · rintro ⟨other, outcome, member, isFailure⟩
    cases outcome <;> cases isFailure
    exact ⟨_, member⟩
  · rintro ⟨failure, member⟩
    exact ⟨path, .failed failure, member, rfl⟩

theorem mem_map_settled_iff {outcomes : List (String × ImportOutcome T)} {path : String} :
    path ∈ (settled outcomes).map Prod.fst ↔
      path ∈ (texts (settled outcomes)).map Prod.fst ∨ path ∈ failures (settled outcomes) := by
  rw [mem_map_texts_iff, mem_failures_iff]
  constructor
  · intro asked
    rcases List.mem_map.1 asked with ⟨⟨other, outcome⟩, member, rfl⟩
    have settles : outcome.settles = true := settles_of_mem_settled member
    cases outcome with
    | content text => exact Or.inl ⟨text, member⟩
    | failed failure => exact Or.inr ⟨failure, member⟩
    | interrupted interruption => cases settles
  · rintro (⟨text, member⟩ | ⟨failure, member⟩) <;> exact List.mem_map_of_mem member

theorem not_mem_failures_of_mem_texts {outcomes : List (String × ImportOutcome T)}
    (distinct : (outcomes.map Prod.fst).Nodup) {path : String}
    (isText : path ∈ (texts outcomes).map Prod.fst) : path ∉ failures outcomes := by
  intro isFailure
  rcases mem_map_texts_iff.1 isText with ⟨text, inTexts⟩
  rcases mem_failures_iff.1 isFailure with ⟨failure, inFailures⟩
  cases List.inj_on_of_nodup_map distinct inTexts inFailures rfl

/-! ## Asking for a batch -/

section

variable [Timescale T]

def fetchInTurn (engine : Engine T) (deadline : Option T) :
    List String → Holdings T → List (String × ImportOutcome T) × Holdings T
  | [], holdings => ([], holdings)
  | path :: rest, holdings =>
      let (outcome, after) := engine.fetchImport deadline path holdings
      if outcome.settles then
        let (outcomes, last) := fetchInTurn engine deadline rest after
        ((path, outcome) :: outcomes, last)
      else
        ([(path, outcome)], after)

def fetchBatch (engine : Engine T) (pooled : Bool) (deadline : Option T) (paths : List String)
    (holdings : Holdings T) : List (String × ImportOutcome T) × Holdings T :=
  if pooled then engine.fetchAll deadline paths holdings
  else engine.fetchInTurn deadline paths holdings

theorem runInTurn_eq (engine : Engine T) (files : Listing String String) (deadline : Option T)
    (paths : List String) (pass : Pass T) :
    engine.runInTurn files deadline paths pass =
      settleAll files (engine.fetchInTurn deadline paths pass.holdings).1
        { pass with holdings := (engine.fetchInTurn deadline paths pass.holdings).2 } := by
  induction paths generalizing pass with
  | nil => rfl
  | cons path rest induction =>
      simp only [runInTurn, fetchInTurn]
      generalize engine.fetchImport deadline path pass.holdings = result
      rcases result with ⟨outcome, holdings⟩
      cases outcome with
      | content text =>
          simp only [ImportOutcome.settles, if_true, settleAll, Pass.settle, Pass.accept_holdings]
          exact induction { pass.accept files path text with holdings }
      | failed failure =>
          exact induction
            { pass with state := pass.state.fail path (.known failure), holdings }
      | interrupted interruption => rfl

theorem runBatch_eq (engine : Engine T) (pooled : Bool) (files : Listing String String)
    (deadline : Option T) (paths : List String) (pass : Pass T) :
    engine.runBatch pooled files deadline paths pass =
      settleAll files (engine.fetchBatch pooled deadline paths pass.holdings).1
        { pass with holdings := (engine.fetchBatch pooled deadline paths pass.holdings).2 } := by
  unfold runBatch fetchBatch
  split
  · rfl
  · exact runInTurn_eq engine files deadline paths pass

theorem fetchInTurn_prefix (engine : Engine T) (deadline : Option T) (paths : List String)
    (holdings : Holdings T) :
    (engine.fetchInTurn deadline paths holdings).1.map Prod.fst <+: paths := by
  induction paths generalizing holdings with
  | nil => exact List.prefix_refl []
  | cons path rest induction =>
      simp only [fetchInTurn]
      split
      · exact List.cons_prefix_cons.2 ⟨rfl, induction _⟩
      · exact List.cons_prefix_cons.2 ⟨rfl, List.nil_prefix⟩

theorem fetchBatch_prefix (engine : Engine T) (pooled : Bool) (deadline : Option T)
    (paths : List String) (holdings : Holdings T) :
    (engine.fetchBatch pooled deadline paths holdings).1.map Prod.fst <+: paths := by
  unfold fetchBatch
  split
  · simpa only [map_fst_fetchAll] using List.prefix_refl paths
  · exact fetchInTurn_prefix engine deadline paths holdings

theorem fetchBatch_complete (engine : Engine T) (pooled : Bool) (deadline : Option T)
    {paths : List String} {holdings : Holdings T}
    (all : unsettled (engine.fetchBatch pooled deadline paths holdings).1 = []) :
    (engine.fetchBatch pooled deadline paths holdings).1.map Prod.fst = paths := by
  unfold fetchBatch at all ⊢
  split
  next => exact map_fst_fetchAll engine deadline paths holdings
  next alone =>
    rw [if_neg alone] at all
    induction paths generalizing holdings with
    | nil => rfl
    | cons path rest induction =>
        simp only [fetchInTurn] at all ⊢
        split at all
        next settles =>
          rw [if_pos settles, List.map_cons]
          simp only [unsettled, List.dropWhile_cons, settles, if_true] at all
          rw [induction all]
        next breaks => simp [unsettled, breaks] at all

/-- What a batch is told is what fetching the asked paths gives, one after another. -/
theorem fetchAll_map_fst_fetchBatch (engine : Engine T) (pooled : Bool) (deadline : Option T)
    (paths : List String) (holdings : Holdings T) :
    engine.fetchAll deadline ((engine.fetchBatch pooled deadline paths holdings).1.map Prod.fst)
        holdings = engine.fetchBatch pooled deadline paths holdings := by
  unfold fetchBatch
  split
  · rw [map_fst_fetchAll]
  · induction paths generalizing holdings with
    | nil => rfl
    | cons path rest induction =>
        simp only [fetchInTurn]
        split
        · simp only [List.map_cons, fetchAll, induction]
        · rfl

theorem fetchAll_append (engine : Engine T) (deadline : Option T) (first second : List String)
    (holdings : Holdings T) :
    engine.fetchAll deadline (first ++ second) holdings =
      ((engine.fetchAll deadline first holdings).1 ++
          (engine.fetchAll deadline second (engine.fetchAll deadline first holdings).2).1,
        (engine.fetchAll deadline second (engine.fetchAll deadline first holdings).2).2) := by
  induction first generalizing holdings with
  | nil => rfl
  | cons path rest induction => simp only [List.cons_append, fetchAll, induction]

end

end Engine

/-! ## Settling outcomes -/

namespace Pass

open Engine

variable {T : Type} {files : Listing String String}

/-- What settling outcomes makes of a pass: contents are written and resolved, failures are noted,
and paths may be discovered. -/
structure Settles (before : Pass T) (outcomes : List (String × ImportOutcome T))
    (after : Pass T) : Prop where
  fetched : after.fetched = before.fetched.insertAll (texts outcomes)
  resolved : after.state.resolved = before.state.resolved ++ (texts outcomes).map Prod.fst
  failed : ∀ path, path ∈ after.state.failed ↔
    path ∈ before.state.failed ∨ path ∈ failures outcomes
  discovered : before.state.discovered <+: after.state.discovered
  aliases : after.state.aliases = before.state.aliases

theorem Settles.refl (pass : Pass T) : Settles pass [] pass where
  fetched := rfl
  resolved := (List.append_nil _).symm
  failed := fun _ => (or_iff_left List.not_mem_nil).symm
  discovered := List.prefix_refl _
  aliases := rfl

theorem Settles.trans {first second third : Pass T}
    {outcomes later : List (String × ImportOutcome T)} (left : Settles first outcomes second)
    (right : Settles second later third) : Settles first (outcomes ++ later) third where
  fetched := by
    rw [right.fetched, left.fetched, texts, texts, texts, List.filterMap_append]
    exact List.foldl_append.symm
  resolved := by
    rw [right.resolved, left.resolved, List.append_assoc, ← List.map_append, texts, texts, texts,
      List.filterMap_append]
  failed := fun path => by
    rw [right.failed, left.failed, or_assoc, failures, failures, failures, List.filterMap_append,
      List.mem_append]
  discovered := left.discovered.trans right.discovered
  aliases := right.aliases.trans left.aliases

theorem accept_settles (files : Listing String String) {pass : Pass T} {path : String}
    (text : String) (unresolved : path ∉ pass.state.resolved)
    (unfailed : path ∉ pass.state.failed) :
    Settles pass [(path, .content text)] (pass.accept files path text) where
  fetched := fetched_accept files pass path text
  resolved := by
    rw [resolved_accept]
    exact if_neg unresolved
  failed := fun other => by
    rw [failed_accept, Listing.mem_erase]
    constructor
    · exact fun present => Or.inl present.2
    · rintro (present | isFailure)
      · exact ⟨fun equal => unfailed (equal ▸ present), present⟩
      · exact absurd isFailure List.not_mem_nil
  discovered := by
    rcases accept_cases files pass path text with ⟨added, accepted, _⟩
    rw [accepted]
    exact List.prefix_append _ added
  aliases := aliases_accept files pass path text

theorem fail_settles (pass : Pass T) (path : String) (failure : Failure T) :
    Settles pass [(path, .failed failure)]
      { pass with state := pass.state.fail path (.known failure) } where
  fetched := rfl
  resolved := (List.append_nil _).symm
  failed := fun other => by
    simp only [ResolutionState.fail, Listing.mem_insert, failures, List.filterMap_cons,
      List.filterMap_nil, List.mem_singleton]
    exact or_comm
  discovered := List.prefix_refl _
  aliases := rfl

theorem settleAll_settles (files : Listing String String)
    {outcomes : List (String × ImportOutcome T)} (distinct : (outcomes.map Prod.fst).Nodup)
    {pass : Pass T}
    (fresh : ∀ path ∈ outcomes.map Prod.fst,
      path ∉ pass.state.resolved ∧ path ∉ pass.state.failed) :
    Settles pass (settled outcomes) (settleAll files outcomes pass).2 := by
  induction outcomes generalizing pass with
  | nil => exact .refl pass
  | cons outcome rest induction =>
      rcases outcome with ⟨path, outcome⟩
      rcases List.nodup_cons.1 distinct with ⟨notAgain, restDistinct⟩
      rcases fresh path List.mem_cons_self with ⟨unresolved, unfailed⟩
      have different : ∀ other ∈ rest.map Prod.fst, other ≠ path := fun other inRest equal =>
        notAgain (equal ▸ inRest)
      cases outcome with
      | content text =>
          refine (accept_settles files text unresolved unfailed).trans
            (induction restDistinct fun other inRest => ?_)
          rcases fresh other (List.mem_cons_of_mem path inRest) with ⟨notResolved, notFailed⟩
          rw [resolved_accept, failed_accept, ResolutionState.mem_appendNew, Listing.mem_erase]
          exact ⟨not_or.2 ⟨notResolved, different other inRest⟩, fun present =>
            notFailed present.2⟩
      | failed failure =>
          refine (fail_settles pass path failure).trans
            (induction restDistinct fun other inRest => ?_)
          rcases fresh other (List.mem_cons_of_mem path inRest) with ⟨notResolved, notFailed⟩
          refine ⟨notResolved, fun present => ?_⟩
          exact ((Listing.mem_insert _ _ _ _).1 present).elim (different other inRest) notFailed
      | interrupted interruption => exact .refl pass

theorem settleAll_cases (files : Listing String String)
    (outcomes : List (String × ImportOutcome T)) (pass : Pass T) :
    ((settleAll files outcomes pass).1 = none ∧ unsettled outcomes = []) ∨
      ∃ path cause rest, (settleAll files outcomes pass).1 = some cause ∧
        unsettled outcomes = (path, .interrupted cause) :: rest := by
  induction outcomes generalizing pass with
  | nil => exact Or.inl ⟨rfl, rfl⟩
  | cons outcome rest induction =>
      rcases outcome with ⟨path, outcome⟩
      cases outcome with
      | content text => exact induction (pass.accept files path text)
      | failed failure =>
          exact induction { pass with state := pass.state.fail path (.known failure) }
      | interrupted interruption => exact Or.inr ⟨path, interruption, rest, rfl, rfl⟩

theorem processing_settleAll (files : Listing String String)
    (outcomes : List (String × ImportOutcome T)) (pass : Pass T) :
    (settleAll files outcomes pass).2.state.processing =
      pass.state.processing.filter fun path => path ∉ (settled outcomes).map Prod.fst := by
  induction outcomes generalizing pass with
  | nil => simp [settleAll, settled]
  | cons outcome rest induction =>
      rcases outcome with ⟨path, outcome⟩
      -- Each settled path is removed by itself, so the filters of the head and of the rest join.
      have joined : ∀ paths : List String,
          ((ResolutionState.remove paths path).filter fun other =>
              other ∉ (settled rest).map Prod.fst) =
            paths.filter fun other => other ∉ path :: (settled rest).map Prod.fst := by
        intro paths
        rw [ResolutionState.remove, List.filter_filter]
        refine List.filter_congr fun other _ => ?_
        simp only [List.mem_cons, not_or, Bool.decide_and, Bool.and_comm, ne_eq]
      cases outcome with
      | content text =>
          rw [show settleAll files ((path, ImportOutcome.content text) :: rest) pass =
            settleAll files rest (pass.accept files path text) from rfl, induction,
            processing_accept, joined]
          rfl
      | failed failure =>
          rw [show settleAll files ((path, ImportOutcome.failed failure) :: rest) pass =
            settleAll files rest { pass with state := pass.state.fail path (.known failure) }
            from rfl, induction]
          exact joined pass.state.processing
      | interrupted interruption => simp [settleAll, settle, settled, ImportOutcome.settles]

end Pass

end SourceTree
