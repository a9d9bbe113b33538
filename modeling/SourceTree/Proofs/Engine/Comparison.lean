import SourceTree.Proofs.Engine.SharedCache
import SourceTree.Proofs.Engine.Twins

/-! # Comparing batches

A batch is fetched with a cache and without one. While the cache gives the same texts the two
passes stay twins; as soon as it does not, they have different files for good. -/

namespace SourceTree.Engine

open Pass

variable {T : Type} [Timescale T] {engine : Engine T} {files : Listing String String}

def texts (outcomes : List (String × ImportOutcome T)) : List (String × String) :=
  outcomes.filterMap fun
    | (path, .content text) => some (path, text)
    | _ => none

inductive ComparedAll (engine : Engine T) (cache : ContentCache (FetchError T)) :
    Preference → List (String × ImportOutcome T) → List (String × ImportOutcome T) →
      Preference → Prop
  | nil {preference : Preference} : ComparedAll engine cache preference [] [] preference
  | cons {preference later last : Preference} {path : String} {left right : ImportOutcome T}
      {lefts rights : List (String × ImportOutcome T)}
      (compared : Compared engine cache preference path left right later)
      (rest : ComparedAll engine cache later lefts rights last) :
      ComparedAll engine cache preference ((path, left) :: lefts) ((path, right) :: rights) last

theorem fetchAll_frame (engine : Engine T) (deadline : Option T) {paths : List String}
    {other : String} (absent : other ∉ paths) (holdings : Holdings T) :
    (engine.fetchAll deadline paths holdings).2.cache.AgreeAt holdings.cache other := by
  induction paths generalizing holdings with
  | nil => exact ⟨rfl, rfl⟩
  | cons path rest induction =>
      rw [List.mem_cons, not_or] at absent
      exact (induction absent.2 _).trans (fetchImport_frame engine deadline absent.1 holdings)

theorem fetchAll_compared (stable : engine.network.Stable) {cache : ContentCache (FetchError T)}
    (honest : Honest engine cache) {paths : List String} (distinct : paths.Nodup)
    {alone shared : Holdings T} (fresh : ∀ path ∈ paths, alone.cache.AgreeAt .empty path)
    (same : ∀ path ∈ paths, shared.cache.AgreeAt cache path) :
    ComparedAll engine cache shared.preference (engine.fetchAll none paths alone).1
      (engine.fetchAll none paths shared).1 (engine.fetchAll none paths shared).2.preference := by
  induction paths generalizing alone shared with
  | nil => exact .nil
  | cons path rest induction =>
      rcases List.nodup_cons.1 distinct with ⟨notAgain, restDistinct⟩
      have different : ∀ other ∈ rest, other ≠ path := fun other inRest equal =>
        notAgain (equal ▸ inRest)
      refine .cons (fetchImport_compared stable honest (fresh path List.mem_cons_self)
        (same path List.mem_cons_self)) (induction restDistinct ?_ ?_)
      · intro other inRest
        exact (fetchImport_frame engine none (different other inRest) alone).trans
          (fresh other (List.mem_cons_of_mem path inRest))
      · intro other inRest
        exact (fetchImport_frame engine none (different other inRest) shared).trans
          (same other (List.mem_cons_of_mem path inRest))

/-! ## Settling -/

omit [Timescale T] in
theorem get?_settleAll_of_not_mem {outcomes : List (String × ImportOutcome T)} {path : String}
    (absent : path ∉ outcomes.map Prod.fst) (pass : Pass T) :
    (settleAll files outcomes pass).2.fetched.get? path = pass.fetched.get? path := by
  induction outcomes generalizing pass with
  | nil => rfl
  | cons entry rest induction =>
      rcases entry with ⟨head, outcome⟩
      simp only [List.map_cons, List.mem_cons, not_or] at absent
      cases outcome with
      | content text =>
          simp only [settleAll, settle]
          rw [induction absent.2, fetched_accept]
          exact Listing.get?_insert_of_ne _ absent.1 text
      | failed failure =>
          exact induction absent.2 { pass with state := pass.state.fail head (.known failure) }
      | interrupted interruption => rfl

omit [Timescale T] in
theorem entries_settleAll {outcomes : List (String × ImportOutcome T)} {pass after : Pass T}
    (settled : settleAll files outcomes pass = (none, after))
    (distinct : (outcomes.map Prod.fst).Nodup)
    (unfetched : ∀ path ∈ outcomes.map Prod.fst, path ∉ pass.fetched) :
    after.fetched.entries = pass.fetched.entries ++ texts outcomes := by
  induction outcomes generalizing pass with
  | nil =>
      cases settled
      simp [texts]
  | cons entry rest induction =>
      rcases entry with ⟨path, outcome⟩
      rcases List.nodup_cons.1 distinct with ⟨notAgain, restDistinct⟩
      have restUnfetched : ∀ other ∈ rest.map Prod.fst, other ∉ pass.fetched :=
        fun other inRest => unfetched other (List.mem_cons_of_mem path inRest)
      cases outcome with
      | interrupted interruption => cases settled
      | failed failure =>
          have settledRest : settleAll files rest
              { pass with state := pass.state.fail path (.known failure) } = (none, after) :=
            settled
          have later := induction settledRest restDistinct restUnfetched
          exact later
      | content text =>
          have grown : (pass.accept files path text).fetched.entries =
              pass.fetched.entries ++ [(path, text)] := by
            rw [fetched_accept]
            exact Listing.entries_insert_of_not_mem (unfetched path List.mem_cons_self) text
          have later := induction settled restDistinct fun other inRest present => by
            rw [fetched_accept] at present
            rcases (Listing.mem_insert _ _ _ _).1 present with equal | earlier
            · exact notAgain (equal ▸ inRest)
            · exact restUnfetched other inRest earlier
          rw [later, grown, List.append_assoc]
          rfl

omit [Timescale T] in
theorem done_settleAll {outcomes : List (String × ImportOutcome T)} {pass after : Pass T}
    (settled : settleAll files outcomes pass = (none, after)) (path : String) :
    (path ∈ after.state.resolved ∨ path ∈ after.state.failed) ↔
      (path ∈ pass.state.resolved ∨ path ∈ pass.state.failed) ∨ path ∈ outcomes.map Prod.fst := by
  induction outcomes generalizing pass with
  | nil =>
      cases settled
      simp
  | cons entry rest induction =>
      rcases entry with ⟨head, outcome⟩
      rw [List.map_cons, List.mem_cons]
      cases outcome with
      | interrupted interruption => cases settled
      | failed failure =>
          have settledRest : settleAll files rest
              { pass with state := pass.state.fail head (.known failure) } = (none, after) :=
            settled
          rw [induction settledRest]
          simp only [ResolutionState.fail, Listing.mem_insert]
          grind
      | content text =>
          have settledRest : settleAll files rest (pass.accept files head text) = (none, after) :=
            settled
          rw [induction settledRest, resolved_accept, failed_accept]
          simp only [Listing.mem_erase, ResolutionState.mem_appendNew]
          grind

/-! ## Batches -/

section

variable {deadline : Option T} {pooled : Bool} {paths : List String} {pass after : Pass T}

theorem settleAll_of_runBatch
    (completed : engine.runBatch pooled files deadline paths pass = (none, after)) :
    settleAll files (engine.fetchAll deadline paths pass.holdings).1
      { pass with holdings := (engine.fetchAll deadline paths pass.holdings).2 } =
        (none, after) := by
  have run := (runBatch_cases engine pooled files deadline paths pass).2
  rw [completed] at run
  exact (run rfl).symm

theorem entries_runBatch
    (completed : engine.runBatch pooled files deadline paths pass = (none, after))
    (distinct : paths.Nodup) (unfetched : ∀ path ∈ paths, path ∉ pass.fetched) :
    after.fetched.entries =
      pass.fetched.entries ++ texts (engine.fetchAll deadline paths pass.holdings).1 := by
  apply entries_settleAll (settleAll_of_runBatch completed)
  · rw [map_fst_fetchAll]
    exact distinct
  · rw [map_fst_fetchAll]
    exact unfetched

theorem done_runBatch
    (completed : engine.runBatch pooled files deadline paths pass = (none, after))
    (path : String) :
    (path ∈ after.state.resolved ∨ path ∈ after.state.failed) ↔
      (path ∈ pass.state.resolved ∨ path ∈ pass.state.failed) ∨ path ∈ paths := by
  rw [done_settleAll (settleAll_of_runBatch completed) path, map_fst_fetchAll]

theorem runBatch_frame
    (completed : engine.runBatch pooled files deadline paths pass = (none, after))
    {other : String} (absent : other ∉ paths) :
    after.holdings.cache.AgreeAt pass.holdings.cache other := by
  have held := holdings_settleAll files (engine.fetchAll deadline paths pass.holdings).1
    { pass with holdings := (engine.fetchAll deadline paths pass.holdings).2 }
  rw [settleAll_of_runBatch completed] at held
  simp only at held
  rw [held]
  exact fetchAll_frame engine deadline absent pass.holdings

end

/-! ## Comparing -/

omit [Timescale T] in
def Parted (left right : Pass T) : Prop :=
  ∃ path text other, other ≠ text ∧ left.fetched.get? path = some text ∧
    right.fetched.get? path = some other

theorem agrees_cons {cache : ContentCache (FetchError T)} {preference later : Preference}
    {path text : String} (yields : Yields engine cache preference path text later)
    (rest : List (String × String)) :
    Agrees engine cache preference ((path, text) :: rest) ↔ Agrees engine cache later rest := by
  constructor
  · rintro ⟨other, again, agrees⟩
    exact (yields.unique again).2 ▸ agrees
  · exact fun agrees => ⟨later, yields, agrees⟩

theorem ComparedAll.map_fst {cache : ContentCache (FetchError T)} {preference last : Preference}
    {lefts rights : List (String × ImportOutcome T)}
    (compared : ComparedAll engine cache preference lefts rights last) :
    lefts.map Prod.fst = rights.map Prod.fst := by
  induction compared with
  | nil => rfl
  | cons _ _ induction => exact congrArg (_ :: ·) induction

/-- A batch of the pass without the cache is not interrupted. Either the cache gives the same
texts and the passes stay twins, or it does not and they part. -/
theorem settleAll_compared {cache : ContentCache (FetchError T)} {preference last : Preference}
    {lefts rights : List (String × ImportOutcome T)}
    (compared : ComparedAll engine cache preference lefts rights last)
    (distinct : (lefts.map Prod.fst).Nodup) {left right after : Pass T} (twin : Twin left right)
    (settled : settleAll files lefts left = (none, after)) :
    ((settleAll files rights right).1 = none ∧ Twin after (settleAll files rights right).2 ∧
        ∀ rest, Agrees engine cache preference (texts lefts ++ rest) ↔
          Agrees engine cache last rest) ∨
      ((∀ rest, ¬Agrees engine cache preference (texts lefts ++ rest)) ∧
        ((settleAll files rights right).1 ≠ none ∨
          Parted after (settleAll files rights right).2)) := by
  -- Up to the first path that the passes are told differently, they settle the same.
  induction compared generalizing left right with
  | nil =>
      cases settled
      exact Or.inl ⟨rfl, twin, fun rest => Iff.rfl⟩
  | @cons preference later last path leftOutcome rightOutcome lefts rights compared rest
      induction =>
      rcases List.nodup_cons.1 distinct with ⟨notAgain, restDistinct⟩
      cases compared with
      | interrupted => cases settled
      | @agree text _ yields =>
          have settledRest : settleAll files lefts (left.accept files path text) = (none, after) :=
            settled
          have same : ∀ more, texts ((path, ImportOutcome.content (T := T) text) :: lefts) ++ more =
              (path, text) :: (texts lefts ++ more) := fun _ => rfl
          simp only [same, agrees_cons yields]
          exact induction restDistinct (twin.accept files path text) settledRest
      | @lacking failure other =>
          have settledRest : settleAll files lefts
              { left with state := left.state.fail path (.known failure) } = (none, after) :=
            settled
          have failed : Twin { left with state := left.state.fail path (.known failure) }
              { right with state := right.state.fail path (.known other) } :=
            ⟨twin.queue, twin.fetched, twin.state.fail path _ _⟩
          exact induction restDistinct failed settledRest
      | @differ text other _ different never =>
          -- No path is settled twice, so the two texts stay where they are written here.
          refine Or.inr ⟨fun more agrees => ?_, Or.inr ⟨path, text, other, different, ?_, ?_⟩⟩
          · rcases agrees with ⟨later, yields, _⟩
            exact never later yields
          · have settledRest : settleAll files lefts (left.accept files path text) =
                (none, after) := settled
            have kept : (settleAll files lefts (left.accept files path text)).2.fetched.get? path =
                (left.accept files path text).fetched.get? path :=
              get?_settleAll_of_not_mem notAgain _
            rw [settledRest] at kept
            rw [kept, fetched_accept]
            exact Listing.get?_insert_self _ path text
          · have notAgainRight : path ∉ rights.map Prod.fst := rest.map_fst ▸ notAgain
            simp only [settleAll, settle]
            rw [get?_settleAll_of_not_mem notAgainRight, fetched_accept]
            exact Listing.get?_insert_self _ path other
      | broke never =>
          refine Or.inr ⟨fun more agrees => ?_, Or.inl ?_⟩
          · rcases agrees with ⟨later, yields, _⟩
            exact never later yields
          · simp [settleAll, settle]

end SourceTree.Engine
