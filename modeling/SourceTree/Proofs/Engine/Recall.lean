import SourceTree.Proofs.Engine.Integrity
import SourceTree.Proofs.Engine.Turns

/-! # Recalling what became of paths

What became of a path can be recalled: of a path that was asked for, the cache knows; any other is
refused for what it is. So fetches that were not interrupted can be made again, in the same order,
without a request and whatever versions are preferred. -/

namespace SourceTree.Engine

variable {T : Type} [Timescale T] {engine : Engine T}

/-- Whether a cache says what becomes of a path. -/
def Recalls (engine : Engine T) (cache : ContentCache (FetchError T)) (path : String)
    (outcome : ImportOutcome T) : Prop :=
  ∀ deadline (holdings : Holdings T), holdings.cache.AgreeAt cache path →
    engine.fetchImport deadline path holdings = (outcome, holdings)

theorem Recalls.of_agree {cache later : ContentCache (FetchError T)} {path : String}
    {outcome : ImportOutcome T} (recalls : Recalls engine cache path outcome)
    (agree : later.AgreeAt cache path) : Recalls engine later path outcome :=
  fun deadline holdings same => recalls deadline holdings (same.trans agree)

theorem fetch_of_failed {library : Library} {deadline : Option T} {path : String}
    {holdings : Holdings T} {failure : Failure T}
    (isFailed : (engine.fetchFromLibrary library deadline path holdings).1 = .failed failure) :
    ∃ error, failure = .fetch error := by
  have concluded := (fetchFromLibrary_asksFor engine library deadline path holdings).1.concluded
  rw [isFailed] at concluded
  generalize engine.tries library deadline path holdings = made at concluded
  cases concluded with
  | exhausted head failed => exact ⟨_, rfl⟩

theorem recalls_fetchImport (engine : Engine T) (deadline : Option T) (path : String)
    (holdings : Holdings T)
    (settles : (engine.fetchImport deadline path holdings).1.settles = true) :
    Recalls engine (engine.fetchImport deadline path holdings).2.cache path
      (engine.fetchImport deadline path holdings).1 := by
  -- A fetch reads nothing of the cache but what it remembers of the path, where both caches agree.
  intro another second agree
  unfold fetchImport at settles agree ⊢
  split
  next => rfl
  next absolute =>
    simp only [if_neg absolute] at settles agree
    cases owner : engine.registry.find path with
    | none => rfl
    | some library =>
        simp only [owner] at settles agree ⊢
        cases known : holdings.cache.content? path with
        | some text =>
            simp only [known, ContentCache.AgreeAt] at agree ⊢
            simp only [agree.1]
        | none =>
            cases failed : holdings.cache.failure? path with
            | some error =>
                simp only [known, failed, ContentCache.AgreeAt] at agree ⊢
                simp only [agree.1, agree.2]
            | none =>
                have unchanged := cache_fetchFromLibrary engine library deadline path holdings
                have isFetch := @fetch_of_failed T _ engine library deadline path holdings
                simp only [known, failed] at settles agree ⊢
                generalize engine.fetchFromLibrary library deadline path holdings = result
                  at settles agree unchanged isFetch ⊢
                rcases result with ⟨outcome, after⟩
                cases outcome with
                | interrupted interruption => cases settles
                | content text =>
                    simp only [remember, ContentCache.AgreeAt, ContentCache.content?_put, if_true]
                      at agree ⊢
                    simp only [agree.1]
                | failed failure =>
                    rcases isFetch rfl with ⟨error, rfl⟩
                    have missing : after.cache.content? path = none := unchanged ▸ known
                    have kept : (after.cache.recordFailure path error).content? path =
                      after.cache.content? path := rfl
                    simp only [remember, ContentCache.AgreeAt, kept, missing,
                      ContentCache.failure?_recordFailure, if_true] at agree ⊢
                    simp only [agree.1, agree.2]

theorem Recalls.fetchImport {holdings : Holdings T} {path : String} {outcome : ImportOutcome T}
    (recalls : Recalls engine holdings.cache path outcome) (deadline : Option T)
    (other : String) :
    Recalls engine (engine.fetchImport deadline other holdings).2.cache path outcome := by
  by_cases same : path = other
  · rw [← same, recalls deadline holdings ⟨rfl, rfl⟩]
    exact recalls
  · exact recalls.of_agree (fetchImport_frame engine deadline same holdings)

theorem Recalls.fetchAll {path : String} {outcome : ImportOutcome T} (deadline : Option T)
    (paths : List String) {holdings : Holdings T}
    (recalls : Recalls engine holdings.cache path outcome) :
    Recalls engine (engine.fetchAll deadline paths holdings).2.cache path outcome := by
  induction paths generalizing holdings with
  | nil => exact recalls
  | cons other rest induction => exact induction (recalls.fetchImport deadline other)

theorem recalls_of_mem_fetchAll {deadline : Option T} {paths : List String}
    {holdings : Holdings T} (all : unsettled (engine.fetchAll deadline paths holdings).1 = []) :
    ∀ entry ∈ (engine.fetchAll deadline paths holdings).1,
      Recalls engine (engine.fetchAll deadline paths holdings).2.cache entry.1 entry.2 := by
  induction paths generalizing holdings with
  | nil => exact fun _ made => absurd made List.not_mem_nil
  | cons path rest induction =>
      simp only [Engine.fetchAll] at all ⊢
      have settles : (engine.fetchImport deadline path holdings).1.settles = true :=
        List.dropWhile_eq_nil_iff.1 all _ List.mem_cons_self
      rw [unsettled_cons settles] at all
      intro entry made
      rcases List.mem_cons.1 made with rfl | later
      · exact (recalls_fetchImport engine deadline path holdings settles).fetchAll deadline rest
      · exact induction all entry later

/-- Fetches whose outcomes are recalled can be made again, and nothing changes. -/
theorem fetchAll_of_recalls (deadline : Option T) {holdings : Holdings T}
    {outcomes : List (String × ImportOutcome T)}
    (recalls : ∀ entry ∈ outcomes, Recalls engine holdings.cache entry.1 entry.2) :
    engine.fetchAll deadline (outcomes.map Prod.fst) holdings = (outcomes, holdings) := by
  induction outcomes with
  | nil => rfl
  | cons entry rest induction =>
      rcases entry with ⟨path, outcome⟩
      have now := recalls ⟨path, outcome⟩ List.mem_cons_self deadline holdings ⟨rfl, rfl⟩
      simp only at now
      simp only [List.map_cons, Engine.fetchAll, now,
        induction fun other later => recalls other (List.mem_cons_of_mem _ later)]

theorem fetchBatch_of_recalls (pooled : Bool) (deadline : Option T) {holdings : Holdings T}
    {outcomes : List (String × ImportOutcome T)} (all : unsettled outcomes = [])
    (recalls : ∀ entry ∈ outcomes, Recalls engine holdings.cache entry.1 entry.2) :
    engine.fetchBatch pooled deadline (outcomes.map Prod.fst) holdings = (outcomes, holdings) := by
  have made := fetchAll_of_recalls deadline recalls
  rw [← made]
  have complete : unsettled
      (engine.fetchAll deadline (outcomes.map Prod.fst) holdings).1 = [] := by
    rw [made]
    exact all
  exact fetchBatch_eq_fetchAll engine pooled deadline
    (unsettled_fetchAll engine pooled deadline complete)

end SourceTree.Engine
