import SourceTree.Proofs.Engine.Fetching

/-! # Caches that outlive a pass

Over a stable network and without a deadline a cache remembers what the addresses of its paths
said. It need not remember what a pass would be told now: the text of a path is that of the version
that was in use when the path was fetched first, and a pass that is given remembered texts does not
learn which versions are missing others. -/

namespace SourceTree.Engine

variable {T : Type} [Timescale T] {engine : Engine T}

structure Honest (engine : Engine T) (cache : ContentCache (FetchError T)) : Prop where
  content : ∀ path text, cache.content? path = some text →
    ∃ library, engine.registry.find path = some library ∧
      ∃ url ∈ library.addresses (library.relativePath path), engine.verdict url = .content text
  failure : ∀ path error, cache.failure? path = some error →
    ∃ library, engine.registry.find path = some library ∧
      ∀ url ∈ library.addresses (library.relativePath path),
        ∃ reason, engine.verdict url = .failed reason

theorem honest_empty (engine : Engine T) : Honest engine .empty where
  content := fun _ _ known => by cases known
  failure := fun _ _ known => by cases known

theorem Honest.fetchImport {holdings : Holdings T} (honest : Honest engine holdings.cache)
    (stable : engine.network.Stable) (path : String) :
    Honest engine (engine.fetchImport none path holdings).2.cache := by
  have fetches := fetchImport_fetches engine none path holdings
  generalize engine.fetchImport none path holdings = result at fetches ⊢
  cases fetches with
  | refused _ => exact honest
  | recalled _ _ _ => exact honest
  | failedBefore _ _ _ _ => exact honest
  | @asked library absolute isOwned unknown unfailed =>
      -- Only a path that is asked for is written, with the verdict on its addresses.
      have judged := fetchFromLibrary_judged stable library path holdings
      have unchanged := cache_fetchFromLibrary engine library none path holdings
      generalize engine.fetchFromLibrary library none path holdings = fetched
        at judged unchanged ⊢
      rcases fetched with ⟨outcome, after⟩
      simp only at judged unchanged
      rw [← unchanged] at honest
      cases judged with
      | interrupted _ _ => exact honest
      | content isAddress found =>
          refine ⟨fun other text known => ?_, fun other error known => ?_⟩
          · rw [remember, ContentCache.content?_put] at known
            split at known
            next equal =>
              cases known
              exact equal ▸ ⟨library, isOwned, _, isAddress, found⟩
            next => exact honest.content other text known
          · rw [remember, ContentCache.failure?_put] at known
            split at known
            · cases known
            · exact honest.failure other error known
      | failed lacking =>
          refine ⟨honest.content, fun other error known => ?_⟩
          rw [remember, ContentCache.failure?_recordFailure] at known
          split at known
          next equal => exact equal ▸ ⟨library, isOwned, lacking⟩
          next => exact honest.failure other error known

theorem fetchImport_frame (engine : Engine T) (deadline : Option T) {path other : String}
    (different : other ≠ path) (holdings : Holdings T) :
    (engine.fetchImport deadline path holdings).2.cache.AgreeAt holdings.cache other := by
  have fetches := fetchImport_fetches engine deadline path holdings
  generalize engine.fetchImport deadline path holdings = result at fetches ⊢
  cases fetches with
  | refused _ => exact ⟨rfl, rfl⟩
  | recalled _ _ _ => exact ⟨rfl, rfl⟩
  | failedBefore _ _ _ _ => exact ⟨rfl, rfl⟩
  | @asked library absolute isOwned unknown unfailed =>
      have unchanged := cache_fetchFromLibrary engine library deadline path holdings
      generalize engine.fetchFromLibrary library deadline path holdings = fetched at unchanged ⊢
      rcases fetched with ⟨outcome, after⟩
      simp only at unchanged
      rw [← unchanged]
      unfold remember
      split
      next equal =>
        cases equal
        simp [ContentCache.AgreeAt, ContentCache.content?_put, ContentCache.failure?_put, different]
      next equal =>
        cases equal
        exact ⟨rfl, by simp [ContentCache.failure?_recordFailure, different]⟩
      next => exact ⟨rfl, rfl⟩

/-! ## What a cache gives for the files of a pass -/

/-- With the cache, a pass at the preference gets the text for the path, and goes on with the later
preference: it remembers the text, or remembers none and finds it at the addresses of the path. -/
def Yields (engine : Engine T) (cache : ContentCache (FetchError T)) (preference : Preference)
    (path text : String) (later : Preference) : Prop :=
  match cache.content? path with
  | some known => known = text ∧ later = preference
  | none => ∃ library, engine.registry.find path = some library ∧
      (engine.fetchFromLibrary library none path ⟨.empty, preference, .startingAt 0⟩).1 =
        .content text ∧
      (engine.fetchFromLibrary library none path
        ⟨.empty, preference, .startingAt 0⟩).2.preference = later

/-- With the cache, a pass that fetches the files one after another gets these texts for them. -/
def Agrees (engine : Engine T) (cache : ContentCache (FetchError T)) :
    Preference → List (String × String) → Prop
  | _, [] => True
  | preference, (path, text) :: rest =>
      ∃ later, Yields engine cache preference path text later ∧ Agrees engine cache later rest

theorem yields_known (engine : Engine T) {cache : ContentCache (FetchError T)}
    {path text : String} (known : cache.content? path = some text) (preference : Preference) :
    Yields engine cache preference path text preference := by
  unfold Yields
  rw [known]
  exact ⟨rfl, rfl⟩

theorem yields_asked {cache : ContentCache (FetchError T)} {path text : String}
    (unknown : cache.content? path = none) {library : Library}
    (isOwned : engine.registry.find path = some library) {preference : Preference}
    (found : (engine.fetchFromLibrary library none path
      ⟨.empty, preference, .startingAt 0⟩).1 = .content text) :
    Yields engine cache preference path text
      (engine.fetchFromLibrary library none path
        ⟨.empty, preference, .startingAt 0⟩).2.preference := by
  unfold Yields
  rw [unknown]
  exact ⟨library, isOwned, found, rfl⟩

theorem Yields.unique {cache : ContentCache (FetchError T)} {preference : Preference}
    {path text other : String} {later otherLater : Preference}
    (yields : Yields engine cache preference path text later)
    (again : Yields engine cache preference path other otherLater) :
    text = other ∧ later = otherLater := by
  unfold Yields at yields again
  split at yields
  next known remembered =>
    rw [remembered] at again
    exact ⟨yields.1.symm.trans again.1, yields.2.trans again.2.symm⟩
  next unknown =>
    rw [unknown] at again
    rcases yields with ⟨library, isOwned, found, rfl⟩
    rcases again with ⟨otherLibrary, otherOwned, otherFound, rfl⟩
    rw [isOwned] at otherOwned
    cases otherOwned
    rw [found] at otherFound
    cases otherFound
    exact ⟨rfl, rfl⟩

inductive Compared (engine : Engine T) (cache : ContentCache (FetchError T))
    (preference : Preference) (path : String) :
    ImportOutcome T → ImportOutcome T → Preference → Prop
  | agree {text : String} {later : Preference}
      (yields : Yields engine cache preference path text later) :
      Compared engine cache preference path (.content text) (.content text) later
  | differ {text other : String} {later : Preference} (different : other ≠ text)
      (never : ∀ later, ¬Yields engine cache preference path text later) :
      Compared engine cache preference path (.content text) (.content other) later
  | broke {text : String} {interruption : Interruption T} {later : Preference}
      (never : ∀ later, ¬Yields engine cache preference path text later) :
      Compared engine cache preference path (.content text) (.interrupted interruption) later
  | lacking {failure other : Failure T} :
      Compared engine cache preference path (.failed failure) (.failed other) preference
  | interrupted {interruption : Interruption T} {outcome : ImportOutcome T}
      {later : Preference} :
      Compared engine cache preference path (.interrupted interruption) outcome later

theorem compared_of_yields {cache : ContentCache (FetchError T)} {preference : Preference}
    {path text : String} (other : String) {later : Preference}
    (yields : Yields engine cache preference path other later) :
    Compared engine cache preference path (.content text) (.content other) later := by
  by_cases same : other = text
  · subst same
    exact .agree yields
  · exact .differ same fun _ again => same (yields.unique again).1

theorem Judged.failed_of_lacking {addresses : List String} {outcome : ImportOutcome T}
    (judged : Judged engine addresses outcome)
    (lacking : ∀ url ∈ addresses, ∃ reason, engine.verdict url = .failed reason) :
    ∃ failure, outcome = .failed failure := by
  cases judged with
  | failed _ => exact ⟨_, rfl⟩
  | content isAddress found =>
      rcases lacking _ isAddress with ⟨reason, isFailed⟩
      rw [isFailed] at found
      cases found
  | interrupted isAddress broken =>
      rcases lacking _ isAddress with ⟨reason, isFailed⟩
      rw [isFailed] at broken
      cases broken

theorem compared_of_asked (stable : engine.network.Stable) {library : Library} {path : String}
    (isOwned : engine.registry.find path = some library) {cache : ContentCache (FetchError T)}
    (missing : cache.content? path = none) {outcome : ImportOutcome T}
    (judged : Judged engine (library.addresses (library.relativePath path)) outcome)
    (shared : Holdings T) :
    Compared engine cache shared.preference path outcome
      (engine.fetchFromLibrary library none path shared).1
      (engine.fetchFromLibrary library none path shared).2.preference := by
  have sharedJudged := fetchFromLibrary_judged stable library path shared
  have bare : shared.preference =
      (⟨.empty, shared.preference, .startingAt 0⟩ : Holdings T).preference := rfl
  rcases fetchFromLibrary_congr stable library path bare with ⟨sameOutcome, samePreference⟩
  -- Both passes get the same verdict on every address; what the second is told decides how they
  -- compare.
  cases asked : (engine.fetchFromLibrary library none path shared).1 with
  | content text =>
      have yields : Yields engine cache shared.preference path text
          (engine.fetchFromLibrary library none path shared).2.preference := by
        rw [samePreference]
        exact yields_asked missing isOwned (sameOutcome.symm.trans asked)
      cases judged with
      | content _ _ => exact compared_of_yields text yields
      | interrupted _ _ => exact .interrupted
      | failed lacking =>
          rcases sharedJudged.failed_of_lacking lacking with ⟨failure, isFailed⟩
          rw [isFailed] at asked
          cases asked
  | failed failure =>
      rw [preference_of_failed asked]
      rw [asked] at sharedJudged
      cases sharedJudged with
      | failed lacking =>
          rcases judged.failed_of_lacking lacking with ⟨other, rfl⟩
          exact .lacking
  | interrupted interruption =>
      cases judged with
      | interrupted _ _ => exact .interrupted
      | failed lacking =>
          rcases sharedJudged.failed_of_lacking lacking with ⟨failure, isFailed⟩
          rw [isFailed] at asked
          cases asked
      | content _ _ =>
          refine .broke fun later yields => ?_
          unfold Yields at yields
          rw [missing] at yields
          rcases yields with ⟨owner, owns, found, _⟩
          rw [isOwned] at owns
          cases owns
          rw [← sameOutcome, asked] at found
          cases found

theorem fetchImport_compared (stable : engine.network.Stable)
    {cache : ContentCache (FetchError T)} (honest : Honest engine cache) {path : String}
    {alone shared : Holdings T} (fresh : alone.cache.AgreeAt .empty path)
    (same : shared.cache.AgreeAt cache path) :
    Compared engine cache shared.preference path (engine.fetchImport none path alone).1
      (engine.fetchImport none path shared).1
      (engine.fetchImport none path shared).2.preference := by
  have aloneFetches := fetchImport_fetches engine none path alone
  have sharedFetches := fetchImport_fetches engine none path shared
  generalize engine.fetchImport none path alone = aloneResult at aloneFetches ⊢
  generalize engine.fetchImport none path shared = sharedResult at sharedFetches ⊢
  cases aloneFetches with
  -- The pass alone has not met the path, so it remembers nothing of it.
  | recalled _ _ known =>
      rw [fresh.1] at known
      cases known
  | failedBefore _ _ _ known =>
      rw [fresh.2] at known
      cases known
  | refused refused =>
      cases sharedFetches with
      | refused _ => exact .lacking
      | recalled absolute isOwned _ => simp [absolute, isOwned] at refused
      | failedBefore absolute isOwned _ _ => simp [absolute, isOwned] at refused
      | asked absolute isOwned _ _ => simp [absolute, isOwned] at refused
  | @asked library absolute isOwned _ _ =>
      have judged := fetchFromLibrary_judged stable library path alone
      rw [fst_remember]
      cases sharedFetches with
      | refused refused => simp [absolute, isOwned] at refused
      | @recalled _ text _ _ known =>
          rw [same.1] at known
          have yields := yields_known engine known shared.preference
          rcases honest.content path text known with ⟨owner, owns, url, isAddress, found⟩
          rw [isOwned] at owns
          cases owns
          generalize (engine.fetchFromLibrary library none path alone).1 = outcome at judged ⊢
          cases judged with
          | content _ _ => exact compared_of_yields text yields
          | interrupted _ _ => exact .interrupted
          | failed lacking =>
              rcases (Judged.content isAddress found).failed_of_lacking lacking with ⟨_, isFailed⟩
              cases isFailed
      | @failedBefore _ error _ _ _ known =>
          rw [same.2] at known
          rcases honest.failure path error known with ⟨owner, owns, lacking⟩
          rw [isOwned] at owns
          cases owns
          rcases judged.failed_of_lacking lacking with ⟨failure, isFailed⟩
          rw [isFailed]
          exact .lacking
      | @asked _ _ owns missing _ =>
          rw [isOwned] at owns
          cases owns
          rw [same.1] at missing
          rw [fst_remember, preference_remember]
          exact compared_of_asked stable isOwned missing judged shared

end SourceTree.Engine
