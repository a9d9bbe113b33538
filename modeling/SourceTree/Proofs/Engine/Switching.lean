import SourceTree.Proofs.Engine.Recall

/-! # Switching versions

Over a stable network and without a deadline it is the selected version of a library that says what
becomes of a path which the library is asked for, and to which version the library is switched. A
fetch reads nothing else but what is remembered of its own path, and changes nothing else but that
and the choice for its own library. -/

namespace SourceTree

structure Told (T : Type) where
  outcome : ImportOutcome T
  switch : Option String

def Preference.follow (preference : Preference) : Option (String × String) → Preference
  | some (root, version) => preference.set root version
  | none => preference

theorem Preference.get?_follow (preference : Preference) (switch : Option (String × String))
    {root : String} (elsewhere : ∀ version, switch ≠ some (root, version)) :
    (preference.follow switch).get? root = preference.get? root := by
  rcases switch with _ | ⟨other, version⟩
  · rfl
  · have different : root ≠ other := fun same => elsewhere version (same ▸ rfl)
    rw [follow, get?_set, if_neg different]

theorem Preference.follow_comm (preference : Preference) {first second : Option (String × String)}
    (apart : ∀ root version other, first = some (root, version) → second ≠ some (root, other))
    (root : String) :
    ((preference.follow first).follow second).get? root =
      ((preference.follow second).follow first).get? root := by
  rcases first with _ | ⟨left, version⟩
  · rfl
  · rcases second with _ | ⟨right, other⟩
    · rfl
    · have different : left ≠ right := fun same => apart left version other rfl (same ▸ rfl)
      simp only [Preference.follow, Preference.get?_set]
      by_cases isLeft : root = left
      · rw [if_pos isLeft, if_neg (isLeft ▸ different), if_pos isLeft]
      · rw [if_neg isLeft, if_neg isLeft]

namespace Engine

variable {T : Type} [Timescale T]

def toldBy (engine : Engine T) (path : String) (first : FetchError T) :
    List Candidate → (attempted : List String) → Told T
  | [], attempted => ⟨.failed (.fetch (.exhausted path first attempted)), none⟩
  | candidate :: rest, attempted =>
      match engine.verdict candidate.url with
      | .content text => ⟨.content text, candidate.version⟩
      | .failed _ => toldBy engine path first rest (attempted ++ [candidate.url])
      | .interrupted interruption => ⟨.interrupted interruption, none⟩

def toldAt (engine : Engine T) (library : Library) (version : LibraryVersion) (path : String) :
    Told T :=
  let relativePath := library.relativePath path
  let url := version.url relativePath
  match engine.verdict url with
  | .content text => ⟨.content text, none⟩
  | .failed first => engine.toldBy path first (library.substitutes version relativePath) [url]
  | .interrupted interruption => ⟨.interrupted interruption, none⟩

def askedFor (engine : Engine T) (cache : ContentCache (FetchError T)) (path : String) :
    Option Library :=
  if ImportPath.isRelative path then none
  else (engine.registry.find path).filter fun _ =>
    (cache.content? path).isNone && (cache.failure? path).isNone

def switchOf (engine : Engine T) (holdings : Holdings T) (path : String) :
    Option (String × String) :=
  (engine.askedFor holdings.cache path).bind fun library =>
    (engine.toldAt library (holdings.preference.select library) path).switch.map fun version =>
      (library.root, version)

variable {engine : Engine T}

theorem fetchSubstitutes_told (stable : engine.network.Stable) (library : Library)
    (path : String) (first : FetchError T) (candidates : List Candidate)
    (attempted : List String) (holdings : Holdings T) :
    (engine.fetchSubstitutes library none path first candidates attempted holdings).1 =
        (engine.toldBy path first candidates attempted).outcome ∧
      (engine.fetchSubstitutes library none path first candidates attempted holdings).2.preference =
        holdings.preference.follow ((engine.toldBy path first candidates attempted).switch.map
          fun version => (library.root, version)) := by
  induction candidates generalizing attempted holdings with
  | nil => exact ⟨rfl, rfl⟩
  | cons candidate rest induction =>
      have isVerdict := fetch_eq_verdict stable candidate.url holdings.world
      simp only [fetchSubstitutes, toldBy, FetchPolicy.isReached, Option.any_none,
        Bool.false_eq_true, if_false, ← isVerdict]
      generalize engine.policy.fetch engine.network none candidate.url holdings.world = result
      rcases result with ⟨fetched, world⟩
      cases fetched with
      | content text =>
          refine ⟨rfl, ?_⟩
          cases candidate.version <;> rfl
      | interrupted interruption => exact ⟨rfl, rfl⟩
      | failed reason => exact induction _ { holdings with world }

theorem fetchFromLibrary_told (stable : engine.network.Stable) (library : Library)
    (path : String) (holdings : Holdings T) :
    (engine.fetchFromLibrary library none path holdings).1 =
        (engine.toldAt library (holdings.preference.select library) path).outcome ∧
      (engine.fetchFromLibrary library none path holdings).2.preference =
        holdings.preference.follow
          ((engine.toldAt library (holdings.preference.select library) path).switch.map
            fun version => (library.root, version)) := by
  have isVerdict := fetch_eq_verdict stable
    ((holdings.preference.select library).url (library.relativePath path)) holdings.world
  simp only [fetchFromLibrary, toldAt, ← isVerdict]
  generalize engine.policy.fetch engine.network none _ holdings.world = result
  rcases result with ⟨fetched, world⟩
  cases fetched with
  | content text => exact ⟨rfl, rfl⟩
  | interrupted interruption => exact ⟨rfl, rfl⟩
  | failed reason =>
      exact fetchSubstitutes_told stable library path reason _ _ { holdings with world }

/-! ## What a fetch reads -/

omit [Timescale T] in
theorem askedFor_congr {first second : ContentCache (FetchError T)} {path : String}
    (agree : first.AgreeAt second path) :
    engine.askedFor first path = engine.askedFor second path := by
  simp only [askedFor, agree.1, agree.2]

theorem askedFor_cases (engine : Engine T) (cache : ContentCache (FetchError T)) (path : String) :
    (engine.askedFor cache path = none ∧ ∃ outcome, Recalls engine cache path outcome) ∨
      ∃ library, engine.askedFor cache path = some library ∧
        engine.registry.Provides library path ∧ ∀ holdings : Holdings T,
          holdings.cache.AgreeAt cache path → ∀ deadline,
            engine.fetchImport deadline path holdings =
              remember path (engine.fetchFromLibrary library deadline path holdings) := by
  cases relative : ImportPath.isRelative path with
  | true =>
      refine Or.inl ⟨if_pos relative, .failed (.localImportMissing path), ?_⟩
      exact fun deadline holdings _ => if_pos relative
  | false =>
      cases owner : engine.registry.find path with
      | none =>
          refine Or.inl ⟨by simp [askedFor, owner], .failed (.unsupportedImport path), ?_⟩
          intro deadline holdings _
          simp [fetchImport, relative, owner]
      | some library =>
          cases known : cache.content? path with
          | some text =>
              refine Or.inl ⟨by simp [askedFor, owner, known], .content text, ?_⟩
              intro deadline holdings agree
              simp [fetchImport, relative, owner, agree.1, known]
          | none =>
              cases failed : cache.failure? path with
              | some error =>
                  refine Or.inl ⟨by simp [askedFor, owner, failed], .failed (.fetch error), ?_⟩
                  intro deadline holdings agree
                  simp [fetchImport, relative, owner, agree.1, agree.2, known, failed]
              | none =>
                  refine Or.inr ⟨library, by simp [askedFor, relative, owner, known, failed],
                    Registry.provides_of_find relative owner, fun holdings agree deadline => ?_⟩
                  simp [fetchImport, relative, owner, agree.1, agree.2, known, failed]

theorem outcome_of_askedFor (stable : engine.network.Stable) {holdings : Holdings T}
    {path : String} {library : Library}
    (asked : engine.askedFor holdings.cache path = some library) :
    (engine.fetchImport none path holdings).1 =
      (engine.toldAt library (holdings.preference.select library) path).outcome := by
  rcases askedFor_cases engine holdings.cache path with
    ⟨unasked, _⟩ | ⟨owner, isOwner, _, fetches⟩
  · rw [unasked] at asked
    cases asked
  · rw [isOwner] at asked
    cases asked
    rw [fetches holdings ⟨rfl, rfl⟩, fst_remember]
    exact (fetchFromLibrary_told stable library path holdings).1

theorem preference_fetchImport (stable : engine.network.Stable) (holdings : Holdings T)
    (path : String) :
    (engine.fetchImport none path holdings).2.preference =
      holdings.preference.follow (engine.switchOf holdings path) := by
  rcases askedFor_cases engine holdings.cache path with
    ⟨unasked, outcome, recalls⟩ | ⟨library, isOwner, _, fetches⟩
  · rw [recalls none holdings ⟨rfl, rfl⟩, switchOf, unasked]
    rfl
  · rw [fetches holdings ⟨rfl, rfl⟩, preference_remember, switchOf, isOwner]
    exact (fetchFromLibrary_told stable library path holdings).2

omit [Timescale T] in
theorem agreeAt_remember {path : String} {left right : ImportOutcome T × Holdings T}
    (same : left.1 = right.1) (agree : left.2.cache.AgreeAt right.2.cache path) :
    (remember path left).2.cache.AgreeAt (remember path right).2.cache path := by
  rcases left with ⟨outcome, held⟩
  rcases right with ⟨_, heldToo⟩
  cases same
  cases outcome with
  | interrupted interruption => exact agree
  | content text =>
      simp only [remember, ContentCache.AgreeAt, ContentCache.content?_put,
        ContentCache.failure?_put, and_self, if_true]
  | failed failure =>
      cases failure with
      | fetch error =>
          refine ⟨agree.1, ?_⟩
          simp only [remember, ContentCache.failure?_recordFailure, if_true]
      | _ => exact agree

/-- Two fetches of a path come to the same if the same is remembered of it and, should its library
be asked, the same version of the library is chosen. -/
theorem fetchImport_congr (stable : engine.network.Stable) {first second : Holdings T}
    {path : String} (agree : first.cache.AgreeAt second.cache path)
    (chosen : ∀ library, engine.askedFor first.cache path = some library →
      first.preference.get? library.root = second.preference.get? library.root) :
    (engine.fetchImport none path first).1 = (engine.fetchImport none path second).1 ∧
      engine.switchOf first path = engine.switchOf second path ∧
      (engine.fetchImport none path first).2.cache.AgreeAt
        (engine.fetchImport none path second).2.cache path := by
  rcases askedFor_cases engine second.cache path with
    ⟨unasked, outcome, recalls⟩ | ⟨library, isOwner, _, fetches⟩
  · rw [recalls none first agree, recalls none second ⟨rfl, rfl⟩, switchOf, switchOf,
      askedFor_congr agree, unasked]
    exact ⟨rfl, rfl, agree⟩
  · have asked := (askedFor_congr agree).trans isOwner
    have selected : first.preference.select library = second.preference.select library :=
      congrArg library.version (chosen library asked)
    have same : (engine.fetchFromLibrary library none path first).1 =
        (engine.fetchFromLibrary library none path second).1 := by
      rw [(fetchFromLibrary_told stable library path first).1,
        (fetchFromLibrary_told stable library path second).1, selected]
    rw [fetches first agree, fetches second ⟨rfl, rfl⟩, switchOf, switchOf, asked, isOwner]
    refine ⟨by rw [fst_remember, fst_remember, same], ?_, agreeAt_remember same ?_⟩
    · simp only [Option.bind_some, selected]
    · rw [cache_fetchFromLibrary, cache_fetchFromLibrary]
      exact agree

end Engine

end SourceTree
