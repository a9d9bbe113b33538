import SourceTree.Proofs.Engine.Integrity

/-! # Falling back

The sources of a path are the selected version of its library, then the other versions in order,
then the spare address of the path. They are tried one after another, each of them once, until one
has content or the time runs out. Nothing but the content of a version that was not selected moves
the preference, and what is remembered of the path is what its sources ended with. -/

namespace SourceTree

/-! ## Sources -/

inductive Source where
  | published (version : LibraryVersion)
  | spare (url : String)
  deriving DecidableEq, Repr

namespace Source

def url (relativePath : String) : Source → String
  | .published version => version.url relativePath
  | .spare url => url

def candidate (relativePath : String) : Source → Candidate
  | .published version => ⟨version.url relativePath, some version.name⟩
  | .spare url => ⟨url, none⟩

@[simp] theorem url_candidate (relativePath : String) (source : Source) :
    (source.candidate relativePath).url = source.url relativePath := by
  cases source <;> rfl

end Source

namespace Library

def otherSources (library : Library) (selected : LibraryVersion) (relativePath : String) :
    List Source :=
  (library.versions.filter fun version => version ≠ selected).map .published ++
    (((library.spareUrls.get? relativePath).filter fun url => !url.isEmpty).map .spare).toList

def sources (library : Library) (selected : LibraryVersion) (relativePath : String) :
    List Source :=
  .published selected :: library.otherSources selected relativePath

def sourceUrls (library : Library) (selected : LibraryVersion) (relativePath : String) :
    List String :=
  (library.sources selected relativePath).map (Source.url relativePath)

variable {library : Library} {selected : LibraryVersion}

/-- Versions are told apart by their names, and so are substitutes. -/
theorem substitutes_eq (member : selected ∈ library.versions) (relativePath : String) :
    library.substitutes selected relativePath =
      (library.otherSources selected relativePath).map (Source.candidate relativePath) := by
  have others : (library.versions.filter fun version => version.name ≠ selected.name) =
      library.versions.filter fun version => version ≠ selected := by
    apply List.filter_congr
    intro version isVersion
    have named : version.name = selected.name ↔ version = selected :=
      ⟨List.inj_on_of_nodup_map library.namesDistinct isVersion member, congrArg _⟩
    exact decide_eq_decide.2 (not_congr named)
  simp only [substitutes, otherSources, others, List.map_append, List.map_map,
    Option.toList_map]
  rfl

theorem published_mem_otherSources_iff {version : LibraryVersion} {relativePath : String} :
    .published version ∈ library.otherSources selected relativePath ↔
      version ∈ library.versions ∧ version ≠ selected := by
  simp [otherSources]

theorem published_mem_sources_iff (member : selected ∈ library.versions) {version : LibraryVersion}
    {relativePath : String} :
    .published version ∈ library.sources selected relativePath ↔ version ∈ library.versions := by
  rw [sources, List.mem_cons, published_mem_otherSources_iff, Source.published.injEq]
  constructor
  · rintro (rfl | ⟨isVersion, _⟩)
    · exact member
    · exact isVersion
  · intro isVersion
    by_cases isSelected : version = selected
    · exact Or.inl isSelected
    · exact Or.inr ⟨isVersion, isSelected⟩

theorem nodup_sources (library : Library) (selected : LibraryVersion) (relativePath : String) :
    (library.sources selected relativePath).Nodup := by
  have versions : (library.versions.filter fun version => version ≠ selected).Nodup :=
    (List.Nodup.of_map LibraryVersion.name library.namesDistinct).filter _
  have injective : Function.Injective Source.published := fun _ _ same => Source.published.inj same
  rw [sources, List.nodup_cons, published_mem_otherSources_iff]
  refine ⟨fun isOther => isOther.2 rfl, List.nodup_append.2 ⟨versions.map injective, ?_, ?_⟩⟩
  · cases (library.spareUrls.get? relativePath).filter fun url => !url.isEmpty with
    | none => exact List.nodup_nil
    | some url => exact List.nodup_singleton _
  · intro source isVersion other isSpare
    rcases List.mem_map.1 isVersion with ⟨version, _, rfl⟩
    rcases Option.map_eq_some_iff.1 (Option.mem_toList.1 isSpare) with ⟨url, _, rfl⟩
    exact nofun

end Library

/-! ## Trying sources -/

inductive Ending (T : Type) where
  | found (source : Source) (text : String)
  /-- Every source failed, the first of them with an error. -/
  | exhausted (first : FetchError T)
  | interrupted (interruption : Interruption T)

namespace Ending

variable {T : Type}

def outcome (path : String) (urls : List String) : Ending T → ImportOutcome T
  | .found _ text => .content text
  | .exhausted first => .failed (.fetch (.exhausted path first urls))
  | .interrupted interruption => .interrupted interruption

def preference (library : Library) (before : Preference) : Ending T → Preference
  | .found (.published version) _ =>
      if version = before.select library then before else before.set library.root version.name
  | _ => before

def cache (path : String) (urls : List String) (before : ContentCache (FetchError T)) :
    Ending T → ContentCache (FetchError T)
  | .found _ text => before.put path text
  | .exhausted first => before.recordFailure path (.exhausted path first urls)
  | .interrupted _ => before

theorem get?_preference {library : Library} {root : String} (other : root ≠ library.root)
    (before : Preference) (ending : Ending T) :
    (ending.preference library before).get? root = before.get? root := by
  cases ending with
  | found source text =>
      cases source with
      | published version =>
          simp only [preference]
          split
          · rfl
          · rw [Preference.get?_set, if_neg other]
      | spare url => rfl
  | exhausted first => rfl
  | interrupted interruption => rfl

theorem kept_of_not_found {ending : Ending T} (unfound : ∀ source text, ending ≠ .found source text)
    (library : Library) (path : String) (urls : List String) (before : Preference)
    (cache : ContentCache (FetchError T)) :
    ending.preference library before = before ∧
      (ending.cache path urls cache).contents = cache.contents := by
  cases ending with
  | found source text => exact absurd rfl (unfound source text)
  | exhausted first => exact ⟨rfl, rfl⟩
  | interrupted interruption => exact ⟨rfl, rfl⟩

end Ending

theorem FetchPolicy.url_of_failed {T : Type} [Timescale T] {policy : FetchPolicy T}
    {network : Network T} {deadline : Option T} {url : String} {error : FetchError T}
    {world after : World T}
    (isFailed : policy.fetch network deadline url world = (.failed error, after)) :
    error.url = url := by
  rcases (policy.fetch_asks network deadline url world).last with ⟨reaction, _, gives⟩
  rw [isFailed] at gives
  rcases verdict_eq_failed_cases gives.of_failed with
    ⟨status, body, rfl, rfl⟩ | ⟨rfl, rfl⟩ | ⟨cause, rfl, rfl⟩
  · rfl
  · rfl
  · rfl

namespace Engine

variable {T : Type} [Timescale T]

def MayTry (deadline : Option T) (failed : List (Source × FetchError T)) (world : World T) : Prop :=
  failed = [] ∨ FetchPolicy.isReached deadline world.now = false

inductive TriedInVain (engine : Engine T) (deadline : Option T) (relativePath : String)
    (start : World T) : List (Source × FetchError T) → World T → Prop
  | nothing : TriedInVain engine deadline relativePath start [] start
  | next {failed : List (Source × FetchError T)} {world after : World T} {source : Source}
      {error : FetchError T}
      (earlier : TriedInVain engine deadline relativePath start failed world)
      (mayTry : MayTry deadline failed world)
      (isFailed : engine.policy.fetch engine.network deadline (source.url relativePath) world =
        (.failed error, after)) :
      TriedInVain engine deadline relativePath start (failed ++ [(source, error)]) after

/-- How sources are tried in order: up to the first that has content, or in vain, or until the time
runs out during a fetch or before the next. -/
inductive SearchEnds (engine : Engine T) (deadline : Option T) (relativePath : String)
    (sources : List Source) (start : World T) : Ending T → World T → Prop
  | found {failed : List (Source × FetchError T)} {source : Source} {rest : List Source}
      {text : String} {world after : World T}
      (order : sources = failed.map Prod.fst ++ source :: rest)
      (inVain : TriedInVain engine deadline relativePath start failed world)
      (mayTry : MayTry deadline failed world)
      (isContent : engine.policy.fetch engine.network deadline (source.url relativePath) world =
        (.content text, after)) :
      SearchEnds engine deadline relativePath sources start (.found source text) after
  | exhausted {failed : List (Source × FetchError T)} {source : Source} {first : FetchError T}
      {world : World T}
      (order : sources = ((source, first) :: failed).map Prod.fst)
      (inVain : TriedInVain engine deadline relativePath start ((source, first) :: failed) world) :
      SearchEnds engine deadline relativePath sources start (.exhausted first) world
  | interrupted {failed : List (Source × FetchError T)} {source : Source} {rest : List Source}
      {interruption : Interruption T} {world after : World T}
      (order : sources = failed.map Prod.fst ++ source :: rest)
      (inVain : TriedInVain engine deadline relativePath start failed world)
      (mayTry : MayTry deadline failed world)
      (isInterrupted : engine.policy.fetch engine.network deadline (source.url relativePath)
        world = (.interrupted interruption, after)) :
      SearchEnds engine deadline relativePath sources start (.interrupted interruption) after
  | overdue {failed : List (Source × FetchError T)} {source : Source} {rest : List Source}
      {world : World T}
      (order : sources = failed.map Prod.fst ++ source :: rest)
      (inVain : TriedInVain engine deadline relativePath start failed world)
      (late : ¬MayTry deadline failed world) :
      SearchEnds engine deadline relativePath sources start (.interrupted engine.overdue) world

variable {engine : Engine T} {deadline : Option T} {relativePath : String} {start : World T}

theorem TriedInVain.url_eq {failed : List (Source × FetchError T)} {world : World T}
    (inVain : engine.TriedInVain deadline relativePath start failed world) :
    ∀ entry ∈ failed, entry.2.url = entry.1.url relativePath := by
  induction inVain with
  | nothing => exact fun _ made => absurd made List.not_mem_nil
  | next earlier mayTry isFailed induction =>
      intro entry made
      rcases List.mem_append.1 made with isEarlier | isLast
      · exact induction entry isEarlier
      · rw [List.mem_singleton.1 isLast]
        exact FetchPolicy.url_of_failed isFailed

theorem SearchEnds.url_first {source : Source} {rest : List Source} {first : FetchError T}
    {after : World T}
    (ends : engine.SearchEnds deadline relativePath (source :: rest) start (.exhausted first)
      after) : first.url = source.url relativePath := by
  cases ends with
  | exhausted order inVain =>
      cases order
      exact inVain.url_eq _ List.mem_cons_self

theorem fetchSubstitutes_ends (library : Library) (path : String) {source : Source}
    {first : FetchError T} {failed : List (Source × FetchError T)} {rest : List Source}
    (holdings : Holdings T)
    (others : ∀ version, .published version ∈ rest → version ≠ holdings.preference.select library)
    (inVain : engine.TriedInVain deadline relativePath start ((source, first) :: failed)
      holdings.world) :
    ∃ ending after,
      engine.SearchEnds deadline relativePath
        (((source, first) :: failed).map Prod.fst ++ rest) start ending after ∧
      engine.fetchSubstitutes library deadline path first
          (rest.map (Source.candidate relativePath))
          ((((source, first) :: failed).map Prod.fst).map (Source.url relativePath)) holdings =
        (ending.outcome path ((((source, first) :: failed).map Prod.fst ++ rest).map
            (Source.url relativePath)),
          ⟨holdings.cache, ending.preference library holdings.preference, after⟩) := by
  -- The sources that were tried grow at their end, so they are no part of what the induction is on.
  induction rest generalizing failed holdings with
  | nil =>
      rw [List.append_nil]
      exact ⟨.exhausted first, holdings.world, .exhausted rfl inVain, rfl⟩
  | cons next rest induction =>
      simp only [List.map_cons, fetchSubstitutes, Source.url_candidate]
      by_cases late : FetchPolicy.isReached deadline holdings.world.now = true
      · rw [if_pos late]
        refine ⟨.interrupted engine.overdue, holdings.world, .overdue rfl inVain ?_, rfl⟩
        rintro (isFirst | early)
        · cases isFirst
        · exact Bool.false_ne_true (early.symm.trans late)
      · rw [if_neg late]
        have mayTry : MayTry deadline ((source, first) :: failed) holdings.world :=
          Or.inr (Bool.not_eq_true _ ▸ late)
        rcases fetched : engine.policy.fetch engine.network deadline (next.url relativePath)
          holdings.world with ⟨reply, after⟩
        cases reply with
        | content text =>
            refine ⟨.found next text, after, .found rfl inVain mayTry fetched, ?_⟩
            cases next with
            | published version =>
                have isOther := others version List.mem_cons_self
                simp only [Source.candidate, Ending.outcome, Ending.preference, if_neg isOther]
            | spare url => rfl
        | interrupted interruption =>
            exact ⟨.interrupted interruption, after, .interrupted rfl inVain mayTry fetched, rfl⟩
        | failed error =>
            have later := @induction (failed ++ [(next, error)]) { holdings with world := after }
              (fun version inRest => others version (List.mem_cons_of_mem next inRest))
              (inVain.next mayTry fetched)
            simp only [List.map_cons, List.map_append, List.map_nil, List.cons_append,
              List.append_assoc, List.nil_append] at later ⊢
            exact later

/-- What becomes of a path when its sources are tried, with what is remembered of it if nothing was
before. Its failure names the first error, and without a content neither the preference nor any
content that is remembered changes. -/
structure FallsBack (engine : Engine T) (library : Library) (deadline : Option T) (path : String)
    (holdings : Holdings T) (ending : Ending T) (after : World T) : Prop where
  search : engine.SearchEnds deadline (library.relativePath path)
    (library.sources (holdings.preference.select library) (library.relativePath path))
    holdings.world ending after
  told : engine.fetchFromLibrary library deadline path holdings =
    (ending.outcome path
        (library.sourceUrls (holdings.preference.select library) (library.relativePath path)),
      ⟨holdings.cache, ending.preference library holdings.preference, after⟩)
  blames : ∀ error, (engine.fetchFromLibrary library deadline path holdings).1 =
    .failed (.fetch error) → ∃ first, ending = .exhausted first ∧ error.cause = first.cause ∧
      error.url = first.url ∧
      first.url = (holdings.preference.select library).url (library.relativePath path)
  remembered : engine.registry.Provides library path → holdings.cache.content? path = none →
    holdings.cache.failure? path = none →
      engine.fetchImport deadline path holdings =
        (ending.outcome path
            (library.sourceUrls (holdings.preference.select library) (library.relativePath path)),
          ⟨ending.cache path (library.sourceUrls (holdings.preference.select library)
              (library.relativePath path)) holdings.cache,
            ending.preference library holdings.preference, after⟩)
  elsewhere : ∀ root, root ≠ library.root →
    (ending.preference library holdings.preference).get? root = holdings.preference.get? root
  kept : (∀ source text, ending ≠ .found source text) →
    ending.preference library holdings.preference = holdings.preference ∧
      (ending.cache path (library.sourceUrls (holdings.preference.select library)
        (library.relativePath path)) holdings.cache).contents = holdings.cache.contents

theorem fetchFromLibrary_ends (engine : Engine T) (library : Library) (deadline : Option T)
    (path : String) (holdings : Holdings T) :
    ∃ ending after,
      engine.SearchEnds deadline (library.relativePath path)
        (library.sources (holdings.preference.select library) (library.relativePath path))
        holdings.world ending after ∧
      engine.fetchFromLibrary library deadline path holdings =
        (ending.outcome path
            (library.sourceUrls (holdings.preference.select library) (library.relativePath path)),
          ⟨holdings.cache, ending.preference library holdings.preference, after⟩) := by
  simp only [fetchFromLibrary]
  have member : holdings.preference.select library ∈ library.versions :=
    library.version_mem (holdings.preference.get? library.root)
  rw [Library.substitutes_eq member]
  generalize library.relativePath path = relativePath
  rcases fetched : engine.policy.fetch engine.network deadline
    ((holdings.preference.select library).url relativePath) holdings.world with ⟨reply, after⟩
  have order : library.sources (holdings.preference.select library) relativePath =
      ([] : List (Source × FetchError T)).map Prod.fst ++
        .published (holdings.preference.select library) ::
          library.otherSources (holdings.preference.select library) relativePath := rfl
  have untried : engine.TriedInVain deadline relativePath holdings.world [] holdings.world :=
    .nothing
  cases reply with
  | content text =>
      refine ⟨.found (.published (holdings.preference.select library)) text, after,
        .found order untried (Or.inl rfl) fetched, ?_⟩
      rw [Ending.preference, if_pos rfl, Ending.outcome]
  | interrupted interruption =>
      exact ⟨.interrupted interruption, after, .interrupted order untried (Or.inl rfl) fetched,
        rfl⟩
  | failed first =>
      have inVain : engine.TriedInVain deadline relativePath holdings.world
          [(.published (holdings.preference.select library), first)] after :=
        untried.next (Or.inl rfl) fetched
      exact fetchSubstitutes_ends library path { holdings with world := after }
        (fun version isOther => (Library.published_mem_otherSources_iff.1 isOther).2) inVain

omit [Timescale T] in
theorem remember_outcome (path : String) (urls : List String) (ending : Ending T)
    (holdings : Holdings T) :
    remember path (ending.outcome path urls, holdings) =
      (ending.outcome path urls,
        { holdings with cache := ending.cache path urls holdings.cache }) := by
  cases ending <;> rfl

/-- All sources of a path are tried once, in order, until one has content, and only a content moves
the preference. -/
theorem exists_fallsBack (engine : Engine T) (library : Library) (deadline : Option T)
    (path : String) (holdings : Holdings T) :
    (library.sources (holdings.preference.select library) (library.relativePath path)).Nodup ∧
      (∀ version, .published version ∈ library.sources (holdings.preference.select library)
        (library.relativePath path) ↔ version ∈ library.versions) ∧
      ∃ ending after, engine.FallsBack library deadline path holdings ending after := by
  refine ⟨library.nodup_sources _ _, fun version => Library.published_mem_sources_iff
    (library.version_mem (holdings.preference.get? library.root)), ?_⟩
  rcases engine.fetchFromLibrary_ends library deadline path holdings with
    ⟨ending, after, search, told⟩
  refine ⟨ending, after, search, told, ?_, ?_,
    fun root other => Ending.get?_preference other holdings.preference ending,
    fun unfound => Ending.kept_of_not_found unfound library path _ _ _⟩
  · intro error isFailed
    rw [told] at isFailed
    cases ending with
    | found source text => cases isFailed
    | interrupted interruption => cases isFailed
    | exhausted first =>
        cases isFailed
        exact ⟨first, rfl, rfl, rfl, search.url_first⟩
  · intro provides unknown unfailed
    have absolute := Bool.eq_false_iff.1 provides.absolute
    rw [fetchImport, if_neg absolute, provides.found, unknown, unfailed]
    simp only
    rw [told, remember_outcome]

def reduced : Library :=
  .ofVersions "@lib" ⟨"2", "https://two/", none, [], []⟩
    [⟨"1", "https://one/", none, [], []⟩] (by decide)

def reducedSample : Engine Rat :=
  serving (.ofLibraries [reduced]) (.ofList [("https://one/a.sol", "text")])

theorem fallsBack_of_missing_file :
    (reducedSample.registry.Provides reduced "@lib/a.sol" ∧
      (ContentCache.empty : ContentCache (FetchError Rat)).content? "@lib/a.sol" = none ∧
        (ContentCache.empty : ContentCache (FetchError Rat)).failure? "@lib/a.sol" = none) ∧
      ∃ ending after,
        reducedSample.FallsBack reduced none "@lib/a.sol" ⟨.empty, .empty, .startingAt 0⟩ ending
          after ∧
        (ending.preference reduced .empty).get? "@lib" = some "1" ∧
        (ending.cache "@lib/a.sol" ["https://two/a.sol", "https://one/a.sol"] .empty).content?
          "@lib/a.sol" = some "text" := by
  have provides : reducedSample.registry.Provides reduced "@lib/a.sol" :=
    Registry.provides_of_find (by decide) rfl
  refine ⟨⟨provides, rfl, rfl⟩, ?_⟩
  rcases (exists_fallsBack reducedSample reduced none "@lib/a.sol"
    ⟨.empty, .empty, .startingAt 0⟩).2.2 with ⟨ending, after, falls⟩
  have fetched : ((reducedSample.fetchImport none "@lib/a.sol"
        ⟨.empty, .empty, .startingAt 0⟩).2.preference.get? "@lib",
      (reducedSample.fetchImport none "@lib/a.sol"
        ⟨.empty, .empty, .startingAt 0⟩).2.cache.content? "@lib/a.sol") =
        (some "1", some "text") := by
    decide +kernel
  rw [falls.remembered provides rfl rfl] at fetched
  rcases Prod.mk.inj fetched with ⟨moved, remembered⟩
  exact ⟨ending, after, falls, moved, remembered⟩

end Engine

end SourceTree
