import Mathlib.Data.List.Nodup
import SourceTree.Proofs.Network

/-! # What fetching a path gives

Over a stable network and without a deadline every address has one verdict. The addresses of a path
do not depend on the selected version, only the order in which they are tried does. So whether a
path has content is settled once and for all, and the preference decides no more than which of its
contents is taken. -/

namespace SourceTree

namespace Library

def addresses (library : Library) (relativePath : String) : List String :=
  library.versions.map (fun version => version.url relativePath) ++
    ((library.spareUrls.get? relativePath).filter fun url => !url.isEmpty).toList

theorem mem_addresses_iff {library : Library} {selected : LibraryVersion}
    (member : selected ∈ library.versions) (relativePath url : String) :
    url ∈ library.addresses relativePath ↔ url = selected.url relativePath ∨
      ∃ candidate ∈ library.substitutes selected relativePath, candidate.url = url := by
  have named : ∀ version ∈ library.versions, version.name = selected.name → version = selected :=
    fun version isVersion equal =>
      List.inj_on_of_nodup_map library.namesDistinct isVersion member equal
  simp only [addresses, substitutes, List.mem_append, List.mem_map, List.mem_filter,
    Option.mem_toList, decide_eq_true_eq]
  constructor
  · rintro (⟨version, isVersion, rfl⟩ | isSpare)
    · by_cases equal : version.name = selected.name
      · exact Or.inl (by rw [named version isVersion equal])
      · exact Or.inr ⟨_, Or.inl ⟨version, ⟨isVersion, equal⟩, rfl⟩, rfl⟩
    · exact Or.inr ⟨⟨url, none⟩, Or.inr (Option.map_eq_some_iff.2 ⟨url, isSpare, rfl⟩), rfl⟩
  · rintro (rfl | ⟨candidate, ⟨version, ⟨isVersion, _⟩, rfl⟩ | isSpare, rfl⟩)
    · exact Or.inl ⟨selected, member, rfl⟩
    · exact Or.inl ⟨version, isVersion, rfl⟩
    · rcases Option.map_eq_some_iff.1 isSpare with ⟨spare, isAddress, rfl⟩
      exact Or.inr isAddress

end Library

namespace Engine

variable {T : Type} [Timescale T]

def verdict (engine : Engine T) (url : String) : Fetched T :=
  (engine.policy.fetch engine.network none url (.startingAt 0)).1

inductive Judged (engine : Engine T) (addresses : List String) : ImportOutcome T → Prop
  | content {url text : String} (isAddress : url ∈ addresses)
      (found : engine.verdict url = .content text) : Judged engine addresses (.content text)
  | failed {error : FetchError T}
      (lacking : ∀ url ∈ addresses, ∃ reason, engine.verdict url = .failed reason) :
      Judged engine addresses (.failed (.fetch error))
  | interrupted {url : String} {interruption : Interruption T} (isAddress : url ∈ addresses)
      (broken : engine.verdict url = .interrupted interruption) :
      Judged engine addresses (.interrupted interruption)

variable {engine : Engine T}

theorem fetch_eq_verdict (stable : engine.network.Stable) (url : String) (world : World T) :
    (engine.policy.fetch engine.network none url world).1 = engine.verdict url :=
  FetchPolicy.fetch_stable stable engine.policy url world (.startingAt 0)

theorem fetchSubstitutes_judged (stable : engine.network.Stable) (library : Library)
    (path : String) (first : FetchError T) (candidates : List Candidate)
    (attempted : List String) (holdings : Holdings T) :
    Judged engine (candidates.map Candidate.url)
      (engine.fetchSubstitutes library none path first candidates attempted holdings).1 := by
  induction candidates generalizing attempted holdings with
  | nil => exact .failed (by simp)
  | cons candidate rest induction =>
      have isVerdict := fetch_eq_verdict stable candidate.url holdings.world
      simp only [fetchSubstitutes, FetchPolicy.isReached, Option.any_none, Bool.false_eq_true,
        if_false]
      generalize engine.policy.fetch engine.network none candidate.url holdings.world = result
        at isVerdict ⊢
      rcases result with ⟨fetched, world⟩
      simp only at isVerdict
      cases fetched with
      | content text => exact .content List.mem_cons_self isVerdict.symm
      | interrupted interruption => exact .interrupted List.mem_cons_self isVerdict.symm
      | failed reason =>
          have later := induction (attempted ++ [candidate.url]) { holdings with world }
          simp only
          generalize (engine.fetchSubstitutes library none path first rest
            (attempted ++ [candidate.url]) { holdings with world }).1 = outcome at later ⊢
          cases later with
          | content isAddress found => exact .content (List.mem_cons_of_mem _ isAddress) found
          | interrupted isAddress broken =>
              exact .interrupted (List.mem_cons_of_mem _ isAddress) broken
          | failed lacking =>
              refine .failed fun url isAddress => ?_
              rcases List.mem_cons.1 isAddress with equal | inRest
              · exact equal ▸ ⟨reason, isVerdict.symm⟩
              · exact lacking url inRest

theorem fetchFromLibrary_judged (stable : engine.network.Stable) (library : Library)
    (path : String) (holdings : Holdings T) :
    Judged engine (library.addresses (library.relativePath path))
      (engine.fetchFromLibrary library none path holdings).1 := by
  have member := library.version_mem (holdings.preference.get? library.root)
  have isAddress := fun url =>
    Library.mem_addresses_iff member (library.relativePath path) url
  -- The addresses of a path are those of the selected version and of its substitutes.
  have isVerdict := fetch_eq_verdict stable
    ((holdings.preference.select library).url (library.relativePath path)) holdings.world
  simp only [fetchFromLibrary]
  generalize engine.policy.fetch engine.network none
    ((holdings.preference.select library).url (library.relativePath path)) holdings.world = result
    at isVerdict ⊢
  rcases result with ⟨fetched, world⟩
  simp only at isVerdict
  cases fetched with
  | content text => exact .content ((isAddress _).2 (Or.inl rfl)) isVerdict.symm
  | interrupted interruption => exact .interrupted ((isAddress _).2 (Or.inl rfl)) isVerdict.symm
  | failed reason =>
      simp only
      have later := fetchSubstitutes_judged stable library path reason
        (library.substitutes (holdings.preference.select library) (library.relativePath path))
        [(holdings.preference.select library).url (library.relativePath path)]
        { holdings with world }
      generalize (engine.fetchSubstitutes library none path reason _ _ _).1 = outcome at later ⊢
      cases later with
      | content isCandidate found =>
          exact .content ((isAddress _).2 (Or.inr (List.mem_map.1 isCandidate))) found
      | interrupted isCandidate broken =>
          exact .interrupted ((isAddress _).2 (Or.inr (List.mem_map.1 isCandidate))) broken
      | failed lacking =>
          refine .failed fun url member => ?_
          rcases (isAddress url).1 member with isSelected | isCandidate
          · exact isSelected ▸ ⟨reason, isVerdict.symm⟩
          · exact lacking url (List.mem_map.2 isCandidate)

/-! ## What fetching reads and changes -/

theorem cache_fetchSubstitutes (engine : Engine T) (library : Library) (deadline : Option T)
    (path : String) (first : FetchError T) (candidates : List Candidate)
    (attempted : List String) (holdings : Holdings T) :
    (engine.fetchSubstitutes library deadline path first candidates attempted holdings).2.cache =
      holdings.cache := by
  induction candidates generalizing attempted holdings with
  | nil => rfl
  | cons candidate rest induction =>
      simp only [fetchSubstitutes]
      split
      · rfl
      · split
        · rfl
        · exact induction _ _
        · rfl

theorem cache_fetchFromLibrary (engine : Engine T) (library : Library) (deadline : Option T)
    (path : String) (holdings : Holdings T) :
    (engine.fetchFromLibrary library deadline path holdings).2.cache = holdings.cache := by
  simp only [fetchFromLibrary]
  split
  · rfl
  · exact cache_fetchSubstitutes engine library deadline path _ _ _ _
  · rfl

theorem preference_of_failed_substitutes {library : Library} {deadline : Option T} {path : String}
    {first : FetchError T} {candidates : List Candidate} {attempted : List String}
    {holdings : Holdings T} {failure : Failure T}
    (isFailed : (engine.fetchSubstitutes library deadline path first candidates attempted
      holdings).1 = .failed failure) :
    (engine.fetchSubstitutes library deadline path first candidates attempted
      holdings).2.preference = holdings.preference := by
  induction candidates generalizing attempted holdings with
  | nil => rfl
  | cons candidate rest induction =>
      simp only [fetchSubstitutes] at isFailed ⊢
      split at isFailed
      next => cases isFailed
      next inTime =>
        rw [if_neg inTime]
        generalize engine.policy.fetch engine.network deadline candidate.url holdings.world =
          result at isFailed ⊢
        rcases result with ⟨fetched, world⟩
        cases fetched with
        | content text => cases isFailed
        | interrupted interruption => cases isFailed
        | failed reason => exact induction isFailed

theorem preference_of_failed {library : Library} {deadline : Option T} {path : String}
    {holdings : Holdings T} {failure : Failure T}
    (isFailed : (engine.fetchFromLibrary library deadline path holdings).1 = .failed failure) :
    (engine.fetchFromLibrary library deadline path holdings).2.preference =
      holdings.preference := by
  simp only [fetchFromLibrary] at isFailed ⊢
  generalize engine.policy.fetch engine.network deadline _ holdings.world = result at isFailed ⊢
  rcases result with ⟨fetched, world⟩
  cases fetched with
  | content text => cases isFailed
  | interrupted interruption => cases isFailed
  | failed reason => exact preference_of_failed_substitutes isFailed

theorem fetchSubstitutes_congr (stable : engine.network.Stable) (library : Library)
    (path : String) (first : FetchError T) (candidates : List Candidate)
    (attempted : List String) {left right : Holdings T}
    (same : left.preference = right.preference) :
    (engine.fetchSubstitutes library none path first candidates attempted left).1 =
        (engine.fetchSubstitutes library none path first candidates attempted right).1 ∧
      (engine.fetchSubstitutes library none path first candidates attempted left).2.preference =
        (engine.fetchSubstitutes library none path first candidates attempted
          right).2.preference := by
  induction candidates generalizing attempted left right with
  | nil => exact ⟨rfl, same⟩
  | cons candidate rest induction =>
      have verdicts := (fetch_eq_verdict stable candidate.url left.world).trans
        (fetch_eq_verdict stable candidate.url right.world).symm
      simp only [fetchSubstitutes, FetchPolicy.isReached, Option.any_none, Bool.false_eq_true,
        if_false]
      generalize engine.policy.fetch engine.network none candidate.url left.world = leftResult
        at verdicts ⊢
      generalize engine.policy.fetch engine.network none candidate.url right.world = rightResult
        at verdicts ⊢
      rcases leftResult with ⟨fetched, leftWorld⟩
      rcases rightResult with ⟨_, rightWorld⟩
      cases verdicts
      cases fetched with
      | content text => simp only [same, and_self]
      | interrupted interruption => exact ⟨rfl, same⟩
      | failed reason => exact induction _ same

theorem fetchFromLibrary_congr (stable : engine.network.Stable) (library : Library)
    (path : String) {left right : Holdings T} (same : left.preference = right.preference) :
    (engine.fetchFromLibrary library none path left).1 =
        (engine.fetchFromLibrary library none path right).1 ∧
      (engine.fetchFromLibrary library none path left).2.preference =
        (engine.fetchFromLibrary library none path right).2.preference := by
  simp only [fetchFromLibrary, same]
  have verdicts := (fetch_eq_verdict stable
      ((right.preference.select library).url (library.relativePath path)) left.world).trans
    (fetch_eq_verdict stable
      ((right.preference.select library).url (library.relativePath path)) right.world).symm
  generalize engine.policy.fetch engine.network none _ left.world = leftResult at verdicts ⊢
  generalize engine.policy.fetch engine.network none _ right.world = rightResult at verdicts ⊢
  rcases leftResult with ⟨fetched, leftWorld⟩
  rcases rightResult with ⟨_, rightWorld⟩
  cases verdicts
  cases fetched with
  | content text => exact ⟨rfl, rfl⟩
  | interrupted interruption => exact ⟨rfl, rfl⟩
  | failed reason => exact fetchSubstitutes_congr stable library path reason _ _ rfl

/-! ## Fetching with a cache -/

/-- The ways in which an import path is fetched: it is refused, remembered, or asked for and
remembered from then on. -/
inductive Fetches (engine : Engine T) (deadline : Option T) (path : String)
    (holdings : Holdings T) : ImportOutcome T × Holdings T → Prop
  | refused {failure : Failure T}
      (refused : ImportPath.isRelative path = true ∨ engine.registry.find path = none) :
      Fetches engine deadline path holdings (.failed failure, holdings)
  | recalled {library : Library} {text : String} (absolute : ImportPath.isRelative path = false)
      (isOwned : engine.registry.find path = some library)
      (known : holdings.cache.content? path = some text) :
      Fetches engine deadline path holdings (.content text, holdings)
  | failedBefore {library : Library} {error : FetchError T}
      (absolute : ImportPath.isRelative path = false)
      (isOwned : engine.registry.find path = some library)
      (unknown : holdings.cache.content? path = none)
      (known : holdings.cache.failure? path = some error) :
      Fetches engine deadline path holdings (.failed (.fetch error), holdings)
  | asked {library : Library} (absolute : ImportPath.isRelative path = false)
      (isOwned : engine.registry.find path = some library)
      (unknown : holdings.cache.content? path = none)
      (unfailed : holdings.cache.failure? path = none) :
      Fetches engine deadline path holdings
        (remember path (engine.fetchFromLibrary library deadline path holdings))

theorem fetchImport_fetches (engine : Engine T) (deadline : Option T) (path : String)
    (holdings : Holdings T) :
    Fetches engine deadline path holdings (engine.fetchImport deadline path holdings) := by
  unfold fetchImport
  split
  next relative => exact .refused (Or.inl relative)
  next absolute =>
    simp only [Bool.not_eq_true] at absolute
    cases owner : engine.registry.find path with
    | none => exact .refused (Or.inr owner)
    | some library =>
        cases known : holdings.cache.content? path with
        | some text => exact .recalled absolute owner known
        | none =>
            cases failed : holdings.cache.failure? path with
            | some error => exact .failedBefore absolute owner known failed
            | none => exact .asked absolute owner known failed

omit [Timescale T] in
@[simp] theorem fst_remember (path : String) (result : ImportOutcome T × Holdings T) :
    (remember path result).1 = result.1 := by
  rcases result with ⟨outcome, holdings⟩
  cases outcome with
  | content text => rfl
  | failed failure => cases failure <;> rfl
  | interrupted interruption => rfl

omit [Timescale T] in
@[simp] theorem preference_remember (path : String) (result : ImportOutcome T × Holdings T) :
    (remember path result).2.preference = result.2.preference := by
  rcases result with ⟨outcome, holdings⟩
  cases outcome with
  | content text => rfl
  | failed failure => cases failure <;> rfl
  | interrupted interruption => rfl

end Engine

end SourceTree
