import SourceTree.Proofs.Engine.Permanence

/-! # The version behind a content

When a path has content, it has it from the version of its library that is selected from then on, or
from the spare address of the path. The version may have been selected by this very fetch. -/

namespace SourceTree

namespace Network

variable {T : Type}

def Serves (network : Network T) (url text : String) : Prop :=
  ∃ status, 200 ≤ status ∧ status < 300 ∧
    ∀ past, (network.reply past url).reaction = .answered status text

end Network

theorem FetchPolicy.serves_of_fetch {T : Type} [Timescale T] {network : Network T}
    (stable : network.Stable) {policy : FetchPolicy T} {deadline : Option T} {url text : String}
    {world : World T} (found : (policy.fetch network deadline url world).1 = .content text) :
    network.Serves url text := by
  rcases (fetch_asks policy network deadline url world).last with
    ⟨reaction, ⟨_, _, earlier, _, _, reacted⟩, gives⟩
  rw [found] at gives
  rcases gives.of_content with ⟨status, least, most, rfl⟩
  exact ⟨status, least, most, fun past => (stable past earlier url).trans reacted⟩

theorem LibraryVersion.named?_eq_some {versions : List LibraryVersion}
    (distinct : (names versions).Nodup) {version : LibraryVersion} (member : version ∈ versions) :
    named? versions version.name = some version := by
  rcases Option.isSome_iff_exists.1 (named?_isSome (List.mem_map_of_mem member)) with ⟨other, found⟩
  rw [found, List.inj_on_of_nodup_map distinct (mem_of_named? found) member
    (name_of_named? found)]

theorem Preference.select_set (preference : Preference) {library : Library}
    {version : LibraryVersion} (member : version ∈ library.versions) :
    (preference.set library.root version.name).select library = version := by
  rw [select, get?_set, if_pos rfl, Library.version, Option.bind_some,
    LibraryVersion.named?_eq_some library.namesDistinct member, Option.getD_some]

/-- Whether a version of a library has a text for a path, at its own address or at the spare address
of the path. -/
def Library.Offers {T : Type} (library : Library) (network : Network T)
    (version : LibraryVersion) (path text : String) : Prop :=
  network.Serves (version.url (library.relativePath path)) text ∨
    ∃ spare, library.spareUrls.get? (library.relativePath path) = some spare ∧
      network.Serves spare text

theorem Library.mem_substitutes {library : Library} {selected : LibraryVersion}
    {relativePath : String} {candidate : Candidate}
    (member : candidate ∈ library.substitutes selected relativePath) :
    (∃ version ∈ library.versions,
        candidate = ⟨version.url relativePath, some version.name⟩) ∨
      ∃ spare, library.spareUrls.get? relativePath = some spare ∧ candidate = ⟨spare, none⟩ := by
  rcases List.mem_append.1 member with isVersion | isSpare
  · rcases List.mem_map.1 isVersion with ⟨version, isOther, rfl⟩
    exact Or.inl ⟨version, (List.mem_filter.1 isOther).1, rfl⟩
  · rcases Option.map_eq_some_iff.1 (Option.mem_toList.1 isSpare) with ⟨spare, found, rfl⟩
    exact Or.inr ⟨spare, (Option.filter_eq_some_iff.1 found).1, rfl⟩

namespace Engine

variable {T : Type} [Timescale T] {engine : Engine T}

theorem fetchSubstitutes_source (stable : engine.network.Stable) (library : Library)
    {deadline : Option T} {path text : String} {first : FetchError T}
    {candidates : List Candidate} {attempted : List String} {holdings : Holdings T}
    (found : (engine.fetchSubstitutes library deadline path first candidates attempted
      holdings).1 = .content text) :
    ∃ candidate ∈ candidates, engine.network.Serves candidate.url text ∧
      (engine.fetchSubstitutes library deadline path first candidates attempted
        holdings).2.preference =
        match candidate.version with
        | some version => holdings.preference.set library.root version
        | none => holdings.preference := by
  induction candidates generalizing attempted holdings with
  | nil => cases found
  | cons candidate rest induction =>
      have serves := @FetchPolicy.serves_of_fetch _ _ _ stable engine.policy deadline
        candidate.url text holdings.world
      simp only [fetchSubstitutes] at found ⊢
      split at found
      next => cases found
      next early =>
        rw [if_neg early]
        generalize engine.policy.fetch engine.network deadline candidate.url holdings.world =
          result at serves found ⊢
        rcases result with ⟨fetched, after⟩
        cases fetched with
        | content other =>
            cases found
            exact ⟨candidate, List.mem_cons_self, serves rfl, rfl⟩
        | interrupted interruption => cases found
        | failed error =>
            rcases induction found with ⟨other, inRest, source⟩
            exact ⟨other, List.mem_cons_of_mem candidate inRest, source⟩

theorem fetchFromLibrary_offers (stable : engine.network.Stable) (library : Library)
    {deadline : Option T} {path text : String} {holdings : Holdings T}
    (found : (engine.fetchFromLibrary library deadline path holdings).1 = .content text) :
    library.Offers engine.network
      ((engine.fetchFromLibrary library deadline path holdings).2.preference.select library)
      path text := by
  have serves := @FetchPolicy.serves_of_fetch _ _ _ stable engine.policy deadline
    ((holdings.preference.select library).url (library.relativePath path)) text holdings.world
  simp only [fetchFromLibrary] at found ⊢
  generalize engine.policy.fetch engine.network deadline _ holdings.world = result
    at serves found ⊢
  rcases result with ⟨fetched, after⟩
  cases fetched with
  | content other =>
      cases found
      exact Or.inl (serves rfl)
  | interrupted interruption => cases found
  | failed first =>
      rcases fetchSubstitutes_source stable library found with
        ⟨candidate, isSubstitute, isServed, isSet⟩
      simp only at isSet ⊢
      rw [isSet]
      rcases Library.mem_substitutes isSubstitute with
        ⟨version, member, rfl⟩ | ⟨spare, isSpare, rfl⟩
      · simp only [Preference.select_set _ member]
        exact Or.inl isServed
      · exact Or.inr ⟨spare, isSpare, isServed⟩

theorem Leads.unremembered {past : List (Event T)} {visits : List (Visit T)} {last : Record T}
    (leads : Leads engine ⟨.empty, past⟩ visits last) (once : (visits.map Visit.path).Nodup)
    {visit : Visit T} (made : visit ∈ visits) :
    visit.holdings.cache.content? visit.path = none ∧
      visit.holdings.cache.failure? visit.path = none := by
  rcases List.append_of_mem made with ⟨front, back, rfl⟩
  rcases leads.split with ⟨middle, toVisit, fromVisit⟩
  have absent : ∀ other ∈ front, other.path ≠ visit.path := by
    rw [List.map_append, List.map_cons, List.nodup_append] at once
    exact fun other inFront => once.2.2 other.path (List.mem_map_of_mem inFront) visit.path
      List.mem_cons_self
  cases fromVisit with
  | visit _ _ => exact toVisit.agreeAt absent

end Engine

namespace Visit

variable {T : Type} [Timescale T] {engine : Engine T} {visit : Visit T}

/-- Whether the content of a visit, if it has one, is offered by the version that a preference
selects. -/
def Backed (engine : Engine T) (visit : Visit T) (preference : Preference) : Prop :=
  ∀ library text, engine.registry.find visit.path = some library →
    visit.outcome engine = .content text →
      library.Offers engine.network (preference.select library) visit.path text

/-- Whether a preference selects another version for the path of a visit than was in use after
it. -/
def Replaced (engine : Engine T) (visit : Visit T) (preference : Preference) : Prop :=
  ∃ library, engine.registry.find visit.path = some library ∧
    (visit.after engine).preference.select library ≠ preference.select library

theorem backed_after (stable : engine.network.Stable)
    (unknown : visit.holdings.cache.content? visit.path = none)
    (unfailed : visit.holdings.cache.failure? visit.path = none) :
    visit.Backed engine (visit.after engine).preference := by
  intro library text isOwned isContent
  have absolute : ImportPath.isRelative visit.path = false := by
    refine Bool.eq_false_iff.2 fun relative => ?_
    rw [outcome, Engine.fetchImport, if_pos relative] at isContent
    cases isContent
  have asks := asks_of_provides (Registry.provides_of_find absolute isOwned) unknown unfailed
  rw [outcome, asks.told, Engine.fst_remember] at isContent
  rw [after, asks.told, Engine.preference_remember]
  exact Engine.fetchFromLibrary_offers stable library isContent

theorem Backed.of_not_replaced {preference : Preference}
    (backed : visit.Backed engine (visit.after engine).preference)
    (kept : ¬visit.Replaced engine preference) : visit.Backed engine preference := by
  intro library text isOwned isContent
  have same : (visit.after engine).preference.select library = preference.select library := by
    by_contra different
    exact kept ⟨library, isOwned, different⟩
  exact same ▸ backed library text isOwned isContent

end Visit

end SourceTree
