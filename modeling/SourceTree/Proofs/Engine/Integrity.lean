import SourceTree.Proofs.Engine.Calls
import SourceTree.Proofs.Engine.SharedCache
import SourceTree.Proofs.Registration

/-! # The integrity of the cache

A cache that starts empty holds nothing but what the addresses of its paths said: contents of
successful replies, and failures that name their path. No path has both, and once something is
remembered of a path it stays, and the path is never asked for again. Every visit keeps this,
whatever the network does and however the calls end. -/

namespace SourceTree

namespace Registry

structure Provides (registry : Registry) (library : Library) (path : String) : Prop where
  absolute : ImportPath.isRelative path = false
  found : registry.find path = some library
  registered : library ∈ registry.libraries
  owns : library.owns path = true

theorem provides_of_find {registry : Registry} {path : String} {library : Library}
    (absolute : ImportPath.isRelative path = false)
    (found : registry.find path = some library) : registry.Provides library path := by
  rcases List.mem_filter.1 (mem_of_longest found) with ⟨registered, owns⟩
  exact ⟨absolute, found, registered, owns⟩

end Registry

/-! ## What is remembered of a path -/

variable {T : Type}

/-- What the past allows to remember of a path: nothing, or a text that an address of the path gave
in a successful reply, or that all of its addresses failed. -/
inductive Attested (engine : Engine T) (past : List (Event T)) (path : String) :
    Option String → Option (FetchError T) → Prop
  | nothing : Attested engine past path none none
  | content {library : Library} {url text : String} {status : Int}
      (provides : engine.registry.Provides library path)
      (isAddress : url ∈ library.addresses (library.relativePath path)) (least : 200 ≤ status)
      (most : status < 300) (reacted : engine.network.Reacted past url (.answered status text)) :
      Attested engine past path (some text) none
  | failure {library : Library} (provides : engine.registry.Provides library path)
      (first : FetchError T) (attempted : List String) :
      Attested engine past path none (some (.exhausted path first attempted))

theorem Attested.later {engine : Engine T} {past later : List (Event T)} {path : String}
    {content? : Option String} {failure? : Option (FetchError T)}
    (attested : Attested engine past path content? failure?) (grows : past <:+ later) :
    Attested engine later path content? failure? := by
  cases attested with
  | nothing => exact .nothing
  | content provides isAddress least most reacted =>
      exact .content provides isAddress least most (reacted.mono grows)
  | failure provides first attempted => exact .failure provides first attempted

def Record.Integrity (engine : Engine T) (record : Record T) : Prop :=
  ∀ path, Attested engine record.past path (record.cache.content? path)
    (record.cache.failure? path)

theorem Record.integrity_empty (engine : Engine T) (past : List (Event T)) :
    Record.Integrity engine ⟨.empty, past⟩ :=
  fun _ => .nothing

namespace ContentCache

def Remembers {E : Type} (cache : ContentCache E) (path : String) : Prop :=
  cache.content? path ≠ none ∨ cache.failure? path ≠ none

theorem AgreeAt.remembers {E : Type} {left right : ContentCache E} {path : String}
    (agree : left.AgreeAt right path) (remembers : right.Remembers path) : left.Remembers path := by
  rw [Remembers, agree.1, agree.2]
  exact remembers

end ContentCache

def Record.Keeps (earlier later : Record T) : Prop :=
  ∀ path, earlier.cache.Remembers path → later.cache.AgreeAt earlier.cache path

theorem Record.Keeps.refl (record : Record T) : record.Keeps record :=
  fun _ _ => ⟨rfl, rfl⟩

theorem Record.Keeps.trans {first second third : Record T} (left : first.Keeps second)
    (right : second.Keeps third) : first.Keeps third := by
  intro path remembers
  have kept := left path remembers
  exact (right path (kept.remembers remembers)).trans kept

/-! ## Visits -/

theorem Engine.world_remember (path : String) (result : ImportOutcome T × Holdings T) :
    (remember path result).2.world = result.2.world := by
  rcases result with ⟨outcome, holdings⟩
  cases outcome with
  | content text => rfl
  | failed failure => cases failure <;> rfl
  | interrupted interruption => rfl

theorem Engine.AsksFor.attested {engine : Engine T} {library : Library} {path : String}
    {before : World T} {tries : List (String × Fetched T)} {result : ImportOutcome T × Holdings T}
    (asksFor : AsksFor engine path (library.addresses (library.relativePath path)) before tries
      result)
    (provides : engine.registry.Provides library path)
    (unknown : result.2.cache.content? path = none)
    (unfailed : result.2.cache.failure? path = none) :
    Attested engine result.2.world.past path ((remember path result).2.cache.content? path)
      ((remember path result).2.cache.failure? path) := by
  have concluded := asksFor.concluded
  have answered := asksFor.answered
  rcases result with ⟨outcome, after⟩
  simp only at concluded answered unknown unfailed
  cases concluded with
  | interrupted failed =>
      change Attested engine after.world.past path (after.cache.content? path)
        (after.cache.failure? path)
      rw [unknown, unfailed]
      exact .nothing
  | overdue failed =>
      change Attested engine after.world.past path (after.cache.content? path)
        (after.cache.failure? path)
      rw [unknown, unfailed]
      exact .nothing
  | exhausted head failed =>
      rw [remember, ContentCache.failure?_recordFailure, if_pos rfl]
      simp only [ContentCache.content?, ContentCache.recordFailure] at unknown ⊢
      rw [unknown]
      exact .failure provides _ _
  | @content tries url text failed =>
      rcases answered (url, .content text) (List.mem_append_right _ List.mem_cons_self) with
        ⟨isAddress, reaction, reacted, gives⟩
      rcases gives.of_content with ⟨status, least, most, rfl⟩
      rw [remember, ContentCache.content?_put, ContentCache.failure?_put, if_pos rfl, if_pos rfl]
      exact .content provides isAddress least most reacted

namespace Visit

variable [Timescale T] {engine : Engine T} {visit : Visit T}

theorem after_of_remembers (remembers : visit.holdings.cache.Remembers visit.path) :
    visit.after engine = visit.holdings := by
  have fetches := Engine.fetchImport_fetches engine visit.deadline visit.path visit.holdings
  unfold after
  generalize engine.fetchImport visit.deadline visit.path visit.holdings = result at fetches ⊢
  cases fetches with
  | refused _ => rfl
  | recalled _ _ _ => rfl
  | failedBefore _ _ _ _ => rfl
  | asked _ _ unknown unfailed =>
      exact (remembers.elim (fun known => known unknown) fun failed => failed unfailed).elim

theorem keeps_after (engine : Engine T) (visit : Visit T) :
    visit.holdings.record.Keeps (visit.after engine).record := by
  intro path remembers
  by_cases same : path = visit.path
  · subst same
    rw [after_of_remembers remembers]
    exact ⟨rfl, rfl⟩
  · exact Engine.fetchImport_frame engine visit.deadline same visit.holdings

theorem integrity_after (integrity : Record.Integrity engine visit.holdings.record) :
    Record.Integrity engine (visit.after engine).record := by
  have fetches := Engine.fetchImport_fetches engine visit.deadline visit.path visit.holdings
  have frame := fun other (different : other ≠ visit.path) =>
    Engine.fetchImport_frame engine visit.deadline different visit.holdings
  unfold after
  generalize engine.fetchImport visit.deadline visit.path visit.holdings = result
    at fetches frame ⊢
  cases fetches with
  | refused _ => exact integrity
  | recalled _ _ _ => exact integrity
  | failedBefore _ _ _ _ => exact integrity
  | @asked library absolute isOwned unknown unfailed =>
      have asksFor := (Engine.fetchFromLibrary_asksFor engine library visit.deadline visit.path
        visit.holdings).1
      have unchanged := Engine.cache_fetchFromLibrary engine library visit.deadline visit.path
        visit.holdings
      generalize engine.fetchFromLibrary library visit.deadline visit.path visit.holdings = told
        at asksFor unchanged frame ⊢
      rw [← unchanged] at unknown unfailed
      intro path
      simp only [Holdings.record, Engine.world_remember]
      by_cases same : path = visit.path
      · subst same
        exact asksFor.attested (Registry.provides_of_find absolute isOwned) unknown unfailed
      · have agree := frame path same
        rw [agree.1, agree.2]
        exact (integrity path).later asksFor.grows

end Visit

/-! ## Histories -/

namespace Engine

variable [Timescale T]

/-- What visits do to a cache that starts empty: it is attested at every moment, what is remembered
stays, and paths that are remembered are not asked for. -/
structure KeepsIntegrity (engine : Engine T) (visits : List (Visit T)) (last : Record T) :
    Prop where
  attested : ∀ visit ∈ visits,
    visit.holdings.record.Integrity engine ∧ (visit.after engine).record.Integrity engine
  lastAttested : last.Integrity engine
  kept : visits.Pairwise fun earlier later =>
    (earlier.after engine).record.Keeps later.holdings.record
  lastKept : ∀ visit ∈ visits, (visit.after engine).record.Keeps last
  silent : visits.Pairwise fun earlier later =>
    (earlier.after engine).cache.Remembers later.path →
      (later.after engine).world.past = later.holdings.world.past

theorem Leads.keepsIntegrity {engine : Engine T} {past : List (Event T)}
    {visits : List (Visit T)} {last : Record T}
    (leads : Leads engine ⟨.empty, past⟩ visits last) : KeepsIntegrity engine visits last := by
  have preserved := leads.preserves (motive := Record.Integrity engine)
    (fun _ integrity => Visit.integrity_after integrity) (Record.integrity_empty engine past)
  have related := leads.related Record.Keeps.refl Record.Keeps.trans (Visit.keeps_after engine)
  refine ⟨preserved.1, preserved.2, related.1, related.2.2.1, related.1.imp ?_⟩
  intro earlier later kept remembers
  have stillRemembers := (kept later.path remembers).remembers remembers
  rw [Visit.after_of_remembers stillRemembers]

/-- Whatever calls are served, beginning with an empty cache, their visits are all that happens to
the cache and on the network, and they keep the integrity of the cache. -/
theorem serveAll_keepsIntegrity (engine : Engine T) (history : List (Call T)) (world : World T) :
    Leads engine ⟨.empty, world.past⟩ (engine.visits history .empty world)
        ⟨(engine.serveAll history .empty world).1, (engine.serveAll history .empty world).2.past⟩ ∧
      KeepsIntegrity engine (engine.visits history .empty world)
        ⟨(engine.serveAll history .empty world).1,
          (engine.serveAll history .empty world).2.past⟩ :=
  ⟨leads_visits engine history .empty world,
    (leads_visits engine history .empty world).keepsIntegrity⟩

end Engine

end SourceTree
