import SourceTree.Proofs.Engine.Requests
import SourceTree.Proofs.Registration

/-! # Which addresses are requested

An engine requests addresses of its own libraries only, and each of them for paths that the library
owns; a path that no library owns is not supported and nothing is sent for it. The libraries are
those that the engine was made with, except that an empty registry gives way to the known
libraries. So an engine that was made without libraries stays within them exactly as long as it is
asked for no path that a known library owns. -/

namespace SourceTree

namespace Engine

open Event

variable {T : Type} [Timescale T] {engine : Engine T}

theorem fetchImport_within (engine : Engine T) (deadline : Option T) (path : String)
    (holdings : Holdings T) :
    Within (fun request _ => ∃ library, engine.registry.Provides library path ∧
        request.url ∈ library.addresses (library.relativePath path)) holdings.world.past
      (engine.fetchImport deadline path holdings).2.world.past := by
  have fetches := fetchImport_fetches engine deadline path holdings
  generalize engine.fetchImport deadline path holdings = result at fetches ⊢
  cases fetches with
  | refused _ => exact .refl _
  | recalled _ _ _ => exact .refl _
  | failedBefore _ _ _ _ => exact .refl _
  | @asked library absolute isOwned unknown unfailed =>
      rw [world_remember]
      have provides := Registry.provides_of_find absolute isOwned
      have isAddress := Library.mem_addresses_iff
        (library.version_mem (holdings.preference.get? library.root)) (library.relativePath path)
      apply fetchFromLibrary_within
      · exact ⟨library, provides, (isAddress _).2 (Or.inl rfl)⟩
      · exact fun url listed _ _ => ⟨library, provides, listed⟩

theorem fetchImport_ne_unsupported {library : Library} {path : String}
    (absolute : ImportPath.isRelative path = false)
    (isOwned : engine.registry.find path = some library) (deadline : Option T)
    (holdings : Holdings T) :
    (engine.fetchImport deadline path holdings).1 ≠ .failed (.unsupportedImport path) := by
  have fetches := fetchImport_fetches engine deadline path holdings
  generalize engine.fetchImport deadline path holdings = result at fetches ⊢
  cases fetches with
  | refused refused =>
      rcases refused with relative | unowned
      · rw [absolute] at relative
        cases relative
      · rw [isOwned] at unowned
        cases unowned
  | recalled _ _ _ => exact nofun
  | failedBefore _ _ _ _ => exact nofun
  | @asked owner _ _ _ _ =>
      rw [fst_remember]
      have concluded := (fetchFromLibrary_asksFor engine owner deadline path holdings).1.concluded
      generalize (engine.fetchFromLibrary owner deadline path holdings).1 = outcome at concluded ⊢
      generalize engine.tries owner deadline path holdings = tries at concluded
      cases concluded <;> exact nofun

end Engine

/-! ## Libraries that an engine is made with -/

def Library.Lists (libraries : List Library) (path url : String) : Prop :=
  ∃ library ∈ libraries, library.owns path ∧ url ∈ library.addresses (library.relativePath path)

variable {T : Type} [Timescale T]

/-- Whether a visit asks the libraries of a list only, and asks nobody for a path that none of them
owns. -/
structure Visit.Confined (engine : Engine T) (libraries : List Library) (visit : Visit T) :
    Prop where
  within : Event.Within (fun request _ => Library.Lists libraries visit.path request.url)
    visit.holdings.world.past (visit.after engine).world.past
  unsupported : ImportPath.isRelative visit.path = false →
    (∀ library ∈ libraries, ¬library.owns visit.path) →
      visit.outcome engine = .failed (.unsupportedImport visit.path) ∧
        (visit.after engine).world = visit.holdings.world

/-- Whether calls, beginning with an empty cache, ask the libraries of a list only: every address
that is requested is one of theirs, and so it is for every single path that is fetched. -/
structure Engine.Confined (engine : Engine T) (libraries : List Library) (history : List (Call T))
    (world : World T) : Prop where
  within : Event.Within
    (fun request _ => ∃ path, ImportPath.isRelative path = false ∧
      Library.Lists libraries path request.url)
    world.past (engine.serveAll history .empty world).2.past
  visits : ∀ visit ∈ engine.visits history .empty world, visit.Confined engine libraries

def Registry.Refuses (registry : Registry) (path : String) : Prop :=
  ImportPath.isRelative path = true ∨ registry.find path = none

namespace Visit

variable {engine : Engine T} {libraries : List Library} {visit : Visit T}

theorem within_of_registered (registered : ∀ library ∈ engine.registry.libraries,
    library ∈ libraries) (visit : Visit T) :
    Event.Within (fun request _ => ImportPath.isRelative visit.path = false ∧
      Library.Lists libraries visit.path request.url) visit.holdings.world.past
        (visit.after engine).world.past := by
  apply (engine.fetchImport_within visit.deadline visit.path visit.holdings).mono
  rintro request start ⟨library, provides, isAddress⟩
  exact ⟨provides.absolute, library, registered library provides.registered, provides.owns,
    isAddress⟩

theorem told_of_refuses (refuses : engine.registry.Refuses visit.path) :
    (visit.after engine).world = visit.holdings.world ∧
      (ImportPath.isRelative visit.path = false →
        visit.outcome engine = .failed (.unsupportedImport visit.path)) := by
  rw [after, outcome, Engine.fetchImport]
  split
  next relative => exact ⟨rfl, fun absolute => absurd relative (Bool.eq_false_iff.1 absolute)⟩
  next absolute =>
    rw [refuses.resolve_left absolute]
    exact ⟨rfl, fun _ => rfl⟩

theorem confined_of_registered (registered : ∀ library ∈ engine.registry.libraries,
    library ∈ libraries) (visit : Visit T) : visit.Confined engine libraries where
  within := (within_of_registered registered visit).mono fun _ _ listed => listed.2
  unsupported := by
    intro absolute unowned
    have refuses : engine.registry.Refuses visit.path := by
      apply Or.inr
      rw [Registry.find_eq_none_iff]
      exact fun library isRegistered => unowned library (registered library isRegistered)
    rcases told_of_refuses refuses with ⟨untouched, isUnsupported⟩
    exact ⟨isUnsupported absolute, untouched⟩

theorem confined_nil_iff : visit.Confined engine [] ↔ engine.registry.Refuses visit.path := by
  constructor
  · intro confined
    by_contra accepted
    rcases not_or.1 accepted with ⟨absolute, isOwned⟩
    rw [Bool.not_eq_true] at absolute
    rcases Option.ne_none_iff_exists'.1 isOwned with ⟨library, isOwner⟩
    apply Engine.fetchImport_ne_unsupported absolute isOwner visit.deadline visit.holdings
    exact (confined.unsupported absolute fun _ listed => absurd listed List.not_mem_nil).1
  · intro refuses
    rcases told_of_refuses refuses with ⟨untouched, isUnsupported⟩
    refine ⟨?_, fun absolute _ => ⟨isUnsupported absolute, untouched⟩⟩
    rw [untouched]
    exact .refl _

end Visit

namespace Engine

theorem Leads.within {engine : Engine T} {allowed : Request T → T → Prop}
    {first last : Record T} {visits : List (Visit T)} (leads : Leads engine first visits last)
    (each : ∀ visit ∈ visits, Event.Within allowed visit.holdings.world.past
      (visit.after engine).world.past) : Event.Within allowed first.past last.past := by
  induction leads with
  | done record => exact .refl _
  | visit visit later induction =>
      rcases List.forall_mem_cons.1 each with ⟨now, others⟩
      exact now.trans (induction others)

variable {search : PatternSearch} {network : Network T} {policy : FetchPolicy T}
  {maxImports iterationFactor maxWorkers : Int} {timeout : Option T}

/-- An engine that was made with libraries asks no others; one that was made without any stays
within them exactly if it refuses all paths that it is asked for, and it refuses what no known
library owns. -/
theorem confined_make_iff (libraries : List Library) (history : List (Call T)) (world : World T) :
    (make (.ofLibraries libraries) search network policy maxImports iterationFactor maxWorkers
        timeout).Confined libraries history world ↔
      libraries ≠ [] ∨
        ∀ visit ∈ (make (.ofLibraries libraries) search network policy maxImports iterationFactor
            maxWorkers timeout).visits history .empty world,
          (Registry.ofLibraries Library.catalog).Refuses visit.path := by
  cases libraries with
  | cons library rest =>
      -- The registry is kept, so every library that is asked is one of the list.
      refine iff_of_true ?_ (Or.inl (List.cons_ne_nil library rest))
      have kept : (make (.ofLibraries (library :: rest)) search network policy maxImports
          iterationFactor maxWorkers timeout).registry = .ofLibraries (library :: rest) :=
        Registry.orCatalog_of_populated
          (Registry.populated_ofLibraries (List.cons_ne_nil library rest))
      generalize make (.ofLibraries (library :: rest)) search network policy maxImports
        iterationFactor maxWorkers timeout = engine at kept ⊢
      have registered : ∀ other ∈ engine.registry.libraries, other ∈ library :: rest := by
        rw [kept]
        exact fun _ => Registry.mem_of_mem_ofLibraries
      constructor
      · apply (leads_visits engine history .empty world).within
        intro visit _
        apply (Visit.within_of_registered registered visit).mono
        exact fun request start listed => ⟨visit.path, listed⟩
      · exact fun visit _ => Visit.confined_of_registered registered visit
  | nil =>
      rw [or_iff_right (not_not.2 rfl)]
      generalize isEngine : make (.ofLibraries []) search network policy maxImports iterationFactor
        maxWorkers timeout = engine
      have replaced : engine.registry = .ofLibraries Library.catalog := isEngine ▸ rfl
      rw [← replaced]
      constructor
      · exact fun confined visit made => Visit.confined_nil_iff.1 (confined.visits visit made)
      · intro refused
        have confined : ∀ visit ∈ engine.visits history .empty world, visit.Confined engine [] :=
          fun visit made => Visit.confined_nil_iff.2 (refused visit made)
        refine ⟨(leads_visits engine history .empty world).within fun visit made => ?_, confined⟩
        apply (confined visit made).within.mono
        exact fun request start ⟨_, listed, _⟩ => absurd listed List.not_mem_nil

/-- An engine that was made without libraries asks a known one. -/
theorem not_confined_of_no_libraries :
    ¬(make (.ofLibraries []) Pattern.search (.serving .empty) ⟨15, 2, 1⟩ 200 2 1 none).Confined []
      [.fetch "@uniswap/v3-core/a.sol" .empty none] (.startingAt 0) := by
  intro confined
  have visited := Visit.confined_nil_iff.1 (confined.visits
    ⟨"@uniswap/v3-core/a.sol", none, ⟨.empty, .empty, .startingAt 0⟩⟩ List.mem_cons_self)
  have accepted : (ImportPath.isRelative "@uniswap/v3-core/a.sol" ||
      ((Registry.ofLibraries Library.catalog).find "@uniswap/v3-core/a.sol").isNone) = false := by
    decide +kernel
  rcases Bool.or_eq_false_iff.1 accepted with ⟨absolute, isOwned⟩
  rcases visited with relative | unowned
  · exact Bool.false_ne_true (absolute.symm.trans relative)
  · have isUnowned : ((Registry.ofLibraries Library.catalog).find
        "@uniswap/v3-core/a.sol").isNone = true :=
      Option.isNone_iff_eq_none.2 unowned
    exact Bool.false_ne_true (isOwned.symm.trans isUnowned)

end Engine

end SourceTree
