import SourceTree.ContentCache
import SourceTree.Detection
import SourceTree.Failure
import SourceTree.ImportPath
import SourceTree.Network.Fetch

/-! # Fetching imports

An engine gets the content of single import paths: from the cache, or from the addresses that the
versions of the owning library give for the path. Addresses are tried one after another. When a
version other than the selected one has the content, the library is used at that version from then
on. -/

namespace SourceTree

structure Engine (T : Type) where
  registry : Registry
  search : PatternSearch
  network : Network T
  policy : FetchPolicy T
  /-- The most distinct imports that a source tree may lead to directly. -/
  maxImports : Int
  /-- How many paths per allowed import a pass may take from its queue. -/
  iterationFactor : Int
  maxWorkers : Nat
  /-- How long a pass may take when no deadline is set. -/
  timeout : Option T

structure Holdings (T : Type) where
  cache : ContentCache (FetchError T)
  preference : Preference
  world : World T

inductive ImportOutcome (T : Type) where
  | content (text : String)
  | failed (failure : Failure T)
  | interrupted (interruption : Interruption T)

structure Candidate where
  url : String
  version : Option String
  deriving DecidableEq, Repr

namespace Library

def substitutes (library : Library) (selected : LibraryVersion) (relativePath : String) :
    List Candidate :=
  let others := library.versions.filter fun version => version.name ≠ selected.name
  let spare := (library.spareUrls.get? relativePath).filter fun url => !url.isEmpty
  others.map (fun version => ⟨version.url relativePath, some version.name⟩) ++
    (spare.map fun url => ⟨url, none⟩).toList

end Library

namespace Engine

variable {T : Type} [Timescale T]

/-- An engine over a registry, which gives way to the known libraries when it is empty. At least
one worker is always there. -/
def make (registry : Registry) (search : PatternSearch) (network : Network T)
    (policy : FetchPolicy T) (maxImports iterationFactor maxWorkers : Int) (timeout : Option T) :
    Engine T where
  registry := registry.orCatalog
  search := search
  network := network
  policy := policy
  maxImports := maxImports
  iterationFactor := iterationFactor
  maxWorkers := max 1 maxWorkers.toNat
  timeout := timeout

omit [Timescale T] in
def maxIterations (engine : Engine T) : Int :=
  engine.maxImports * engine.iterationFactor

def overdue (engine : Engine T) : Interruption T :=
  .late (Timescale.limitOr engine.timeout 0)

def fetchSubstitutes (engine : Engine T) (library : Library) (deadline : Option T) (path : String)
    (first : FetchError T) : List Candidate → (attempted : List String) → Holdings T →
      ImportOutcome T × Holdings T
  | [], attempted, holdings => (.failed (.fetch (.exhausted path first attempted)), holdings)
  | candidate :: rest, attempted, holdings =>
      if FetchPolicy.isReached deadline holdings.world.now then
        (.interrupted engine.overdue, holdings)
      else
        match engine.policy.fetch engine.network deadline candidate.url holdings.world with
        | (.content text, world) =>
            let preference :=
              match candidate.version with
              | some version => holdings.preference.set library.root version
              | none => holdings.preference
            (.content text, { holdings with preference, world })
        | (.failed _, world) =>
            fetchSubstitutes engine library deadline path first rest
              (attempted ++ [candidate.url]) { holdings with world }
        | (.interrupted interruption, world) =>
            (.interrupted interruption, { holdings with world })

def fetchFromLibrary (engine : Engine T) (library : Library) (deadline : Option T) (path : String)
    (holdings : Holdings T) : ImportOutcome T × Holdings T :=
  let relativePath := library.relativePath path
  let selected := holdings.preference.select library
  let url := selected.url relativePath
  match engine.policy.fetch engine.network deadline url holdings.world with
  | (.content text, world) => (.content text, { holdings with world })
  | (.failed first, world) =>
      engine.fetchSubstitutes library deadline path first
        (library.substitutes selected relativePath) [url] { holdings with world }
  | (.interrupted interruption, world) =>
      (.interrupted interruption, { holdings with world })

omit [Timescale T] in
def remember (path : String) :
    ImportOutcome T × Holdings T → ImportOutcome T × Holdings T
  | (.content text, holdings) =>
      (.content text, { holdings with cache := holdings.cache.put path text })
  | (.failed (.fetch error), holdings) =>
      (.failed (.fetch error), { holdings with cache := holdings.cache.recordFailure path error })
  | other => other

/-- Get the content of an import path. Relative paths have no address, and paths of no library are
not supported; neither outcome is remembered. -/
def fetchImport (engine : Engine T) (deadline : Option T) (path : String) (holdings : Holdings T) :
    ImportOutcome T × Holdings T :=
  if ImportPath.isRelative path then
    (.failed (.localImportMissing path), holdings)
  else
    match engine.registry.find path with
    | none => (.failed (.unsupportedImport path), holdings)
    | some library =>
        match holdings.cache.content? path, holdings.cache.failure? path with
        | some text, _ => (.content text, holdings)
        | none, some error => (.failed (.fetch error), holdings)
        | none, none => remember path (engine.fetchFromLibrary library deadline path holdings)

end Engine

end SourceTree
