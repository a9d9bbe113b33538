import SourceTree.Engine.Drain
import SourceTree.Fault
import SourceTree.LocalFiles

/-! # Resolving a source tree

A pass finds the imports of the user's files that are not local. It fetches them, and what fetched
files import in turn, and reports what it found. Fetched files never replace the user's own. -/

namespace SourceTree

structure ResolutionStats where
  totalFiles : Nat
  externalImports : Nat
  resolvedImports : Nat
  failedImports : Nat
  deriving DecidableEq, Repr

namespace ResolutionStats

def fields (stats : ResolutionStats) : List (String × Value) :=
  [("total_files", .int stats.totalFiles), ("external_imports", .int stats.externalImports),
    ("resolved_imports", .int stats.resolvedImports), ("failed_imports", .int stats.failedImports)]

end ResolutionStats

structure Resolution where
  /-- The fetched files in the order of fetching, then the user's files. -/
  files : Listing String String
  stats : ResolutionStats
  /-- Imports that are neither fetched nor mapped to a local file. -/
  unresolved : List String
  failures : Listing String String
  warnings : List String
  /-- The versions of the libraries in use, by root. -/
  versions : Listing String String
  aliases : Listing String String

namespace Resolution

def isComplete (resolution : Resolution) : Bool :=
  resolution.unresolved.isEmpty

/-! ## Imports of the user's files -/

structure Seeds where
  locals : LocalFiles
  discovered : List String

namespace Seeds

def addImport (importer : String) (seeds : Seeds) (path : String) : Seeds :=
  match seeds.locals.resolve (some importer) path with
  | (none, locals) => ⟨locals, ResolutionState.appendNew seeds.discovered path⟩
  | (some _, locals) => { seeds with locals }

def addFile (seeds : Seeds) (file : String × String) : Seeds :=
  (importPaths file.2).foldl (addImport file.1) seeds

def ofFiles (files : Listing String String) : Seeds :=
  files.entries.foldl addFile ⟨.ofFiles files, []⟩

end Seeds

/-! ## Reports -/

def ambiguityWarning (path : String) (candidates : List String) : String :=
  let listed := String.intercalate ", " candidates
  let used := candidates.headD ""
  s!"Relative import {path} matched multiple files ({listed}); used '{used}'."

def unresolvedWarning (path : String) : String :=
  s!"Unresolved import: {path}"

def versionsUsed (registry : Registry) (preference : Preference) (resolved : List String) :
    Listing String String :=
  resolved.foldl (fun versions path =>
    match registry.find path with
    | some library => versions.insert library.root (preference.select library).name
    | none => versions) .empty

variable {T : Type} [Timescale T]

def ceilingWarnings : DrainExit T → List String
  | .ceiling limit remaining => [Failure.message (.iterationLimit limit remaining : Failure T)]
  | _ => []

def ofPass (registry : Registry) (files : Listing String String)
    (ambiguous : Listing String (List String)) (exit : DrainExit T) (pass : Pass T) : Resolution :=
  let state := pass.state
  let unresolved := state.unresolved
  { files := pass.fetched.merge files
    stats :=
      { totalFiles := files.size
        externalImports := state.discovered.length
        resolvedImports := state.resolved.length
        failedImports := unresolved.length }
    unresolved := unresolved
    failures := state.failed.mapValues Fault.message
    warnings :=
      ceilingWarnings exit ++
        ambiguous.entries.map (fun entry => ambiguityWarning entry.1 entry.2) ++
        unresolved.map unresolvedWarning
    versions := versionsUsed registry pass.holdings.preference state.resolved
    aliases := state.aliases }

end Resolution

namespace Engine

variable {T : Type} [Timescale T]

def openPass (seeds : Resolution.Seeds) (holdings : Holdings T) : Pass T where
  queue := seeds.discovered
  state :=
    { ResolutionState.empty with
      discovered := seeds.discovered
      aliases := seeds.locals.aliases }
  fetched := .empty
  holdings := holdings

def deadlineFrom (engine : Engine T) (deadline : Option T) (now : T) : Option T :=
  deadline.or (engine.timeout.map fun timeout => now + timeout)

/-- Resolve all imports of the files, at the versions that are preferred. Source trees that lead to
too many imports are refused before anything is fetched. -/
def resolveWith (engine : Engine T) (files : Listing String String) (deadline : Option T)
    (holdings : Holdings T) : Except (Fault T) Resolution × Holdings T :=
  let seeds := Resolution.Seeds.ofFiles files
  if engine.maxImports < seeds.discovered.length then
    (.error (.known (.inputTooLarge .imports engine.maxImports seeds.discovered.length)), holdings)
  else
    let limit := engine.deadlineFrom deadline holdings.world.now
    let (exit, pass) :=
      engine.drain (1 < engine.maxWorkers) files limit (openPass seeds holdings)
    let outcome : Except (Fault T) Resolution :=
      match exit with
      | .timedOut after unresolved => .error (.known (.resolutionTimeout after unresolved))
      | .broken fault => .error (.unexpected fault)
      | settled =>
          .ok (Resolution.ofPass engine.registry files seeds.locals.ambiguous settled pass)
    (outcome, pass.holdings)

omit [Timescale T] in
def detect (engine : Engine T) (files : Listing String String) : Except Unexpected Preference :=
  Preference.detect engine.search engine.registry files

def resolve (engine : Engine T) (files : Listing String String) (deadline : Option T)
    (cache : ContentCache (FetchError T)) (world : World T) :
    Except (Fault T) Resolution × ContentCache (FetchError T) × World T :=
  match engine.detect files with
  | .error fault => (.error (.unexpected fault), cache, world)
  | .ok preference =>
      let (outcome, holdings) := engine.resolveWith files deadline ⟨cache, preference, world⟩
      (outcome, holdings.cache, holdings.world)

end Engine

end SourceTree
