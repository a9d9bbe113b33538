import SourceTree.ImportLookup
import SourceTree.ImportStatement

/-! # The closure of sources

A compiler needs every source that the given ones import, directly or not. Sources are taken from
a queue; what an import lacks is looked up, added and queued in turn. An import is keyed the way a
compiler names it: a relative one against the source that imports it. Imports that cannot be found
are reported once, at the first source that needs them.

Lookups may answer ever new paths, so the number of sources taken from the queue is limited. -/

namespace SourceTree

structure MissingSource where
  message : String
  importer : String
  deriving DecidableEq, Repr

structure SourceClosure where
  sources : Listing String String
  missing : Listing String MissingSource

namespace SourceClosure

/-- Look up an import by its key and, when it is keyed differently, as it is written. -/
def provide (lookup : String → Except String String) (path key : String) :
    Except String String :=
  match lookup key with
  | .ok content => .ok content
  | .error message =>
      if key = path then .error message
      else
        match lookup path with
        | .ok content => .ok content
        | .error _ => .error message

structure Progress where
  closure : SourceClosure
  queue : List String

def visitImport (lookup : String → Except String String) (importer : String)
    (progress : Progress) (path : String) : Progress :=
  let closure := progress.closure
  let key := ImportPath.meantIn importer path
  if key ∈ closure.sources ∨ key ∈ closure.missing then
    progress
  else
    match provide lookup path key with
    | .ok content =>
        ⟨{ closure with sources := closure.sources.insert key content },
          progress.queue ++ [key]⟩
    | .error message =>
        { progress with
          closure := { closure with missing := closure.missing.insert key ⟨message, importer⟩ } }

def visitSource (lookup : String → Except String String) (source : String)
    (progress : Progress) : Progress :=
  let content := (progress.closure.sources.get? source).getD ""
  (importPaths content).foldl (visitImport lookup source) progress

/-- Visit sources until none is left; `none` when the steps do not suffice. -/
def visitAll (lookup : String → Except String String) : (steps : Nat) → Progress →
    Option SourceClosure
  | _, ⟨closure, []⟩ => some closure
  | 0, _ => none
  | steps + 1, ⟨closure, source :: queue⟩ =>
      visitAll lookup steps (visitSource lookup source ⟨closure, queue⟩)

def collect (steps : Nat) (sources : Listing String String)
    (lookup : String → Except String String) : Option SourceClosure :=
  visitAll lookup steps ⟨⟨sources, .empty⟩, sources.keys⟩

def diagnostics (closure : SourceClosure) : List Value :=
  closure.missing.values.map fun missing =>
    let message := missing.message
    let importer := missing.importer
    .record [
      ("component", .text "general"),
      ("severity", .text "error"),
      ("type", .text "ParserError"),
      ("message", .text message),
      ("formattedMessage", .text s!"ParserError: {message}\n --> {importer}\n"),
      ("sourceLocation", .record [
        ("file", .text importer), ("start", .int (-1)), ("end", .int (-1))])]

end SourceClosure

end SourceTree
