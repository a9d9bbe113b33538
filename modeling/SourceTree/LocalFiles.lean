import SourceTree.ImportPath
import SourceTree.Listing

/-! # Local files

Imports are matched against the user's own files. Besides exact matches, a relative import without
a file at its place is matched by filename: of several files of that name the one with the shortest
path is taken, and of equally short paths the first in alphabetical order. Matches by filename are
remembered under the import as it was written. -/

namespace SourceTree

structure LocalFiles where
  files : Listing String String
  /-- Imports that were matched by filename, with the files they were matched to. -/
  aliases : Listing String String
  /-- Imports whose filename several files have, with those files, best first. -/
  ambiguous : Listing String (List String)

namespace LocalFiles

def ofFiles (files : Listing String String) : LocalFiles := ⟨files, .empty, .empty⟩

def precedes (left right : String) : Bool :=
  left.length < right.length || (left.length = right.length && left ≤ right)

def sourceExtension : String := ".sol"

/-- The filenames that an import may mean: its last segment, with or without the extension of
source files. -/
def filenames (path : String) : List String :=
  let name := ImportPath.basename path
  if sourceExtension.toList.isSuffixOf name.toList then [name]
  else [name, name ++ sourceExtension]

def namesakes (files : Listing String String) (path : String) : List String :=
  (files.keys.filter fun file => ImportPath.basename file ∈ filenames path).mergeSort precedes

def matchFilename (locals : LocalFiles) (path : String) : Option String × LocalFiles :=
  match namesakes locals.files path with
  | [] => (none, locals)
  | best :: others =>
      (some best, { locals with
        aliases := locals.aliases.insert path best
        ambiguous :=
          if others.isEmpty then locals.ambiguous
          else locals.ambiguous.insert path (best :: others) })

def neighbour? (locals : LocalFiles) (importer : Option String) (path : String) : Option String :=
  match importer with
  | none => none
  | some file =>
      let candidate := ImportPath.resolve file path
      if !file.isEmpty && candidate ∈ locals.files then some candidate else none

def resolve (locals : LocalFiles) (importer : Option String) (path : String) :
    Option String × LocalFiles :=
  let stripped := ImportPath.dropLeadingSlash path
  if path ∈ locals.files then
    (some path, locals)
  else if stripped ∈ locals.files then
    (some stripped, locals)
  else
    match locals.aliases.get? path with
    | some known => (some known, locals)
    | none =>
        if !ImportPath.isRelative path then
          (none, locals)
        else
          match locals.neighbour? importer path with
          | some file => (some file, locals)
          | none => locals.matchFilename path

end LocalFiles

end SourceTree
