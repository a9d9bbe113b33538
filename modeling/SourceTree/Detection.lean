import SourceTree.Preference
import SourceTree.Registry
import SourceTree.Text.Occurrence
import SourceTree.Unexpected

/-! # Version detection

Sources tell which version of a library they are written for. Explicit qualifiers come first; after
them the versions are asked in order whether one of their features or patterns occurs. A library is
only looked for in sources that mention its root, and of several sources the last one decides.

How written patterns are read and searched for is left open. A search may refuse a text that writes
no pattern, and then detection ends with its fault. Patterns that are never looked for are never
refused. -/

namespace SourceTree

/-- Whether a written pattern describes a piece of a source. -/
abbrev PatternSearch := String → List Char → Except Unexpected Bool

def LibraryVersion.isMarkedIn (search : PatternSearch) (version : LibraryVersion)
    (source : List Char) : Except Unexpected Bool :=
  if version.features.any fun feature => Text.occursIn feature.toList source then
    .ok true
  else
    version.patterns.anyM fun pattern => search pattern source

namespace Library

def qualifiedIn? (search : PatternSearch) (library : Library) (source : List Char) :
    Except Unexpected (Option String) := do
  let entry ← library.qualifiers.entries.findM? fun entry => search entry.1 source
  return entry.map Prod.snd

def markedIn? (search : PatternSearch) (library : Library) (source : List Char) :
    Except Unexpected (Option String) := do
  let version ← library.versions.findM? fun version => version.isMarkedIn search source
  return version.map LibraryVersion.name

def detectedIn? (search : PatternSearch) (library : Library) (source : List Char) :
    Except Unexpected (Option String) := do
  match ← library.qualifiedIn? search source with
  | some version => return some version
  | none => library.markedIn? search source

def requestedBy? (search : PatternSearch) (library : Library) (source : List Char) :
    Except Unexpected (Option String) :=
  if Text.occursIn library.root.toList source then
    (library.detectedIn? search source).map fun version => version.filter fun name => !name.isEmpty
  else
    .ok none

end Library

namespace Preference

def noteLibrary (search : PatternSearch) (source : List Char) (preference : Preference)
    (library : Library) : Except Unexpected Preference := do
  match ← library.requestedBy? search source with
  | some version => return preference.set library.root version
  | none => return preference

def noteSource (search : PatternSearch) (registry : Registry) (preference : Preference)
    (source : List Char) : Except Unexpected Preference :=
  registry.libraries.foldlM (noteLibrary search source) preference

def detect (search : PatternSearch) (registry : Registry) (files : Listing String String) :
    Except Unexpected Preference :=
  files.values.foldlM (fun preference source => noteSource search registry preference source.toList)
    .empty

end Preference

end SourceTree
