import SourceTree.Listing

/-! # Libraries

A library is a family of files that is published in several versions. Its root is the path with
which imports of it start; what follows the root names a file within the library.

The versions of a library have different names, and both the default version and the versions
that explicit qualifiers select are among them, so a version can always be chosen. -/

namespace SourceTree

structure LibraryVersion where
  name : String
  /-- The address that paths within the library are appended to. -/
  baseUrl : String
  branch : Option String
  /-- Texts whose presence in a source speaks for this version. -/
  features : List String
  /-- Written patterns whose presence in a source speaks for this version. -/
  patterns : List String
  deriving DecidableEq, Repr

namespace LibraryVersion

def url (version : LibraryVersion) (relativePath : String) : String :=
  version.baseUrl ++ relativePath

def names (versions : List LibraryVersion) : List String :=
  versions.map LibraryVersion.name

def named? (versions : List LibraryVersion) (name : String) : Option LibraryVersion :=
  versions.find? fun version => version.name = name

theorem named?_isSome {versions : List LibraryVersion} {name : String}
    (member : name ∈ names versions) : (named? versions name).isSome := by
  rcases List.mem_map.1 member with ⟨version, isVersion, equal⟩
  exact List.find?_isSome.2 ⟨version, isVersion, by simpa using equal⟩

theorem name_of_named? {versions : List LibraryVersion} {name : String} {version : LibraryVersion}
    (found : named? versions name = some version) : version.name = name := by
  simpa using List.find?_some found

theorem mem_of_named? {versions : List LibraryVersion} {name : String} {version : LibraryVersion}
    (found : named? versions name = some version) : version ∈ versions :=
  List.mem_of_find?_eq_some found

end LibraryVersion

structure Library where
  root : String
  name : String
  url : Option String
  /-- All versions, in the order in which they stand in for one another. -/
  versions : List LibraryVersion
  defaultName : String
  /-- Written patterns of explicit version qualifiers, with the version each selects. -/
  qualifiers : Listing String String
  /-- Addresses for single paths within the library, tried when every version failed. -/
  spareUrls : Listing String String
  namesDistinct : (LibraryVersion.names versions).Nodup
  defaultListed : defaultName ∈ LibraryVersion.names versions
  qualifiedListed : ∀ name ∈ qualifiers.values, name ∈ LibraryVersion.names versions

namespace Library

def displayName (library : Library) : String :=
  if library.name.isEmpty then library.root else library.name

def defaultVersion (library : Library) : LibraryVersion :=
  (LibraryVersion.named? library.versions library.defaultName).get
    (LibraryVersion.named?_isSome library.defaultListed)

def version (library : Library) (name : Option String) : LibraryVersion :=
  (name.bind (LibraryVersion.named? library.versions)).getD library.defaultVersion

def owns (library : Library) (path : String) : Bool :=
  path = library.root || (library.root.toList ++ ['/']).isPrefixOf path.toList

def relativePath (library : Library) (path : String) : String :=
  String.ofList ((path.toList.drop library.root.length).dropWhile (· = '/'))

theorem defaultVersion_mem (library : Library) : library.defaultVersion ∈ library.versions :=
  LibraryVersion.mem_of_named? (Option.some_get _).symm

theorem version_mem (library : Library) (name : Option String) :
    library.version name ∈ library.versions := by
  unfold version
  cases found : name.bind (LibraryVersion.named? library.versions) with
  | none => exact library.defaultVersion_mem
  | some chosen =>
      rcases Option.bind_eq_some_iff.1 found with ⟨wanted, _, named⟩
      exact LibraryVersion.mem_of_named? named

/-! ## Checking the parts of a library -/

inductive Fault where
  | noVersions
  | repeatedVersion
  | unknownDefault (name : String) (known : List String)
  | unknownQualified (name : String)
  deriving DecidableEq, Repr

def Fault.message (root : String) : Fault → String
  | .noVersions => s!"Library '{root}' must have at least one version."
  | .repeatedVersion => s!"Library '{root}' has duplicate version names."
  | .unknownDefault name known =>
      let choices := String.intercalate ", " known
      s!"Default version '{name}' of library '{root}' must be one of {choices}."
  | .unknownQualified name => s!"Unknown version '{name}' in patterns of '{root}'."

def ofParts (root name : String) (url : Option String) (versions : List LibraryVersion)
    (defaultName : String) (qualifiers spareUrls : Listing String String) :
    Except Fault Library :=
  let known := LibraryVersion.names versions
  if versions.isEmpty then
    .error .noVersions
  else if distinct : known.Nodup then
    if isKnown : defaultName ∈ known then
      match unknown : qualifiers.values.find? (· ∉ known) with
      | some target => .error (.unknownQualified target)
      | none =>
          .ok { root, name, url, versions, defaultName, qualifiers, spareUrls
                namesDistinct := distinct
                defaultListed := isKnown
                qualifiedListed := by simpa using unknown }
    else
      .error (.unknownDefault defaultName known)
  else
    .error .repeatedVersion

end Library

end SourceTree
