import SourceTree.Library
import SourceTree.Value.Shape

/-! The shapes of library versions and of libraries. -/

namespace SourceTree.Shape

def libraryVersion : Shape LibraryVersion :=
  record fun fields =>
    LibraryVersion.mk
      <$> required text "name" fields
      <*> required text "base_url" fields
      <*> optional (nullable text) "branch" none fields
      <*> optional (listOf text) "features" [] fields
      <*> optional (listOf text) "patterns" [] fields

structure LibraryParts where
  root : String
  name : String
  url : Option String
  versions : List LibraryVersion
  defaultName : String
  qualifiers : Listing String String
  spareUrls : Listing String String

def libraryParts : Shape LibraryParts :=
  record fun fields =>
    LibraryParts.mk
      <$> required text "prefix" fields
      <*> optional text "name" "" fields
      <*> optional (nullable text) "url" none fields
      <*> required (listOf libraryVersion) "versions" fields
      <*> required text "default_version" fields
      <*> optional (tableOf text) "version_patterns" .empty fields
      <*> optional (tableOf text) "fallback_urls" .empty fields

def LibraryParts.join (parts : LibraryParts) : Except String Library :=
  match Library.ofParts parts.root parts.name parts.url parts.versions parts.defaultName
      parts.qualifiers parts.spareUrls with
  | .ok library => .ok library
  | .error fault => .error (fault.message parts.root)

def library : Shape Library :=
  fun value => (libraryParts value).check LibraryParts.join

end SourceTree.Shape
