import SourceTree.ContentCache
import SourceTree.Failure
import SourceTree.ImportPath
import SourceTree.Registry
import SourceTree.Resolution

/-! # Looking up imports

Once a source tree is resolved, its imports are answered from what is in memory: from the files,
from files that imports were mapped to, and from the cache. Nothing is fetched. -/

namespace SourceTree

structure ImportLookup (T : Type) where
  files : Listing String String
  aliases : Listing String String
  cache : ContentCache (FetchError T)
  registry : Registry

namespace ImportLookup

variable {T : Type}

def make (files aliases : Listing String String) (cache : ContentCache (FetchError T))
    (registry : Registry) : ImportLookup T :=
  ⟨files, aliases, cache, registry.orCatalog⟩

def ofResolution (resolution : Resolution) (cache : ContentCache (FetchError T))
    (registry : Registry) : ImportLookup T :=
  make resolution.files resolution.aliases cache registry

def mapped? (lookup : ImportLookup T) (path : String) : Option String :=
  match lookup.aliases.get? path with
  | some target => if target.isEmpty then none else lookup.files.get? target
  | none => none

def content? (lookup : ImportLookup T) (path : String) : Option String :=
  (((lookup.files.get? path).or
    (lookup.files.get? (ImportPath.dropLeadingSlash path))).or
      (lookup.mapped? path)).or
        (lookup.cache.content? path)

def missingMessage (lookup : ImportLookup T) (path : String) : String :=
  if ImportPath.isRelative path then
    Failure.localImportMessage path
  else
    match lookup.registry.find path with
    | some library =>
        let name := library.displayName
        s!"External library not found: {path}. Make sure the correct {name} version is used."
    | none =>
        if "@".toList.isPrefixOf path.toList then s!"Unsupported external library: {path}."
        else s!"Import not found: {path}"

def find (lookup : ImportLookup T) (path : String) : Except String String :=
  match lookup.content? path with
  | some content => .ok content
  | none => .error (lookup.missingMessage path)

theorem find_eq_ok_iff {lookup : ImportLookup T} {path content : String} :
    lookup.find path = .ok content ↔ lookup.content? path = some content := by
  unfold find
  cases lookup.content? path <;> simp

theorem exists_content?_iff {lookup : ImportLookup T} {path : String} :
    (∃ content, lookup.content? path = some content) ↔
      path ∈ lookup.files ∨ ImportPath.dropLeadingSlash path ∈ lookup.files ∨
        (∃ target, lookup.aliases.get? path = some target ∧ target ≠ "" ∧ target ∈ lookup.files) ∨
          path ∈ lookup.cache.contents := by
  have mapped : (∃ content, lookup.mapped? path = some content) ↔
      ∃ target, lookup.aliases.get? path = some target ∧ target ≠ "" ∧ target ∈ lookup.files := by
    unfold mapped?
    cases lookup.aliases.get? path with
    | none => simp
    | some target => simp [Listing.mem_iff_get?]
  unfold content? ContentCache.content?
  rw [← mapped, Listing.mem_iff_get?, Listing.mem_iff_get?, Listing.mem_iff_get?]
  simp only [← Option.isSome_iff_exists, Option.isSome_or, Bool.or_eq_true, or_assoc]

theorem mem_values_of_content? {lookup : ImportLookup T} {path content : String}
    (found : lookup.content? path = some content) :
    content ∈ lookup.files.values ∨ content ∈ lookup.cache.contents.values := by
  have ofFile : ∀ file, lookup.files.get? file = some content → content ∈ lookup.files.values :=
    fun file isFile => Listing.mem_values_iff.2 ⟨file, Listing.get?_eq_some_iff.1 isFile⟩
  unfold content? at found
  rcases Option.or_eq_some_iff.1 found with known | ⟨_, cached⟩
  · refine Or.inl ?_
    rcases Option.or_eq_some_iff.1 known with isFile | ⟨_, isMapped⟩
    · rcases Option.or_eq_some_iff.1 isFile with asWritten | ⟨_, stripped⟩
      · exact ofFile _ asWritten
      · exact ofFile _ stripped
    · unfold mapped? at isMapped
      split at isMapped
      · split at isMapped
        · cases isMapped
        · exact ofFile _ isMapped
      · cases isMapped
  · exact Or.inr (Listing.mem_values_iff.2 ⟨path, Listing.get?_eq_some_iff.1 cached⟩)

end ImportLookup

end SourceTree
