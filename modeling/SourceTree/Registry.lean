import SourceTree.Library.Catalog

/-! # Registries

A registry holds one library per root, in the order in which the roots were first registered. A
later library replaces an earlier one with the same root. -/

namespace SourceTree

structure Registry where
  listing : Listing String Library
  rootsAgree : ∀ entry ∈ listing.entries, entry.2.root = entry.1

namespace Registry

def empty : Registry := ⟨.empty, by simp [Listing.empty]⟩

def register (registry : Registry) (library : Library) : Registry where
  listing := registry.listing.insert library.root library
  rootsAgree := by
    intro entry member
    rcases Listing.mem_entries_insert member with equal | old
    · rw [equal]
    · exact registry.rootsAgree entry old

def ofLibraries (libraries : List Library) : Registry :=
  libraries.foldl register empty

def configured (libraries : List Library) : Registry :=
  ofLibraries (Library.catalog ++ libraries)

/-- An empty registry gives way to the known libraries. -/
def orCatalog (registry : Registry) : Registry :=
  if registry.listing.isEmpty then ofLibraries Library.catalog else registry

def libraries (registry : Registry) : List Library :=
  registry.listing.values

def roots (registry : Registry) : List String :=
  registry.listing.keys

def get? (registry : Registry) (root : String) : Option Library :=
  registry.listing.get? root

def describe (registry : Registry) : String :=
  let roots := String.intercalate ", " registry.roots
  s!"<LibraryRegistry {roots}>"

/-- The library with the longest root; of several with equally long roots, the first. -/
def longest : List Library → Option Library
  | [] => none
  | library :: rest =>
      match longest rest with
      | none => some library
      | some other =>
          if library.root.length < other.root.length then some other else some library

def find (registry : Registry) (path : String) : Option Library :=
  longest (registry.libraries.filter fun library => library.owns path)

end Registry

end SourceTree
