import SourceTree.Library

/-! # Version preferences

The version chosen for each library, by root. A library without an entry is used at its default
version, and so is one whose entry names no version of it. -/

namespace SourceTree

structure Preference where
  chosen : Listing String String

namespace Preference

def empty : Preference := ⟨.empty⟩

def get? (preference : Preference) (root : String) : Option String :=
  preference.chosen.get? root

def set (preference : Preference) (root version : String) : Preference :=
  ⟨preference.chosen.insert root version⟩

def select (preference : Preference) (library : Library) : LibraryVersion :=
  library.version (preference.get? library.root)

def describe (preference : Preference) : String :=
  let choices := preference.chosen.entries.map fun (root, version) => s!"{root}={version}"
  let listed := String.intercalate ", " choices
  s!"<VersionPreference {listed}>"

theorem get?_set (preference : Preference) (root other version : String) :
    (preference.set root version).get? other =
      if other = root then some version else preference.get? other :=
  Listing.get?_insert preference.chosen root other version

end Preference

end SourceTree
