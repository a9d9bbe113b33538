import SourceTree.LocalFiles

/-! # What local files answer

An import is answered with a file at its place or by filename, or with nothing. A match by
filename is remembered; nothing else changes what later imports are answered. -/

namespace SourceTree.LocalFiles

open ImportPath

inductive Answer (locals : LocalFiles) (importer : Option String) (path : String) :
    Option String × LocalFiles → Prop
  | exact (isFile : path ∈ locals.files) : Answer locals importer path (some path, locals)
  | stripped (isFile : dropLeadingSlash path ∈ locals.files) :
      Answer locals importer path (some (dropLeadingSlash path), locals)
  | known {target : String} (isMapped : locals.aliases.get? path = some target) :
      Answer locals importer path (some target, locals)
  | neighbour {file : String} (relative : isRelative path = true)
      (isNeighbour : locals.neighbour? importer path = some file) :
      Answer locals importer path (some file, locals)
  | namesake {best : String} {ambiguous : Listing String (List String)}
      (relative : isRelative path = true)
      (isBest : (namesakes locals.files path).head? = some best) :
      Answer locals importer path
        (some best, { locals with aliases := locals.aliases.insert path best, ambiguous })
  | foreign (absent : path ∉ locals.files) (strippedAbsent : dropLeadingSlash path ∉ locals.files)
      (unmapped : path ∉ locals.aliases)
      (nameless : isRelative path = true →
        locals.neighbour? importer path = none ∧ namesakes locals.files path = []) :
      Answer locals importer path (none, locals)

theorem resolve_answer (locals : LocalFiles) (importer : Option String) (path : String) :
    Answer locals importer path (locals.resolve importer path) := by
  unfold resolve
  simp only
  split
  next isFile => exact .exact isFile
  next absent =>
    split
    next isFile => exact .stripped isFile
    next strippedAbsent =>
      cases mapped : locals.aliases.get? path with
      | some known => exact .known mapped
      | none =>
          have unmapped := (Listing.get?_eq_none_iff locals.aliases path).1 mapped
          simp only
          split
          next absolute =>
            refine .foreign absent strippedAbsent unmapped fun relative => ?_
            simp [relative] at absolute
          next relative =>
            simp only [Bool.not_eq_true, Bool.not_eq_false'] at relative
            cases isNeighbour : locals.neighbour? importer path with
            | some file => exact .neighbour relative isNeighbour
            | none =>
                simp only [matchFilename]
                cases candidates : namesakes locals.files path with
                | nil => exact .foreign absent strippedAbsent unmapped fun _ =>
                    ⟨isNeighbour, candidates⟩
                | cons best others => exact .namesake relative (by rw [candidates]; rfl)

theorem resolve_fst_eq_none_iff (locals : LocalFiles) (importer : Option String) (path : String) :
    (locals.resolve importer path).1 = none ↔
      path ∉ locals.files ∧ dropLeadingSlash path ∉ locals.files ∧ path ∉ locals.aliases ∧
        (isRelative path = true →
          locals.neighbour? importer path = none ∧ namesakes locals.files path = []) := by
  constructor
  · intro isNone
    have answer := resolve_answer locals importer path
    generalize locals.resolve importer path = result at answer isNone
    cases answer with
    | foreign absent strippedAbsent unmapped nameless =>
        exact ⟨absent, strippedAbsent, unmapped, nameless⟩
    | exact _ => cases isNone
    | stripped _ => cases isNone
    | known _ => cases isNone
    | neighbour _ _ => cases isNone
    | namesake _ _ => cases isNone
  · rintro ⟨absent, strippedAbsent, unmapped, nameless⟩
    have mapped := (Listing.get?_eq_none_iff locals.aliases path).2 unmapped
    unfold resolve
    simp only [if_neg absent, if_neg strippedAbsent, mapped]
    split
    next => rfl
    next relative =>
      simp only [Bool.not_eq_true, Bool.not_eq_false'] at relative
      rcases nameless relative with ⟨noNeighbour, noNamesakes⟩
      simp [noNeighbour, matchFilename, noNamesakes]

theorem mem_namesakes {files : Listing String String} {path file : String} :
    file ∈ namesakes files path ↔ file ∈ files ∧ basename file ∈ filenames path := by
  simp [namesakes, Listing.mem_iff]

theorem neighbour?_eq_some_iff {locals : LocalFiles} {importer path file : String} :
    locals.neighbour? (some importer) path = some file ↔
      importer ≠ "" ∧ file = ImportPath.resolve importer path ∧ file ∈ locals.files := by
  unfold neighbour?
  simp only [Option.ite_none_right_eq_some, Option.some.injEq, Bool.and_eq_true,
    Bool.not_eq_true', decide_eq_true_eq]
  constructor
  · rintro ⟨⟨named, isFile⟩, rfl⟩
    exact ⟨by simpa using named, rfl, isFile⟩
  · rintro ⟨named, rfl, isFile⟩
    exact ⟨⟨by simpa using named, isFile⟩, rfl⟩

end SourceTree.LocalFiles
