import SourceTree.Proofs.LocalFiles
import SourceTree.Resolution

/-! # What the user's files ask for

Every import of a user file is a local file, mapped to one, or discovered. What is discovered no
local file answers, whichever imports were asked before. -/

namespace SourceTree.Resolution.Seeds

open ImportPath LocalFiles

def asked (files : Listing String String) : List (String × String) :=
  files.entries.flatMap fun file => (importPaths file.2).map fun path => (file.1, path)

theorem mem_asked {files : Listing String String} {importer path : String} :
    (importer, path) ∈ asked files ↔
      ∃ text, files.get? importer = some text ∧ path ∈ importPaths text := by
  constructor
  · intro member
    rcases List.mem_flatMap.1 member with ⟨file, isFile, isImport⟩
    rcases List.mem_map.1 isImport with ⟨other, imports, equal⟩
    cases equal
    exact ⟨file.2, Listing.get?_eq_some_iff.2 isFile, imports⟩
  · rintro ⟨text, found, imports⟩
    exact List.mem_flatMap.2 ⟨(importer, text), Listing.get?_eq_some_iff.1 found,
      List.mem_map.2 ⟨path, imports, rfl⟩⟩

theorem ofFiles_eq_foldl (files : Listing String String) :
    ofFiles files = (asked files).foldl (fun seeds request => addImport request.1 seeds request.2)
      ⟨.ofFiles files, []⟩ := by
  simp only [asked, List.foldl_flatMap, List.foldl_map]
  rfl

/-- No local file answers an import of a file, even before any other import was asked. -/
def Foreign (files : Listing String String) (importer path : String) : Prop :=
  ((LocalFiles.ofFiles files).resolve (some importer) path).1 = none

def Provided (seeds : Seeds) (importer path : String) : Prop :=
  path ∈ seeds.locals.files ∨ dropLeadingSlash path ∈ seeds.locals.files ∨
    (isRelative path = true ∧ ImportPath.resolve importer path ∈ seeds.locals.files) ∨
      path ∈ seeds.locals.aliases ∨ path ∈ seeds.discovered

structure Consistent (files : Listing String String) (seeds : Seeds) : Prop where
  sameFiles : seeds.locals.files = files
  mapped : ∀ path target, seeds.locals.aliases.get? path = some target →
    isRelative path = true ∧ (namesakes files path).head? = some target
  foreign : ∀ path ∈ seeds.discovered, ∃ importer, (importer, path) ∈ asked files ∧
    Foreign files importer path
  distinct : seeds.discovered.Nodup

theorem addImport_cases (importer : String) (seeds : Seeds) (path : String) :
    (addImport importer seeds path = seeds ∧ Provided seeds importer path) ∨
    (∃ best ambiguous, addImport importer seeds path =
        { seeds with locals := { seeds.locals with
            aliases := seeds.locals.aliases.insert path best, ambiguous } } ∧
      isRelative path = true ∧ (namesakes seeds.locals.files path).head? = some best) ∨
    (addImport importer seeds path =
        { seeds with discovered := ResolutionState.appendNew seeds.discovered path } ∧
      (seeds.locals.resolve (some importer) path).1 = none) := by
  have answer := resolve_answer seeds.locals (some importer) path
  unfold addImport
  generalize seeds.locals.resolve (some importer) path = result at answer ⊢
  cases answer with
  | exact isFile => exact Or.inl ⟨rfl, Or.inl isFile⟩
  | stripped isFile => exact Or.inl ⟨rfl, Or.inr (Or.inl isFile)⟩
  | known isMapped =>
      exact Or.inl ⟨rfl, Or.inr (Or.inr (Or.inr (Or.inl (Listing.mem_of_get?_eq_some isMapped))))⟩
  | neighbour relative isNeighbour =>
      rcases neighbour?_eq_some_iff.1 isNeighbour with ⟨_, rfl, isFile⟩
      exact Or.inl ⟨rfl, Or.inr (Or.inr (Or.inl ⟨relative, isFile⟩))⟩
  | namesake relative isBest => exact Or.inr (Or.inl ⟨_, _, rfl, relative, isBest⟩)
  | foreign absent strippedAbsent unmapped nameless => exact Or.inr (Or.inr ⟨rfl, rfl⟩)

theorem provided_addImport (importer : String) (seeds : Seeds) (path : String) :
    Provided (addImport importer seeds path) importer path := by
  rcases addImport_cases importer seeds path with
    ⟨unchanged, provided⟩ | ⟨best, ambiguous, changed, _⟩ | ⟨changed, _⟩
  · rw [unchanged]
    exact provided
  · rw [changed]
    exact Or.inr (Or.inr (Or.inr (Or.inl ((Listing.mem_insert _ _ _ _).2 (Or.inl rfl)))))
  · rw [changed]
    exact Or.inr (Or.inr (Or.inr (Or.inr ((ResolutionState.mem_appendNew _ _ _).2 (Or.inr rfl)))))

theorem Provided.addImport {seeds : Seeds} {importer path : String}
    (provided : Provided seeds importer path) (otherImporter other : String) :
    Provided (addImport otherImporter seeds other) importer path := by
  rcases addImport_cases otherImporter seeds other with
    ⟨unchanged, _⟩ | ⟨best, ambiguous, changed, _⟩ | ⟨changed, _⟩
  · rw [unchanged]
    exact provided
  · rw [changed]
    refine provided.imp_right fun rest => rest.imp_right fun rest => rest.imp_right fun rest =>
      rest.imp_left fun mapped => ?_
    exact (Listing.mem_insert _ _ _ _).2 (Or.inr mapped)
  · rw [changed]
    refine provided.imp_right fun rest => rest.imp_right fun rest => rest.imp_right fun rest =>
      rest.imp_right fun seen => ?_
    exact (ResolutionState.mem_appendNew _ _ _).2 (Or.inl seen)

/-- Aliases come from filenames alone, so an import without an answer never had one, and one that
had none has none later. -/
theorem Consistent.resolve_eq_none_iff {files : Listing String String} {seeds : Seeds}
    (consistent : Consistent files seeds) (importer path : String) :
    (seeds.locals.resolve (some importer) path).1 = none ↔ Foreign files importer path := by
  have neighbours : seeds.locals.neighbour? (some importer) path =
      (LocalFiles.ofFiles files).neighbour? (some importer) path := by
    simp only [neighbour?, consistent.sameFiles]
    rfl
  have unmapped : (isRelative path = true → namesakes files path = []) →
      path ∉ seeds.locals.aliases := by
    intro nameless isMapped
    rcases Listing.mem_iff_get?.1 isMapped with ⟨target, found⟩
    rcases consistent.mapped path target found with ⟨relative, isBest⟩
    rw [nameless relative] at isBest
    cases isBest
  rw [Foreign, resolve_fst_eq_none_iff, resolve_fst_eq_none_iff, neighbours, consistent.sameFiles]
  refine and_congr_right' (and_congr_right' ⟨fun answer => ?_, fun answer => ?_⟩)
  · exact ⟨Listing.not_mem_empty path, answer.2⟩
  · exact ⟨unmapped fun relative => (answer.2 relative).2, answer.2⟩

theorem Consistent.addImport {files : Listing String String} {seeds : Seeds}
    (consistent : Consistent files seeds) {importer path : String}
    (isAsked : (importer, path) ∈ asked files) :
    Consistent files (addImport importer seeds path) := by
  rcases addImport_cases importer seeds path with
    ⟨unchanged, _⟩ | ⟨best, ambiguous, changed, relative, isBest⟩ | ⟨changed, unanswered⟩
  · rw [unchanged]
    exact consistent
  · rw [changed]
    refine ⟨consistent.sameFiles, ?_, consistent.foreign, consistent.distinct⟩
    intro other target isMapped
    rw [Listing.get?_insert] at isMapped
    split at isMapped
    next equal =>
      cases isMapped
      rw [equal, ← consistent.sameFiles]
      exact ⟨relative, isBest⟩
    next => exact consistent.mapped other target isMapped
  · rw [changed]
    refine ⟨consistent.sameFiles, consistent.mapped, ?_,
      ResolutionState.nodup_appendNew consistent.distinct path⟩
    intro other seen
    rcases (ResolutionState.mem_appendNew _ _ _).1 seen with earlier | equal
    · exact consistent.foreign other earlier
    · rw [equal]
      exact ⟨importer, isAsked, (consistent.resolve_eq_none_iff importer path).1 unanswered⟩

theorem consistent_unasked (files : Listing String String) :
    Consistent files ⟨.ofFiles files, []⟩ where
  sameFiles := rfl
  mapped := fun _ _ isMapped => nomatch isMapped
  foreign := fun _ seen => absurd seen List.not_mem_nil
  distinct := List.nodup_nil

theorem consistent_ofFiles (files : Listing String String) : Consistent files (ofFiles files) := by
  rw [ofFiles_eq_foldl]
  refine List.foldlRecOn (motive := Consistent files) _ _ (consistent_unasked files) ?_
  intro seeds consistent request isAsked
  exact consistent.addImport isAsked

theorem provided_ofFiles {files : Listing String String} {importer path : String}
    (isAsked : (importer, path) ∈ asked files) : Provided (ofFiles files) importer path := by
  rw [ofFiles_eq_foldl]
  generalize (⟨.ofFiles files, []⟩ : Seeds) = seeds
  revert isAsked
  induction asked files generalizing seeds with
  | nil => simp
  | cons request rest induction =>
      intro isAsked
      rw [List.foldl_cons]
      rcases List.mem_cons.1 isAsked with now | later
      · subst now
        refine List.foldlRecOn (motive := fun seeds => Provided seeds importer path) _ _
          (provided_addImport importer seeds path) ?_
        intro seeds provided request _
        exact provided.addImport request.1 request.2
      · exact induction _ later

end SourceTree.Resolution.Seeds
