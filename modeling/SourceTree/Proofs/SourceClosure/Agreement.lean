import SourceTree.Proofs.Resolution.Closure
import SourceTree.Proofs.SourceClosure.Progress

/-! # Resolutions and closures of sources

A complete resolution answers every import of its own files. The closure of sources reads those
files again, and also copies of them under the keys that relative imports spell out, whose imports
nobody has resolved. So nothing is reported missing except at such copies, and for imports that
were matched to a file without a name. -/

namespace SourceTree

open ImportPath

namespace SourceClosure

variable {lookup : String → Except String String}

theorem diagnostics_eq_nil_iff_missing (closure : SourceClosure) :
    closure.diagnostics = [] ↔ ∀ key, key ∉ closure.missing := by
  rw [diagnostics, List.map_eq_nil_iff, Listing.values, List.map_eq_nil_iff,
    List.eq_nil_iff_forall_not_mem]
  constructor
  · rintro nothing key reported
    rcases Listing.mem_iff_get?.1 reported with ⟨report, found⟩
    exact nothing (key, report) (Listing.get?_eq_some_iff.1 found)
  · rintro nothing ⟨key, report⟩ member
    exact nothing key (Listing.mem_of_mem_entries member)

theorem ImportStep.disjoint {importer path : String} {before after : Progress}
    (step : ImportStep lookup importer path before after)
    (disjoint : ∀ key ∈ before.closure.sources, key ∉ before.closure.missing) :
    ∀ key ∈ after.closure.sources, key ∉ after.closure.missing := by
  cases step with
  | known _ => exact disjoint
  | provided fresh _ =>
      intro key collected
      rcases (Listing.mem_insert _ _ _ _).1 collected with equal | earlier
      · rw [equal]
        exact fun reported => fresh (Or.inr reported)
      · exact disjoint key earlier
  | absent fresh _ =>
      intro key collected reported
      rcases (Listing.mem_insert _ _ _ _).1 reported with equal | earlier
      · exact fresh (Or.inl (equal ▸ collected))
      · exact disjoint key collected earlier

theorem disjoint_of_collect {steps : Nat} {sources : Listing String String}
    {closure : SourceClosure} (collected : collect steps sources lookup = some closure) :
    ∀ key ∈ closure.sources, key ∉ closure.missing :=
  collect_preserves
    (motive := fun closure => ∀ key ∈ closure.sources, key ∉ closure.missing)
    (fun _ _ _ _ _ disjoint _ _ step => step.disjoint disjoint)
    (fun _ _ => Listing.not_mem_empty _) collected

theorem get?_of_collect {steps : Nat} {sources : Listing String String} {closure : SourceClosure}
    (collected : collect steps sources lookup = some closure) {key content : String}
    (given : sources.get? key = some content) : closure.sources.get? key = some content :=
  collect_preserves (motive := fun closure => closure.sources.get? key = some content)
    (fun _ _ _ _ _ holds _ _ step => step.get?_eq_some holds) given collected

theorem report_of_collect {steps : Nat} {sources : Listing String String}
    {closure : SourceClosure} (collected : collect steps sources lookup = some closure)
    {key : String} (reported : key ∈ closure.missing) :
    ∃ importer content path, closure.sources.get? importer = some content ∧
      path ∈ importPaths content ∧ meantIn importer path = key ∧
      (∀ text, lookup key ≠ .ok text) ∧ ∀ text, lookup path ≠ .ok text := by
  rcases Listing.mem_iff_get?.1 reported with ⟨report, found⟩
  rcases reportsAgree_collect collected key report found with
    ⟨content, path, isSource, imports, means, lacking⟩
  rcases provide_eq_error_iff.1 lacking with ⟨atKey, same | ⟨message, asWritten⟩⟩
  · subst same
    exact ⟨_, content, key, isSource, imports, means, by simp [atKey], by simp [atKey]⟩
  · exact ⟨_, content, path, isSource, imports, means, by simp [atKey], by simp [asWritten]⟩

end SourceClosure

namespace Resolution

/-- Whether an import of a file, as written or as meant, was matched to the file without a name. -/
def Nameless (resolution : Resolution) (importer path : String) : Prop :=
  resolution.aliases.get? path = some "" ∨
    resolution.aliases.get? (meantIn importer path) = some ""

variable {T : Type} {files : Listing String String} {resolution : Resolution}

theorem IsClosure.answers (closed : IsClosure files resolution)
    (complete : resolution.unresolved = [])
    (kept : ∀ path ∈ files, resolution.files.get? path = files.get? path)
    (mapped : ∀ path target, resolution.aliases.get? path = some target → target ∈ files)
    (cache : ContentCache (FetchError T)) (registry : Registry) {importer text path : String}
    (isSource : resolution.files.get? importer = some text) (imports : path ∈ importPaths text)
    (named : ¬resolution.Nameless importer path) :
    ∃ content, (ImportLookup.ofResolution resolution cache registry).content? path = some content ∨
      (ImportLookup.ofResolution resolution cache registry).content? (meantIn importer path) =
        some content := by
  have user : ∀ file ∈ files, file ∈ resolution.files := by
    intro file isFile
    rcases Listing.mem_iff_get?.1 isFile with ⟨content, found⟩
    exact Listing.mem_of_get?_eq_some ((kept file isFile).trans found)
  have byName : ∀ other, other ∈ resolution.aliases → resolution.aliases.get? other ≠ some "" →
      ∃ target, resolution.aliases.get? other = some target ∧ target ≠ "" ∧
        target ∈ resolution.files := by
    intro other isMapped isNamed
    rcases Listing.mem_iff_get?.1 isMapped with ⟨target, found⟩
    exact ⟨target, found, fun empty => isNamed (empty ▸ found),
      user target (mapped other target found)⟩
  have unmapped : resolution.aliases.get? path ≠ some "" := fun empty => named (Or.inl empty)
  have meantUnmapped : resolution.aliases.get? (meantIn importer path) ≠ some "" :=
    fun empty => named (Or.inr empty)
  rw [exists_or, ImportLookup.exists_content?_iff, ImportLookup.exists_content?_iff]
  simp only [ImportLookup.ofResolution, ImportLookup.make]
  -- An import of a user file is accounted for in one of six ways and any other import in one of
  -- three, the last of which is to be unresolved.
  by_cases isFile : importer ∈ files
  · rcases closed.user importer text ((kept importer isFile).symm.trans isSource) path imports with
      asWritten | stripped | ⟨relative, neighbour⟩ | isMapped | fetched | isUnresolved
    · exact Or.inl (Or.inl (user path asWritten))
    · exact Or.inl (Or.inr (Or.inl (user _ stripped)))
    · refine Or.inr (Or.inl ?_)
      rw [meantIn, if_pos relative]
      exact user _ neighbour
    · exact Or.inl (Or.inr (Or.inr (Or.inl (byName path isMapped unmapped))))
    · exact Or.inl (Or.inl fetched)
    · rw [complete] at isUnresolved
      cases isUnresolved
  · rcases closed.fetched importer text isFile isSource path imports with
      fetched | isMapped | isUnresolved
    · exact Or.inr (Or.inl fetched)
    · exact Or.inr (Or.inr (Or.inr (Or.inl (byName _ isMapped meantUnmapped))))
    · rw [complete] at isUnresolved
      cases isUnresolved

end Resolution

namespace SourceClosure

open Resolution

variable {T : Type} [Timescale T]

/-- The closure of the sources of a complete resolution is free of errors exactly when it has what
is imported by the sources that the resolution has not got, and by way of the file without a
name. -/
theorem diagnostics_eq_nil_iff {engine : Engine T} {files : Listing String String}
    {deadline : Option T} {holdings : Holdings T} {resolution : Resolution}
    (resolved : (engine.resolveWith files deadline holdings).1 = .ok resolution)
    (complete : resolution.isComplete = true) (cache : ContentCache (FetchError T))
    (registry : Registry) {steps : Nat} {closure : SourceClosure}
    (collected : collect steps resolution.files
      (ImportLookup.ofResolution resolution cache registry).find = some closure) :
    closure.diagnostics = [] ↔
      ∀ importer content, closure.sources.get? importer = some content →
        ∀ path ∈ importPaths content,
          importer ∉ resolution.files ∨ resolution.Nameless importer path →
            meantIn importer path ∈ closure.sources := by
  rw [diagnostics_eq_nil_iff_missing]
  constructor
  · intro nothing importer content found path imports _
    exact (settles_of_collect collected found imports).resolve_right (nothing _)
  · intro copies key reported
    rcases report_of_collect collected reported with
      ⟨importer, content, path, found, imports, rfl, notAtKey, notAsWritten⟩
    refine disjoint_of_collect collected _ (copies importer content found path imports ?_) reported
    refine Classical.or_iff_not_imp_left.2 fun inTree => ?_
    refine Classical.byContradiction fun named => ?_
    -- The import is one of a file of the resolution, which has content for it.
    rcases Listing.mem_iff_get?.1 (Classical.not_not.1 inTree) with ⟨text, isSource⟩
    obtain rfl := Option.some.inj ((get?_of_collect collected isSource).symm.trans found)
    rcases Engine.pass_of_resolveWith resolved with ⟨exit, pass, tracks, aliases, seeded, rfl⟩
    have closed := isClosure_ofPass tracks aliases seeded engine.registry
      (Seeds.ofFiles files).locals.ambiguous exit
    have kept : ∀ file ∈ files, (ofPass engine.registry files
        (Seeds.ofFiles files).locals.ambiguous exit pass).files.get? file = files.get? file := by
      intro file isFile
      rcases Listing.mem_iff_get?.1 isFile with ⟨content, isContent⟩
      rw [get?_files_ofPass, isContent, Option.some_or]
    have mapped : ∀ other target, pass.state.aliases.get? other = some target →
        target ∈ files := by
      intro other target isMapped
      rw [aliases] at isMapped
      have best := ((Seeds.consistent_ofFiles files).mapped other target isMapped).2
      exact (LocalFiles.mem_namesakes.1 (List.mem_of_head? best)).1
    rcases closed.answers (List.isEmpty_iff.1 complete) kept mapped cache registry isSource imports
      named with ⟨answer, asWritten | atKey⟩
    · exact notAsWritten answer (ImportLookup.find_eq_ok_iff.2 asWritten)
    · exact notAtKey answer (ImportLookup.find_eq_ok_iff.2 atKey)

def misplacedImport (source : String) : Listing String String :=
  .ofList [("main.sol", "import './sub/x.sol';"), ("x.sol", source), ("y.sol", "")]

theorem diagnostics_eq_nil_of_misplaced_import :
    ∃ (resolution : Resolution) (closure : SourceClosure),
      ((Engine.serving .empty .empty).resolveWith (misplacedImport "") none
        ⟨.empty, .empty, .startingAt 0⟩).1 = .ok resolution ∧
      resolution.isComplete = true ∧
      collect 4 resolution.files
        (ImportLookup.ofResolution resolution .empty .empty : ImportLookup Rat).find =
          some closure ∧
      closure.diagnostics = [] := by
  have report : (((Engine.serving .empty .empty).resolveWith (misplacedImport "") none
        ⟨.empty, .empty, .startingAt 0⟩).1.toOption.map fun resolution =>
          (resolution.isComplete, (collect 4 resolution.files
            (ImportLookup.ofResolution resolution .empty .empty : ImportLookup Rat).find).map
              fun closure => closure.sources.entries)) =
      some (true, some [("main.sol", "import './sub/x.sol';"), ("x.sol", ""), ("y.sol", ""),
        ("sub/x.sol", "")]) := by
    decide +kernel
  rcases Engine.exists_of_toOption_map report with ⟨resolution, resolved, parts⟩
  rcases Prod.mk.inj parts with ⟨complete, isClosure⟩
  rcases Option.map_eq_some_iff.1 isClosure with ⟨closure, collected, entries⟩
  refine ⟨resolution, closure, resolved, complete, collected, ?_⟩
  refine (diagnostics_eq_nil_iff resolved complete .empty .empty collected).2 ?_
  intro importer content found path imports _
  have everyImport : ∀ entry ∈ [("main.sol", "import './sub/x.sol';"), ("x.sol", ""),
      ("y.sol", ""), ("sub/x.sol", "")], ∀ path ∈ importPaths entry.2,
        meantIn entry.1 path = "sub/x.sol" := by
    decide +kernel
  have member := Listing.get?_eq_some_iff.1 found
  rw [entries] at member
  rw [everyImport _ member path imports, Listing.mem_iff, Listing.keys, entries]
  decide

/-- The file resolves its import by its place, but the copy of it cannot. -/
theorem diagnostics_ne_nil_of_misplaced_import :
    ∃ (resolution : Resolution) (closure : SourceClosure),
      ((Engine.serving .empty .empty).resolve (misplacedImport "import './y.sol';") none .empty
        (.startingAt 0)).1 = .ok resolution ∧
      resolution.isComplete = true ∧
      collect 4 resolution.files
        (ImportLookup.ofResolution resolution .empty .empty : ImportLookup Rat).find =
          some closure ∧
      closure.missing.keys = ["sub/y.sol"] ∧ closure.diagnostics ≠ [] := by
  have report : (((Engine.serving .empty .empty).resolve (misplacedImport "import './y.sol';") none
        .empty (.startingAt 0)).1.toOption.map fun resolution =>
          (resolution.isComplete, (collect 4 resolution.files
            (ImportLookup.ofResolution resolution .empty .empty : ImportLookup Rat).find).map
              fun closure => closure.missing.keys)) =
      some (true, some ["sub/y.sol"]) := by
    decide +kernel
  rcases Engine.exists_of_toOption_map report with ⟨resolution, resolved, parts⟩
  rcases Prod.mk.inj parts with ⟨complete, isClosure⟩
  rcases Option.map_eq_some_iff.1 isClosure with ⟨closure, collected, keys⟩
  refine ⟨resolution, closure, resolved, complete, collected, keys, ?_⟩
  rw [Ne, diagnostics_eq_nil_iff_missing]
  intro nothing
  exact nothing "sub/y.sol" (by rw [Listing.mem_iff, keys]; exact List.mem_cons_self)

end SourceClosure

end SourceTree
