import Mathlib.Data.List.Forall2
import SourceTree.Proofs.ImportPath
import SourceTree.Proofs.SourceClosure.Agreement
import SourceTree.Proofs.Value

/-! # Why sources are collected

Sources are visited in the order in which they are collected, and their imports in the order in
which they are written. So the first import that means a key decides about it: what it is given is
collected under the key, and where it is given nothing it is the one that is reported. Nothing else
is collected, and nothing that is imported is left out. -/

namespace SourceTree.SourceClosure

open ImportPath

variable {lookup : String → Except String String} {sources : Listing String String}

def importsOf (sources : List (String × String)) : List (String × String) :=
  sources.flatMap fun source => (importPaths source.2).map fun path => (source.1, path)

theorem importsOf_concat (sources : List (String × String)) (source : String × String) :
    importsOf (sources ++ [source]) =
      importsOf sources ++ (importPaths source.2).map fun path => (source.1, path) := by
  simp [importsOf]

def firstMeaning? (key : String) (imports : List (String × String)) : Option (String × String) :=
  imports.find? fun imported => meantIn imported.1 imported.2 = key

theorem firstMeaning?_concat_of_new {imports : List (String × String)} {importer path : String}
    (new : ∀ imported ∈ imports, meantIn imported.1 imported.2 ≠ meantIn importer path) :
    firstMeaning? (meantIn importer path) (imports ++ [(importer, path)]) =
      some (importer, path) := by
  have nothing : imports.find? (fun imported =>
      decide (meantIn imported.1 imported.2 = meantIn importer path)) = none :=
    List.find?_eq_none.2 fun imported member => by simpa using new imported member
  simp [firstMeaning?, List.find?_append, nothing]

theorem firstMeaning?_append {imports : List (String × String)} {key : String}
    {first : String × String} (found : firstMeaning? key imports = some first)
    (more : List (String × String)) : firstMeaning? key (imports ++ more) = some first := by
  simp only [firstMeaning?, List.find?_append] at found ⊢
  rw [found, Option.some_or]

/-- Whether everything that a closure holds beside the given sources is there because of the first
of some imports that means it. -/
structure Explained (lookup : String → Except String String) (sources : Listing String String)
    (imports : List (String × String)) (closure : SourceClosure) : Prop where
  given : sources.entries <+: closure.sources.entries
  added : ∀ front key text back,
    closure.sources.entries = sources.entries ++ front ++ (key, text) :: back →
      ∃ importer path, firstMeaning? key imports = some (importer, path) ∧
        importer ∈ (sources.entries ++ front).map Prod.fst ∧
          provide lookup path key = .ok text
  reported : ∀ key report, closure.missing.get? key = some report →
    ∃ path, firstMeaning? key imports = some (report.importer, path) ∧
      provide lookup path key = .error report.message

namespace Explained

variable {imports : List (String × String)} {importer path key : String} {closure : SourceClosure}

theorem append (explained : Explained lookup sources imports closure)
    (more : List (String × String)) : Explained lookup sources (imports ++ more) closure where
  given := explained.given
  added := by
    intro front key text back split
    rcases explained.added front key text back split with ⟨importer, path, first, rest⟩
    exact ⟨importer, path, firstMeaning?_append first more, rest⟩
  reported := by
    intro key report isReport
    rcases explained.reported key report isReport with ⟨path, first, lacking⟩
    exact ⟨path, firstMeaning?_append first more, lacking⟩

theorem provided (explained : Explained lookup sources imports closure)
    (fresh : key ∉ closure.sources) (importing : importer ∈ closure.sources)
    (first : firstMeaning? key imports = some (importer, path)) {content : String}
    (found : provide lookup path key = .ok content) :
    Explained lookup sources imports
      { closure with sources := closure.sources.insert key content } where
  given := by
    rw [Listing.entries_insert_of_not_mem fresh]
    exact explained.given.trans (List.prefix_append _ _)
  added := by
    intro front other text back split
    rw [Listing.entries_insert_of_not_mem fresh] at split
    rcases List.eq_nil_or_concat back with rfl | ⟨middle, last, rfl⟩
    · rcases List.append_inj' split rfl with ⟨earlier, isLast⟩
      cases isLast
      rw [Listing.mem_iff, Listing.keys, earlier] at importing
      exact ⟨importer, path, first, importing, found⟩
    · rw [List.concat_eq_append, ← List.cons_append, ← List.append_assoc] at split
      exact explained.added front other text middle (List.append_inj' split rfl).1
  reported := explained.reported

theorem absent (explained : Explained lookup sources imports closure)
    (first : firstMeaning? key imports = some (importer, path)) {message : String}
    (lacking : provide lookup path key = .error message) :
    Explained lookup sources imports
      { closure with missing := closure.missing.insert key ⟨message, importer⟩ } where
  given := explained.given
  added := explained.added
  reported := by
    intro other report isReport
    rw [Listing.get?_insert] at isReport
    split at isReport
    next equal =>
      cases isReport
      subst equal
      exact ⟨path, first, lacking⟩
    next => exact explained.reported other report isReport

end Explained

/-- What is known after some imports were visited: each of them is settled, and the first that means
a key decided about it. -/
structure Decided (lookup : String → Except String String) (sources : Listing String String)
    (imports : List (String × String)) (closure : SourceClosure) : Prop
    extends Explained lookup sources imports closure where
  settled : ∀ imported ∈ imports, Settles closure (meantIn imported.1 imported.2)

theorem Decided.step {imports : List (String × String)} {importer path : String}
    {before after : Progress} (decided : Decided lookup sources imports before.closure)
    (importing : importer ∈ before.closure.sources)
    (step : ImportStep lookup importer path before after) :
    Decided lookup sources (imports ++ [(importer, path)]) after.closure := by
  have settled : ∀ imported ∈ imports ++ [(importer, path)],
      Settles after.closure (meantIn imported.1 imported.2) := by
    intro imported member
    rcases List.mem_append.1 member with earlier | now
    · exact step.extends.settles (decided.settled imported earlier)
    · rw [List.mem_singleton.1 now]
      exact step.settles
  have first : ¬Settles before.closure (meantIn importer path) →
      firstMeaning? (meantIn importer path) (imports ++ [(importer, path)]) =
        some (importer, path) := fun fresh =>
    firstMeaning?_concat_of_new fun imported member equal =>
      fresh (equal ▸ decided.settled imported member)
  have explained := decided.toExplained.append [(importer, path)]
  refine ⟨?_, settled⟩
  cases step with
  | known _ => exact explained
  | provided fresh found =>
      exact explained.provided (fun present => fresh (.inl present)) importing (first fresh) found
  | absent fresh lacking => exact explained.absent (first fresh) lacking

theorem Decided.foldl {imports : List (String × String)} {source : String} {progress : Progress}
    (decided : Decided lookup sources imports progress.closure)
    (importing : source ∈ progress.closure.sources) (paths : List String) :
    Decided lookup sources (imports ++ paths.map fun path => (source, path))
      (paths.foldl (visitImport lookup source) progress).closure := by
  induction paths generalizing imports progress with
  | nil => simpa using decided
  | cons path rest induction =>
      have step : ImportStep lookup source path progress
        (visitImport lookup source progress path) := visitImport_step source path progress
      have present : source ∈ (visitImport lookup source progress path).closure.sources := by
        rcases Listing.mem_iff_get?.1 importing with ⟨content, found⟩
        exact Listing.mem_of_get?_eq_some (step.get?_eq_some found)
      have later := induction (decided.step importing step) present
      rwa [List.append_assoc] at later

/-! ## Runs -/

theorem entries_prefix_visitSource (lookup : String → Except String String) (source : String)
    (progress : Progress) : progress.closure.sources.entries <+:
      (visitSource lookup source progress).closure.sources.entries := by
  refine visitSource_preserves
    (motive := fun closure => progress.closure.sources.entries <+: closure.sources.entries) ?_
    (List.prefix_refl _)
  intro before after content path grown _ _ step
  cases step with
  | known _ => exact grown
  | absent _ _ => exact grown
  | provided fresh _ =>
      rw [Listing.entries_insert_of_not_mem fun present => fresh (Or.inl present)]
      exact grown.trans (List.prefix_append _ _)

structure Visited (lookup : String → Except String String) (sources : Listing String String)
    (visited : List (String × String)) (progress : Progress) : Prop where
  decided : Decided lookup sources (importsOf visited) progress.closure
  waiting : ∃ others, progress.closure.sources.entries = visited ++ others ∧
    progress.queue = others.map Prod.fst

theorem visited_start (lookup : String → Except String String) (sources : Listing String String) :
    Visited lookup sources [] (start sources) where
  decided :=
    { given := List.prefix_refl _
      settled := fun _ imported => absurd imported List.not_mem_nil
      added := fun front key text back split => by
        have longer := congrArg List.length split
        simp only [start, List.length_append, List.length_cons] at longer
        omega
      reported := fun _ _ found => by cases found }
  waiting := ⟨sources.entries, rfl, rfl⟩

theorem Visited.visit {visited : List (String × String)} {closure : SourceClosure}
    {source : String} {queue : List String}
    (run : Visited lookup sources visited ⟨closure, source :: queue⟩) :
    ∃ content, Visited lookup sources (visited ++ [(source, content)])
      (visitSource lookup source ⟨closure, queue⟩) := by
  rcases run.waiting with ⟨others, entries, isQueue⟩
  simp only at entries isQueue
  cases others with
  | nil => cases isQueue
  | cons next others =>
      rcases next with ⟨key, content⟩
      rcases List.cons.inj isQueue with ⟨rfl, rfl⟩
      have member : (source, content) ∈ closure.sources.entries := by
        rw [entries]
        exact List.mem_append_right _ List.mem_cons_self
      have found := Listing.get?_eq_some_iff.2 member
      refine ⟨content, ?_, ?_⟩
      · have before : Decided lookup sources (importsOf visited)
            (⟨closure, others.map Prod.fst⟩ : Progress).closure := run.decided
        rw [importsOf_concat, visitSource, found]
        exact before.foldl (Listing.mem_of_get?_eq_some found) (importPaths content)
      · rcases entries_prefix_visitSource lookup source ⟨closure, others.map Prod.fst⟩ with
          ⟨more, grown⟩
        rcases (extends_visitSource lookup source ⟨closure, others.map Prod.fst⟩).sources with
          ⟨added, keys, isQueue⟩
        simp only at grown keys isQueue
        rw [Listing.keys, ← grown, List.map_append] at keys
        refine ⟨others ++ more, ?_, ?_⟩
        · rw [← grown, entries]
          simp
        · rw [isQueue, ← List.append_cancel_left keys, List.map_append]

theorem visited_advance (steps : Nat) {visited : List (String × String)} {progress : Progress}
    (run : Visited lookup sources visited progress) :
    ∃ all, Visited lookup sources all (advance lookup steps progress) := by
  induction steps generalizing visited progress with
  | zero => exact ⟨visited, run⟩
  | succ steps induction =>
      rcases progress with ⟨closure, queue⟩
      cases queue with
      | nil => exact ⟨visited, run⟩
      | cons source queue =>
          rcases run.visit with ⟨content, next⟩
          exact induction next

theorem decided_of_collect {steps : Nat} {closure : SourceClosure}
    (collected : collect steps sources lookup = some closure) :
    Decided lookup sources (importsOf closure.sources.entries) closure := by
  have ended := (collect_eq_some_iff steps sources closure).1 collected
  rcases visited_advance steps (visited_start lookup sources) with ⟨visited, run⟩
  rw [ended] at run
  rcases run.waiting with ⟨others, entries, empty⟩
  simp only at entries empty
  have nothing : others = [] := List.map_eq_nil_iff.1 empty.symm
  rw [nothing, List.append_nil] at entries
  rw [entries]
  exact run.decided

/-- Whether a lookup gives a text for an import: at the key that it means or, when nothing is found
there and the import is relative, as it is written. -/
def GivesText (lookup : String → Except String String) (path key text : String) : Prop :=
  lookup key = .ok text ∨
    (∃ message, lookup key = .error message) ∧ isRelative path = true ∧ lookup path = .ok text

theorem givesText_of_provide {importer path text : String}
    (found : provide lookup path (meantIn importer path) = .ok text) :
    GivesText lookup path (meantIn importer path) text :=
  (provide_eq_ok_iff.1 found).imp_right fun ⟨lacking, different, asWritten⟩ =>
    ⟨lacking, isRelative_of_meantIn_ne different, asWritten⟩

def IsErrorAt (diagnostic : Value) (importer message : String) : Prop :=
  diagnostic.at? ["severity"] = some (.text "error") ∧
    diagnostic.at? ["message"] = some (.text message) ∧
      diagnostic.at? ["sourceLocation", "file"] = some (.text importer)

/-- Whether a closure of sources is closed under imports and holds nothing more: the given sources,
then what the first imports of other keys are given, and an error for each key that is not there. -/
structure IsLeast (lookup : String → Except String String) (sources : Listing String String)
    (closure : SourceClosure) : Prop where
  given : sources.entries <+: closure.sources.entries
  settled : ∀ imported ∈ importsOf closure.sources.entries,
    meantIn imported.1 imported.2 ∈ closure.sources ∨
      meantIn imported.1 imported.2 ∈ closure.missing
  needed : ∀ front key text back,
    closure.sources.entries = sources.entries ++ front ++ (key, text) :: back →
      ∃ importer path, firstMeaning? key (importsOf closure.sources.entries) =
          some (importer, path) ∧
        importer ∈ (sources.entries ++ front).map Prod.fst ∧ GivesText lookup path key text
  disjoint : ∀ key ∈ closure.sources, key ∉ closure.missing
  distinct : closure.missing.keys.Nodup
  reported : List.Forall₂ (fun key diagnostic => ∃ importer path message,
      firstMeaning? key (importsOf closure.sources.entries) = some (importer, path) ∧
        lookup key = .error message ∧ (∀ text, lookup path ≠ .ok text) ∧
          IsErrorAt diagnostic importer message)
    closure.missing.keys closure.diagnostics

/-- Whenever the closure of sources ends, it is the least one: nothing that is imported is left out,
and every source that is added and every error is there because of the first import of its key. -/
theorem isLeast_of_collect {steps : Nat} {closure : SourceClosure}
    (collected : collect steps sources lookup = some closure) :
    IsLeast lookup sources closure := by
  have decided := decided_of_collect collected
  refine ⟨decided.given, decided.settled, ?_, disjoint_of_collect collected,
    closure.missing.nodup_keys, ?_⟩
  · intro front key text back split
    rcases decided.added front key text back split with ⟨importer, path, first, earlier, found⟩
    have means := List.find?_some first
    simp only [decide_eq_true_eq] at means
    subst means
    exact ⟨importer, path, first, earlier, givesText_of_provide found⟩
  · rw [diagnostics, Listing.values, Listing.keys, List.map_map, List.forall₂_map_left_iff,
      List.forall₂_map_right_iff, List.forall₂_same]
    rintro ⟨key, report⟩ member
    rcases decided.reported key report (Listing.get?_eq_some_iff.2 member) with
      ⟨path, first, lacking⟩
    rcases provide_eq_error_iff.1 lacking with ⟨atKey, asWritten⟩
    refine ⟨report.importer, path, report.message, first, atKey, ?_, rfl, rfl, rfl⟩
    rcases asWritten with rfl | ⟨message, notFound⟩
    · simp [atKey]
    · simp [notFound]

def spelledLookup (path : String) : Except String String :=
  if path = "./sub/x.sol" then .ok "import '@lib/a.sol';" else .error "Import not found"

theorem isLeast_of_missing_library :
    ∃ closure, collect 2 (.ofList [("main.sol", "import './sub/x.sol'; import '@lib/a.sol';")])
        spelledLookup = some closure ∧
      closure.sources.keys = ["main.sol", "sub/x.sol"] ∧ closure.missing.keys = ["@lib/a.sol"] ∧
      IsLeast spelledLookup
        (.ofList [("main.sol", "import './sub/x.sol'; import '@lib/a.sol';")]) closure := by
  have parts : (collect 2
      (.ofList [("main.sol", "import './sub/x.sol'; import '@lib/a.sol';")]) spelledLookup).map
        (fun closure => (closure.sources.keys, closure.missing.keys)) =
      some (["main.sol", "sub/x.sol"], ["@lib/a.sol"]) := by
    decide +kernel
  rcases Option.map_eq_some_iff.1 parts with ⟨closure, collected, keys⟩
  rcases Prod.mk.inj keys with ⟨sourceKeys, missingKeys⟩
  exact ⟨closure, collected, sourceKeys, missingKeys, isLeast_of_collect collected⟩

end SourceTree.SourceClosure
