import Mathlib.Data.Finset.Card
import SourceTree.Proofs.Engine.Calls
import SourceTree.Proofs.Resolution.Discovery

/-! # How many imports are admitted

The imports of the user's files that no local file answers are counted before anything is fetched,
each path once. It makes no difference to the count in which order the files come and which matches
by filename were made on the way: an import has an answer whatever was asked before it, or never. -/

namespace SourceTree

namespace Resolution

variable {files : Listing String String}

/-- The paths of all imports of the user's files that no local file answers. -/
def strangers (files : Listing String String) : Finset String :=
  (files.entries.flatMap fun file => foreignImports files file.1 file.2).toFinset

theorem mem_strangers {path : String} :
    path ∈ strangers files ↔
      ∃ importer, (importer, path) ∈ Seeds.asked files ∧ Seeds.Foreign files importer path := by
  simp only [strangers, List.mem_toFinset, List.mem_flatMap, mem_foreignImports, Seeds.mem_asked]
  constructor
  · rintro ⟨⟨importer, text⟩, isFile, imports, isForeign⟩
    exact ⟨importer, ⟨text, Listing.get?_eq_some_iff.2 isFile, imports⟩, isForeign⟩
  · rintro ⟨importer, ⟨text, isFile, imports⟩, isForeign⟩
    exact ⟨(importer, text), Listing.get?_eq_some_iff.1 isFile, imports, isForeign⟩

theorem not_mem_of_mem_strangers {path : String} (isStranger : path ∈ strangers files) :
    path ∉ files := by
  rcases mem_strangers.1 isStranger with ⟨importer, -, isForeign⟩
  exact ((LocalFiles.resolve_fst_eq_none_iff _ _ _).1 isForeign).1

/-- What the user's files bring to light are the strangers among their imports, each once. -/
theorem length_discovered_ofFiles (files : Listing String String) :
    (Seeds.ofFiles files).discovered.length = (strangers files).card := by
  have once : (Seeds.ofFiles files).discovered.Nodup := (Seeds.consistent_ofFiles files).distinct
  rw [← List.toFinset_card_of_nodup once]
  apply congrArg Finset.card
  apply Finset.ext
  intro path
  rw [List.mem_toFinset, discovered_ofFiles, mem_discoveredFrom]
  have offered : (∃ offer ∈ offers files [], path ∈ offer) ↔ path ∈ strangers files := by
    simp [offers, strangers]
  rw [offered]
  exact and_iff_right_of_imp not_mem_of_mem_strangers

/-- The seeds after some imports, with their importers, were asked one after another. -/
def Seeds.afterAsking (files : Listing String String) (requests : List (String × String)) : Seeds :=
  requests.foldl (fun seeds request => addImport request.1 seeds request.2) ⟨.ofFiles files, []⟩

/-- An import has an answer when its turn comes exactly if it has one when it is asked alone. -/
theorem Seeds.resolve_eq_none_iff_of_turn {front back : List (String × String)}
    {importer path : String} (inTurn : asked files = front ++ (importer, path) :: back) :
    ((afterAsking files front).locals.resolve (some importer) path).1 = none ↔
      Foreign files importer path := by
  apply Consistent.resolve_eq_none_iff
  apply List.foldlRecOn (motive := Consistent files) _ _ (consistent_unasked files)
  intro seeds consistent request isEarlier
  apply consistent.addImport
  rw [inTurn]
  exact List.mem_append_left _ isEarlier

end Resolution

namespace Engine

open Resolution

variable {T : Type} [Timescale T]

theorem resolveWith_eq_inputTooLarge_iff (engine : Engine T) (files : Listing String String)
    (deadline : Option T) (holdings : Holdings T) (excess : Excess) (limit actual : Int) :
    (engine.resolveWith files deadline holdings).1 =
        .error (.known (.inputTooLarge excess limit actual)) ↔
      engine.maxImports < (strangers files).card ∧
        excess = .imports ∧ limit = engine.maxImports ∧ actual = (strangers files).card := by
  rw [← length_discovered_ofFiles]
  simp only [resolveWith]
  split
  next many =>
    simp only [Except.error.injEq, Fault.known.injEq, Failure.inputTooLarge.injEq, many, true_and,
      eq_comm (b := excess), eq_comm (b := limit), eq_comm (b := actual)]
  next few =>
    refine iff_of_false (fun failed => ?_) fun many => few many.1
    simp only at failed
    split at failed <;> cases failed

theorem snd_resolveWith_of_many {engine : Engine T} {files : Listing String String}
    (many : engine.maxImports < (strangers files).card) (deadline : Option T)
    (holdings : Holdings T) : (engine.resolveWith files deadline holdings).2 = holdings := by
  rw [← length_discovered_ofFiles] at many
  rw [snd_resolveWith, if_pos many]

end Engine

end SourceTree
