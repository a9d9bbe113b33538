import Mathlib.Algebra.Ring.Nat
import SourceTree.Proofs.Compilation.Stages

/-! # Which requests are accepted

A request is accepted exactly if it names some texts within the limits and one of them as its main
file, and what is wrong with any other is told as a refusal. Only a main file that is a list or a
record of something is not refused for it: files within the limits cannot be searched for it. -/

namespace SourceTree

def Value.isCompound : Value → Bool
  | .list _ => true
  | .record _ => true
  | _ => false

namespace SourceRequest

variable {T : Type}

/-! ## What is asked of a request -/

structure Allows (settings : Settings T) (files : Value) (sources : Listing String String) :
    Prop where
  texts : ∃ entries : List (String × String), entries ≠ [] ∧
    files = .record (entries.map fun file => (file.1, .text file.2)) ∧ sources = .ofList entries
  few : sources.size ≤ settings.maxFiles
  small : ∀ content ∈ sources.values, content.utf8ByteSize ≤ settings.maxFileSize
  smallTogether : ((sources.values.map String.utf8ByteSize).sum : Nat) ≤ settings.maxTotalSize

/-- Whether two values make a request that keeps to the limits. -/
structure Admits (settings : Settings T) (files main : Value) (request : SourceRequest) : Prop
    extends Allows settings files request.files where
  isMain : main = .text request.mainFile
  named : request.mainFile ≠ ""
  among : request.mainFile ∈ request.files

inductive IsRefusal : Fault T → Prop
  | invalidInput (reason : InvalidInput) : IsRefusal (.known (.invalidInput reason))
  | inputTooLarge (excess : Excess) {limit actual : Int} (exceeds : limit < actual) :
      IsRefusal (.known (.inputTooLarge excess limit actual))

/-- Whether nothing but the limits decides about two values. -/
def DecidedByLimits (settings : Settings T) (files main : Value) : Prop :=
  (∀ request, check settings files main = .ok request ↔ Admits settings files main request) ∧
    ∀ fault, check settings files main = .error fault → IsRefusal fault

/-! ## Files -/

theorem textFields?_eq_some_iff {fields : List (String × Value)}
    {entries : List (String × String)} :
    textFields? fields = some entries ↔
      fields = entries.map fun file => (file.1, .text file.2) := by
  induction fields generalizing entries with
  | nil =>
      rw [textFields?, Option.some.injEq]
      constructor
      · rintro rfl
        rfl
      · intro isMap
        exact (List.map_eq_nil_iff.1 isMap.symm).symm
  | cons field rest induction =>
      rcases field with ⟨key, value⟩
      cases value with
      | text content =>
          simp only [textFields?, Option.map_eq_some_iff, induction]
          constructor
          · rintro ⟨others, rfl, rfl⟩
            rfl
          · intro isMap
            cases entries with
            | nil => cases isMap
            | cons entry others =>
                cases isMap
                exact ⟨others, rfl, rfl⟩
      | _ =>
          refine iff_of_false nofun fun isMap => ?_
          cases entries <;> cases isMap

theorem files?_eq_some_iff {files : Value} {sources : Listing String String} :
    files? files = some sources ↔ ∃ entries : List (String × String),
      files = .record (entries.map fun file => (file.1, .text file.2)) ∧
        sources = .ofList entries := by
  cases files with
  | record fields =>
      simp only [files?, Option.map_eq_some_iff, textFields?_eq_some_iff, Value.record.injEq,
        eq_comm (a := sources)]
  | _ => exact iff_of_false nofun fun ⟨_, isRecord, _⟩ => nomatch isRecord

/-! ## Sizes -/

theorem oversized?_eq_none_iff {limit : Int} {sources : Listing String String} :
    oversized? limit sources = none ↔
      ∀ content ∈ sources.values, content.utf8ByteSize ≤ limit := by
  rw [oversized?, List.findSome?_eq_none_iff, Listing.values, List.forall_mem_map]
  apply forall₂_congr
  intro file _
  simp

theorem lt_of_oversized? {limit : Int} {sources : Listing String String} {path : String}
    {size : Nat} (found : oversized? limit sources = some (path, size)) : limit < size := by
  rcases List.exists_of_findSome?_eq_some found with ⟨⟨_, content⟩, -, isOversized⟩
  rcases Option.ite_none_right_eq_some.1 isOversized with ⟨exceeds, ⟨⟩⟩
  exact exceeds

theorem totalSize_eq_sum (sources : Listing String String) :
    totalSize sources = (sources.values.map String.utf8ByteSize).sum := by
  rw [totalSize, List.sum_eq_foldl, List.foldl_map]

theorem excess?_eq_none_iff {settings : Settings T} {sources : Listing String String} :
    excess? settings sources = none ↔
      sources.size ≤ settings.maxFiles ∧
        (∀ content ∈ sources.values, content.utf8ByteSize ≤ settings.maxFileSize) ∧
        ((sources.values.map String.utf8ByteSize).sum : Nat) ≤ settings.maxTotalSize := by
  rw [← oversized?_eq_none_iff, ← totalSize_eq_sum, excess?]
  split
  next many => simp [Int.not_le.2 many]
  next few =>
    cases oversized? settings.maxFileSize sources with
    | some file => simp
    | none => simp [Int.not_lt.1 few]

theorem isRefusal_of_excess? {settings : Settings T} {sources : Listing String String}
    {failure : Failure T} (exceeds : excess? settings sources = some failure) :
    IsRefusal (.known failure) := by
  rw [excess?] at exceeds
  split at exceeds
  next many =>
    cases exceeds
    exact .inputTooLarge _ many
  next =>
    split at exceeds
    next oversized =>
      cases exceeds
      exact .inputTooLarge _ (lt_of_oversized? oversized)
    next =>
      split at exceeds
      next large =>
        cases exceeds
        exact .inputTooLarge _ large
      next => cases exceeds

/-! ## The main file -/

theorem mainIn_eq_ok_iff {sources : Listing String String} {main : Value} {name : String} :
    (mainIn sources main : Except (Fault T) String) = .ok name ↔
      main = .text name ∧ name ∈ sources := by
  cases main with
  | text other =>
      rw [mainIn, Value.text.injEq]
      split
      next among =>
        constructor
        · rintro ⟨⟩
          exact ⟨rfl, among⟩
        · rintro ⟨rfl, -⟩
          rfl
      next absent =>
        refine iff_of_false nofun ?_
        rintro ⟨rfl, among⟩
        exact absent among
  | _ => exact iff_of_false nofun fun named => nomatch named.1

theorem mainIn_of_isCompound (sources : Listing String String) {main : Value}
    (compound : main.isCompound) :
    (mainIn sources main : Except (Fault T) String) =
      .error (.unexpected (.unusableKey main.kindName)) := by
  cases main with
  | list items => rfl
  | record fields => rfl
  | _ => cases compound

theorem isRefusal_of_mainIn {sources : Listing String String} {main : Value} {fault : Fault T}
    (simple : ¬main.isCompound) (failed : mainIn sources main = .error fault) :
    IsRefusal fault := by
  cases main with
  | text name =>
      simp only [mainIn] at failed
      split at failed
      · cases failed
      · cases failed
        exact .invalidInput _
  | list items => exact absurd rfl simple
  | record fields => exact absurd rfl simple
  | _ =>
      cases failed
      exact .invalidInput _

/-! ## Requests -/

variable {settings : Settings T} {files main : Value} {sources : Listing String String}

theorem allows_iff : Allows settings files sources ↔
    files.isBlank = false ∧ files? files = some sources ∧ excess? settings sources = none := by
  rw [files?_eq_some_iff, excess?_eq_none_iff]
  constructor
  · rintro ⟨⟨entries, some, rfl, isListing⟩, few, small, smallTogether⟩
    refine ⟨?_, ⟨entries, rfl, isListing⟩, few, small, smallTogether⟩
    simpa [Value.isBlank] using some
  · rintro ⟨present, ⟨entries, rfl, isListing⟩, few, small, smallTogether⟩
    refine ⟨⟨entries, ?_, rfl, isListing⟩, few, small, smallTogether⟩
    simpa [Value.isBlank] using present

theorem check_of_allows (allows : Allows settings files sources) (present : main.isBlank = false) :
    check settings files main = (mainIn sources main).map fun name => ⟨sources, name⟩ := by
  rcases allows_iff.1 allows with ⟨filesPresent, areTexts, within⟩
  simp only [check, filesPresent, present, Bool.or_self, Bool.false_eq_true, if_false, areTexts,
    within]

theorem refused_of_not_allows
    (refused : ¬(main.isBlank = false ∧ ∃ sources, Allows settings files sources)) :
    ∃ fault, check settings files main = .error fault ∧ IsRefusal fault := by
  simp only [check]
  split
  next => exact ⟨_, rfl, .invalidInput _⟩
  next present =>
    rw [Bool.not_eq_true, Bool.or_eq_false_iff] at present
    split
    next => exact ⟨_, rfl, .invalidInput _⟩
    next sources areTexts =>
      cases exceeds : excess? settings sources with
      | some failure => exact ⟨_, rfl, isRefusal_of_excess? exceeds⟩
      | none =>
          have allows := allows_iff.2 ⟨present.1, areTexts, exceeds⟩
          exact absurd ⟨present.2, sources, allows⟩ refused

theorem Admits.isBlank {request : SourceRequest} (admits : Admits settings files main request) :
    main.isBlank = false := by
  rw [admits.isMain]
  simpa [Value.isBlank] using admits.named

theorem check_eq_ok_iff {request : SourceRequest} :
    check settings files main = .ok request ↔ Admits settings files main request := by
  constructor
  · intro accepted
    by_cases allowed : main.isBlank = false ∧ ∃ sources, Allows settings files sources
    · rcases allowed with ⟨present, sources, allows⟩
      rw [check_of_allows allows present, map_eq_ok_iff] at accepted
      rcases accepted with ⟨name, found, rfl⟩
      rcases mainIn_eq_ok_iff.1 found with ⟨rfl, among⟩
      exact ⟨allows, rfl, by simpa [Value.isBlank] using present, among⟩
    · rcases refused_of_not_allows allowed with ⟨fault, isFault, -⟩
      cases isFault.symm.trans accepted
  · intro admits
    rw [check_of_allows admits.toAllows admits.isBlank, map_eq_ok_iff]
    exact ⟨request.mainFile, mainIn_eq_ok_iff.2 ⟨admits.isMain, admits.among⟩, rfl⟩

theorem isRefusal_or_isCompound {fault : Fault T}
    (failed : check settings files main = .error fault) :
    IsRefusal fault ∨
      (main.isCompound ∧ main.isBlank = false ∧ ∃ sources, Allows settings files sources) ∧
        fault = .unexpected (.unusableKey main.kindName) := by
  by_cases allowed : main.isBlank = false ∧ ∃ sources, Allows settings files sources
  · -- Only the main file is left to decide.
    rcases allowed with ⟨present, sources, allows⟩
    rw [check_of_allows allows present, map_eq_error_iff] at failed
    by_cases compound : main.isCompound
    · rw [mainIn_of_isCompound sources compound] at failed
      cases failed
      exact Or.inr ⟨⟨compound, present, sources, allows⟩, rfl⟩
    · exact Or.inl (isRefusal_of_mainIn compound failed)
  · rcases refused_of_not_allows allowed with ⟨other, isOther, isRefusal⟩
    cases isOther.symm.trans failed
    exact Or.inl isRefusal

/-- Nothing but the limits decides about a request, unless its files keep to them and its main file
is a list or a record of something. -/
theorem decidedByLimits_iff (settings : Settings T) (files main : Value) :
    DecidedByLimits settings files main ↔
      ¬(main.isCompound ∧ main.isBlank = false ∧ ∃ sources, Allows settings files sources) := by
  constructor
  · rintro ⟨-, refuses⟩ ⟨compound, present, sources, allows⟩
    rw [check_of_allows allows present, mainIn_of_isCompound sources compound] at refuses
    nomatch refuses _ rfl
  · intro searchable
    refine ⟨fun request => check_eq_ok_iff, fun fault failed => ?_⟩
    rcases isRefusal_or_isCompound failed with isRefusal | ⟨unsearchable, -⟩
    · exact isRefusal
    · exact absurd unsearchable searchable

/-- A list as the main file of a request within the limits is a fault that nobody expected. -/
theorem not_decidedByLimits_of_list :
    ¬DecidedByLimits Service.usualSettings (.record [("a.sol", .text "contract A {}")])
      (.list [.text "a.sol"]) := by
  intro decided
  have fault : check Service.usualSettings (.record [("a.sol", .text "contract A {}")])
      (.list [.text "a.sol"]) = .error (.unexpected (.unusableKey "list")) := by
    rfl
  nomatch decided.2 _ fault

end SourceRequest

end SourceTree
