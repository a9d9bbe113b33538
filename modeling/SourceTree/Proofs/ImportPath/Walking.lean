import Mathlib.Data.List.DropRight
import SourceTree.Proofs.ImportPath

/-! # Walks over directories

A relative path is walked segment by segment over the directories of its base. The walk goes wrong
only where `..` finds no directory to leave; otherwise it ends in some of the outer directories of
the base and below them in directories that it entered itself. Walking twice, first to a file and
from there on, leads where one walk does that leaves out the name of the file. -/

namespace SourceTree.ImportPath

/-! ## Walks -/

inductive Walks : List Segment → List Segment → List Segment → Prop
  | done {stack : List Segment} : Walks stack [] stack
  | stays {stack rest result : List Segment} {segment : Segment}
      (idle : segment = [] ∨ segment = ['.']) (further : Walks stack rest result) :
      Walks stack (segment :: rest) result
  | leaves {innermost : Segment} {outer rest result : List Segment}
      (further : Walks outer rest result) : Walks (innermost :: outer) (['.', '.'] :: rest) result
  | enters {stack rest result : List Segment} {segment : Segment} (plain : Plain segment)
      (further : Walks (segment :: stack) rest result) : Walks stack (segment :: rest) result

def Escapes (stack pieces : List Segment) : Prop :=
  ∃ front rest, pieces = front ++ ['.', '.'] :: rest ∧ Walks stack front []

section

variable {segment : Segment}

theorem idle_or_parent_or_plain (clean : '/' ∉ segment) :
    (segment = [] ∨ segment = ['.']) ∨ segment = ['.', '.'] ∨ Plain segment := by
  unfold Plain
  tauto

theorem walk_idle (idle : segment = [] ∨ segment = ['.']) (stack rest : List Segment) :
    walk stack (segment :: rest) = walk stack rest := by
  cases stack <;> simp only [walk, if_pos idle]

theorem walk_parent_cons (innermost : Segment) (outer rest : List Segment) :
    walk (innermost :: outer) (['.', '.'] :: rest) = walk outer rest := rfl

theorem walk_plain (plain : Plain segment) (stack rest : List Segment) :
    walk stack (segment :: rest) = walk (segment :: stack) rest := by
  rcases plain with ⟨notEmpty, notHere, notParent, -⟩
  cases stack <;> simp only [walk, notEmpty, notHere, notParent, or_false, if_false]

end

theorem walk_append (stack front back : List Segment) :
    walk stack (front ++ back) = (walk stack front).bind fun middle => walk middle back := by
  induction front generalizing stack with
  | nil => cases stack <;> rfl
  | cons segment rest induction =>
      cases stack with
      | nil =>
          simp only [List.cons_append, walk, induction]
          split
          · rfl
          · split <;> rfl
      | cons innermost outer =>
          simp only [List.cons_append, walk, induction]
          split
          · rfl
          · split <;> rfl

theorem walk_eq_some_iff {stack pieces result : List Segment}
    (clean : ∀ piece ∈ pieces, '/' ∉ piece) :
    walk stack pieces = some result ↔ Walks stack pieces result := by
  constructor
  · intro walked
    induction pieces generalizing stack with
    | nil =>
        have isDone : some stack = some result := by cases stack <;> exact walked
        cases isDone
        exact .done
    | cons segment rest induction =>
        rcases List.forall_mem_cons.1 clean with ⟨segmentClean, restClean⟩
        rcases idle_or_parent_or_plain segmentClean with idle | rfl | plain
        · rw [walk_idle idle] at walked
          exact .stays idle (induction restClean walked)
        · cases stack with
          | nil => cases walked
          | cons innermost outer => exact .leaves (induction restClean walked)
        · rw [walk_plain plain] at walked
          exact .enters plain (induction restClean walked)
  · intro walks
    clear clean
    induction walks with
    | @done stack => cases stack <;> rfl
    | stays idle _ induction => rw [walk_idle idle, induction]
    | leaves _ induction => rw [walk_parent_cons, induction]
    | enters plain _ induction => rw [walk_plain plain, induction]

theorem walk_eq_none_iff {stack pieces : List Segment} (clean : ∀ piece ∈ pieces, '/' ∉ piece) :
    walk stack pieces = none ↔ Escapes stack pieces := by
  constructor
  · intro failed
    induction pieces generalizing stack with
    | nil => cases stack <;> cases failed
    | cons segment rest induction =>
        rcases List.forall_mem_cons.1 clean with ⟨segmentClean, restClean⟩
        rcases idle_or_parent_or_plain segmentClean with idle | rfl | plain
        · rw [walk_idle idle] at failed
          rcases induction restClean failed with ⟨front, back, rfl, walks⟩
          exact ⟨segment :: front, back, rfl, .stays idle walks⟩
        · cases stack with
          | nil => exact ⟨[], rest, rfl, .done⟩
          | cons innermost outer =>
              rcases induction restClean failed with ⟨front, back, rfl, walks⟩
              exact ⟨['.', '.'] :: front, back, rfl, .leaves walks⟩
        · rw [walk_plain plain] at failed
          rcases induction restClean failed with ⟨front, back, rfl, walks⟩
          exact ⟨segment :: front, back, rfl, .enters plain walks⟩
  · rintro ⟨front, rest, rfl, walks⟩
    have frontClean : ∀ piece ∈ front, '/' ∉ piece := fun piece member =>
      clean piece (List.mem_append_left _ member)
    rw [walk_append, (walk_eq_some_iff frontClean).2 walks]
    rfl

theorem Walks.exists_kept {stack pieces result : List Segment} (walks : Walks stack pieces result) :
    ∃ entered kept, result = entered ++ kept ∧ kept <:+ stack ∧
      ∀ segment ∈ entered, Plain segment := by
  induction walks with
  | @done stack => exact ⟨[], stack, rfl, List.suffix_rfl, nofun⟩
  | stays _ _ induction => exact induction
  | leaves _ induction =>
      rcases induction with ⟨entered, kept, isResult, isKept, plain⟩
      exact ⟨entered, kept, isResult, isKept.trans (List.suffix_cons _ _), plain⟩
  | @enters stack rest result segment isPlain _ induction =>
      rcases induction with ⟨entered, kept, isResult, isKept, plain⟩
      rcases List.suffix_cons_iff.1 isKept with rfl | isKept
      · refine ⟨entered ++ [segment], stack, by simp [isResult], List.suffix_rfl, ?_⟩
        intro other member
        rcases List.mem_append.1 member with inEntered | isLast
        · exact plain other inEntered
        · exact List.mem_singleton.1 isLast ▸ isPlain
      · exact ⟨entered, kept, isResult, isKept, plain⟩

/-! ## From file to file -/

def folder (path : String) : String :=
  String.ofList (path.toList.rdropWhile (· ≠ '/'))

theorem segments_append (front rest : List Char) :
    segments (front ++ '/' :: rest) = segments front ++ segments rest := by
  induction front with
  | nil => rfl
  | cons character front induction =>
      simp only [List.cons_append, segments, induction]
      split
      · rfl
      · cases pieces : segments front with
        | nil => exact absurd pieces (segments_ne_nil front)
        | cons head tail => rfl

/-- What is written behind the folder of a path takes the place of its last segment. -/
theorem segments_folder_append (path rest : String) :
    segments (folder path ++ rest).toList =
      (segments path.toList).dropLast ++ segments rest.toList := by
  rw [String.toList_append, folder, String.toList_ofList]
  have whole := List.rdropWhile_append_rtakeWhile (p := (· ≠ '/')) (l := path.toList)
  have ending := List.rdropWhile_last_not (· ≠ '/') path.toList
  have lastClean : '/' ∉ path.toList.rtakeWhile (· ≠ '/') := fun member => by
    simpa using List.mem_rtakeWhile_imp member
  generalize path.toList.rtakeWhile (· ≠ '/') = last at whole lastClean
  generalize path.toList.rdropWhile (· ≠ '/') = directory at whole ending ⊢
  rw [← whole]
  rcases List.eq_nil_or_concat' directory with rfl | ⟨front, character, rfl⟩
  · rw [List.nil_append, List.nil_append, segments_of_clean lastClean]
    rfl
  · have isSlash : character = '/' := by simpa using ending
    subst isSlash
    rw [List.append_assoc, List.append_assoc, List.singleton_append, List.singleton_append,
      segments_append, segments_append, segments_of_clean lastClean, List.dropLast_concat]

def LeadsOut (base relative : String) : Prop :=
  Escapes (directories base.toList) (segments relative.toList)

theorem walk_segments_eq_none_iff {base relative : String} :
    walk (directories base.toList) (segments relative.toList) = none ↔ LeadsOut base relative :=
  walk_eq_none_iff fun _ member => slash_not_mem_of_mem_segments member

theorem exists_walk_of_not_leadsOut {base relative : String} (inside : ¬LeadsOut base relative) :
    ∃ stack, walk (directories base.toList) (segments relative.toList) = some stack :=
  Option.ne_none_iff_exists'.1 fun failed => inside (walk_segments_eq_none_iff.1 failed)

theorem walk_directories_resolve {base first : String} {stack : List Segment}
    (walked : walk (directories base.toList) (segments first.toList) = some stack)
    (named : Plain (basename first).toList) (pieces : List Segment) :
    walk (directories (resolve base first).toList) pieces =
      walk (directories base.toList) ((segments first.toList).dropLast ++ pieces) := by
  have split := List.dropLast_concat_getLast (segments_ne_nil first.toList)
  rw [basename, String.toList_ofList] at named
  generalize (segments first.toList).getLast _ = name at split named
  rw [← split, walk_append] at walked
  rcases Option.bind_eq_some_iff.1 walked with ⟨middle, toFolder, toFile⟩
  have isStack : stack = name :: middle := by
    simpa [walk, named.1, named.2.1, named.2.2.1, eq_comm] using toFile
  have whole := segments_resolve (split ▸ walk_append _ _ _ ▸ walked)
  rw [if_neg (by simp [isStack]), isStack] at whole
  have ends : directories (resolve base first).toList = middle := by simp [directories, whole]
  rw [ends, walk_append, toFolder]
  rfl

/-- Resolving walks over directories, and walking on from a resolved file is one walk in which the
last segment of its path is left out. -/
theorem resolve_composes (base : String) :
    (∀ relative,
      (LeadsOut base relative ∧ resolve base relative = relative) ∨
        (¬LeadsOut base relative ∧ ∃ entered kept,
          Walks (directories base.toList) (segments relative.toList) (entered ++ kept) ∧
          kept <:+ directories base.toList ∧ (∀ segment ∈ entered, Plain segment) ∧
          resolve base relative = String.ofList (joined (entered ++ kept).reverse))) ∧
      ∀ first second, ¬LeadsOut base first → Plain (basename first).toList →
        (LeadsOut base (folder first ++ second) ↔ LeadsOut (resolve base first) second) ∧
        (¬LeadsOut (resolve base first) second →
          resolve base (folder first ++ second) = resolve (resolve base first) second) := by
  constructor
  · intro relative
    have clean : ∀ piece ∈ segments relative.toList, '/' ∉ piece := fun _ member =>
      slash_not_mem_of_mem_segments member
    rcases resolve_cases base relative with ⟨failed, unchanged⟩ | ⟨stack, walked, resolved⟩
    · exact .inl ⟨walk_segments_eq_none_iff.1 failed, unchanged⟩
    · refine .inr ⟨fun out => ?_, ?_⟩
      · rw [walk_segments_eq_none_iff.2 out] at walked
        cases walked
      · have walks := (walk_eq_some_iff clean).1 walked
        rcases walks.exists_kept with ⟨entered, kept, rfl, isKept, plain⟩
        exact ⟨entered, kept, walks, isKept, plain,
          String.toList_injective (by simpa using resolved)⟩
  · intro first second inside named
    rcases exists_walk_of_not_leadsOut inside with ⟨stack, walked⟩
    have same := walk_directories_resolve walked named (segments second.toList)
    rw [← segments_folder_append] at same
    constructor
    · rw [← walk_segments_eq_none_iff, ← walk_segments_eq_none_iff, same]
    · intro secondInside
      rcases exists_walk_of_not_leadsOut secondInside with ⟨further, walkedOn⟩
      rw [same] at walkedOn
      rw [resolve, resolve, same, walkedOn]

theorem resolve_composes_of_helper :
    ¬LeadsOut "pkg/token/Token.sol" "../lib/Math.sol" ∧
      Plain (basename "../lib/Math.sol").toList ∧
      ¬LeadsOut (resolve "pkg/token/Token.sol" "../lib/Math.sol") "../../Errors.sol" ∧
      resolve "pkg/token/Token.sol" (folder "../lib/Math.sol" ++ "../../Errors.sol") =
        "Errors.sol" := by
  have inside : ¬LeadsOut "pkg/token/Token.sol" "../lib/Math.sol" := by
    rw [← walk_segments_eq_none_iff]
    decide +kernel
  have named : Plain (basename "../lib/Math.sol").toList := by decide +kernel
  have further :
      ¬LeadsOut (resolve "pkg/token/Token.sol" "../lib/Math.sol") "../../Errors.sol" := by
    rw [← walk_segments_eq_none_iff]
    decide +kernel
  have composed := (resolve_composes "pkg/token/Token.sol").2 _ "../../Errors.sol" inside named
  exact ⟨inside, named, further, (composed.2 further).trans (by decide +kernel)⟩

end SourceTree.ImportPath
