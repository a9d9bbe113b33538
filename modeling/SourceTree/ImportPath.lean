/-! # Import paths

The paths that import statements name. A relative path starts with `./` or `../` and is read
against the directory of the file that imports it; every other path is taken as it stands.

Paths are cut at slashes into segments. Resolving walks the segments of the relative path over a
stack of directories: `.` and empty segments stay, `..` leaves the innermost directory, any other
segment enters a directory. -/

namespace SourceTree.ImportPath

abbrev Segment := List Char

/-! ## Segments -/

/-- The pieces between slashes. There is always one more of them than there are slashes. -/
def segments : List Char → List Segment
  | [] => [[]]
  | character :: rest =>
      if character = '/' then
        [] :: segments rest
      else
        match segments rest with
        | [] => [[character]]
        | head :: tail => (character :: head) :: tail

def joined : List Segment → List Char
  | [] => []
  | [only] => only
  | head :: next :: tail => head ++ '/' :: joined (next :: tail)

theorem segments_ne_nil (path : List Char) : segments path ≠ [] := by
  cases path with
  | nil => simp [segments]
  | cons character rest =>
      simp only [segments]
      split
      · simp
      · split <;> simp

theorem joined_segments (path : List Char) : joined (segments path) = path := by
  induction path with
  | nil => rfl
  | cons character rest induction =>
      simp only [segments]
      split
      next equal =>
        cases pieces : segments rest with
        | nil => exact absurd pieces (segments_ne_nil rest)
        | cons head tail =>
            rw [pieces] at induction
            simp [joined, induction, equal]
      next =>
        cases pieces : segments rest with
        | nil => exact absurd pieces (segments_ne_nil rest)
        | cons head tail =>
            rw [pieces] at induction
            cases tail with
            | nil => simpa [joined] using induction
            | cons next tail => simpa [joined] using induction

theorem slash_not_mem_of_mem_segments {path : List Char} {segment : Segment}
    (member : segment ∈ segments path) : '/' ∉ segment := by
  induction path generalizing segment with
  | nil =>
      simp only [segments, List.mem_singleton] at member
      simp [member]
  | cons character rest induction =>
      simp only [segments] at member
      split at member
      next =>
        rcases List.mem_cons.1 member with equal | inRest
        · simp [equal]
        · exact induction inRest
      next different =>
        cases pieces : segments rest with
        | nil => exact absurd pieces (segments_ne_nil rest)
        | cons head tail =>
            rw [pieces] at member induction
            rcases List.mem_cons.1 member with equal | inTail
            · have headClean := induction List.mem_cons_self
              have flipped : '/' ≠ character := fun same => different same.symm
              simp [equal, headClean, flipped]
            · exact induction (List.mem_cons_of_mem head inTail)

theorem segments_append_slash {front : List Char} (clean : '/' ∉ front) (rest : List Char) :
    segments (front ++ '/' :: rest) = front :: segments rest := by
  induction front with
  | nil => simp [segments]
  | cons character front induction =>
      simp only [List.mem_cons, not_or] at clean
      have different : ¬character = '/' := fun same => clean.1 same.symm
      simp only [List.cons_append, segments, if_neg different, induction clean.2]

theorem segments_of_clean {path : List Char} (clean : '/' ∉ path) : segments path = [path] := by
  induction path with
  | nil => rfl
  | cons character rest induction =>
      simp only [List.mem_cons, not_or] at clean
      have different : ¬character = '/' := fun same => clean.1 same.symm
      simp only [segments, if_neg different, induction clean.2]

theorem segments_joined {pieces : List Segment} (nonempty : pieces ≠ [])
    (clean : ∀ piece ∈ pieces, '/' ∉ piece) : segments (joined pieces) = pieces := by
  induction pieces with
  | nil => exact absurd rfl nonempty
  | cons head tail induction =>
      have headClean := clean head List.mem_cons_self
      have tailClean := fun piece member => clean piece (List.mem_cons_of_mem head member)
      cases tail with
      | nil => exact segments_of_clean headClean
      | cons next tail =>
          rw [joined, segments_append_slash headClean, induction (by simp) tailClean]

/-! ## Kinds of paths -/

def isRelative (path : String) : Bool :=
  "./".toList.isPrefixOf path.toList || "../".toList.isPrefixOf path.toList

def dropLeadingSlash (path : String) : String :=
  match path.toList with
  | '/' :: rest => String.ofList rest
  | _ => path

theorem dropLeadingSlash_cases (path : String) :
    dropLeadingSlash path = path ∨ path.toList = '/' :: (dropLeadingSlash path).toList := by
  unfold dropLeadingSlash
  split
  next rest spelled => exact Or.inr (by rw [spelled, String.toList_ofList])
  next => exact Or.inl rfl

def basename (path : String) : String :=
  String.ofList ((segments path.toList).getLast (segments_ne_nil path.toList))

/-! ## Resolving -/

/-- Walk segments over a stack of directories, innermost first. The walk fails when `..` finds no
directory to leave. -/
def walk : List Segment → List Segment → Option (List Segment)
  | stack, [] => some stack
  | stack, segment :: rest =>
      if segment = [] ∨ segment = ['.'] then
        walk stack rest
      else if segment = ['.', '.'] then
        match stack with
        | [] => none
        | _ :: outer => walk outer rest
      else
        walk (segment :: stack) rest

def directories (path : List Char) : List Segment :=
  (segments path).dropLast.reverse

theorem mem_of_walk {stack pieces result : List Segment} (walked : walk stack pieces = some result)
    {segment : Segment} (member : segment ∈ result) : segment ∈ stack ∨ segment ∈ pieces := by
  induction pieces generalizing stack with
  | nil =>
      simp only [walk, Option.some.injEq] at walked
      exact Or.inl (walked ▸ member)
  | cons piece rest induction =>
      simp only [walk] at walked
      split at walked
      · exact (induction walked).imp_right (List.mem_cons_of_mem piece)
      · split at walked
        · cases stack with
          | nil => simp at walked
          | cons innermost outer =>
              rcases induction walked with inOuter | inRest
              · exact Or.inl (List.mem_cons_of_mem innermost inOuter)
              · exact Or.inr (List.mem_cons_of_mem piece inRest)
        · rcases induction walked with inStack | inRest
          · rcases List.mem_cons.1 inStack with equal | inStack
            · exact Or.inr (equal ▸ List.mem_cons_self)
            · exact Or.inl inStack
          · exact Or.inr (List.mem_cons_of_mem piece inRest)

theorem length_walk_le {stack pieces result : List Segment}
    (walked : walk stack pieces = some result) :
    result.length ≤ stack.length + pieces.length := by
  induction pieces generalizing stack with
  | nil =>
      simp only [walk, Option.some.injEq] at walked
      simp [walked]
  | cons piece rest induction =>
      simp only [walk] at walked
      split at walked
      · have shorter := induction walked
        simp only [List.length_cons]
        omega
      · split at walked
        · cases stack with
          | nil => simp at walked
          | cons innermost outer =>
              have shorter := induction walked
              simp only [List.length_cons]
              omega
        · have shorter := induction walked
          simp only [List.length_cons] at shorter ⊢
          omega

/-- A relative path read against the directory of `base`; unchanged when it leads above the
root. -/
def resolve (base relative : String) : String :=
  match walk (directories base.toList) (segments relative.toList) with
  | some stack => String.ofList (joined stack.reverse)
  | none => relative

def meantIn (importer path : String) : String :=
  if isRelative path then resolve importer path else path

example : resolve "pkg/contracts/Token.sol" "../lib/Helper.sol" = "pkg/lib/Helper.sol" := by
  decide +kernel
example : resolve "Token.sol" "../Helper.sol" = "../Helper.sol" := by decide +kernel

end SourceTree.ImportPath
