import Mathlib.Data.Set.Finite.List
import Mathlib.Data.Set.Finite.Lattice
import SourceTree.ImportPath

/-! # Segments and depth of resolved paths

Resolving makes no new segments, and adds at most as many directories as the relative path has
segments. Over finitely many segments there are finitely many paths of bounded depth. -/

namespace SourceTree.ImportPath

def depth (path : String) : Nat :=
  (directories path.toList).length

theorem depth_eq (path : String) : depth path = (segments path.toList).length - 1 := by
  simp [depth, directories]

theorem segments_injective : Function.Injective fun path : String => segments path.toList := by
  intro left right equal
  simp only at equal
  have same := congrArg joined equal
  rw [joined_segments, joined_segments] at same
  exact String.toList_injective same

theorem mem_segments_of_mem_directories {path : List Char} {segment : Segment}
    (member : segment ∈ directories path) : segment ∈ segments path := by
  rw [directories, List.mem_reverse] at member
  exact List.mem_of_mem_dropLast member

theorem resolve_cases (base relative : String) :
    (walk (directories base.toList) (segments relative.toList) = none ∧
        resolve base relative = relative) ∨
      ∃ stack, walk (directories base.toList) (segments relative.toList) = some stack ∧
        (resolve base relative).toList = joined stack.reverse := by
  unfold resolve
  cases walk (directories base.toList) (segments relative.toList) with
  | none => exact Or.inl ⟨rfl, rfl⟩
  | some stack => exact Or.inr ⟨stack, rfl, String.toList_ofList⟩

/-- The stack of a successful walk is what the resolved path consists of, unless it is empty. -/
theorem segments_resolve {base relative : String} {stack : List Segment}
    (walked : walk (directories base.toList) (segments relative.toList) = some stack) :
    segments (resolve base relative).toList = if stack = [] then [[]] else stack.reverse := by
  rcases resolve_cases base relative with ⟨escaped, _⟩ | ⟨other, again, resolved⟩
  · rw [escaped] at walked
    cases walked
  · rw [walked] at again
    cases again
    rw [resolved]
    split
    next isEmpty => simp [isEmpty, joined, segments]
    next notEmpty =>
      refine segments_joined (by simpa using notEmpty) ?_
      intro piece member
      rcases mem_of_walk walked (List.mem_reverse.1 member) with inBase | inRelative
      · exact slash_not_mem_of_mem_segments (mem_segments_of_mem_directories inBase)
      · exact slash_not_mem_of_mem_segments inRelative

theorem mem_segments_resolve {base relative : String} {segment : Segment}
    (member : segment ∈ segments (resolve base relative).toList) :
    segment = [] ∨ segment ∈ segments base.toList ∨ segment ∈ segments relative.toList := by
  rcases resolve_cases base relative with ⟨_, unchanged⟩ | ⟨stack, walked, _⟩
  · exact Or.inr (Or.inr (unchanged ▸ member))
  · rw [segments_resolve walked] at member
    split at member
    · exact Or.inl (List.mem_singleton.1 member)
    · rcases mem_of_walk walked (List.mem_reverse.1 member) with inBase | inRelative
      · exact Or.inr (Or.inl (mem_segments_of_mem_directories inBase))
      · exact Or.inr (Or.inr inRelative)

theorem depth_resolve_le (base relative : String) :
    depth (resolve base relative) ≤ depth base + (segments relative.toList).length := by
  rcases resolve_cases base relative with ⟨_, unchanged⟩ | ⟨stack, walked, _⟩
  · rw [unchanged, depth_eq relative]
    omega
  · have shorter := length_walk_le walked
    rw [depth_eq (resolve base relative), segments_resolve walked]
    unfold depth
    split
    · simp
    · rw [List.length_reverse]
      omega

theorem mem_segments_meantIn {importer path : String} {segment : Segment}
    (member : segment ∈ segments (meantIn importer path).toList) :
    segment = [] ∨ segment ∈ segments importer.toList ∨ segment ∈ segments path.toList := by
  unfold meantIn at member
  split at member
  · exact mem_segments_resolve member
  · exact Or.inr (Or.inr member)

theorem depth_meantIn_le (importer path : String) :
    depth (meantIn importer path) ≤ depth importer + (segments path.toList).length := by
  unfold meantIn
  split
  · exact depth_resolve_le importer path
  · rw [depth_eq path]
    omega

theorem isRelative_of_meantIn_ne {importer path : String}
    (different : meantIn importer path ≠ path) :
    isRelative path = true := by
  by_contra absolute
  exact different (if_neg absolute)

theorem finite_of_depth_le {alphabet : Set Segment} (finite : alphabet.Finite) (limit : Nat) :
    {path : String | (∀ segment ∈ segments path.toList, segment ∈ alphabet) ∧
      depth path ≤ limit}.Finite := by
  have := finite.to_subtype
  have words := (List.finite_length_le alphabet (limit + 1)).image (List.map Subtype.val)
  refine (words.preimage segments_injective.injOn).subset ?_
  rintro path ⟨spelled, shallow⟩
  rw [depth_eq] at shallow
  refine ⟨(segments path.toList).attach.map fun segment =>
    ⟨segment.1, spelled segment.1 segment.2⟩, ?_, ?_⟩
  · simp only [Set.mem_ofPred_eq, List.length_map, List.length_attach]
    omega
  · simp

/-! ## Ladders of directories -/

def Plain (segment : Segment) : Prop :=
  segment ≠ [] ∧ segment ≠ ['.'] ∧ segment ≠ ['.', '.'] ∧ '/' ∉ segment

instance (segment : Segment) : Decidable (Plain segment) :=
  inferInstanceAs (Decidable (_ ∧ _ ∧ _ ∧ _))

def nested (directory name : Segment) (level : Nat) : String :=
  String.ofList (joined (List.replicate level directory ++ [name]))

def descent (directory name : Segment) : String :=
  String.ofList ('.' :: '/' :: (directory ++ '/' :: name))

theorem isRelative_descent (directory name : Segment) :
    isRelative (descent directory name) = true := by
  simp [isRelative, descent]

section

variable {directory name : Segment}

theorem segments_nested (isDirectory : Plain directory) (isName : Plain name) (level : Nat) :
    segments (nested directory name level).toList = List.replicate level directory ++ [name] := by
  rw [nested, String.toList_ofList]
  refine segments_joined (by simp) ?_
  intro piece member
  rcases List.mem_append.1 member with inDirectories | isLast
  · exact List.eq_of_mem_replicate inDirectories ▸ isDirectory.2.2.2
  · exact List.mem_singleton.1 isLast ▸ isName.2.2.2

theorem segments_descent (isDirectory : Plain directory) (isName : Plain name) :
    segments (descent directory name).toList = [['.'], directory, name] := by
  have here : '/' ∉ ['.'] := by decide
  have cut := segments_append_slash here (directory ++ '/' :: name)
  rw [segments_append_slash isDirectory.2.2.2, segments_of_clean isName.2.2.2] at cut
  rw [descent, String.toList_ofList]
  exact cut

theorem nested_injective (isDirectory : Plain directory) (isName : Plain name) :
    Function.Injective (nested directory name) := by
  intro left right equal
  have same := congrArg (fun path : String => (segments path.toList).length) equal
  simpa only [segments_nested isDirectory isName, List.length_append, List.length_replicate,
    Nat.add_right_cancel_iff] using same

theorem meantIn_descent (isDirectory : Plain directory) (isName : Plain name) (level : Nat) :
    meantIn (nested directory name level) (descent directory name) =
      nested directory name (level + 1) := by
  have above : directories (nested directory name level).toList =
      List.replicate level directory := by
    rw [directories, segments_nested isDirectory isName]
    simp
  have walked : walk (List.replicate level directory) [['.'], directory, name] =
      some (name :: directory :: List.replicate level directory) := by
    simp [walk, isDirectory.1, isDirectory.2.1, isDirectory.2.2.1, isName.1, isName.2.1,
      isName.2.2.1]
  have unstacked : (name :: directory :: List.replicate level directory).reverse =
      List.replicate (level + 1) directory ++ [name] := by
    rw [List.reverse_cons, List.reverse_cons, List.reverse_replicate, List.replicate_succ']
  rw [meantIn, if_pos (isRelative_descent directory name), resolve, above,
    segments_descent isDirectory isName, walked]
  simp only [unstacked, nested]

end

end SourceTree.ImportPath
