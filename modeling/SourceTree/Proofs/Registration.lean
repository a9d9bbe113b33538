import Mathlib.Data.List.Induction
import SourceTree.Detection
import SourceTree.Pattern.Reader
import SourceTree.Proofs.Value

/-! # Registering libraries

A library that is registered under a new root stands beside the others. It changes who owns a path
only if it owns the path itself, and which versions sources ask for only under its own root: what
they ask of one library does not depend on which others are registered. -/

namespace SourceTree

/-! ## Looking libraries up -/

namespace Registry

variable {registry : Registry} {library : Library}

theorem libraries_register (fresh : library.root ∉ registry.listing) :
    (registry.register library).libraries = registry.libraries ++ [library] := by
  simp only [libraries, register, Listing.values, Listing.entries_insert_of_not_mem fresh,
    List.map_append, List.map_cons, List.map_nil]

theorem find_register (fresh : library.root ∉ registry.listing) {path : String}
    (unowned : library.owns path = false) :
    (registry.register library).find path = registry.find path := by
  simp only [find, libraries_register fresh, List.filter_append, List.filter_cons, unowned,
    Bool.false_eq_true, if_false, List.filter_nil, List.append_nil]

theorem get?_register (registry : Registry) (library : Library) (root : String) :
    (registry.register library).get? root =
      if root = library.root then some library else registry.get? root :=
  Listing.get?_insert registry.listing library.root root library

theorem orCatalog_of_populated {registry : Registry} (populated : registry.libraries ≠ []) :
    registry.orCatalog = registry :=
  if_neg fun empty => populated (congrArg (List.map Prod.snd) (List.isEmpty_iff.1 empty))

theorem populated_register (registry : Registry) (library : Library) :
    (registry.register library).libraries ≠ [] :=
  List.ne_nil_of_mem (Listing.mem_values_iff.2
    ⟨library.root, Listing.get?_eq_some_iff.1 (Listing.get?_insert_self _ _ _)⟩)

theorem ofLibraries_concat (earlier : List Library) (last : Library) :
    ofLibraries (earlier ++ [last]) = (ofLibraries earlier).register last := by
  rw [ofLibraries, List.foldl_append]
  rfl

theorem mem_of_mem_ofLibraries {libraries : List Library} {library : Library}
    (registered : library ∈ (ofLibraries libraries).libraries) : library ∈ libraries := by
  induction libraries using List.reverseRecOn with
  | nil => exact registered
  | append_singleton earlier last induction =>
      rw [ofLibraries_concat] at registered
      rcases Listing.mem_values_iff.1 registered with ⟨root, isEntry⟩
      rcases Listing.mem_entries_insert isEntry with isLast | isEarlier
      · cases isLast
        exact List.mem_append_right earlier List.mem_cons_self
      · apply List.mem_append_left
        exact induction (Listing.mem_values_iff.2 ⟨root, isEarlier⟩)

theorem populated_ofLibraries {libraries : List Library} (some : libraries ≠ []) :
    (ofLibraries libraries).libraries ≠ [] := by
  induction libraries using List.reverseRecOn with
  | nil => exact absurd rfl some
  | append_singleton earlier last _ =>
      rw [ofLibraries_concat]
      exact populated_register _ last

theorem longest_eq_none_iff {libraries : List Library} :
    longest libraries = none ↔ libraries = [] := by
  cases libraries with
  | nil => exact iff_of_true rfl rfl
  | cons library rest =>
      refine iff_of_false (fun isNone => ?_) (List.cons_ne_nil library rest)
      simp only [longest] at isNone
      split at isNone
      · cases isNone
      · split at isNone <;> cases isNone

theorem mem_of_longest {libraries : List Library} {library : Library}
    (found : longest libraries = some library) : library ∈ libraries := by
  induction libraries generalizing library with
  | nil => cases found
  | cons head rest induction =>
      simp only [longest] at found
      split at found
      next =>
        cases found
        exact List.mem_cons_self
      next other isOther =>
        split at found <;> cases found
        · exact List.mem_cons_of_mem head (induction isOther)
        · exact List.mem_cons_self

theorem find_eq_none_iff {path : String} :
    registry.find path = none ↔ ∀ library ∈ registry.libraries, ¬library.owns path := by
  rw [find, longest_eq_none_iff, List.filter_eq_nil_iff]

end Registry

/-! ## Looking for a library -/

namespace Library

variable {search : PatternSearch} {library : Library} {source : List Char} {fault : Unexpected}

def patterns (library : Library) : List String :=
  library.qualifiers.keys ++ library.versions.flatMap LibraryVersion.patterns

def Searchable (search : PatternSearch) (library : Library) : Prop :=
  ∀ pattern ∈ library.patterns, ∀ source, ∃ found, search pattern source = .ok found

def SearchedIn (search : PatternSearch) (library : Library) (source : List Char) : Prop :=
  ∃ version, library.requestedBy? search source = .ok version

def asked? (search : PatternSearch) (library : Library) (source : List Char) : Option String :=
  (library.requestedBy? search source).toOption.join

theorem exists_of_isMarkedIn_eq_error {version : LibraryVersion}
    (failed : version.isMarkedIn search source = .error fault) :
    ∃ pattern ∈ version.patterns, search pattern source = .error fault := by
  unfold LibraryVersion.isMarkedIn at failed
  split at failed
  · cases failed
  · rw [anyM_eq_map_findM?, map_eq_error_iff] at failed
    exact exists_of_findM?_eq_error failed

theorem exists_of_detectedIn?_eq_error
    (failed : library.detectedIn? search source = .error fault) :
    ∃ pattern ∈ library.patterns, search pattern source = .error fault := by
  rcases bind_eq_error_iff.1 failed with unqualified | ⟨qualified, -, unmarked⟩
  · rcases bind_eq_error_iff.1 unqualified with refused | ⟨_, -, ⟨⟩⟩
    rcases exists_of_findM?_eq_error refused with ⟨entry, isEntry, isFault⟩
    exact ⟨entry.1, List.mem_append_left _ (List.mem_map_of_mem isEntry), isFault⟩
  · cases qualified with
    | some version => cases unmarked
    | none =>
        rcases bind_eq_error_iff.1 unmarked with refused | ⟨_, -, ⟨⟩⟩
        rcases exists_of_findM?_eq_error refused with ⟨version, isVersion, isRefused⟩
        rcases exists_of_isMarkedIn_eq_error isRefused with ⟨pattern, isPattern, isFault⟩
        have isOfLibrary := List.mem_flatMap.2 ⟨version, isVersion, isPattern⟩
        exact ⟨pattern, List.mem_append_right _ isOfLibrary, isFault⟩

theorem exists_of_requestedBy?_eq_error
    (failed : library.requestedBy? search source = .error fault) :
    Text.occursIn library.root.toList source = true ∧
      ∃ pattern ∈ library.patterns, search pattern source = .error fault := by
  unfold requestedBy? at failed
  split at failed
  next mentions =>
    exact ⟨mentions, exists_of_detectedIn?_eq_error (map_eq_error_iff.1 failed)⟩
  next => cases failed

theorem Searchable.searchedIn (searchable : library.Searchable search) (source : List Char) :
    library.SearchedIn search source := by
  unfold SearchedIn
  cases requested : library.requestedBy? search source with
  | ok version => exact ⟨version, rfl⟩
  | error fault =>
      rcases exists_of_requestedBy?_eq_error requested with ⟨-, pattern, isPattern, isFault⟩
      rcases searchable pattern isPattern source with ⟨found, isFound⟩
      rw [isFault] at isFound
      cases isFound

theorem searchable_of_isRead
    (isRead : ∀ pattern ∈ library.patterns, (Pattern.ofText? pattern).isSome) :
    library.Searchable Pattern.search := by
  intro pattern isPattern source
  rcases Option.isSome_iff_exists.1 (isRead pattern isPattern) with ⟨_, written⟩
  exact ⟨_, Pattern.search_of_ofText? written source⟩

theorem searchable_of_registered_catalog :
    ∀ library ∈ (Registry.ofLibraries catalog).libraries, library.Searchable Pattern.search := by
  have isRead : ∀ library ∈ (Registry.ofLibraries catalog).libraries,
      ∀ pattern ∈ library.patterns, (Pattern.ofText? pattern).isSome := by
    decide +kernel
  exact fun library registered => searchable_of_isRead (isRead library registered)

def requestedBySources? (search : PatternSearch) (library : Library) (sources : List String) :
    Option String :=
  sources.foldl (fun earlier source => (library.asked? search source.toList).or earlier) none

theorem requestedBySources?_concat (search : PatternSearch) (library : Library)
    (sources : List String) (last : String) :
    library.requestedBySources? search (sources ++ [last]) =
      (library.asked? search last.toList).or (library.requestedBySources? search sources) := by
  simp only [requestedBySources?, List.foldl_append, List.foldl_cons, List.foldl_nil]

end Library

/-! ## Detecting versions -/

namespace Preference

variable {search : PatternSearch} {registry : Registry} {files : Listing String String}

def note (search : PatternSearch) (source : List Char) (preference : Preference)
    (library : Library) : Preference :=
  match library.asked? search source with
  | some version => preference.set library.root version
  | none => preference

def noteAll (search : PatternSearch) (registry : Registry) (preference : Preference)
    (source : String) : Preference :=
  registry.libraries.foldl (note search source.toList) preference

theorem noteLibrary_eq_ok_iff (search : PatternSearch) (source : List Char)
    (preference : Preference) (library : Library) (after : Preference) :
    noteLibrary search source preference library = .ok after ↔
      library.SearchedIn search source ∧ after = note search source preference library := by
  unfold noteLibrary note Library.SearchedIn Library.asked?
  cases library.requestedBy? search source with
  | error fault => exact ⟨nofun, fun ⟨⟨_, absurd⟩, _⟩ => nomatch absurd⟩
  | ok version =>
      refine Iff.trans ?_ (and_iff_right ⟨version, rfl⟩).symm
      cases version <;> simp [Except.toOption, bind, Except.bind, pure, Except.pure, eq_comm]

theorem noteSource_eq_ok_iff (search : PatternSearch) (registry : Registry)
    (preference : Preference) (source : String) (after : Preference) :
    noteSource search registry preference source.toList = .ok after ↔
      (∀ library ∈ registry.libraries, library.SearchedIn search source.toList) ∧
        after = noteAll search registry preference source :=
  foldlM_eq_ok_iff (noteLibrary_eq_ok_iff search source.toList)

/-- Detection comes to a result if every library can be looked for in every source, and notes then
what the sources ask. -/
theorem detect_eq_ok_iff {preference : Preference} :
    detect search registry files = .ok preference ↔
      (∀ source ∈ files.values, ∀ library ∈ registry.libraries,
        library.SearchedIn search source.toList) ∧
      preference = files.values.foldl (noteAll search registry) .empty :=
  foldlM_eq_ok_iff (noteSource_eq_ok_iff search registry)

/-- Detection fails only where the search for a pattern of a registered library fails, in a source
that mentions the library. -/
theorem exists_of_detect_eq_error {fault : Unexpected}
    (failed : detect search registry files = .error fault) :
    ∃ source ∈ files.values, ∃ library ∈ registry.libraries,
      Text.occursIn library.root.toList source.toList = true ∧
        ∃ pattern ∈ library.patterns, search pattern source.toList = .error fault := by
  rcases exists_of_foldlM_eq_error failed with ⟨source, isSource, before, inSource⟩
  rcases exists_of_foldlM_eq_error inSource with ⟨library, registered, _, notNoted⟩
  rcases bind_eq_error_iff.1 notNoted with unasked | ⟨version, -, noted⟩
  · exact ⟨source, isSource, library, registered, Library.exists_of_requestedBy?_eq_error unasked⟩
  · cases version <;> cases noted

theorem exists_detect_of_searchable
    (searchable : ∀ library ∈ registry.libraries, library.Searchable search)
    (files : Listing String String) :
    ∃ preference, detect search registry files = .ok preference := by
  cases detected : detect search registry files with
  | ok preference => exact ⟨preference, rfl⟩
  | error fault =>
      rcases exists_of_detect_eq_error detected with
        ⟨source, -, library, registered, -, pattern, isPattern, isFault⟩
      rcases searchable library registered pattern isPattern source.toList with ⟨found, isFound⟩
      cases isFault.symm.trans isFound

theorem get?_note (search : PatternSearch) (source : List Char) (preference : Preference)
    (library : Library) (root : String) :
    (note search source preference library).get? root =
      if library.root = root then (library.asked? search source).or (preference.get? root)
      else preference.get? root := by
  unfold note
  cases library.asked? search source with
  | none => simp only [Option.none_or, ite_self]
  | some version => simp only [get?_set, Option.some_or, eq_comm (a := root)]

theorem get?_foldl_note (search : PatternSearch) (source : List Char)
    {entries : List (String × Library)} (distinct : (entries.map Prod.fst).Nodup)
    (agree : ∀ entry ∈ entries, entry.2.root = entry.1) (preference : Preference)
    (root : String) :
    ((entries.map Prod.snd).foldl (note search source) preference).get? root =
      ((Listing.valueIn root entries).bind fun library => library.asked? search source).or
        (preference.get? root) := by
  induction entries generalizing preference with
  | nil => rfl
  | cons entry rest induction =>
      rcases entry with ⟨head, library⟩
      rcases List.nodup_cons.1 distinct with ⟨fresh, restDistinct⟩
      have isRoot : library.root = head := agree _ List.mem_cons_self
      simp only [List.map_cons, List.foldl_cons]
      rw [induction restDistinct fun other inRest => agree other (List.mem_cons_of_mem _ inRest),
        get?_note, isRoot, Listing.valueIn]
      by_cases same : head = root
      · subst same
        have absent : Listing.valueIn head rest = none :=
          (Listing.valueIn_eq_none_iff head rest).2 fresh
        simp only [absent, Option.bind_none, Option.none_or, if_true, Option.bind_some]
      · simp only [if_neg same]

theorem get?_noteAll (search : PatternSearch) (registry : Registry) (preference : Preference)
    (source root : String) :
    (noteAll search registry preference source).get? root =
      ((registry.get? root).bind fun library => library.asked? search source.toList).or
        (preference.get? root) :=
  get?_foldl_note search source.toList registry.listing.keysDistinct registry.rootsAgree preference
    root

theorem get?_foldl_noteAll (search : PatternSearch) (registry : Registry) (sources : List String)
    (preference : Preference) (root : String) :
    (sources.foldl (noteAll search registry) preference).get? root =
      ((registry.get? root).bind fun library => library.requestedBySources? search sources).or
        (preference.get? root) := by
  -- The last source decides, so the induction is on the last of them.
  induction sources using List.reverseRecOn with
  | nil => cases registry.get? root <;> rfl
  | append_singleton earlier last induction =>
      rw [List.foldl_append, List.foldl_cons, List.foldl_nil, get?_noteAll, induction]
      cases registry.get? root with
      | none => rfl
      | some library =>
          simp only [Option.bind_some, Library.requestedBySources?_concat, Option.or_assoc]

/-- What is detected under a root is what the sources ask of the library with that root. -/
theorem get?_of_detect {preference : Preference}
    (detected : detect search registry files = .ok preference) (root : String) :
    preference.get? root =
      (registry.get? root).bind fun library =>
        library.requestedBySources? search files.values := by
  rw [(detect_eq_ok_iff.1 detected).2, get?_foldl_noteAll]
  exact Option.or_none

theorem exists_detect_register {preference : Preference} {library : Library}
    (detected : detect search registry files = .ok preference)
    (searchable : library.Searchable search) :
    ∃ other, detect search (registry.register library) files = .ok other ∧
      ∀ root, root ≠ library.root → other.get? root = preference.get? root := by
  have searched : ∀ source ∈ files.values, ∀ member ∈ (registry.register library).libraries,
      member.SearchedIn search source.toList := by
    intro source isSource member registered
    rcases Listing.mem_values_iff.1 registered with ⟨root, isEntry⟩
    rcases Listing.mem_entries_insert isEntry with isLast | isEarlier
    · cases isLast
      exact searchable.searchedIn source.toList
    · exact (detect_eq_ok_iff.1 detected).1 source isSource member
        (Listing.mem_values_iff.2 ⟨root, isEarlier⟩)
  have isOther := detect_eq_ok_iff.2 ⟨searched, rfl⟩
  refine ⟨_, isOther, fun root apart => ?_⟩
  rw [get?_of_detect isOther, get?_of_detect detected, Registry.get?_register, if_neg apart]

end Preference

end SourceTree
