import SourceTree.Proofs.Registration

/-! # Owners of paths

A root owns itself and every path that goes on behind it with a slash. Of two different roots that
own a path one is longer, so the library with the longest root is the only one of its kind, and it
does not matter in which order the libraries were registered. -/

namespace SourceTree

namespace Registry

/-! ## What a list registers -/

/-- Whether a list registers a library: no later one in it has the same root. -/
def Registers (libraries : List Library) (library : Library) : Prop :=
  ∃ earlier later, libraries = earlier ++ library :: later ∧
    ∀ other ∈ later, other.root ≠ library.root

theorem not_registers_nil (library : Library) : ¬Registers [] library := by
  rintro ⟨earlier, later, whole, -⟩
  exact List.append_ne_nil_of_right_ne_nil earlier (List.cons_ne_nil library later) whole.symm

theorem registers_concat_iff {libraries : List Library} {last library : Library} :
    Registers (libraries ++ [last]) library ↔
      library = last ∨ Registers libraries library ∧ last.root ≠ library.root := by
  constructor
  · rintro ⟨earlier, later, whole, fresh⟩
    induction later using List.reverseRecOn with
    | nil =>
        left
        exact (List.cons.inj (List.append_inj_right' whole rfl)).1.symm
    | append_singleton between other _ =>
        have whole : libraries ++ [last] = (earlier ++ library :: between) ++ [other] := by
          rw [whole, List.append_assoc, List.cons_append]
        have same : last = other := (List.cons.inj (List.append_inj_right' whole rfl)).1
        subst same
        right
        exact ⟨⟨earlier, between, List.append_cancel_right whole,
            fun middle member => fresh middle (List.mem_append_left _ member)⟩,
          fresh last (List.mem_append_right _ List.mem_cons_self)⟩
  · intro either
    cases either with
    | inl isLast =>
        subst isLast
        exact ⟨libraries, [], rfl, List.forall_mem_nil _⟩
    | inr isEarlier =>
        rcases isEarlier with ⟨⟨earlier, later, whole, fresh⟩, other⟩
        refine ⟨earlier, later ++ [last], by rw [whole, List.append_assoc, List.cons_append], ?_⟩
        exact List.forall_mem_append.2 ⟨fresh, List.forall_mem_singleton.2 other⟩

theorem registers_pair_iff {first second : Library} (different : first.root ≠ second.root)
    {library : Library} :
    Registers [first, second] library ↔ library = first ∨ library = second := by
  rw [← List.singleton_append, registers_concat_iff, ← List.nil_append [first],
    registers_concat_iff]
  constructor
  · intro either
    rcases either with rfl | ⟨rfl | ⟨none, -⟩, -⟩
    · exact .inr rfl
    · exact .inl rfl
    · exact absurd none (not_registers_nil library)
  · intro either
    rcases either with rfl | rfl
    · exact .inr ⟨.inl rfl, different.symm⟩
    · exact .inl rfl

theorem mem_libraries_iff {registry : Registry} {library : Library} :
    library ∈ registry.libraries ↔ registry.get? library.root = some library := by
  constructor
  · intro member
    rcases Listing.mem_values_iff.1 member with ⟨root, isEntry⟩
    have isRoot : library.root = root := registry.rootsAgree _ isEntry
    rw [isRoot]
    exact Listing.get?_eq_some_iff.2 isEntry
  · intro known
    exact Listing.mem_values_iff.2 ⟨library.root, Listing.get?_eq_some_iff.1 known⟩

theorem mem_ofLibraries_iff {libraries : List Library} {library : Library} :
    library ∈ (ofLibraries libraries).libraries ↔ Registers libraries library := by
  induction libraries using List.reverseRecOn with
  | nil => exact iff_of_false List.not_mem_nil (not_registers_nil library)
  | append_singleton earlier last induction =>
      rw [ofLibraries_concat, mem_libraries_iff, get?_register, registers_concat_iff, ← induction,
        mem_libraries_iff]
      by_cases same : library.root = last.root
      · rw [if_pos same, Option.some.injEq, eq_comm]
        exact (or_iff_left fun isEarlier => isEarlier.2 same.symm).symm
      · rw [if_neg same, and_iff_left (Ne.symm same)]
        exact (or_iff_right fun isLast => same (congrArg Library.root isLast)).symm

/-! ## Roots of a path -/

/-- Whether a path is a root or goes on behind it with a slash. -/
def Owns (root path : String) : Prop :=
  path = root ∨ ∃ rest, path = root ++ "/" ++ rest

theorem owns_iff {library : Library} {path : String} :
    library.owns path = true ↔ Owns library.root path := by
  rw [Library.owns, Bool.or_eq_true, decide_eq_true_eq, List.isPrefixOf_iff_prefix, Owns]
  apply or_congr_right
  constructor
  · rintro ⟨rest, whole⟩
    exact ⟨String.ofList rest, String.toList_injective (by simp [← whole])⟩
  · rintro ⟨rest, rfl⟩
    exact ⟨rest.toList, by simp⟩

theorem Owns.isPrefix {root path : String} (owns : Owns root path) :
    root.toList <+: path.toList := by
  cases owns with
  | inl same =>
      subst same
      exact List.prefix_rfl
  | inr further =>
      rcases further with ⟨rest, rfl⟩
      rw [String.toList_append, String.toList_append, List.append_assoc]
      exact List.prefix_append root.toList _

/-- Of the roots of a path, no two are equally long. -/
theorem Owns.eq_of_length_eq {root other path : String} (owns : Owns root path)
    (otherOwns : Owns other path) (same : other.length = root.length) : other = root := by
  have within : other.toList <+: root.toList :=
    List.prefix_of_prefix_length_le otherOwns.isPrefix owns.isPrefix (Nat.le_of_eq same)
  exact String.toList_injective (within.eq_of_length same)

/-! ## The longest root -/

theorem length_root_le_of_longest {libraries : List Library} {library : Library}
    (found : longest libraries = some library) :
    ∀ other ∈ libraries, other.root.length ≤ library.root.length := by
  induction libraries generalizing library with
  | nil => exact List.forall_mem_nil _
  | cons head rest induction =>
      simp only [longest] at found
      split at found
      next isNone =>
        cases found
        rw [longest_eq_none_iff.1 isNone]
        exact List.forall_mem_singleton.2 (Nat.le_refl _)
      next best isBest =>
        have bounded := induction isBest
        split at found <;> cases found
        next shorter => exact List.forall_mem_cons.2 ⟨Nat.le_of_lt shorter, bounded⟩
        next longer =>
          refine List.forall_mem_cons.2 ⟨Nat.le_refl _, fun other member => ?_⟩
          have := bounded other member
          omega

structure IsOwner (libraries : List Library) (path : String) (library : Library) : Prop where
  registered : Registers libraries library
  owns : Owns library.root path
  longest : ∀ other, Registers libraries other → Owns other.root path →
    other.root ≠ library.root → other.root.length < library.root.length

theorem mem_owning_iff {libraries : List Library} {path : String} {library : Library} :
    library ∈ (ofLibraries libraries).libraries.filter (fun other => other.owns path) ↔
      Registers libraries library ∧ Owns library.root path := by
  rw [List.mem_filter, mem_ofLibraries_iff, owns_iff]

theorem IsOwner.of_find {libraries : List Library} {path : String} {library : Library}
    (found : (ofLibraries libraries).find path = some library) :
    IsOwner libraries path library := by
  rcases mem_owning_iff.1 (mem_of_longest found) with ⟨registered, owns⟩
  refine ⟨registered, owns, fun other isRegistered otherOwns different => ?_⟩
  have bounded : other.root.length ≤ library.root.length :=
    length_root_le_of_longest found other (mem_owning_iff.2 ⟨isRegistered, otherOwns⟩)
  exact Nat.lt_of_le_of_ne bounded fun same => different (owns.eq_of_length_eq otherOwns same)

theorem IsOwner.unique {libraries : List Library} {path : String} {library other : Library}
    (isOwner : IsOwner libraries path library) (otherIsOwner : IsOwner libraries path other) :
    other = library := by
  have same : other.root = library.root := by
    by_contra different
    have shorter := isOwner.longest other otherIsOwner.registered otherIsOwner.owns different
    have longer := otherIsOwner.longest library isOwner.registered isOwner.owns (Ne.symm different)
    omega
  have known := mem_libraries_iff.1 (mem_ofLibraries_iff.2 isOwner.registered)
  have otherKnown := mem_libraries_iff.1 (mem_ofLibraries_iff.2 otherIsOwner.registered)
  rw [same, known] at otherKnown
  exact (Option.some.inj otherKnown).symm

theorem find_ofLibraries_eq_none_iff {libraries : List Library} {path : String} :
    (ofLibraries libraries).find path = none ↔
      ∀ library, Registers libraries library → ¬Owns library.root path := by
  simp only [find_eq_none_iff, mem_ofLibraries_iff, owns_iff]

theorem find_ofLibraries_eq_some_iff {libraries : List Library} {path : String}
    {library : Library} :
    (ofLibraries libraries).find path = some library ↔ IsOwner libraries path library := by
  constructor
  · exact IsOwner.of_find
  · intro isOwner
    cases found : (ofLibraries libraries).find path with
    | none =>
        have unowned := find_ofLibraries_eq_none_iff.1 found library isOwner.registered
        exact absurd isOwner.owns unowned
    | some other => rw [isOwner.unique (IsOwner.of_find found)]

/-- The library that is found for a path is its owner, nothing is found exactly for a path that no
registered root owns, and lists that register the same libraries find the same. -/
theorem find_isOwner (libraries : List Library) (path : String) :
    (∀ library, (ofLibraries libraries).find path = some library ↔
      IsOwner libraries path library) ∧
    ((ofLibraries libraries).find path = none ↔
      ∀ library, Registers libraries library → ¬Owns library.root path) ∧
    ∀ others : List Library,
      (∀ library, Registers others library ↔ Registers libraries library) →
      (ofLibraries others).find path = (ofLibraries libraries).find path := by
  refine ⟨fun library => find_ofLibraries_eq_some_iff, find_ofLibraries_eq_none_iff, ?_⟩
  intro others same
  apply Option.ext
  intro library
  have sameOwner : IsOwner others path library ↔ IsOwner libraries path library :=
    ⟨fun isOwner => ⟨(same library).1 isOwner.registered, isOwner.owns,
        fun other registered => isOwner.longest other ((same other).2 registered)⟩,
      fun isOwner => ⟨(same library).2 isOwner.registered, isOwner.owns,
        fun other registered => isOwner.longest other ((same other).1 registered)⟩⟩
  rw [find_ofLibraries_eq_some_iff, find_ofLibraries_eq_some_iff, sameOwner]

def scopeLibrary : Library := { Library.uniswapThree with root := "@uniswap" }

theorem find_of_scope :
    IsOwner [scopeLibrary, .uniswapThree] "@uniswap/v3-core/pool.sol" .uniswapThree ∧
      (ofLibraries [.uniswapThree, scopeLibrary]).find "@uniswap/v3-core/pool.sol" =
        (ofLibraries [scopeLibrary, .uniswapThree]).find "@uniswap/v3-core/pool.sol" := by
  have isOwner := find_isOwner [scopeLibrary, .uniswapThree] "@uniswap/v3-core/pool.sol"
  constructor
  · apply (isOwner.1 .uniswapThree).1
    rfl
  · apply isOwner.2.2
    intro library
    have apart : scopeLibrary.root ≠ Library.uniswapThree.root := by decide
    rw [registers_pair_iff apart, registers_pair_iff apart.symm, or_comm]

end Registry

end SourceTree
