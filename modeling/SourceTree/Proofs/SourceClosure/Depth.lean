import Mathlib.Data.Set.Card
import Mathlib.Logic.Relation
import SourceTree.ImportLookup
import SourceTree.Proofs.ImportPath
import SourceTree.Proofs.SourceClosure.Progress

/-! # When the closure of sources ends

Contents come from finitely many places, so all keys are spelled with finitely many segments, and
a run can only go on for ever by entering deeper and deeper directories. It does so when an import
that is found by its spelling alone leads back to the same spelling, since the copy is then keyed
one directory further down each time. Where no spelling leads back to itself every run ends. -/

namespace SourceTree.SourceClosure

open ImportPath

variable {lookup : String → Except String String} {sources : Listing String String}

def answered (lookup : String → Except String String) : Set String :=
  {path | ∃ content, lookup path = .ok content}

def texts (lookup : String → Except String String) (sources : Listing String String) : Set String :=
  {content | content ∈ sources.values ∨ ∃ path, lookup path = .ok content}

def alphabet (lookup : String → Except String String) (sources : Listing String String) :
    Set Segment :=
  {[]} ∪ (⋃ key ∈ {key | key ∈ sources.keys}, {segment | segment ∈ segments key.toList}) ∪
    ⋃ content ∈ texts lookup sources, ⋃ path ∈ {path | path ∈ importPaths content},
      {segment | segment ∈ segments path.toList}

theorem finite_texts (sources : Listing String String) (finite : (answered lookup).Finite) :
    (texts lookup sources).Finite := by
  have given : {content | content ∈ sources.values}.Finite := List.finite_toSet sources.values
  have found := finite.image fun path => (lookup path).toOption.getD ""
  refine (given.union found).subset ?_
  rintro content (isGiven | ⟨path, isFound⟩)
  · exact Or.inl isGiven
  · refine Or.inr ⟨path, ⟨content, isFound⟩, ?_⟩
    simp [isFound, Except.toOption]

theorem finite_alphabet (sources : Listing String String) (finite : (answered lookup).Finite) :
    (alphabet lookup sources).Finite := by
  refine ((Set.finite_singleton []).union ?_).union ?_
  · exact (List.finite_toSet sources.keys).biUnion fun key _ => List.finite_toSet _
  · exact (finite_texts sources finite).biUnion fun content _ =>
      (List.finite_toSet (importPaths content)).biUnion fun path _ => List.finite_toSet _

theorem text_of_provide {path key content : String}
    (found : provide lookup path key = .ok content) : content ∈ texts lookup sources := by
  rcases provide_eq_ok_iff.1 found with atKey | ⟨_, _, asWritten⟩
  · exact Or.inr ⟨key, atKey⟩
  · exact Or.inr ⟨path, asWritten⟩

theorem spelled_advance (steps : Nat) {key content : String}
    (collected : (advance lookup steps (start sources)).closure.sources.get? key = some content) :
    (∀ segment ∈ segments key.toList, segment ∈ alphabet lookup sources) ∧
      content ∈ texts lookup sources := by
  refine advance_entries (motive := fun key content =>
    (∀ segment ∈ segments key.toList, segment ∈ alphabet lookup sources) ∧
      content ∈ texts lookup sources) ?_ steps ?_ collected
  · intro importer content path text good member found
    refine ⟨fun segment inKey => ?_, text_of_provide found⟩
    rcases mem_segments_meantIn inKey with isEmpty | inImporter | inPath
    · exact Or.inl (Or.inl isEmpty)
    · exact good.1 segment inImporter
    · exact Or.inr (Set.mem_biUnion good.2 (Set.mem_biUnion member inPath))
  · intro key content given
    have entry := Listing.get?_eq_some_iff.1 given
    refine ⟨fun segment inKey => ?_, Or.inl (Listing.mem_values_iff.2 ⟨key, entry⟩)⟩
    exact Or.inl (Or.inr (Set.mem_biUnion (Listing.mem_of_mem_entries entry) inKey))

theorem keys_subset_of_le {first second : Nat} (earlier : first ≤ second) {progress : Progress}
    {key : String} (collected : key ∈ (advance lookup first progress).closure.sources) :
    key ∈ (advance lookup second progress).closure.sources := by
  rcases Listing.mem_iff_get?.1 collected with ⟨content, found⟩
  rcases Nat.exists_eq_add_of_le earlier with ⟨more, rfl⟩
  rw [advance_add]
  exact Listing.mem_of_get?_eq_some (advance_preserves
    (motive := fun closure => closure.sources.get? key = some content)
    (fun _ _ _ _ _ holds _ _ step => step.get?_eq_some holds) more found)

/-- A run whose keys are confined to finitely many paths ends, since it visits a new key at every
step. -/
theorem ends_of_confined (paths : Finset String)
    (confined : ∀ steps, ∀ key ∈ (advance lookup steps (start sources)).closure.sources,
      key ∈ paths) : Ends lookup sources := by
  refine (ends_iff sources).2 ⟨paths.card + 1, ?_⟩
  by_contra unfinished
  rcases accounts_advance lookup (paths.card + 1) (accounts_start sources) with
    ⟨visited, accounts, count⟩
  have within : (advance lookup (paths.card + 1) (start sources)).closure.sources.keys.toFinset ⊆
      paths := fun key member => confined (paths.card + 1) key (List.mem_toFinset.1 member)
  have fits := Finset.card_le_card within
  rw [List.toFinset_card_of_nodup (Listing.nodup_keys _), accounts.keysListed, List.length_append,
    List.nil_append, count unfinished] at fits
  omega

theorem ends_of_depth_bounded (finite : (answered lookup).Finite) (limit : Nat)
    (shallow : ∀ steps, ∀ key ∈ (advance lookup steps (start sources)).closure.sources,
      depth key ≤ limit) : Ends lookup sources := by
  have paths := finite_of_depth_le (finite_alphabet sources finite) limit
  refine ends_of_confined paths.toFinset fun steps key collected => ?_
  rcases Listing.mem_iff_get?.1 collected with ⟨content, found⟩
  exact paths.mem_toFinset.2 ⟨(spelled_advance steps found).1, shallow steps key collected⟩

theorem depth_bounded_of_ends (ended : Ends lookup sources) :
    ∃ limit, ∀ steps, ∀ key ∈ (advance lookup steps (start sources)).closure.sources,
      depth key ≤ limit := by
  rcases (ends_iff sources).1 ended with ⟨last, empty⟩
  refine ⟨(advance lookup last (start sources)).closure.sources.keys.toFinset.sup depth, ?_⟩
  intro steps key collected
  have inLast : key ∈ (advance lookup last (start sources)).closure.sources := by
    rcases Nat.le_total steps last with before | after
    · exact keys_subset_of_le before collected
    · rcases Nat.exists_eq_add_of_le after with ⟨more, rfl⟩
      rw [advance_add, advance_of_queue_empty empty] at collected
      exact collected
  exact Finset.le_sup (List.mem_toFinset.2 inLast)

/-! ## Spellings that lead to spellings -/

/-- Whether the content found for a spelling imports a relative path that is found as it is
spelled. -/
def Leads (lookup : String → Except String String) (spelling next : String) : Prop :=
  next ∈ answered lookup ∧
    ∃ content, lookup spelling = .ok content ∧ next ∈ importPaths content ∧ isRelative next = true

noncomputable def rank (lookup : String → Except String String) (spelling : String) : Nat :=
  {earlier | Relation.ReflTransGen (Leads lookup) earlier spelling}.ncard

theorem finite_leading (finite : (answered lookup).Finite) {spelling : String}
    (found : spelling ∈ answered lookup) :
    {earlier | Relation.ReflTransGen (Leads lookup) earlier spelling}.Finite := by
  refine finite.subset ?_
  rintro earlier leads
  rcases Relation.ReflTransGen.cases_head leads with equal | ⟨next, ⟨_, content, isFound, _⟩, _⟩
  · exact equal ▸ found
  · exact ⟨content, isFound⟩

theorem one_le_rank (finite : (answered lookup).Finite) {spelling : String}
    (found : spelling ∈ answered lookup) : 1 ≤ rank lookup spelling :=
  (Set.ncard_pos (finite_leading finite found)).2 ⟨spelling, .refl⟩

theorem rank_le (finite : (answered lookup).Finite) {spelling : String}
    (found : spelling ∈ answered lookup) : rank lookup spelling ≤ (answered lookup).ncard := by
  refine Set.ncard_le_ncard ?_ finite
  intro earlier leads
  rcases Relation.ReflTransGen.cases_head leads with equal | ⟨next, ⟨_, content, isFound, _⟩, _⟩
  · exact equal ▸ found
  · exact ⟨content, isFound⟩

theorem rank_lt_of_leads (finite : (answered lookup).Finite)
    (loopless : ∀ spelling, ¬Relation.TransGen (Leads lookup) spelling spelling)
    {spelling next : String} (leads : Leads lookup spelling next) :
    rank lookup spelling < rank lookup next := by
  refine Set.ncard_lt_ncard ⟨fun earlier before => before.tail leads, ?_⟩
    (finite_leading finite leads.1)
  intro back
  have returns : Relation.ReflTransGen (Leads lookup) next spelling := back .refl
  exact loopless spelling (Relation.TransGen.head' leads returns)

theorem exists_bound_of_finite {α : Type} {values : Set α} (finite : values.Finite)
    (size : α → Nat) : ∃ bound, ∀ value ∈ values, size value ≤ bound := by
  rcases (finite.image size).bddAbove with ⟨bound, isBound⟩
  exact ⟨bound, fun value member => isBound ⟨value, member, rfl⟩⟩

/-- A source whose content was found by a spelling alone lies no deeper than the ranks of the
spellings on the way to it allow; every other source is a given or a found one. -/
theorem depth_advance_le (finite : (answered lookup).Finite)
    (loopless : ∀ spelling, ¬Relation.TransGen (Leads lookup) spelling spelling)
    {base width : Nat} (given : ∀ key ∈ sources.keys, depth key ≤ base)
    (found : ∀ key ∈ answered lookup, depth key ≤ base)
    (narrow : ∀ content ∈ texts lookup sources, ∀ path ∈ importPaths content,
      (segments path.toList).length ≤ width)
    (steps : Nat) {key content : String}
    (collected : (advance lookup steps (start sources)).closure.sources.get? key = some content) :
    content ∈ texts lookup sources ∧
      (depth key ≤ base ∨ ∃ spelling, lookup spelling = .ok content ∧
        depth key ≤ base + width * rank lookup spelling) := by
  revert collected
  apply advance_entries (motive := fun key content => content ∈ texts lookup sources ∧
    (depth key ≤ base ∨ ∃ spelling, lookup spelling = .ok content ∧
      depth key ≤ base + width * rank lookup spelling))
  -- A source that is found at its key is no deeper than the base; otherwise its spelling is ranked.
  · intro importer content path text good member provided
    refine ⟨text_of_provide provided, ?_⟩
    rcases provide_eq_ok_iff.1 provided with atKey | ⟨_, different, asWritten⟩
    · exact Or.inl (found _ ⟨text, atKey⟩)
    · refine Or.inr ⟨path, asWritten, ?_⟩
      have deeper := depth_meantIn_le importer path
      have short := narrow content good.1 path member
      rcases good.2 with shallow | ⟨spelling, isFound, shallow⟩
      · have positive := one_le_rank finite ⟨text, asWritten⟩
        have room : width ≤ width * rank lookup path := Nat.le_mul_of_pos_right width positive
        omega
      · -- The importer was found by a spelling alone too, whose rank is lower by one at least.
        have leads : Leads lookup spelling path :=
          ⟨⟨text, asWritten⟩, content, isFound, member, isRelative_of_meantIn_ne different⟩
        have lower := rank_lt_of_leads finite loopless leads
        have room : width * (rank lookup spelling + 1) ≤ width * rank lookup path :=
          Nat.mul_le_mul_left width lower
        rw [Nat.mul_succ] at room
        omega
  · intro key content isGiven
    have entry := Listing.get?_eq_some_iff.1 isGiven
    exact ⟨Or.inl (Listing.mem_values_iff.2 ⟨key, entry⟩),
      Or.inl (given key (Listing.mem_of_mem_entries entry))⟩

theorem ends_of_loopless (finite : (answered lookup).Finite)
    (loopless : ∀ spelling, ¬Relation.TransGen (Leads lookup) spelling spelling) :
    Ends lookup sources := by
  have keys : ({key | key ∈ sources.keys} ∪ answered lookup).Finite :=
    (List.finite_toSet sources.keys).union finite
  rcases exists_bound_of_finite keys depth with ⟨base, based⟩
  have paths : (⋃ content ∈ texts lookup sources, {path | path ∈ importPaths content}).Finite :=
    (finite_texts sources finite).biUnion fun content _ => List.finite_toSet (importPaths content)
  rcases exists_bound_of_finite paths fun path => (segments path.toList).length with
    ⟨width, narrow⟩
  apply ends_of_depth_bounded finite (base + width * (answered lookup).ncard)
  intro steps key collected
  rcases Listing.mem_iff_get?.1 collected with ⟨content, found⟩
  have placed := depth_advance_le finite loopless
    (fun key member => based key (Or.inl member)) (fun key member => based key (Or.inr member))
    (fun content isText path member =>
      narrow path (Set.mem_biUnion isText member)) steps found
  rcases placed.2 with shallow | ⟨spelling, isFound, shallow⟩
  · omega
  · have low := rank_le finite ⟨content, isFound⟩
    have room : width * rank lookup spelling ≤ width * (answered lookup).ncard :=
      Nat.mul_le_mul_left width low
    omega

end SourceTree.SourceClosure
