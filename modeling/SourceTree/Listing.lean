/-! # Listings

A listing maps keys to values and remembers the order in which its keys were first written.
Writing a key again replaces its value and keeps its place. Every operation keeps the keys
distinct, so the type carries that fact. -/

namespace SourceTree

structure Listing (κ ν : Type) where
  entries : List (κ × ν)
  keysDistinct : (entries.map Prod.fst).Nodup

namespace Listing

variable {κ ν : Type}

@[ext] theorem ext {left right : Listing κ ν} (equal : left.entries = right.entries) :
    left = right := by
  cases left
  cases right
  cases equal
  rfl

def empty : Listing κ ν := ⟨[], by simp⟩

instance : EmptyCollection (Listing κ ν) := ⟨empty⟩

instance : Inhabited (Listing κ ν) := ⟨empty⟩

def keys (listing : Listing κ ν) : List κ :=
  listing.entries.map Prod.fst

theorem nodup_keys (listing : Listing κ ν) : listing.keys.Nodup :=
  listing.keysDistinct

def values (listing : Listing κ ν) : List ν :=
  listing.entries.map Prod.snd

def size (listing : Listing κ ν) : Nat :=
  listing.entries.length

def isEmpty (listing : Listing κ ν) : Bool :=
  listing.entries.isEmpty

instance : Membership κ (Listing κ ν) := ⟨fun listing key => key ∈ listing.keys⟩

theorem mem_iff {listing : Listing κ ν} {key : κ} : key ∈ listing ↔ key ∈ listing.keys :=
  Iff.rfl

def mapValues {μ : Type} (transform : ν → μ) (listing : Listing κ ν) : Listing κ μ where
  entries := listing.entries.map fun entry => (entry.1, transform entry.2)
  keysDistinct := by
    have same : (fun entry : κ × μ => entry.1) ∘ (fun entry : κ × ν => (entry.1, transform entry.2))
        = Prod.fst := rfl
    rw [List.map_map, same]
    exact listing.keysDistinct

section

variable [DecidableEq κ]

instance (key : κ) (listing : Listing κ ν) : Decidable (key ∈ listing) :=
  inferInstanceAs (Decidable (key ∈ listing.keys))

def contains (listing : Listing κ ν) (key : κ) : Bool :=
  decide (key ∈ listing)

def valueIn (key : κ) : List (κ × ν) → Option ν
  | [] => none
  | (head, value) :: rest => if head = key then some value else valueIn key rest

def get? (listing : Listing κ ν) (key : κ) : Option ν :=
  valueIn key listing.entries

/-! ## Writing -/

def replaceIn (key : κ) (value : ν) (entries : List (κ × ν)) : List (κ × ν) :=
  entries.map fun entry => if entry.1 = key then (key, value) else entry

@[simp] theorem map_fst_replaceIn (key : κ) (value : ν) (entries : List (κ × ν)) :
    (replaceIn key value entries).map Prod.fst = entries.map Prod.fst := by
  induction entries with
  | nil => rfl
  | cons entry rest induction =>
      have head : (if entry.1 = key then (key, value) else entry).1 = entry.1 := by
        split
        next equal => exact equal.symm
        next => rfl
      simp only [replaceIn, List.map_cons, head, List.cons.injEq, true_and]
      exact induction

/-- Write a value at a key: in place when the key is present, at the end otherwise. -/
def insert (listing : Listing κ ν) (key : κ) (value : ν) : Listing κ ν :=
  if present : key ∈ listing then
    ⟨replaceIn key value listing.entries, by
      rw [map_fst_replaceIn]
      exact listing.keysDistinct⟩
  else
    ⟨listing.entries ++ [(key, value)], by
      rw [List.map_append, List.nodup_append]
      refine ⟨listing.keysDistinct, by simp, ?_⟩
      intro left leftMember right rightMember equal
      simp only [List.map_cons, List.map_nil, List.mem_singleton] at rightMember
      subst rightMember
      subst equal
      exact present leftMember⟩

def erase (listing : Listing κ ν) (key : κ) : Listing κ ν where
  entries := listing.entries.filter fun entry => entry.1 ≠ key
  keysDistinct :=
    List.Nodup.sublist ((List.filter_sublist).map Prod.fst) listing.keysDistinct

def insertAll (listing : Listing κ ν) (entries : List (κ × ν)) : Listing κ ν :=
  entries.foldl (fun current entry => current.insert entry.1 entry.2) listing

def ofList (entries : List (κ × ν)) : Listing κ ν :=
  insertAll empty entries

def merge (first second : Listing κ ν) : Listing κ ν :=
  first.insertAll second.entries

/-! ## What each operation does to the keys and to the values -/

omit [DecidableEq κ] in
omit [DecidableEq κ] in
theorem length_keys (listing : Listing κ ν) : listing.keys.length = listing.size :=
  List.length_map Prod.fst

omit [DecidableEq κ] in
@[simp] theorem keys_mapValues {μ : Type} (transform : ν → μ) (listing : Listing κ ν) :
    (listing.mapValues transform).keys = listing.keys := by
  simp only [keys, mapValues, List.map_map]
  rfl

theorem keys_insert (listing : Listing κ ν) (key : κ) (value : ν) :
    (listing.insert key value).keys =
      if key ∈ listing then listing.keys else listing.keys ++ [key] := by
  unfold insert
  split
  · simp [keys]
  · simp [keys]

@[simp] theorem mem_insert (listing : Listing κ ν) (key other : κ) (value : ν) :
    other ∈ listing.insert key value ↔ other = key ∨ other ∈ listing := by
  rw [mem_iff, keys_insert]
  split
  next present =>
    constructor
    · exact Or.inr
    · rintro (equal | member)
      · exact equal ▸ present
      · exact member
  next => simp [mem_iff, or_comm]

theorem mem_entries_insert {listing : Listing κ ν} {key : κ} {value : ν} {entry : κ × ν}
    (member : entry ∈ (listing.insert key value).entries) :
    entry = (key, value) ∨ entry ∈ listing.entries := by
  unfold insert at member
  split at member
  · rcases List.mem_map.1 member with ⟨old, isOld, rfl⟩
    split
    · exact Or.inl rfl
    · exact Or.inr isOld
  · rcases List.mem_append.1 member with old | new
    · exact Or.inr old
    · exact Or.inl (List.mem_singleton.1 new)

theorem mem_erase (listing : Listing κ ν) (key other : κ) :
    other ∈ listing.erase key ↔ other ≠ key ∧ other ∈ listing := by
  simp only [mem_iff, keys, erase, List.mem_map, List.mem_filter, decide_eq_true_eq]
  constructor
  · rintro ⟨entry, ⟨member, different⟩, rfl⟩
    exact ⟨different, entry, member, rfl⟩
  · rintro ⟨different, entry, member, rfl⟩
    exact ⟨entry, ⟨member, different⟩, rfl⟩

theorem valueIn_eq_none_iff (key : κ) (entries : List (κ × ν)) :
    valueIn key entries = none ↔ key ∉ entries.map Prod.fst := by
  induction entries with
  | nil => simp [valueIn]
  | cons entry rest induction =>
      by_cases equal : entry.1 = key
      · simp [valueIn, equal]
      · have flipped : ¬key = entry.1 := fun same => equal same.symm
        simpa [valueIn, equal, flipped] using induction

theorem valueIn_append (key : κ) (front back : List (κ × ν)) :
    valueIn key (front ++ back) = (valueIn key front).or (valueIn key back) := by
  induction front with
  | nil => simp [valueIn]
  | cons entry rest induction =>
      by_cases equal : entry.1 = key
      · simp [valueIn, equal]
      · simpa [valueIn, equal] using induction

theorem valueIn_replaceIn (key other : κ) (value : ν) (entries : List (κ × ν)) :
    valueIn other (replaceIn key value entries) =
      if other = key ∧ key ∈ entries.map Prod.fst then some value
      else valueIn other entries := by
  induction entries with
  | nil => simp [replaceIn, valueIn]
  | cons entry rest induction =>
      rcases entry with ⟨head, headValue⟩
      simp only [replaceIn, List.map_cons] at induction ⊢
      by_cases atKey : head = key
      · subst atKey
        by_cases atOther : head = other
        · subst atOther
          simp [valueIn]
        · have flipped : ¬other = head := fun equal => atOther equal.symm
          simpa [valueIn, atOther, flipped] using induction
      · have keyFlipped : ¬key = head := fun equal => atKey equal.symm
        by_cases atOther : head = other
        · subst atOther
          simp [valueIn, atKey]
        · simp only [if_neg atKey, valueIn, if_neg atOther, List.mem_cons, keyFlipped, false_or]
          exact induction

theorem valueIn_filter_ne (key other : κ) (entries : List (κ × ν)) :
    valueIn other (entries.filter fun entry => entry.1 ≠ key) =
      if other = key then none else valueIn other entries := by
  induction entries with
  | nil => simp [valueIn]
  | cons entry rest induction =>
      by_cases atKey : entry.1 = key
      · by_cases equal : other = key
        · simpa [atKey, equal] using induction
        · have different : ¬key = other := fun same => equal same.symm
          simpa [valueIn, atKey, equal, different] using induction
      · by_cases atOther : entry.1 = other
        · have different : ¬other = key := fun same => atKey (atOther.trans same)
          simp [valueIn, atOther, different]
        · simpa [valueIn, atKey, atOther] using induction

theorem get?_eq_none_iff (listing : Listing κ ν) (key : κ) :
    listing.get? key = none ↔ key ∉ listing :=
  valueIn_eq_none_iff key listing.entries

theorem get?_insert (listing : Listing κ ν) (key other : κ) (value : ν) :
    (listing.insert key value).get? other =
      if other = key then some value else listing.get? other := by
  unfold insert
  split
  next present =>
    have found : key ∈ listing.entries.map Prod.fst := present
    simp only [get?, valueIn_replaceIn, found, and_true]
  next absent =>
    have missing : valueIn key listing.entries = none :=
      (valueIn_eq_none_iff key listing.entries).2 absent
    by_cases equal : other = key
    · subst equal
      simp [get?, valueIn_append, missing, valueIn]
    · have flipped : ¬key = other := fun same => equal same.symm
      simp [get?, valueIn_append, valueIn, equal, flipped]

@[simp] theorem get?_insert_self (listing : Listing κ ν) (key : κ) (value : ν) :
    (listing.insert key value).get? key = some value := by
  simp [get?_insert]

theorem get?_insert_of_ne (listing : Listing κ ν) {key other : κ} (different : other ≠ key)
    (value : ν) : (listing.insert key value).get? other = listing.get? other := by
  simp [get?_insert, different]

theorem get?_erase (listing : Listing κ ν) (key other : κ) :
    (listing.erase key).get? other = if other = key then none else listing.get? other :=
  valueIn_filter_ne key other listing.entries

theorem valueIn_eq_some_iff {entries : List (κ × ν)} (distinct : (entries.map Prod.fst).Nodup)
    (key : κ) (value : ν) : valueIn key entries = some value ↔ (key, value) ∈ entries := by
  induction entries with
  | nil => simp [valueIn]
  | cons entry rest induction =>
      rcases entry with ⟨head, headValue⟩
      rcases List.nodup_cons.1 distinct with ⟨fresh, restDistinct⟩
      by_cases equal : head = key
      · subst equal
        have absent : (head, value) ∉ rest := fun member =>
          fresh (List.mem_map.2 ⟨(head, value), member, rfl⟩)
        simp [valueIn, absent, eq_comm]
      · have flipped : ¬key = head := fun same => equal same.symm
        simpa [valueIn, equal, flipped] using induction restDistinct

theorem get?_eq_some_iff {listing : Listing κ ν} {key : κ} {value : ν} :
    listing.get? key = some value ↔ (key, value) ∈ listing.entries :=
  valueIn_eq_some_iff listing.keysDistinct key value

theorem mem_iff_get? {listing : Listing κ ν} {key : κ} :
    key ∈ listing ↔ ∃ value, listing.get? key = some value := by
  rw [← Option.ne_none_iff_exists', Ne, get?_eq_none_iff, Classical.not_not]

omit [DecidableEq κ] in
theorem mem_of_mem_entries {listing : Listing κ ν} {key : κ} {value : ν}
    (member : (key, value) ∈ listing.entries) : key ∈ listing :=
  List.mem_map.2 ⟨(key, value), member, rfl⟩

theorem mem_of_get?_eq_some {listing : Listing κ ν} {key : κ} {value : ν}
    (found : listing.get? key = some value) : key ∈ listing :=
  mem_of_mem_entries (get?_eq_some_iff.1 found)

omit [DecidableEq κ] in
theorem mem_values_iff {listing : Listing κ ν} {value : ν} :
    value ∈ listing.values ↔ ∃ key, (key, value) ∈ listing.entries := by
  simp [values]

@[simp] theorem get?_empty (key : κ) : (empty : Listing κ ν).get? key = none := rfl

omit [DecidableEq κ] in
@[simp] theorem not_mem_empty (key : κ) : key ∉ (empty : Listing κ ν) :=
  List.not_mem_nil

theorem entries_insert_of_not_mem {listing : Listing κ ν} {key : κ} (absent : key ∉ listing)
    (value : ν) : (listing.insert key value).entries = listing.entries ++ [(key, value)] := by
  simp [insert, absent]

/-! ## Writing many entries -/

theorem mem_insertAll (listing : Listing κ ν) (entries : List (κ × ν)) (key : κ) :
    key ∈ listing.insertAll entries ↔ key ∈ listing ∨ key ∈ entries.map Prod.fst := by
  induction entries generalizing listing with
  | nil => simp [insertAll]
  | cons entry rest induction =>
      have tail := induction (listing.insert entry.1 entry.2)
      rw [mem_insert] at tail
      simp only [insertAll, List.foldl_cons, List.map_cons, List.mem_cons] at tail ⊢
      rw [tail, or_assoc, or_left_comm]

theorem get?_insertAll (listing : Listing κ ν) {entries : List (κ × ν)}
    (distinct : (entries.map Prod.fst).Nodup) (key : κ) :
    (listing.insertAll entries).get? key = (valueIn key entries).or (listing.get? key) := by
  induction entries generalizing listing with
  | nil => simp [insertAll, valueIn]
  | cons entry rest induction =>
      rcases entry with ⟨head, headValue⟩
      rcases List.nodup_cons.1 distinct with ⟨fresh, restDistinct⟩
      have tail := induction (listing.insert head headValue) restDistinct
      simp only [insertAll, List.foldl_cons] at tail ⊢
      rw [tail, get?_insert]
      by_cases equal : head = key
      · subst equal
        have missing : valueIn head rest = none := (valueIn_eq_none_iff head rest).2 fresh
        simp [valueIn, missing]
      · have flipped : ¬key = head := fun same => equal same.symm
        simp [valueIn, equal, flipped]

theorem entries_insertAll_of_fresh (listing : Listing κ ν) {entries : List (κ × ν)}
    (distinct : (entries.map Prod.fst).Nodup)
    (fresh : ∀ key ∈ entries.map Prod.fst, key ∉ listing) :
    (listing.insertAll entries).entries = listing.entries ++ entries := by
  induction entries generalizing listing with
  | nil => simp [insertAll]
  | cons entry rest induction =>
      rcases List.nodup_cons.1 distinct with ⟨notAgain, restDistinct⟩
      have tail := induction (listing.insert entry.1 entry.2) restDistinct (by
        intro key inRest present
        rcases (mem_insert _ _ _ _).1 present with equal | earlier
        · exact notAgain (equal ▸ inRest)
        · exact fresh key (List.mem_cons_of_mem _ inRest) earlier)
      simp only [insertAll, List.foldl_cons] at tail ⊢
      rw [tail, entries_insert_of_not_mem (fresh entry.1 List.mem_cons_self), List.append_assoc]
      rfl

@[simp] theorem mem_merge (first second : Listing κ ν) (key : κ) :
    key ∈ first.merge second ↔ key ∈ first ∨ key ∈ second :=
  mem_insertAll first second.entries key

theorem get?_merge (first second : Listing κ ν) (key : κ) :
    (first.merge second).get? key = (second.get? key).or (first.get? key) :=
  get?_insertAll first second.keysDistinct key

end

end Listing

end SourceTree
