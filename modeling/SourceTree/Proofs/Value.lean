import SourceTree.Value.Part

/-! # Values taken apart

Facts about steps that may fail, and about values from which a part could be taken. -/

namespace SourceTree

/-! ## Steps that may fail -/

section Steps

variable {α β ε δ : Type}

theorem bind_eq_ok_iff {step : Except ε α} {next : α → Except ε β} {result : β} :
    step >>= next = .ok result ↔ ∃ middle, step = .ok middle ∧ next middle = .ok result := by
  cases step <;> simp [bind, Except.bind]

theorem bind_eq_error_iff {step : Except ε α} {next : α → Except ε β} {fault : ε} :
    step >>= next = .error fault ↔
      step = .error fault ∨ ∃ middle, step = .ok middle ∧ next middle = .error fault := by
  cases step <;> simp [bind, Except.bind]

theorem map_eq_ok_iff {step : Except ε α} {transform : α → β} {result : β} :
    step.map transform = .ok result ↔ ∃ middle, step = .ok middle ∧ transform middle = result := by
  cases step <;> simp [Except.map]

theorem map_eq_error_iff {step : Except ε α} {transform : α → β} {fault : ε} :
    step.map transform = .error fault ↔ step = .error fault := by
  cases step <;> simp [Except.map]

theorem mapError_eq_ok_iff {step : Except ε α} {transform : ε → δ} {result : α} :
    step.mapError transform = .ok result ↔ step = .ok result := by
  cases step with
  | error cause => exact ⟨nofun, nofun⟩
  | ok value =>
      constructor
      · rintro ⟨⟩
        rfl
      · rintro ⟨⟩
        rfl

theorem mapError_eq_error_iff {step : Except ε α} {transform : ε → δ} {fault : δ} :
    step.mapError transform = .error fault ↔
      ∃ cause, step = .error cause ∧ transform cause = fault := by
  cases step with
  | error cause =>
      constructor
      · rintro ⟨⟩
        exact ⟨cause, rfl, rfl⟩
      · rintro ⟨_, ⟨⟩, rfl⟩
        rfl
  | ok value => exact ⟨nofun, fun ⟨_, absurd, _⟩ => nomatch absurd⟩

/-! ### Steps along a list -/

/-- A fold whose steps fail for nothing but their items goes like one whose steps do not fail, if it
gets through. -/
theorem foldlM_eq_ok_iff {step : β → α → Except ε β} {next : β → α → β} {passes : α → Prop}
    (steps : ∀ state item result,
      step state item = .ok result ↔ passes item ∧ result = next state item)
    {items : List α} {state result : β} :
    items.foldlM step state = .ok result ↔
      (∀ item ∈ items, passes item) ∧ result = items.foldl next state := by
  induction items generalizing state with
  | nil => simp [pure, Except.pure, eq_comm]
  | cons item rest induction =>
      rw [List.foldlM_cons, bind_eq_ok_iff, List.foldl_cons, List.forall_mem_cons]
      constructor
      · rintro ⟨middle, isMiddle, further⟩
        rcases (steps _ _ _).1 isMiddle with ⟨first, rfl⟩
        rcases induction.1 further with ⟨others, last⟩
        exact ⟨⟨first, others⟩, last⟩
      · rintro ⟨⟨first, others⟩, last⟩
        exact ⟨_, (steps _ _ _).2 ⟨first, rfl⟩, induction.2 ⟨others, last⟩⟩

theorem exists_of_foldlM_eq_error {step : β → α → Except ε β} {items : List α} {state : β}
    {fault : ε} (failed : items.foldlM step state = .error fault) :
    ∃ item ∈ items, ∃ before, step before item = .error fault := by
  induction items generalizing state with
  | nil => cases failed
  | cons item rest induction =>
      rw [List.foldlM_cons] at failed
      rcases bind_eq_error_iff.1 failed with now | ⟨middle, -, later⟩
      · exact ⟨item, List.mem_cons_self, state, now⟩
      · rcases induction later with ⟨other, inRest, found⟩
        exact ⟨other, List.mem_cons_of_mem item inRest, found⟩

theorem exists_of_findM?_eq_error {verdict : α → Except ε Bool} {items : List α} {fault : ε}
    (failed : items.findM? verdict = .error fault) :
    ∃ item ∈ items, verdict item = .error fault := by
  induction items with
  | nil => cases failed
  | cons item rest induction =>
      rw [List.findM?] at failed
      rcases bind_eq_error_iff.1 failed with now | ⟨found, -, later⟩
      · exact ⟨item, List.mem_cons_self, now⟩
      · cases found with
        | true => cases later
        | false =>
            rcases induction later with ⟨other, inRest, isFault⟩
            exact ⟨other, List.mem_cons_of_mem item inRest, isFault⟩

theorem anyM_eq_map_findM? (verdict : α → Except ε Bool) (items : List α) :
    items.anyM verdict = (items.findM? verdict).map Option.isSome := by
  induction items with
  | nil => rfl
  | cons item rest induction =>
      rw [List.anyM_cons, List.findM?, induction]
      cases verdict item with
      | error fault => rfl
      | ok found => cases found <;> rfl

section Sorting

variable {verdict : α → Except ε Bool} {accepts : α → Bool}

theorem filterAuxM_eq_ok (agrees : ∀ value told, verdict value = .ok told → told = accepts value)
    {values earlier collected : List α}
    (sorted : values.filterAuxM verdict earlier = .ok collected) :
    collected = (values.filter accepts).reverse ++ earlier ∧
      ∀ value ∈ values, ∃ told, verdict value = .ok told := by
  induction values generalizing earlier with
  | nil =>
      cases sorted
      simp
  | cons value rest induction =>
      rcases bind_eq_ok_iff.1 sorted with ⟨told, isTold, further⟩
      rcases induction further with ⟨rfl, others⟩
      cases agrees value told isTold
      refine ⟨?_, List.forall_mem_cons.2 ⟨⟨_, isTold⟩, others⟩⟩
      cases kept : accepts value <;> simp [kept]

theorem filterM_eq_ok (agrees : ∀ value told, verdict value = .ok told → told = accepts value)
    {values found : List α} (sorted : values.filterM verdict = .ok found) :
    found = values.filter accepts ∧ ∀ value ∈ values, ∃ told, verdict value = .ok told := by
  rcases bind_eq_ok_iff.1 sorted with ⟨collected, collecting, last⟩
  rcases filterAuxM_eq_ok agrees collecting with ⟨rfl, told⟩
  cases last
  exact ⟨by simp, told⟩

end Sorting

end Steps

namespace Value

def at? (value : Value) : List String → Option Value
  | [] => some value
  | name :: rest => (value.field? name).bind fun part => part.at? rest

theorem entry?_eq_ok_iff {value : Value} {key : String} {found : Option Value} :
    value.entry? key = .ok found ↔ value.isRecord ∧ value.field? key = found := by
  cases value <;> simp [isRecord, field?, Value.entry?]

theorem entries_eq_ok_iff {value : Value} {fields : List (String × Value)} :
    value.entries = .ok fields ↔ value = .record fields := by
  cases value <;> simp [entries]

theorem field_eq_ok_iff {value part : Value} {name : String} :
    value.field name = .ok part ↔ value.field? name = some part := by
  cases value with
  | record fields =>
      simp only [field, Value.part, field?]
      cases fieldIn? fields name <;> simp
  | _ => simp [field, Value.part, field?]

theorem mem_of_fieldIn? {fields : List (String × Value)} {key : String} {value : Value}
    (found : fieldIn? fields key = some value) : (key, value) ∈ fields := by
  rw [fieldIn?, Option.map_eq_some_iff] at found
  rcases found with ⟨⟨name, _⟩, isFound, rfl⟩
  have same : name = key := by simpa using List.find?_some isFound
  exact same ▸ List.mem_of_find?_eq_some isFound

theorem isRecord_iff {value : Value} : value.isRecord ↔ ∃ fields, value = .record fields := by
  cases value <;> simp [isRecord]

theorem members_eq_ok_iff {value : Value} {members : List Value} :
    value.members = .ok members ↔ value.members? = some members := by
  simp only [Value.members]
  cases value.members? <;> simp

theorem members?_eq_some {value : Value} {members : List Value}
    (some : value.members? = some members) :
    value = .list members ∨ ∀ member ∈ members, member.isRecord = false := by
  cases value with
  | list items => exact Or.inl (congrArg Value.list (Option.some.inj some))
  | text content =>
      cases some
      exact Or.inr (List.forall_mem_map.2 fun _ _ => rfl)
  | record fields =>
      cases some
      exact Or.inr (List.forall_mem_map.2 fun _ _ => rfl)
  | _ => cases some

end Value

namespace Reading

theorem apply_eq_accepted {α β : Type} {first : Reading (α → β)} {second : Reading α} {result : β}
    (accepted : first.apply second = .accepted result) :
    ∃ function argument, first = .accepted function ∧ second = .accepted argument ∧
      function argument = result := by
  cases first with
  | rejected issues => cases second <;> cases accepted
  | accepted function =>
      cases second with
      | rejected issues => cases accepted
      | accepted argument =>
          cases accepted
          exact ⟨function, argument, rfl, rfl, rfl⟩

end Reading

end SourceTree
