import SourceTree.SourceClosure

/-! # Visiting sources step by step

Visiting one import leaves the closure as it is, adds the source that the import needs, or reports
that it is missing. What a run keeps is derived from what these three steps keep. -/

namespace SourceTree.SourceClosure

def Settles (closure : SourceClosure) (key : String) : Prop :=
  key ∈ closure.sources ∨ key ∈ closure.missing

inductive ImportStep (lookup : String → Except String String) (importer path : String) :
    Progress → Progress → Prop
  | known {progress : Progress}
      (settled : Settles progress.closure (ImportPath.meantIn importer path)) :
      ImportStep lookup importer path progress progress
  | provided {closure : SourceClosure} {queue : List String} {content : String}
      (fresh : ¬Settles closure (ImportPath.meantIn importer path))
      (found : provide lookup path (ImportPath.meantIn importer path) = .ok content) :
      ImportStep lookup importer path ⟨closure, queue⟩
        ⟨{ closure with
            sources := closure.sources.insert (ImportPath.meantIn importer path) content },
          queue ++ [ImportPath.meantIn importer path]⟩
  | absent {closure : SourceClosure} {queue : List String} {message : String}
      (fresh : ¬Settles closure (ImportPath.meantIn importer path))
      (lacking : provide lookup path (ImportPath.meantIn importer path) = .error message) :
      ImportStep lookup importer path ⟨closure, queue⟩
        ⟨{ closure with
            missing := closure.missing.insert (ImportPath.meantIn importer path)
              ⟨message, importer⟩ }, queue⟩

def advance (lookup : String → Except String String) : (steps : Nat) → Progress → Progress
  | 0, progress => progress
  | _ + 1, ⟨closure, []⟩ => ⟨closure, []⟩
  | steps + 1, ⟨closure, source :: queue⟩ =>
      advance lookup steps (visitSource lookup source ⟨closure, queue⟩)

def start (sources : Listing String String) : Progress :=
  ⟨⟨sources, .empty⟩, sources.keys⟩

/-- Whether the queue runs empty after finitely many steps. -/
def Ends (lookup : String → Except String String) (sources : Listing String String) : Prop :=
  ∃ steps closure, collect steps sources lookup = some closure

variable {lookup : String → Except String String}

theorem provide_eq_ok_iff {path key content : String} :
    provide lookup path key = .ok content ↔
      lookup key = .ok content ∨
        (∃ message, lookup key = .error message) ∧ key ≠ path ∧ lookup path = .ok content := by
  unfold provide
  cases atKey : lookup key with
  | ok found => simp
  | error message =>
      by_cases same : key = path
      · simp [same]
      · cases asWritten : lookup path <;> simp [same]

theorem provide_eq_error_iff {path key message : String} :
    provide lookup path key = .error message ↔
      lookup key = .error message ∧ (key = path ∨ ∃ other, lookup path = .error other) := by
  unfold provide
  cases atKey : lookup key with
  | ok found => simp
  | error reason =>
      by_cases same : key = path
      · simp [same]
      · cases asWritten : lookup path <;> simp [same]

theorem visitImport_step (importer path : String) (progress : Progress) :
    ImportStep lookup importer path progress (visitImport lookup importer progress path) := by
  unfold visitImport
  simp only
  split
  next settled => exact .known settled
  next fresh =>
    split
    next content found => exact .provided fresh found
    next message lacking => exact .absent fresh lacking

/-! ## Runs -/

theorem visitAll_eq_some_iff (steps : Nat) (progress : Progress) (closure : SourceClosure) :
    visitAll lookup steps progress = some closure ↔
      advance lookup steps progress = ⟨closure, []⟩ := by
  induction steps generalizing progress with
  | zero =>
      rcases progress with ⟨current, queue⟩
      cases queue <;> simp [visitAll, advance]
  | succ steps induction =>
      rcases progress with ⟨current, queue⟩
      cases queue with
      | nil => simp [visitAll, advance]
      | cons source queue => exact induction (visitSource lookup source ⟨current, queue⟩)

theorem collect_eq_some_iff (steps : Nat) (sources : Listing String String)
    (closure : SourceClosure) :
    collect steps sources lookup = some closure ↔
      advance lookup steps (start sources) = ⟨closure, []⟩ :=
  visitAll_eq_some_iff steps (start sources) closure

theorem ends_iff (sources : Listing String String) :
    Ends lookup sources ↔ ∃ steps, (advance lookup steps (start sources)).queue = [] := by
  constructor
  · rintro ⟨steps, closure, found⟩
    exact ⟨steps, by rw [(collect_eq_some_iff steps sources closure).1 found]⟩
  · rintro ⟨steps, empty⟩
    refine ⟨steps, (advance lookup steps (start sources)).closure, ?_⟩
    rw [collect_eq_some_iff, ← empty]

theorem advance_of_queue_empty {progress : Progress} (empty : progress.queue = []) (steps : Nat) :
    advance lookup steps progress = progress := by
  rcases progress with ⟨closure, queue⟩
  simp only at empty
  subst empty
  cases steps <;> rfl

theorem advance_add (first second : Nat) (progress : Progress) :
    advance lookup (first + second) progress =
      advance lookup second (advance lookup first progress) := by
  induction first generalizing progress with
  | zero => simp [advance]
  | succ first induction =>
      rcases progress with ⟨closure, queue⟩
      rw [Nat.succ_add]
      cases queue with
      | nil =>
          have finished : (⟨closure, []⟩ : Progress).queue = [] := rfl
          rw [advance_of_queue_empty finished, advance_of_queue_empty finished,
            advance_of_queue_empty finished]
      | cons source queue =>
          exact induction (visitSource lookup source ⟨closure, queue⟩)

/-! ## Invariants -/

theorem foldl_visitImport_preserves {motive : Progress → Prop} {importer : String}
    {paths : List String}
    (step : ∀ path ∈ paths, ∀ before after, motive before →
      ImportStep lookup importer path before after → motive after)
    {progress : Progress} (initially : motive progress) :
    motive (paths.foldl (visitImport lookup importer) progress) := by
  induction paths generalizing progress with
  | nil => exact initially
  | cons path rest induction =>
      refine induction (fun other member => step other (List.mem_cons_of_mem path member)) ?_
      exact step path List.mem_cons_self progress _ initially
        (visitImport_step importer path progress)

theorem ImportStep.get?_eq_some {importer path : String} {before after : Progress}
    (step : ImportStep lookup importer path before after) {key content : String}
    (found : before.closure.sources.get? key = some content) :
    after.closure.sources.get? key = some content := by
  cases step with
  | known _ => exact found
  | provided fresh _ =>
      have different : key ≠ ImportPath.meantIn importer path := fun equal =>
        fresh (Or.inl (equal ▸ Listing.mem_of_get?_eq_some found))
      simpa only [Listing.get?_insert_of_ne _ different] using found
  | absent _ _ => exact found

/-- An invariant of the closure that every import step keeps, the content of the importer being
what it is, is kept by visiting a source. -/
theorem visitSource_preserves {motive : SourceClosure → Prop} {source : String}
    (step : ∀ before after content path, motive before.closure →
      before.closure.sources.get? source = some content → path ∈ importPaths content →
      ImportStep lookup source path before after → motive after.closure)
    {progress : Progress} (initially : motive progress.closure) :
    motive (visitSource lookup source progress).closure := by
  unfold visitSource
  cases found : progress.closure.sources.get? source with
  | none =>
      have nothing : importPaths ((none : Option String).getD "") = [] := by decide +kernel
      simpa only [nothing, List.foldl_nil] using initially
  | some content =>
      have kept : motive
            ((importPaths content).foldl (visitImport lookup source) progress).closure ∧
          ((importPaths content).foldl (visitImport lookup source)
            progress).closure.sources.get? source = some content := by
        refine foldl_visitImport_preserves (motive := fun current =>
          motive current.closure ∧ current.closure.sources.get? source = some content) ?_
          ⟨initially, found⟩
        intro path member before after holds taken
        exact ⟨step before after content path holds.1 holds.2 member taken,
          taken.get?_eq_some holds.2⟩
      exact kept.1

theorem advance_preserves {motive : SourceClosure → Prop}
    (step : ∀ before after importer content path, motive before.closure →
      before.closure.sources.get? importer = some content → path ∈ importPaths content →
      ImportStep lookup importer path before after → motive after.closure)
    (steps : Nat) {progress : Progress} (initially : motive progress.closure) :
    motive (advance lookup steps progress).closure := by
  induction steps generalizing progress with
  | zero => exact initially
  | succ steps induction =>
      rcases progress with ⟨closure, queue⟩
      cases queue with
      | nil => exact initially
      | cons source queue =>
          exact induction (visitSource_preserves
            (fun before after => step before after source) initially)

theorem collect_preserves {motive : SourceClosure → Prop}
    (step : ∀ before after importer content path, motive before.closure →
      before.closure.sources.get? importer = some content → path ∈ importPaths content →
      ImportStep lookup importer path before after → motive after.closure)
    {steps : Nat} {sources : Listing String String} {closure : SourceClosure}
    (initially : motive ⟨sources, .empty⟩)
    (collected : collect steps sources lookup = some closure) : motive closure := by
  have run := (collect_eq_some_iff steps sources closure).1 collected
  have initial : motive (start sources).closure := initially
  have last := advance_preserves step steps initial
  rwa [run] at last

/-- What holds of the given sources and is passed on from a source to what its imports are given
holds of every collected source. -/
theorem advance_entries {motive : String → String → Prop}
    (passed : ∀ importer content path text, motive importer content → path ∈ importPaths content →
      provide lookup path (ImportPath.meantIn importer path) = .ok text →
      motive (ImportPath.meantIn importer path) text)
    (steps : Nat) {progress : Progress}
    (given : ∀ key content, progress.closure.sources.get? key = some content → motive key content)
    {key content : String}
    (collected : (advance lookup steps progress).closure.sources.get? key = some content) :
    motive key content := by
  refine advance_preserves (motive := fun closure => ∀ key content,
    closure.sources.get? key = some content → motive key content) ?_ steps given key content
      collected
  intro before after importer text path holds importing member step
  cases step with
  | known _ => exact holds
  | absent _ _ => exact holds
  | provided _ found =>
      intro key content isSource
      rw [Listing.get?_insert] at isSource
      split at isSource
      next equal =>
        cases isSource
        subst equal
        exact passed importer text path _ (holds importer text importing) member found
      next => exact holds key content isSource

def ReportsAgree (lookup : String → Except String String) (closure : SourceClosure) : Prop :=
  ∀ key report, closure.missing.get? key = some report →
    ∃ content path, closure.sources.get? report.importer = some content ∧
      path ∈ importPaths content ∧ ImportPath.meantIn report.importer path = key ∧
      provide lookup path key = .error report.message

theorem ImportStep.reportsAgree {importer path content : String} {before after : Progress}
    (step : ImportStep lookup importer path before after)
    (importing : before.closure.sources.get? importer = some content)
    (member : path ∈ importPaths content) (agree : ReportsAgree lookup before.closure) :
    ReportsAgree lookup after.closure := by
  intro key report reported
  have earlier : ∀ found : before.closure.missing.get? key = some report,
      ∃ content path, after.closure.sources.get? report.importer = some content ∧
        path ∈ importPaths content ∧ ImportPath.meantIn report.importer path = key ∧
        provide lookup path key = .error report.message := by
    intro found
    rcases agree key report found with ⟨text, other, isSource, rest⟩
    exact ⟨text, other, step.get?_eq_some isSource, rest⟩
  cases step with
  | known _ => exact earlier reported
  | provided _ _ => exact earlier reported
  | absent _ lacking =>
      rw [Listing.get?_insert] at reported
      split at reported
      next equal =>
        cases reported
        exact ⟨content, path, importing, member, equal.symm, equal ▸ lacking⟩
      next => exact earlier reported

theorem reportsAgree_collect {steps : Nat} {sources : Listing String String}
    {closure : SourceClosure} (collected : collect steps sources lookup = some closure) :
    ReportsAgree lookup closure :=
  collect_preserves (fun _ _ _ _ _ agree importing member step =>
    step.reportsAgree importing member agree) (fun _ _ found => by cases found) collected

/-! ## Accounts of a run -/

structure Extends (before after : Progress) : Prop where
  sources : ∃ added, after.closure.sources.keys = before.closure.sources.keys ++ added ∧
    after.queue = before.queue ++ added
  missing : ∀ key ∈ before.closure.missing, key ∈ after.closure.missing

theorem Extends.settles {before after : Progress} (extended : Extends before after) {key : String}
    (settled : Settles before.closure key) : Settles after.closure key := by
  rcases extended.sources with ⟨added, keys, _⟩
  rcases settled with collected | reported
  · refine Or.inl ?_
    rw [Listing.mem_iff, keys]
    exact List.mem_append_left added collected
  · exact Or.inr (extended.missing key reported)

theorem Extends.refl (progress : Progress) : Extends progress progress :=
  ⟨⟨[], by simp⟩, fun _ reported => reported⟩

theorem Extends.trans {first second third : Progress} (left : Extends first second)
    (right : Extends second third) : Extends first third := by
  rcases left.sources with ⟨earlier, earlierKeys, earlierQueue⟩
  rcases right.sources with ⟨later, laterKeys, laterQueue⟩
  refine ⟨⟨earlier ++ later, ?_, ?_⟩, fun key reported =>
    right.missing key (left.missing key reported)⟩
  · rw [laterKeys, earlierKeys, List.append_assoc]
  · rw [laterQueue, earlierQueue, List.append_assoc]

theorem ImportStep.extends {importer path : String} {before after : Progress}
    (step : ImportStep lookup importer path before after) : Extends before after := by
  cases step with
  | known _ => exact Extends.refl before
  | provided fresh _ =>
      refine ⟨⟨[ImportPath.meantIn importer path], ?_, rfl⟩, fun _ reported => reported⟩
      rw [Listing.keys_insert, if_neg fun present => fresh (Or.inl present)]
  | absent _ _ =>
      refine ⟨⟨[], by simp⟩, fun key reported => ?_⟩
      exact (Listing.mem_insert _ _ _ _).2 (Or.inr reported)

theorem ImportStep.settles {importer path : String} {before after : Progress}
    (step : ImportStep lookup importer path before after) :
    Settles after.closure (ImportPath.meantIn importer path) := by
  cases step with
  | known settled => exact settled
  | provided _ _ => exact Or.inl ((Listing.mem_insert _ _ _ _).2 (Or.inl rfl))
  | absent _ _ => exact Or.inr ((Listing.mem_insert _ _ _ _).2 (Or.inl rfl))

theorem extends_foldl_visitImport (importer : String) (paths : List String)
    (progress : Progress) :
    Extends progress (paths.foldl (visitImport lookup importer) progress) :=
  foldl_visitImport_preserves (motive := Extends progress)
    (fun _ _ _ _ extended step => extended.trans step.extends) (Extends.refl progress)

theorem extends_visitSource (lookup : String → Except String String) (source : String)
    (progress : Progress) :
    Extends progress (visitSource lookup source progress) :=
  extends_foldl_visitImport source _ progress

theorem settles_foldl_visitImport {importer path : String} {paths : List String}
    (member : path ∈ paths) (progress : Progress) :
    Settles (paths.foldl (visitImport lookup importer) progress).closure
      (ImportPath.meantIn importer path) := by
  induction paths generalizing progress with
  | nil => simp at member
  | cons head rest induction =>
      rcases List.mem_cons.1 member with equal | inRest
      · subst equal
        exact (extends_foldl_visitImport importer rest _).settles
          (visitImport_step importer path progress).settles
      · exact induction inRest _

/-- The accounts after some sources were visited: the sources are those visited and those queued,
and every import of a visited source is settled. -/
structure Accounts (visited : List String) (progress : Progress) : Prop where
  keysListed : progress.closure.sources.keys = visited ++ progress.queue
  visitedSettled : ∀ source ∈ visited, ∀ content,
    progress.closure.sources.get? source = some content → ∀ path ∈ importPaths content,
      Settles progress.closure (ImportPath.meantIn source path)

theorem accounts_start (sources : Listing String String) : Accounts [] (start sources) :=
  ⟨rfl, by simp⟩

theorem get?_visitSource {source key content : String} {progress : Progress}
    (found : progress.closure.sources.get? key = some content) :
    (visitSource lookup source progress).closure.sources.get? key = some content :=
  visitSource_preserves (motive := fun closure => closure.sources.get? key = some content)
    (fun _ _ _ _ holds _ _ step => step.get?_eq_some holds) found

theorem Accounts.visit (lookup : String → Except String String) {visited queue : List String}
    {closure : SourceClosure} {source : String}
    (accounts : Accounts visited ⟨closure, source :: queue⟩) :
    Accounts (visited ++ [source]) (visitSource lookup source ⟨closure, queue⟩) := by
  have extended := extends_visitSource lookup source ⟨closure, queue⟩
  rcases extended.sources with ⟨added, keys, queued⟩
  have keysBefore := accounts.keysListed
  simp only at keys queued keysBefore
  refine ⟨by simp [keys, queued, keysBefore], ?_⟩
  intro other isVisited content found path member
  -- What was collected before has kept its content, so `content` is what the visit read.
  have present : other ∈ closure.sources := by
    rw [Listing.mem_iff, keysBefore]
    rcases List.mem_append.1 isVisited with earlier | now
    · exact List.mem_append_left _ earlier
    · exact List.mem_append_right _ (List.mem_singleton.1 now ▸ List.mem_cons_self)
  rcases Listing.mem_iff_get?.1 present with ⟨text, wasFound⟩
  have same : text = content :=
    Option.some.inj ((get?_visitSource wasFound).symm.trans found)
  subst same
  rcases List.mem_append.1 isVisited with earlier | now
  · exact extended.settles (accounts.visitedSettled other earlier text wasFound path member)
  · obtain rfl := List.mem_singleton.1 now
    have imports : (closure.sources.get? other).getD "" = text := by rw [wasFound]; rfl
    have inImports : path ∈ importPaths ((closure.sources.get? other).getD "") := by
      rw [imports]
      exact member
    exact settles_foldl_visitImport inImports ⟨closure, queue⟩

/-- A run visits one source per step until its queue is empty. -/
theorem accounts_advance (lookup : String → Except String String) (steps : Nat)
    {visited : List String} {progress : Progress}
    (accounts : Accounts visited progress) :
    ∃ later, Accounts (visited ++ later) (advance lookup steps progress) ∧
      ((advance lookup steps progress).queue ≠ [] → later.length = steps) := by
  induction steps generalizing visited progress with
  | zero => exact ⟨[], by simpa [advance] using accounts, fun _ => rfl⟩
  | succ steps induction =>
      rcases progress with ⟨closure, queue⟩
      cases queue with
      | nil =>
          exact ⟨[], by simpa [advance] using accounts, fun unfinished => absurd rfl unfinished⟩
      | cons source queue =>
          rcases induction (accounts.visit lookup) with ⟨later, accountsLater, count⟩
          refine ⟨source :: later, by simpa [advance] using accountsLater, fun unfinished => ?_⟩
          rw [List.length_cons, count unfinished]

theorem settles_of_collect {steps : Nat} {sources : Listing String String}
    {closure : SourceClosure} (ended : collect steps sources lookup = some closure)
    {source content path : String} (found : closure.sources.get? source = some content)
    (member : path ∈ importPaths content) :
    Settles closure (ImportPath.meantIn source path) := by
  have run := (collect_eq_some_iff steps sources closure).1 ended
  rcases accounts_advance lookup steps (accounts_start sources) with ⟨visited, accounts, _⟩
  rw [run] at accounts
  have isVisited : source ∈ visited := by
    have present := Listing.mem_of_get?_eq_some found
    rw [Listing.mem_iff, accounts.keysListed] at present
    simpa using present
  exact accounts.visitedSettled source (by simpa using isVisited) content found path member

end SourceTree.SourceClosure
