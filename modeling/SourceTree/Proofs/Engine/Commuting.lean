import SourceTree.Proofs.Engine.Switching

/-! # Fetches in another order

Fetches of different paths share a cache and the chosen versions. Nothing that one remembers is
read by another, so the order of two fetches matters in one case only: one of them switches the
library of the other to a version at which the library tells something else. Whether a path fails
never depends on the order. -/

namespace SourceTree

variable {T : Type}

structure Holdings.Alike (left right : Holdings T) : Prop where
  cache : ∀ path, left.cache.AgreeAt right.cache path
  preference : ∀ root, left.preference.get? root = right.preference.get? root

theorem Holdings.Alike.refl (holdings : Holdings T) : Alike holdings holdings :=
  ⟨fun _ => ⟨rfl, rfl⟩, fun _ => rfl⟩

theorem Holdings.Alike.trans {first second third : Holdings T} (left : Alike first second)
    (right : Alike second third) : Alike first third :=
  ⟨fun path => (left.cache path).trans (right.cache path),
    fun root => (left.preference root).trans (right.preference root)⟩

namespace Engine

variable [Timescale T] {engine : Engine T}

/-- Whether fetching one path switches the library of another, of which nothing is remembered, to a
version at which it tells something else of that path. -/
def Sways (engine : Engine T) (holdings : Holdings T) (first second : String) : Prop :=
  ∃ library version, engine.askedFor holdings.cache second = some library ∧
    engine.switchOf holdings first = some (library.root, version) ∧
    (engine.toldAt library (library.version (some version)) second).outcome ≠
      (engine.toldAt library (holdings.preference.select library) second).outcome

/-- Whether two paths have the same outcomes in whichever order they are fetched. -/
def Indifferent (engine : Engine T) (holdings : Holdings T) (first second : String) : Prop :=
  (engine.fetchImport none first (engine.fetchImport none second holdings).2).1 =
      (engine.fetchImport none first holdings).1 ∧
    (engine.fetchImport none second (engine.fetchImport none first holdings).2).1 =
      (engine.fetchImport none second holdings).1

theorem askedFor_fetchImport (engine : Engine T) {first second : String}
    (different : second ≠ first) (holdings : Holdings T) :
    engine.askedFor (engine.fetchImport none first holdings).2.cache second =
      engine.askedFor holdings.cache second :=
  askedFor_congr (fetchImport_frame engine none different holdings)

/-- A path has another outcome after another exactly when it is swayed. -/
theorem outcome_after_iff (stable : engine.network.Stable) {holdings : Holdings T}
    {first second : String} (different : second ≠ first) :
    (engine.fetchImport none second (engine.fetchImport none first holdings).2).1 =
        (engine.fetchImport none second holdings).1 ↔
      ¬Sways engine holdings first second := by
  -- Of what the first fetch changes, the second reads the choice for its own library alone.
  have frame := fetchImport_frame engine none different holdings
  have after := askedFor_fetchImport engine different holdings
  have switched := preference_fetchImport stable holdings first
  generalize (engine.fetchImport none first holdings).2 = later at frame after switched ⊢
  by_cases sways : ∃ library version, engine.askedFor holdings.cache second = some library ∧
      engine.switchOf holdings first = some (library.root, version)
  · rcases sways with ⟨library, version, asked, switches⟩
    have selected : later.preference.select library = library.version (some version) := by
      rw [switched, switches, Preference.select, Preference.follow, Preference.get?_set, if_pos rfl]
    rw [outcome_of_askedFor stable (after.trans asked), outcome_of_askedFor stable asked, selected]
    constructor
    · rintro same ⟨other, another, isOther, switchesOther, differs⟩
      rw [asked] at isOther
      cases isOther
      rw [switches] at switchesOther
      cases switchesOther
      exact differs same
    · intro unswayed
      by_contra differs
      exact unswayed ⟨library, version, asked, switches, differs⟩
  · have chosen : ∀ library, engine.askedFor later.cache second = some library →
        later.preference.get? library.root = holdings.preference.get? library.root := by
      intro library asked
      rw [switched]
      exact Preference.get?_follow _ _ fun version switches =>
        sways ⟨library, version, after ▸ asked, switches⟩
    refine iff_of_true (fetchImport_congr stable frame chosen).1 ?_
    rintro ⟨library, version, asked, switches, _⟩
    exact sways ⟨library, version, asked, switches⟩

theorem indifferent_iff (stable : engine.network.Stable) (holdings : Holdings T)
    {first second : String} (different : first ≠ second) :
    Indifferent engine holdings first second ↔
      ¬Sways engine holdings first second ∧ ¬Sways engine holdings second first := by
  rw [Indifferent, outcome_after_iff stable different, outcome_after_iff stable different.symm,
    and_comm]

/-- Whether a path fails does not depend on whether another is fetched before. -/
theorem failed_after_iff (stable : engine.network.Stable) (holdings : Holdings T)
    {first second : String} (different : second ≠ first) :
    (∃ failure, (engine.fetchImport none second (engine.fetchImport none first holdings).2).1 =
        .failed failure) ↔
      ∃ failure, (engine.fetchImport none second holdings).1 = .failed failure := by
  have frame := fetchImport_frame engine none different holdings
  generalize (engine.fetchImport none first holdings).2 = later at frame ⊢
  rcases askedFor_cases engine holdings.cache second with
    ⟨_, outcome, recalls⟩ | ⟨library, _, _, fetches⟩
  · rw [recalls none later frame, recalls none holdings ⟨rfl, rfl⟩]
  · rw [fetches later frame, fetches holdings ⟨rfl, rfl⟩, fst_remember, fst_remember]
    have judged := fetchFromLibrary_judged stable library second holdings
    have judgedLater := fetchFromLibrary_judged stable library second later
    constructor
    · rintro ⟨failure, isFailed⟩
      rw [isFailed] at judgedLater
      cases judgedLater with
      | failed lacking => exact judged.failed_of_lacking lacking
    · rintro ⟨failure, isFailed⟩
      rw [isFailed] at judged
      cases judged with
      | failed lacking => exact judgedLater.failed_of_lacking lacking

/-! ## Batches -/

theorem fetchImport_alike (stable : engine.network.Stable) {first second : Holdings T}
    (alike : first.Alike second) (path : String) :
    (engine.fetchImport none path first).1 = (engine.fetchImport none path second).1 ∧
      (engine.fetchImport none path first).2.Alike (engine.fetchImport none path second).2 := by
  rcases fetchImport_congr stable (alike.cache path) fun library _ => alike.preference library.root
    with ⟨outcome, switch, agree⟩
  refine ⟨outcome, fun other => ?_, fun root => ?_⟩
  · by_cases same : other = path
    · exact same ▸ agree
    · have frame := fetchImport_frame engine none same first
      have frameToo := fetchImport_frame engine none same second
      exact (frame.trans (alike.cache other)).trans frameToo.symm
  · rw [preference_fetchImport stable, preference_fetchImport stable, switch]
    rcases engine.switchOf second path with _ | ⟨switched, version⟩
    · exact alike.preference root
    · simp only [Preference.follow, Preference.get?_set, alike.preference root]

theorem fetchAll_alike (stable : engine.network.Stable) (paths : List String)
    {first second : Holdings T} (alike : first.Alike second) :
    (engine.fetchAll none paths first).1 = (engine.fetchAll none paths second).1 ∧
      (engine.fetchAll none paths first).2.Alike (engine.fetchAll none paths second).2 := by
  induction paths generalizing first second with
  | nil => exact ⟨rfl, alike⟩
  | cons path rest induction =>
      rcases fetchImport_alike stable alike path with ⟨outcome, after⟩
      rcases induction after with ⟨outcomes, last⟩
      simp only [fetchAll]
      exact ⟨by rw [outcome, outcomes], last⟩

/-- Whether no fetch of a batch switches a library that is asked for another path of the batch. -/
def Calm (engine : Engine T) (holdings : Holdings T) (paths : List String) : Prop :=
  ∀ first ∈ paths, ∀ second ∈ paths, second ≠ first →
    ∀ switch ∈ engine.switchOf holdings first,
      ∀ library ∈ engine.askedFor holdings.cache second, library.root ≠ switch.1

instance (engine : Engine T) (holdings : Holdings T) (paths : List String) :
    Decidable (Calm engine holdings paths) :=
  inferInstanceAs (Decidable (∀ first ∈ paths, ∀ second ∈ paths, second ≠ first →
    ∀ switch ∈ engine.switchOf holdings first,
      ∀ library ∈ engine.askedFor holdings.cache second, library.root ≠ switch.1))

theorem Calm.apart {holdings : Holdings T} {paths : List String}
    (calm : Calm engine holdings paths) {first second : String} (inFirst : first ∈ paths)
    (inSecond : second ∈ paths) (different : second ≠ first) {library : Library}
    (asked : engine.askedFor holdings.cache second = some library) (version : String) :
    engine.switchOf holdings first ≠ some (library.root, version) :=
  fun switches => calm first inFirst second inSecond different _ switches _ asked rfl

theorem Calm.undisturbed (stable : engine.network.Stable) {holdings : Holdings T}
    {paths : List String} (calm : Calm engine holdings paths) {first second : String}
    (inFirst : first ∈ paths) (inSecond : second ∈ paths) (different : second ≠ first) :
    (engine.fetchImport none second (engine.fetchImport none first holdings).2).1 =
        (engine.fetchImport none second holdings).1 ∧
      engine.switchOf (engine.fetchImport none first holdings).2 second =
        engine.switchOf holdings second ∧
      (engine.fetchImport none second (engine.fetchImport none first holdings).2).2.cache.AgreeAt
        (engine.fetchImport none second holdings).2.cache second := by
  refine fetchImport_congr stable (fetchImport_frame engine none different holdings) ?_
  intro library asked
  rw [askedFor_fetchImport engine different] at asked
  rw [preference_fetchImport stable]
  exact Preference.get?_follow _ _ (calm.apart inFirst inSecond different asked)

theorem Calm.after (stable : engine.network.Stable) {holdings : Holdings T} {path : String}
    {rest : List String} (calm : Calm engine holdings (path :: rest)) (once : path ∉ rest) :
    Calm engine (engine.fetchImport none path holdings).2 rest := by
  have others : ∀ other ∈ rest, other ≠ path := fun other later same => once (same ▸ later)
  intro first inFirst second inSecond different switch switches library asked
  have undisturbed := calm.undisturbed stable List.mem_cons_self
    (List.mem_cons_of_mem path inFirst) (others first inFirst)
  rw [undisturbed.2.1] at switches
  rw [askedFor_fetchImport engine (others second inSecond)] at asked
  exact calm first (List.mem_cons_of_mem path inFirst) second (List.mem_cons_of_mem path inSecond)
    different switch switches library asked

theorem Calm.outcomes_fetchAll (stable : engine.network.Stable) {holdings : Holdings T}
    {paths : List String} (calm : Calm engine holdings paths) (distinct : paths.Nodup) :
    (engine.fetchAll none paths holdings).1 =
      paths.map fun path => (path, (engine.fetchImport none path holdings).1) := by
  induction paths generalizing holdings with
  | nil => rfl
  | cons path rest induction =>
      rcases List.nodup_cons.1 distinct with ⟨once, restDistinct⟩
      simp only [fetchAll, List.map_cons, List.cons.injEq, true_and]
      rw [induction (calm.after stable once) restDistinct]
      refine List.map_congr_left fun other later => ?_
      rw [(calm.undisturbed stable List.mem_cons_self (List.mem_cons_of_mem path later)
        fun same => once (same ▸ later)).1]

theorem asked_of_switchOf {holdings : Holdings T} {path root version : String}
    (switches : engine.switchOf holdings path = some (root, version)) :
    ∃ library, engine.askedFor holdings.cache path = some library ∧ library.root = root := by
  rcases Option.bind_eq_some_iff.1 switches with ⟨library, asked, isSwitch⟩
  rcases Option.map_eq_some_iff.1 isSwitch with ⟨_, _, same⟩
  cases same
  exact ⟨library, asked, rfl⟩

theorem Calm.swap (stable : engine.network.Stable) {holdings : Holdings T} {paths : List String}
    (calm : Calm engine holdings paths) {first second : String} (inFirst : first ∈ paths)
    (inSecond : second ∈ paths) (different : second ≠ first) :
    (engine.fetchImport none second (engine.fetchImport none first holdings).2).2.Alike
      (engine.fetchImport none first (engine.fetchImport none second holdings).2).2 := by
  rcases calm.undisturbed stable inFirst inSecond different with ⟨_, secondSwitch, secondAgree⟩
  rcases calm.undisturbed stable inSecond inFirst different.symm with ⟨_, firstSwitch, firstAgree⟩
  have frame := fun other (apart : other ≠ second) =>
    fetchImport_frame engine none apart (engine.fetchImport none first holdings).2
  have frameToo := fun other (apart : other ≠ first) =>
    fetchImport_frame engine none apart (engine.fetchImport none second holdings).2
  refine ⟨fun path => ?_, fun root => ?_⟩
  · by_cases isFirst : path = first
    · subst isFirst
      exact (frame path different.symm).trans firstAgree.symm
    · by_cases isSecond : path = second
      · subst isSecond
        exact secondAgree.trans (frameToo path different).symm
      · have before := fetchImport_frame engine none isFirst holdings
        have beforeToo := fetchImport_frame engine none isSecond holdings
        have after := (frameToo path isFirst).trans beforeToo
        exact ((frame path isSecond).trans before).trans after.symm
  · rw [preference_fetchImport stable, preference_fetchImport stable, secondSwitch,
      preference_fetchImport stable, preference_fetchImport stable, firstSwitch]
    refine Preference.follow_comm _ (fun root version other switches switchesToo => ?_) root
    rcases asked_of_switchOf switchesToo with ⟨library, asked, rfl⟩
    exact calm.apart inFirst inSecond different asked version switches

theorem Calm.perm {holdings : Holdings T} {first second : List String}
    (calm : Calm engine holdings first) (same : first.Perm second) :
    Calm engine holdings second :=
  fun path inPaths other isOther =>
    calm path (same.mem_iff.2 inPaths) other (same.mem_iff.2 isOther)

/-- A calm batch leaves the same in whichever order its paths are fetched. -/
theorem Calm.alike_fetchAll (stable : engine.network.Stable) {first second : List String}
    (same : first.Perm second) {holdings : Holdings T} (calm : Calm engine holdings first)
    (distinct : first.Nodup) :
    (engine.fetchAll none first holdings).2.Alike (engine.fetchAll none second holdings).2 := by
  -- A swap is two fetches that commute, and what comes after them starts from alike holdings.
  induction same generalizing holdings with
  | nil => exact .refl holdings
  | cons path same induction =>
      rcases List.nodup_cons.1 distinct with ⟨once, restDistinct⟩
      exact induction (calm.after stable once) restDistinct
  | swap first second rest =>
      have different : first ≠ second := by
        rintro rfl
        exact (List.nodup_cons.1 distinct).1 List.mem_cons_self
      exact (fetchAll_alike stable rest (calm.swap stable List.mem_cons_self
        (List.mem_cons_of_mem second List.mem_cons_self) different)).2
  | trans same _ left right =>
      exact (left calm distinct).trans (right (calm.perm same) (same.nodup_iff.1 distinct))

end Engine

end SourceTree
