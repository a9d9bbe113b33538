import Mathlib.Data.List.Induction
import SourceTree.Proofs.Engine.Versions
import SourceTree.Proofs.Resolution.Accounts

/-! # Reported versions

A resolution reports for each library the version that is in use in the end. Every file comes from
the version that was in use when it was fetched. A file of which a version is reported that it did
not come from is left over from before a fallback: the report is right about it only if the reported
version has the same text. -/

namespace SourceTree

namespace Registry

theorem eq_of_root_eq {registry : Registry} {library other : Library}
    (registered : library ∈ registry.libraries) (otherRegistered : other ∈ registry.libraries)
    (same : other.root = library.root) : other = library := by
  rcases Listing.mem_values_iff.1 registered with ⟨root, isEntry⟩
  rcases Listing.mem_values_iff.1 otherRegistered with ⟨otherRoot, isOtherEntry⟩
  have isRoot : library.root = root := registry.rootsAgree _ isEntry
  have isOtherRoot : other.root = otherRoot := registry.rootsAgree _ isOtherEntry
  rw [← isRoot] at isEntry
  rw [← isOtherRoot, same] at isOtherEntry
  exact Option.some.inj ((Listing.get?_eq_some_iff.2 isOtherEntry).symm.trans
    (Listing.get?_eq_some_iff.2 isEntry))

theorem mem_of_find {registry : Registry} {path : String} {library : Library}
    (found : registry.find path = some library) : library ∈ registry.libraries :=
  (List.mem_filter.1 (mem_of_longest found)).1

end Registry

namespace Resolution

theorem versionsUsed_concat (registry : Registry) (preference : Preference)
    (resolved : List String) (path : String) :
    versionsUsed registry preference (resolved ++ [path]) =
      match registry.find path with
      | some library => (versionsUsed registry preference resolved).insert library.root
          (preference.select library).name
      | none => versionsUsed registry preference resolved := by
  rw [versionsUsed, List.foldl_append]
  rfl

theorem get?_versionsUsed (registry : Registry) (preference : Preference) {resolved : List String}
    {path : String} (isResolved : path ∈ resolved) {library : Library}
    (isOwned : registry.find path = some library) :
    (versionsUsed registry preference resolved).get? library.root =
      some (preference.select library).name := by
  -- The report is written path by path, so the induction is on the last of them.
  induction resolved using List.reverseRecOn with
  | nil => exact absurd isResolved List.not_mem_nil
  | append_singleton earlier other induction =>
      rw [versionsUsed_concat]
      by_cases now : path = other
      · rw [← now, isOwned]
        exact Listing.get?_insert_self _ _ _
      · have before := induction ((List.mem_append.1 isResolved).resolve_right fun isLast =>
          now (List.mem_singleton.1 isLast))
        cases owner : registry.find other with
        | none => exact before
        | some found =>
            simp only [Listing.get?_insert]
            split
            next same =>
              rw [Registry.eq_of_root_eq (Registry.mem_of_find owner)
                (Registry.mem_of_find isOwned) same]
            next => exact before

variable {T : Type} [Timescale T]

/-- Whether every fetched file has the text that the version reported for its library offers. -/
def Truthful (engine : Engine T) (files : Listing String String) (resolution : Resolution) : Prop :=
  ∀ path text library name, path ∉ files → resolution.files.get? path = some text →
    engine.registry.find path = some library → resolution.versions.get? library.root = some name →
      ∃ version ∈ library.versions, version.name = name ∧
        library.Offers engine.network version path text

end Resolution

namespace Engine

open Pass Resolution

variable {T : Type} [Timescale T] {engine : Engine T} {files : Listing String String}
  {deadline : Option T} {holdings : Holdings T}

omit [Timescale T] in
theorem mem_texts_iff {outcomes : List (String × ImportOutcome T)} {path text : String} :
    (path, text) ∈ texts outcomes ↔ (path, .content text) ∈ outcomes := by
  simp only [texts, List.mem_filterMap, Prod.exists]
  constructor
  · rintro ⟨other, outcome, member, isText⟩
    cases outcome <;> cases isText
    exact member
  · exact fun member => ⟨path, .content text, member, rfl⟩

theorem get?_fetched_drainSeeds
    (completes : (engine.drainSeeds files deadline holdings).1.Completes) {path text : String} :
    (engine.drainSeeds files deadline holdings).2.fetched.get? path = some text ↔
      (path, .content text) ∈ (engine.drainSeedsLog files deadline holdings).outcomes := by
  have accounted := drainSeedsLog_accounted engine files deadline holdings
  rw [← drainSeedsLog_eq] at completes ⊢
  have all := (accounted.ends.closing_of_completes completes).1
  have distinct := (map_fst_texts_sublist _).nodup accounted.advances.distinct
  have fetched := accounted.advances.settles.fetched
  rw [settled_eq_self all] at fetched
  rw [fetched, openPass, Listing.get?_insertAll _ distinct, Listing.get?_empty, Option.or_none,
    Listing.valueIn_eq_some_iff distinct, mem_texts_iff]

theorem get?_fetched_iff {resolution : Resolution}
    (resolved : (engine.resolveWith files deadline holdings).1 = .ok resolution)
    {path text : String} :
    (engine.drainSeeds files deadline holdings).2.fetched.get? path = some text ↔
      ∃ visit ∈ engine.visitsOf (.resolve files (some holdings.preference) deadline)
        holdings.cache holdings.world,
        visit.path = path ∧ visit.outcome engine = .content text := by
  rcases resolveWith_eq_ok_iff.1 resolved with ⟨allowed, completes, _⟩
  rw [get?_fetched_drainSeeds completes, ← outcomes_visitsWith engine allowed]
  simp only [List.mem_map, Prod.mk.injEq]
  rfl

theorem truthful_iff_offers {resolution : Resolution}
    (resolved : (engine.resolveWith files deadline holdings).1 = .ok resolution) :
    resolution.Truthful engine files ↔
      ∀ visit ∈ engine.visitsOf (.resolve files (some holdings.preference) deadline)
        holdings.cache holdings.world,
        visit.Backed engine (engine.resolveWith files deadline holdings).2.preference := by
  have fetched := fun path text => @get?_fetched_iff _ _ _ _ _ _ _ resolved path text
  have tracks := drainSeeds_tracks engine files deadline holdings
  rcases resolveWith_eq_ok_iff.1 resolved with ⟨allowed, completes, rfl⟩
  rw [snd_resolveWith, if_neg allowed]
  generalize engine.drainSeeds files deadline holdings = drained at *
  rcases drained with ⟨exit, pass⟩
  simp only at fetched tracks ⊢
  have reported : ∀ {path text library}, pass.fetched.get? path = some text →
      engine.registry.find path = some library →
        (versionsUsed engine.registry pass.holdings.preference pass.state.resolved).get?
          library.root = some (pass.holdings.preference.select library).name :=
    fun found isOwned => get?_versionsUsed _ _
      ((tracks.fetchedIff _).1 (Listing.mem_of_get?_eq_some found)) isOwned
  constructor
  · intro truthful visit made library text isOwned isContent
    have found := (fetched visit.path text).2 ⟨visit, made, rfl, isContent⟩
    have foreign := foreign_of_mem_fetched tracks (Listing.mem_of_get?_eq_some found)
    have isFile : (ofPass engine.registry files (Seeds.ofFiles files).locals.ambiguous exit
        pass).files.get? visit.path = some text := by
      rw [get?_files_ofPass, (Listing.get?_eq_none_iff files visit.path).2 foreign, Option.none_or]
      exact found
    rcases truthful visit.path text library _ foreign isFile isOwned (reported found isOwned) with
      ⟨version, member, named, offers⟩
    -- Versions are told apart by their names, so the reported one is the selected one.
    have isSelected : version = pass.holdings.preference.select library :=
      List.inj_on_of_nodup_map library.namesDistinct member (library.version_mem _) named
    exact isSelected ▸ offers
  · intro offers path text library name foreign isFile isOwned isReported
    rw [get?_files_ofPass, (Listing.get?_eq_none_iff files path).2 foreign, Option.none_or]
      at isFile
    rcases (fetched path text).1 isFile with ⟨visit, made, rfl, isContent⟩
    have named := Option.some.inj ((reported isFile isOwned).symm.trans isReported)
    exact ⟨_, library.version_mem _, named, offers visit made library text isOwned isContent⟩

/-- Over a stable network, every content of a resolution without a cache is offered by the version
that was in use when it was fetched. The report is truthful exactly when the contents that were
fetched at a version which a fallback replaced later on are offered by the last version as well. -/
theorem truthful_iff_replaced (stable : engine.network.Stable) (fresh : holdings.cache = .empty)
    {resolution : Resolution}
    (resolved : (engine.resolveWith files deadline holdings).1 = .ok resolution) :
    (∀ visit ∈ engine.visitsOf (.resolve files (some holdings.preference) deadline)
        holdings.cache holdings.world, visit.Backed engine (visit.after engine).preference) ∧
    (resolution.Truthful engine files ↔
      ∀ visit ∈ engine.visitsOf (.resolve files (some holdings.preference) deadline)
        holdings.cache holdings.world,
        visit.Replaced engine (engine.resolveWith files deadline holdings).2.preference →
          visit.Backed engine (engine.resolveWith files deadline holdings).2.preference) := by
  have atOnce : ∀ visit ∈ engine.visitsOf (.resolve files (some holdings.preference) deadline)
      holdings.cache holdings.world, visit.Backed engine (visit.after engine).preference := by
    intro visit made
    have leads := leads_visitsOf engine (.resolve files (some holdings.preference) deadline)
      holdings.cache holdings.world
    rw [fresh] at leads made
    rcases leads.unremembered (nodup_visitsWith engine files deadline _) made with
      ⟨unknown, unfailed⟩
    exact Visit.backed_after stable unknown unfailed
  refine ⟨atOnce, (truthful_iff_offers resolved).trans ⟨fun backed => ?_, fun backed => ?_⟩⟩
  · exact fun visit made _ => backed visit made
  · intro visit made
    by_cases replaced :
        visit.Replaced engine (engine.resolveWith files deadline holdings).2.preference
    · exact backed visit made replaced
    · exact (atOnce visit made).of_not_replaced replaced

def newVersion : LibraryVersion :=
  ⟨"2", "https://two/", none, [], []⟩

def oldVersion : LibraryVersion :=
  ⟨"1", "https://one/", none, [], []⟩

def splitSample : Engine Rat :=
  .serving (.ofLibraries [.ofVersions "@lib" newVersion [oldVersion] (by decide)])
    (.ofList [("https://two/a.sol", "new a"), ("https://one/a.sol", "old a"),
      ("https://one/b.sol", "old b")])

def commonFirst : Listing String String :=
  .ofList [("m.sol", "import '@lib/a.sol'; import '@lib/b.sol';")]

def missingFirst : Listing String String :=
  .ofList [("m.sol", "import '@lib/b.sol'; import '@lib/a.sol';")]

/-- The file that both versions have is fetched before the first version is found to lack the
other. -/
theorem not_truthful_of_fallback :
    ∃ resolution : Resolution,
      (splitSample.resolveWith commonFirst none ⟨.empty, .empty, .startingAt 0⟩).1 =
        .ok resolution ∧
      ¬resolution.Truthful splitSample commonFirst := by
  have report : (splitSample.resolveWith commonFirst none
      ⟨.empty, .empty, .startingAt 0⟩).1.toOption.map (fun resolution =>
        (resolution.files.get? "@lib/a.sol", resolution.versions.get? "@lib")) =
      some (some "new a", some "1") := by
    decide +kernel
  have owner : (splitSample.registry.find "@lib/a.sol").map (fun library =>
      (library.root, library.versions, library.relativePath "@lib/a.sol",
        library.spareUrls.get? "a.sol")) =
      some ("@lib", [newVersion, oldVersion], "a.sol", none) := by
    decide +kernel
  rcases exists_of_toOption_map report with ⟨resolution, resolved, parts⟩
  rcases Option.map_eq_some_iff.1 owner with ⟨library, isOwned, shape⟩
  simp only [Prod.mk.injEq] at parts shape
  rcases shape with ⟨root, versions, relativePath, spare⟩
  refine ⟨resolution, resolved, fun truthful => ?_⟩
  rcases truthful "@lib/a.sol" "new a" library "1" (by decide +kernel) parts.1 isOwned
    (root ▸ parts.2) with ⟨version, member, named, offers⟩
  rw [Library.Offers, relativePath, spare] at offers
  rw [versions] at member
  obtain rfl : version = oldVersion := by
    rcases List.mem_cons.1 member with rfl | isOld
    · exact absurd named (by decide)
    · exact List.mem_singleton.1 isOld
  rcases offers with ⟨status, _, _, always⟩ | ⟨_, isSpare, _⟩
  · have old : (splitSample.network.reply [] (oldVersion.url "a.sol")).reaction =
        .answered 200 "old a" := by
      decide +kernel
    have new := always []
    rw [old, Reaction.answered.injEq] at new
    exact absurd new.2 (by decide)
  · cases isSpare

theorem truthful_of_early_fallback :
    splitSample.network.Stable ∧
    ∃ resolution : Resolution,
      (splitSample.resolveWith missingFirst none ⟨.empty, .empty, .startingAt 0⟩).1 =
        .ok resolution ∧
      resolution.files.get? "@lib/a.sol" = some "old a" ∧
      resolution.versions.get? "@lib" = some "1" ∧
      resolution.Truthful splitSample missingFirst := by
  have report : (splitSample.resolveWith missingFirst none
      ⟨.empty, .empty, .startingAt 0⟩).1.toOption.map (fun resolution =>
        (resolution.files.get? "@lib/a.sol", resolution.versions.get? "@lib")) =
      some (some "old a", some "1") := by
    decide +kernel
  have settled : ((splitSample.visitsOf (.resolve missingFirst (some .empty) none) .empty
      (.startingAt 0)).all fun visit =>
        decide ((visit.after splitSample).preference.chosen.entries =
          (splitSample.resolveWith missingFirst none
            ⟨.empty, .empty, .startingAt 0⟩).2.preference.chosen.entries)) = true := by
    decide +kernel
  have stable : splitSample.network.Stable := Network.stable_serving _
  rcases exists_of_toOption_map report with ⟨resolution, resolved, parts⟩
  simp only [Prod.mk.injEq] at parts
  refine ⟨stable, resolution, resolved, parts.1, parts.2,
    (truthful_iff_replaced stable rfl resolved).2.2 ?_⟩
  rintro visit made ⟨library, _, different⟩
  have same := of_decide_eq_true (List.all_eq_true.1 settled visit made)
  refine absurd ?_ different
  rw [Preference.select, Preference.select, Preference.get?, Preference.get?, Listing.ext same]

end Engine

end SourceTree
