import SourceTree.Proofs.Resolution.SharedCache

/-! # Resolutions one after another

Passes over trees of files are run one after another with one cache. A pass finds what it would
find alone when the texts that are remembered are those that it would be told; a text that was
fetched at another version is given all the same. -/

namespace SourceTree

namespace Engine

open Pass

variable {T : Type} [Timescale T] {engine : Engine T} {files : Listing String String}
  {cache : ContentCache (FetchError T)} {preference : Preference}

theorem Honest.move {deadline : Option T} (stable : engine.network.Stable)
    (untimed : deadline = none) {before after : Pass T}
    (honest : Honest engine before.holdings.cache)
    (move : Move engine deadline files before after) : Honest engine after.holdings.cache := by
  cases move with
  | fetch path =>
      subst untimed
      exact honest.fetchImport stable path
  | @accept path text started =>
      rw [holdings_accept]
      exact honest
  | skip _ _ => exact honest
  | start _ _ => exact honest
  | fail _ _ => exact honest
  | finish _ => exact honest

theorem deadlineFrom_eq_none (untimed : engine.timeout = none) (now : T) :
    engine.deadlineFrom none now = none := by
  simp [deadlineFrom, untimed]

theorem Honest.resolve (stable : engine.network.Stable) (untimed : engine.timeout = none)
    (honest : Honest engine cache) (files : Listing String String) (world : World T) :
    Honest engine (engine.resolve files none cache world).2.1 := by
  cases detected : engine.detect files with
  | error fault =>
      rw [Engine.resolve, detected]
      exact honest
  | ok preference =>
      rw [resolve_of_detect detected, resolveWith]
      simp only
      split
      · exact honest
      · rw [deadlineFrom_eq_none untimed]
        exact (drain_moves engine _ files none _).preserves
          (motive := fun pass => Honest engine pass.holdings.cache)
          (fun _ _ honest move => honest.move stable rfl move) honest

def resolveAll (engine : Engine T) : List (Listing String String) →
    ContentCache (FetchError T) → World T → ContentCache (FetchError T) × World T
  | [], cache, world => (cache, world)
  | files :: rest, cache, world =>
      let (_, cache, world) := engine.resolve files none cache world
      engine.resolveAll rest cache world

theorem Honest.resolveAll (stable : engine.network.Stable) (untimed : engine.timeout = none)
    (honest : Honest engine cache) (history : List (Listing String String)) (world : World T) :
    Honest engine (engine.resolveAll history cache world).1 := by
  induction history generalizing cache world with
  | nil => exact honest
  | cons files rest induction => exact induction (honest.resolve stable untimed files world) _

/-! ## Comparing resolutions -/

theorem drainSeeds_compared (stable : engine.network.Stable) (untimed : engine.timeout = none)
    (honest : Honest engine cache) {world : World T} (sharedWorld : World T)
    (completes : (engine.drainSeeds files none ⟨.empty, preference, world⟩).1.Completes) :
    EndCompared engine cache preference
      (engine.drainSeeds files none ⟨.empty, preference, world⟩)
      (engine.drainSeeds files none ⟨cache, preference, sharedWorld⟩) := by
  simp only [drainSeeds, deadlineFrom_eq_none untimed] at completes ⊢
  have abreast : Abreast engine cache preference files
      (openPass (Resolution.Seeds.ofFiles files) ⟨.empty, preference, world⟩)
      (openPass (Resolution.Seeds.ofFiles files) ⟨cache, preference, sharedWorld⟩) :=
    { twin := ⟨rfl, rfl, rfl, rfl, rfl, fun _ => Iff.rfl, rfl⟩
      tracks := openPass_tracks files _
      sharedTracks := openPass_tracks files _
      fresh := fun _ _ _ => ⟨rfl, rfl⟩
      same := fun _ _ _ => ⟨rfl, rfl⟩
      replayed := fun _ => Iff.rfl }
  exact drainRounds_compared stable honest _ _ _ abreast completes

theorem drainSeeds_tracks (engine : Engine T) (files : Listing String String)
    (deadline : Option T) (holdings : Holdings T) :
    Tracks files (engine.drainSeeds files deadline holdings).2 :=
  Moves.tracks (drain_moves engine _ files _ _) (openPass_tracks files holdings)

end Engine

namespace Resolution

open Pass

variable {T : Type} [Timescale T] {files : Listing String String}

def fetchedFrom (files : Listing String String) (resolution : Resolution) :
    List (String × String) :=
  resolution.files.entries.filter fun file => file.1 ∉ files

omit [Timescale T] in
theorem foreign_of_mem_fetched {pass : Pass T} (tracks : Tracks files pass) {path : String}
    (isFetched : path ∈ pass.fetched) : path ∉ files :=
  tracks.foreign path (tracks.resolved path ((tracks.fetchedIff path).1 isFetched))

theorem fetchedFrom_ofPass {pass : Pass T} (tracks : Tracks files pass) (registry : Registry)
    (ambiguous : Listing String (List String)) (exit : DrainExit T) :
    (ofPass registry files ambiguous exit pass).fetchedFrom files = pass.fetched.entries := by
  have apart : ∀ path ∈ files.entries.map Prod.fst, path ∉ pass.fetched :=
    fun path isFile isFetched => foreign_of_mem_fetched tracks isFetched isFile
  have merged : (ofPass registry files ambiguous exit pass).files.entries =
      pass.fetched.entries ++ files.entries :=
    Listing.entries_insertAll_of_fresh pass.fetched files.keysDistinct apart
  have kept : ∀ file ∈ pass.fetched.entries, file.1 ∉ files := fun file member =>
    foreign_of_mem_fetched tracks (Listing.mem_of_mem_entries member)
  have dropped : ∀ file ∈ files.entries, ¬file.1 ∉ files := fun file member absent =>
    absent (Listing.mem_of_mem_entries member)
  rw [fetchedFrom, merged, List.filter_append, List.filter_eq_self.2 (by simpa using kept),
    List.filter_eq_nil_iff.2 (by simpa using dropped), List.append_nil]

theorem files_ne_of_parted {alone shared : Pass T} (tracks : Tracks files alone)
    (parted : Engine.Parted alone shared) (registry : Registry)
    (ambiguous : Listing String (List String)) (exit sharedExit : DrainExit T) :
    (ofPass registry files ambiguous sharedExit shared).files ≠
      (ofPass registry files ambiguous exit alone).files := by
  intro sameFiles
  rcases parted with ⟨path, text, other, different, found, otherFound⟩
  have foreign := foreign_of_mem_fetched tracks (Listing.mem_of_get?_eq_some found)
  have same := congrArg (fun listing => listing.get? path) sameFiles
  simp only [get?_files_ofPass, (Listing.get?_eq_none_iff files path).2 foreign,
    Option.none_or, found, otherFound, Option.some.injEq] at same
  exact different same

end Resolution

namespace Engine

open Pass Resolution

variable {T : Type} [Timescale T] {engine : Engine T} {files : Listing String String}
  {cache : ContentCache (FetchError T)}

theorem resolve_compared (stable : engine.network.Stable) (untimed : engine.timeout = none)
    (honest : Honest engine cache) {preference : Preference}
    (detected : engine.detect files = .ok preference) {world : World T} (sharedWorld : World T)
    {alone : Resolution} (solo : (engine.resolve files none .empty world).1 = .ok alone) :
    (∃ shared, (engine.resolve files none cache sharedWorld).1 = .ok shared ∧
        shared.files = alone.files) ↔
      Agrees engine cache preference (alone.fetchedFrom files) := by
  rw [resolve_of_detect detected] at solo ⊢
  rcases resolveWith_eq_ok_iff.1 solo with ⟨allowed, completes, rfl⟩
  have aloneTracks := drainSeeds_tracks engine files none ⟨.empty, preference, world⟩
  rw [fetchedFrom_ofPass aloneTracks]
  have isShared : ∀ shared, (engine.resolveWith files none
        ⟨cache, preference, sharedWorld⟩).1 = .ok shared ↔
      (engine.drainSeeds files none ⟨cache, preference, sharedWorld⟩).1.Completes ∧
        shared = ofPass engine.registry files (Seeds.ofFiles files).locals.ambiguous
          (engine.drainSeeds files none ⟨cache, preference, sharedWorld⟩).1
          (engine.drainSeeds files none ⟨cache, preference, sharedWorld⟩).2 :=
    fun shared => resolveWith_eq_ok_iff.trans (and_iff_right allowed)
  have compared := drainSeeds_compared stable untimed honest sharedWorld completes
  cases compared with
  | agree sameExit twin agrees =>
      refine iff_of_true ⟨_, (isShared _).2 ⟨sameExit ▸ completes, rfl⟩, ?_⟩ agrees
      simp only [ofPass, twin.fetched]
  | differ disagrees apart =>
      refine iff_of_false ?_ disagrees
      rintro ⟨shared, isOk, sameFiles⟩
      rcases (isShared shared).1 isOk with ⟨sharedCompletes, rfl⟩
      rcases apart with broken | parted
      · exact broken sharedCompletes
      · exact files_ne_of_parted aloneTracks parted _ _ _ _ sameFiles

/-- After any history over a stable network and without a timeout, a pass finds the files that it
would find alone exactly when each of them, in the order of fetching, is remembered with the same
text or has it at the version that is in use by then. -/
theorem files_eq_iff_agrees (stable : engine.network.Stable) (untimed : engine.timeout = none)
    (history : List (Listing String String)) (start : World T) {files : Listing String String}
    {world : World T} {alone : Resolution}
    (solo : (engine.resolve files none .empty world).1 = .ok alone) :
    ∃ preference, engine.detect files = .ok preference ∧
      ((∃ shared, (engine.resolve files none (engine.resolveAll history .empty start).1
            (engine.resolveAll history .empty start).2).1 = .ok shared ∧
          shared.files = alone.files) ↔
        Agrees engine (engine.resolveAll history .empty start).1 preference
          (alone.fetchedFrom files)) := by
  have honest := (honest_empty engine).resolveAll stable untimed history start
  rcases exists_detect_of_resolve solo with ⟨preference, detected, -⟩
  exact ⟨preference, detected, resolve_compared stable untimed honest detected _ solo⟩

def versioned : Library :=
  .ofVersions "@lib" ⟨"2", "https://two/", none, [], []⟩
    [⟨"1", "https://one/", none, ["OLD"], []⟩] (by decide)

def twoVersions : Engine Rat :=
  serving (.ofLibraries [versioned])
    (.ofList [("https://two/a.sol", "new a"), ("https://one/a.sol", "old a"),
      ("https://two/b.sol", "new b"), ("https://one/b.sol", "old b")])

def askingForOld : Listing String String :=
  .ofList [("m.sol", "import '@lib/a.sol'; // OLD")]

def askingForMore : Listing String String :=
  .ofList [("m.sol", "import '@lib/a.sol'; // OLD"), ("n.sol", "import '@lib/b.sol';")]

def askingForAny : Listing String String :=
  .ofList [("m.sol", "import '@lib/a.sol';")]

theorem files_eq_of_same_version :
    ∃ alone shared : Resolution,
      (twoVersions.resolve askingForMore none .empty (.startingAt 0)).1 = .ok alone ∧
      (twoVersions.resolve askingForMore none
        (twoVersions.resolveAll [askingForOld] .empty (.startingAt 0)).1
        (twoVersions.resolveAll [askingForOld] .empty (.startingAt 0)).2).1 = .ok shared ∧
      shared.files = alone.files := by
  have report : ((twoVersions.resolve askingForMore none .empty (.startingAt 0)).1.toOption.map
        fun resolution => resolution.fetchedFrom askingForMore) =
      some [("@lib/a.sol", "old a"), ("@lib/b.sol", "old b")] := by
    decide +kernel
  rcases exists_of_toOption_map report with ⟨alone, solo, fetched⟩
  have asksForOld : twoVersions.detect askingForMore = .ok ⟨.ofList [("@lib", "1")]⟩ := rfl
  have agrees : Agrees twoVersions (twoVersions.resolveAll [askingForOld] .empty (.startingAt 0)).1
      ⟨.ofList [("@lib", "1")]⟩ (alone.fetchedFrom askingForMore) := by
    have known : (twoVersions.resolveAll [askingForOld] .empty (.startingAt 0)).1.content?
        "@lib/a.sol" = some "old a" := by
      decide +kernel
    have unknown : (twoVersions.resolveAll [askingForOld] .empty (.startingAt 0)).1.content?
        "@lib/b.sol" = none := by
      decide +kernel
    have isOwned : twoVersions.registry.find "@lib/b.sol" = some versioned := rfl
    rw [fetched]
    exact ⟨_, yields_known twoVersions known _, _, yields_asked unknown isOwned rfl, trivial⟩
  rcases files_eq_iff_agrees (Network.stable_serving _) rfl [askingForOld] (.startingAt 0) solo with
    ⟨preference, detected, compared⟩
  cases asksForOld.symm.trans detected
  rcases compared.2 agrees with ⟨shared, together, same⟩
  exact ⟨alone, shared, solo, together, same⟩

/-- A pass that asks for no version is given the text of the old one. -/
theorem files_ne_of_other_version :
    twoVersions.network.Stable ∧ twoVersions.timeout = none ∧
      ∃ alone shared : Resolution,
        (twoVersions.resolve askingForAny none .empty (.startingAt 0)).1 = .ok alone ∧
        (twoVersions.resolve askingForAny none
          (twoVersions.resolveAll [askingForOld] .empty (.startingAt 0)).1
          (twoVersions.resolveAll [askingForOld] .empty (.startingAt 0)).2).1 = .ok shared ∧
        shared.files ≠ alone.files := by
  have aloneReport : ((twoVersions.resolve askingForAny none .empty
        (.startingAt 0)).1.toOption.map fun resolution => resolution.files.get? "@lib/a.sol") =
      some (some "new a") := by
    decide +kernel
  have sharedReport : ((twoVersions.resolve askingForAny none
        (twoVersions.resolveAll [askingForOld] .empty (.startingAt 0)).1
        (twoVersions.resolveAll [askingForOld] .empty (.startingAt 0)).2).1.toOption.map
          fun resolution => resolution.files.get? "@lib/a.sol") =
      some (some "old a") := by
    decide +kernel
  rcases exists_of_toOption_map aloneReport with ⟨alone, solo, isNew⟩
  rcases exists_of_toOption_map sharedReport with ⟨shared, together, isOld⟩
  refine ⟨Network.stable_serving _, rfl, alone, shared, solo, together, fun same => ?_⟩
  rw [same, isNew] at isOld
  revert isOld
  decide

end Engine

end SourceTree
