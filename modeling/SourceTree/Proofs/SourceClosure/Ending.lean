import SourceTree.Proofs.Network
import SourceTree.Proofs.SourceClosure.Depth
import SourceTree.Resolution

/-! # Which closures end

The imports that a lookup can answer are finitely many, so its runs end as long as their sources
do not nest deeper and deeper. They do where a file imports itself under a path in a directory
that does not exist. -/

namespace SourceTree

namespace ImportLookup

open SourceClosure

variable {T : Type}

theorem finite_answered (lookup : ImportLookup T) : (answered lookup.find).Finite := by
  have stripped : {path : String | ImportPath.dropLeadingSlash path ∈ lookup.files}.Finite := by
    have bare := List.finite_toSet lookup.files.keys
    have slashed := List.finite_toSet
      (lookup.files.keys.map fun file => String.ofList ('/' :: file.toList))
    refine (bare.union slashed).subset ?_
    intro path isFile
    rcases ImportPath.dropLeadingSlash_cases path with unchanged | spelled
    · exact Or.inl (unchanged ▸ isFile)
    · refine Or.inr (List.mem_map.2 ⟨_, isFile, ?_⟩)
      rw [← spelled, String.ofList_toList]
  have files := List.finite_toSet lookup.files.keys
  have aliases := List.finite_toSet lookup.aliases.keys
  have cached := List.finite_toSet lookup.cache.contents.keys
  refine (files.union (stripped.union (aliases.union cached))).subset ?_
  rintro path ⟨content, found⟩
  rcases exists_content?_iff.1 ⟨content, find_eq_ok_iff.1 found⟩ with
    isFile | isStripped | ⟨target, isMapped, _⟩ | isCached
  · exact Or.inl isFile
  · exact Or.inr (Or.inl isStripped)
  · exact Or.inr (Or.inr (Or.inl (Listing.mem_of_get?_eq_some isMapped)))
  · exact Or.inr (Or.inr (Or.inr isCached))

end ImportLookup

namespace SourceClosure

variable {lookup : String → Except String String}

/-- The progress of a run that went up to a level of a ladder of keys: the key of that level is
the only one queued, and nothing but keys of the ladder was collected. -/
structure Climbed (keys : Nat → String) (content : String) (level : Nat) (progress : Progress) :
    Prop where
  queue : progress.queue = [keys level]
  found : progress.closure.sources.get? (keys level) = some content
  sources : ∀ key ∈ progress.closure.sources, ∃ passed ≤ level, key = keys passed
  missing : progress.closure.missing = .empty

theorem Climbed.advance {keys : Nat → String} {content path : String} {level : Nat}
    {progress : Progress} (climbed : Climbed keys content level progress)
    (distinct : Function.Injective keys) (imports : importPaths content = [path])
    (climbs : ImportPath.meantIn (keys level) path = keys (level + 1))
    (given : provide lookup path (keys (level + 1)) = .ok content) :
    Climbed keys content (level + 1) (advance lookup 1 progress) := by
  rcases progress with ⟨⟨sources, missing⟩, queue⟩
  rcases climbed with ⟨isQueue, found, passed, isMissing⟩
  simp only at isQueue found passed isMissing
  subst isQueue
  subst isMissing
  have fresh : keys (level + 1) ∉ sources := by
    intro present
    rcases passed _ present with ⟨earlier, below, equal⟩
    have same := distinct equal
    omega
  have unsettled : ¬(keys (level + 1) ∈ sources ∨
      keys (level + 1) ∈ (Listing.empty : Listing String MissingSource)) := by
    simp [fresh]
  have visited : SourceClosure.advance lookup 1 ⟨⟨sources, .empty⟩, [keys level]⟩ =
      ⟨⟨sources.insert (keys (level + 1)) content, .empty⟩, [keys (level + 1)]⟩ := by
    simp only [SourceClosure.advance, visitSource, found, Option.getD_some, imports,
      List.foldl_cons, List.foldl_nil, visitImport, climbs, if_neg unsettled, given,
      List.nil_append]
  rw [visited]
  refine ⟨rfl, Listing.get?_insert_self _ _ _, ?_, rfl⟩
  intro key collected
  rcases (Listing.mem_insert _ _ _ _).1 collected with equal | earlier
  · exact ⟨level + 1, Nat.le_refl _, equal⟩
  · rcases passed key earlier with ⟨below, isBelow, equal⟩
    exact ⟨below, Nat.le_succ_of_le isBelow, equal⟩

/-- A run never ends when its only source imports a copy of itself under ever new keys. -/
theorem not_ends_of_climb {keys : Nat → String} {content path : String}
    (distinct : Function.Injective keys) (imports : importPaths content = [path])
    (climbs : ∀ level, ImportPath.meantIn (keys level) path = keys (level + 1))
    (given : ∀ level, provide lookup path (keys (level + 1)) = .ok content) :
    ¬Ends lookup (Listing.ofList [(keys 0, content)]) := by
  have climbed : ∀ steps, Climbed keys content steps
      (advance lookup steps (start (Listing.ofList [(keys 0, content)]))) := by
    intro steps
    induction steps with
    | zero => exact ⟨rfl, by simp [advance, start, Listing.ofList, Listing.insertAll],
        by simp [advance, start, Listing.ofList, Listing.insertAll], rfl⟩
    | succ steps induction =>
        rw [advance_add]
        exact induction.advance distinct imports (climbs steps) (given steps)
  intro ended
  rcases (ends_iff _).1 ended with ⟨steps, empty⟩
  rw [(climbed steps).queue] at empty
  cases empty

theorem provide_of_only {path key content : String}
    (only : ∀ other text, lookup other = .ok text → text = content)
    (found : lookup path = .ok content) : provide lookup path key = .ok content := by
  refine provide_eq_ok_iff.2 ?_
  cases atKey : lookup key with
  | ok text => exact Or.inl (by rw [only key text atKey])
  | error message =>
      refine Or.inr ⟨⟨message, rfl⟩, ?_, found⟩
      intro same
      rw [same, found] at atKey
      cases atKey

/-- Over the files, aliases and cache of a lookup a run ends exactly when its sources nest no
deeper than some limit. They never nest without limit unless some path, found as it is spelled,
leads back to itself through imports that are found as they are spelled. -/
theorem ends_iff_depth_bounded {T : Type} (lookup : ImportLookup T)
    (sources : Listing String String) :
    (Ends lookup.find sources ↔
      ∃ limit, ∀ steps, ∀ key ∈ (advance lookup.find steps (start sources)).closure.sources,
        ImportPath.depth key ≤ limit) ∧
    ((∀ spelling, ¬Relation.TransGen (Leads lookup.find) spelling spelling) →
      Ends lookup.find sources) := by
  refine ⟨⟨depth_bounded_of_ends, ?_⟩, ends_of_loopless lookup.finite_answered⟩
  rintro ⟨limit, shallow⟩
  exact ends_of_depth_bounded lookup.finite_answered limit shallow

/-- A file that imports itself under a path in a missing directory is resolved by its filename,
and then copied into one directory after another without end. -/
theorem not_ends_of_nested_self_import :
    ∃ resolution : Resolution,
      ((Engine.serving .empty .empty).resolve
        (.ofList [("x.sol", "import \"./sub/x.sol\"; contract X \x7b\x7d")]) none .empty
        (.startingAt 0)).1 = .ok resolution ∧
      resolution.isComplete ∧
      ¬Ends (ImportLookup.ofResolution resolution .empty .empty : ImportLookup Rat).find
        resolution.files := by
  have report : (((Engine.serving .empty .empty).resolve
        (.ofList [("x.sol", "import \"./sub/x.sol\"; contract X \x7b\x7d")]) none .empty
        (.startingAt 0)).1.toOption.map fun resolution =>
          (resolution.files.entries, resolution.aliases.entries, resolution.isComplete)) =
      some ([("x.sol", "import \"./sub/x.sol\"; contract X \x7b\x7d")],
        [("./sub/x.sol", "x.sol")], true) := by
    decide +kernel
  rcases Engine.exists_of_toOption_map report with ⟨resolution, outcome, parts⟩
  simp only [Prod.mk.injEq] at parts
  rcases parts with ⟨files, aliases, complete⟩
  refine ⟨resolution, outcome, complete, ?_⟩
  have isDirectory : ImportPath.Plain "sub".toList := by decide
  have isName : ImportPath.Plain "x.sol".toList := by decide
  have isGiven : resolution.files = .ofList [(ImportPath.nested "sub".toList "x.sol".toList 0,
      "import \"./sub/x.sol\"; contract X \x7b\x7d")] := Listing.ext files
  have imports : importPaths "import \"./sub/x.sol\"; contract X \x7b\x7d" =
      [ImportPath.descent "sub".toList "x.sol".toList] := by decide +kernel
  rw [isGiven]
  refine not_ends_of_climb (ImportPath.nested_injective isDirectory isName) imports
    (ImportPath.meantIn_descent isDirectory isName) fun level => provide_of_only ?_ ?_
  · intro other text found
    have known := ImportLookup.mem_values_of_content? (ImportLookup.find_eq_ok_iff.1 found)
    simpa [ImportLookup.ofResolution, ImportLookup.make, Listing.values, files,
      ContentCache.empty, Listing.empty] using known
  · refine ImportLookup.find_eq_ok_iff.2 ?_
    have spelled : ImportPath.descent "sub".toList "x.sol".toList = "./sub/x.sol" := by decide
    simp only [spelled, ImportLookup.ofResolution, ImportLookup.make, ImportLookup.content?,
      ImportLookup.mapped?, Listing.get?, files, aliases]
    decide +kernel

end SourceClosure

end SourceTree
