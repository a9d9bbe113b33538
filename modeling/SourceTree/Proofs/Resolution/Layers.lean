import SourceTree.Proofs.Resolution.Discovery

/-! # Import distances

The distance of a path is the least number of fetched files on a chain of imports that leads to it
from a user file. When files are fetched in the order of discovery, paths are discovered in the
order of their distances: a fetched file is as far away as any before it, so what it brings to light
is one step further, and nothing that was known is further than that. -/

namespace SourceTree.Resolution

open ImportPath

/-- The chains of imports from user files through fetched files, by the number of fetched files on
them. Imports that a local file answers lead to that file and nowhere else. -/
inductive Chain (files : Listing String String) (fetched : List (String × String)) :
    Nat → String → Prop
  | direct {importer text path : String} (isFile : files.get? importer = some text)
      (imports : path ∈ importPaths text) (foreign : Seeds.Foreign files importer path) :
      Chain files fetched 0 path
  | nested {length : Nat} {importer text path : String}
      (chain : Chain files fetched length importer) (isFetched : (importer, text) ∈ fetched)
      (imports : path ∈ importPaths text) :
      Chain files fetched (length + 1) (meantIn importer path)

def IsDistance (files : Listing String String) (fetched : List (String × String))
    (distance : Nat) (path : String) : Prop :=
  Chain files fetched distance path ∧
    ∀ length, Chain files fetched length path → distance ≤ length

/-- Whether a path is nearer to the user's files than another, or as near and offered before it. -/
def Precedes (files : Listing String String) (fetched : List (String × String))
    (first second : String) : Prop :=
  ∃ near far, IsDistance files fetched near first ∧ IsDistance files fetched far second ∧
    (near < far ∨ near = far ∧ OfferedBefore (offers files fetched) first second)

variable {files : Listing String String} {fetched : List (String × String)}

theorem Chain.mono {more : List (String × String)} {length : Nat} {path : String}
    (chain : Chain files fetched length path) : Chain files (fetched ++ more) length path := by
  induction chain with
  | direct isFile imports foreign => exact .direct isFile imports foreign
  | nested _ isFetched imports induction =>
      exact .nested induction (List.mem_append_left more isFetched) imports

inductive InTurn (files : Listing String String) : List (String × String) → Prop
  | nothing : InTurn files []
  | next {fetched : List (String × String)} {path : String} (text : String)
      (turn : InTurn files fetched)
      (known : (fetched.map Prod.fst ++ [path]).Sublist
        (discoveredFrom files (offers files fetched))) :
      InTurn files (fetched ++ [(path, text)])

/-- A depth for every path that is known: files are ordered by it, chains realize it, and no import
of a fetched file is more than a step deeper than the file. -/
structure Layered (files : Listing String String) (fetched : List (String × String))
    (depth : String → Nat) : Prop where
  sorted : (discoveredFrom files (offers files fetched)).Pairwise fun first second =>
    depth first ≤ depth second
  chain : ∀ path ∈ discoveredFrom files (offers files fetched),
    Chain files fetched (depth path) path
  direct : ∀ importer text, files.get? importer = some text →
    ∀ path ∈ foreignImports files importer text, depth path = 0
  bounded : ∀ path ∈ discoveredFrom files (offers files fetched),
    depth path = 0 ∨ ∃ file ∈ fetched, depth path = depth file.1 + 1
  nested : ∀ file ∈ fetched, ∀ path ∈ nestedImports file.1 file.2,
    path ∈ discoveredFrom files (offers files fetched) → depth path ≤ depth file.1 + 1

theorem not_mem_of_foreignImports {importer text path : String}
    (offered : path ∈ foreignImports files importer text) : path ∉ files :=
  ((LocalFiles.resolve_fst_eq_none_iff _ _ _).1 (mem_foreignImports.1 offered).2).1

theorem mem_discoveredFrom_of_foreignImports {importer text path : String}
    (isFile : files.get? importer = some text)
    (offered : path ∈ foreignImports files importer text)
    (fetched : List (String × String)) : path ∈ discoveredFrom files (offers files fetched) := by
  have isEntry : (importer, text) ∈ files.entries := Listing.get?_eq_some_iff.1 isFile
  refine mem_discoveredFrom.2 ⟨not_mem_of_foreignImports offered, _, ?_, offered⟩
  exact List.mem_append_left _ (List.mem_map.2 ⟨(importer, text), isEntry, rfl⟩)

theorem layered_nil (files : Listing String String) : Layered files [] fun _ => 0 where
  sorted := List.pairwise_of_forall fun _ _ => Nat.le_refl 0
  chain := by
    intro path known
    rcases mem_discoveredFrom.1 known with ⟨_, offer, isOffer, offered⟩
    rw [offers, List.map_nil, List.append_nil] at isOffer
    rcases List.mem_map.1 isOffer with ⟨file, isFile, rfl⟩
    rcases mem_foreignImports.1 offered with ⟨imports, foreign⟩
    exact .direct (Listing.get?_eq_some_iff.2 isFile) imports foreign
  direct := fun _ _ _ _ _ => rfl
  bounded := fun _ _ => Or.inl rfl
  nested := fun _ isFetched => absurd isFetched List.not_mem_nil

theorem mem_discoveredFrom_of_nestedImports {file : String × String} (isFetched : file ∈ fetched)
    {path : String} (offered : path ∈ nestedImports file.1 file.2) (notUser : path ∉ files) :
    path ∈ discoveredFrom files (offers files fetched) := by
  refine mem_discoveredFrom.2 ⟨notUser, nestedImports file.1 file.2, ?_, offered⟩
  exact List.mem_append_right _ (List.mem_map_of_mem isFetched)

theorem discoveredFrom_next (files : Listing String String) (fetched : List (String × String))
    (path text : String) :
    discoveredFrom files (offers files (fetched ++ [(path, text)])) =
      discoveredFrom files (offers files fetched) ++
        fresh files (discoveredFrom files (offers files fetched)) (nestedImports path text) := by
  rw [offers_concat, discoveredFrom_concat]

theorem Layered.le_succ {depth : String → Nat} (layered : Layered files fetched depth)
    {deepest : Nat} (bound : ∀ file ∈ fetched, depth file.1 ≤ deepest) {path : String}
    (known : path ∈ discoveredFrom files (offers files fetched)) : depth path ≤ deepest + 1 := by
  rcases layered.bounded path known with isZero | ⟨file, isFetched, below⟩
  · omega
  · have := bound file isFetched
    omega

def deepened (known : List String) (depth : String → Nat) (path other : String) : Nat :=
  if other ∈ known then depth other else depth path + 1

theorem deepened_of_mem {known : List String} (depth : String → Nat) (path : String)
    {other : String} (before : other ∈ known) : deepened known depth path other = depth other :=
  if_pos before

theorem deepened_of_mem_fresh {known offer : List String} (depth : String → Nat) (path : String)
    {other : String} (isFresh : other ∈ fresh files known offer) :
    deepened known depth path other = depth path + 1 :=
  if_neg (mem_fresh.1 isFresh).2.2

theorem Layered.le_succ_next {depth : String → Nat} (layered : Layered files fetched depth)
    {path other : String}
    (known : (fetched.map Prod.fst ++ [path]).Sublist (discoveredFrom files (offers files fetched)))
    (otherKnown : other ∈ discoveredFrom files (offers files fetched)) :
    depth other ≤ depth path + 1 := by
  refine layered.le_succ (fun file isFetched => ?_) otherKnown
  exact (List.pairwise_append.1 (layered.sorted.sublist known)).2.2 file.1
    (List.mem_map_of_mem isFetched) path List.mem_cons_self

theorem Layered.next {depth : String → Nat} (layered : Layered files fetched depth) {path : String}
    (text : String)
    (known : (fetched.map Prod.fst ++ [path]).Sublist
      (discoveredFrom files (offers files fetched))) :
    Layered files (fetched ++ [(path, text)])
      (deepened (discoveredFrom files (offers files fetched)) depth path) := by
  have fetchedKnown : ∀ file ∈ fetched, file.1 ∈ discoveredFrom files (offers files fetched) :=
    fun file isFetched => known.subset (List.mem_append_left _ (List.mem_map_of_mem isFetched))
  have isKnown : path ∈ discoveredFrom files (offers files fetched) :=
    known.subset (List.mem_append_right _ List.mem_cons_self)
  have last : (path, text) ∈ fetched ++ [(path, text)] :=
    List.mem_append_right _ List.mem_cons_self
  -- What was known keeps its depth, and what is fresh comes one step below the new file.
  exact {
    sorted := by
      rw [discoveredFrom_next, List.pairwise_append]
      refine ⟨layered.sorted.imp_of_mem fun isFirst isSecond ordered => ?_,
        (nodup_fresh files _ _).imp_of_mem fun isFirst isSecond _ => ?_,
        fun first isFirst second isSecond => ?_⟩
      · rw [deepened_of_mem depth path isFirst, deepened_of_mem depth path isSecond]
        exact ordered
      · rw [deepened_of_mem_fresh depth path isFirst, deepened_of_mem_fresh depth path isSecond]
      · rw [deepened_of_mem depth path isFirst, deepened_of_mem_fresh depth path isSecond]
        exact layered.le_succ_next known isFirst
    chain := by
      intro other otherKnown
      rw [discoveredFrom_next, List.mem_append] at otherKnown
      rcases otherKnown with before | isFresh
      · rw [deepened_of_mem depth path before]
        exact (layered.chain other before).mono
      · rw [deepened_of_mem_fresh depth path isFresh]
        rcases List.mem_map.1 (mem_fresh.1 isFresh).1 with ⟨nested, imports, rfl⟩
        exact .nested (layered.chain path isKnown).mono last imports
    direct := by
      intro importer content isFile other offered
      rw [deepened_of_mem depth path (mem_discoveredFrom_of_foreignImports isFile offered fetched)]
      exact layered.direct importer content isFile other offered
    bounded := by
      intro other otherKnown
      rw [discoveredFrom_next, List.mem_append] at otherKnown
      rcases otherKnown with before | isFresh
      · rw [deepened_of_mem depth path before]
        refine (layered.bounded other before).imp_right ?_
        rintro ⟨file, isFetched, below⟩
        refine ⟨file, List.mem_append_left _ isFetched, ?_⟩
        rw [deepened_of_mem depth path (fetchedKnown file isFetched), below]
      · rw [deepened_of_mem_fresh depth path isFresh]
        exact Or.inr ⟨(path, text), last, by rw [deepened_of_mem depth path isKnown]⟩
    nested := by
      intro file isFetched other offered otherKnown
      rw [discoveredFrom_next, List.mem_append] at otherKnown
      rcases List.mem_append.1 isFetched with before | isLast
      · have stillKnown : other ∈ discoveredFrom files (offers files fetched) :=
          otherKnown.elim id fun isFresh =>
            mem_discoveredFrom_of_nestedImports before offered (mem_fresh.1 isFresh).2.1
        rw [deepened_of_mem depth path stillKnown,
          deepened_of_mem depth path (fetchedKnown file before)]
        exact layered.nested file before other offered stillKnown
      · rw [List.mem_singleton.1 isLast, deepened_of_mem depth path isKnown]
        rcases otherKnown with earlier | isFresh
        · rw [deepened_of_mem depth path earlier]
          exact layered.le_succ_next known earlier
        · exact (deepened_of_mem_fresh depth path isFresh).le }

theorem InTurn.layered (turn : InTurn files fetched) : ∃ depth, Layered files fetched depth := by
  induction turn with
  | nothing => exact ⟨_, layered_nil files⟩
  | next text _ known induction =>
      rcases induction with ⟨depth, layered⟩
      exact ⟨_, layered.next text known⟩

theorem InTurn.known (turn : InTurn files fetched) {file : String × String}
    (isFetched : file ∈ fetched) : file.1 ∈ discoveredFrom files (offers files fetched) := by
  induction turn with
  | nothing => cases isFetched
  | @next earlier path text _ known _ =>
      rw [offers_concat, discoveredFrom_concat]
      refine List.mem_append_left _ (known.subset ?_)
      rcases List.mem_append.1 isFetched with before | isLast
      · exact List.mem_append_left _ (List.mem_map_of_mem before)
      · rw [List.mem_singleton.1 isLast]
        exact List.mem_append_right _ List.mem_cons_self

theorem Layered.isDistance {depth : String → Nat} (layered : Layered files fetched depth)
    (turn : InTurn files fetched) {path : String}
    (known : path ∈ discoveredFrom files (offers files fetched)) :
    IsDistance files fetched (depth path) path := by
  refine ⟨layered.chain path known, fun length chain => ?_⟩
  -- Along a chain the depth grows by at most one for each fetched file.
  induction chain with
  | direct isFile imports foreign =>
      exact (layered.direct _ _ isFile _ (mem_foreignImports.2 ⟨imports, foreign⟩)).le
  | @nested length importer text path chain isFetched imports induction =>
      have step := layered.nested (importer, text) isFetched _ (List.mem_map_of_mem imports) known
      have := induction (turn.known isFetched)
      simp only at step
      omega

theorem InTurn.exists_isDistance (turn : InTurn files fetched) {path : String}
    (known : path ∈ discoveredFrom files (offers files fetched)) :
    ∃ distance, IsDistance files fetched distance path := by
  rcases turn.layered with ⟨depth, layered⟩
  exact ⟨_, layered.isDistance turn known⟩

/-- Files that are fetched in the order of discovery bring paths to light in the order of their
distances, and those at one distance in the order of their first offers. -/
theorem InTurn.pairwise_precedes (turn : InTurn files fetched) :
    (discoveredFrom files (offers files fetched)).Pairwise (Precedes files fetched) := by
  rcases turn.layered with ⟨depth, layered⟩
  refine (layered.sorted.and (pairwise_discoveredFrom files (offers files fetched))).imp_of_mem ?_
  rintro first second isFirst isSecond ⟨ordered, before⟩
  refine ⟨_, _, layered.isDistance turn isFirst, layered.isDistance turn isSecond, ?_⟩
  exact (Nat.lt_or_eq_of_le ordered).imp_right fun same => ⟨same, before⟩

end SourceTree.Resolution
