import SourceTree.Proofs.LocalFiles

/-! # Answers after other answers

A match by filename is remembered under the import as it is written, whatever file holds it. So a
query is answered as if nothing had been asked before, unless an earlier one of the same spelling
was matched by filename and another file stands at the place of this one: it is hidden then. -/

namespace SourceTree.LocalFiles

open ImportPath

structure Query where
  importer : Option String
  path : String

def answers : LocalFiles → List Query → List (Option String)
  | _, [] => []
  | locals, query :: later =>
      let (answer, next) := locals.resolve query.importer query.path
      answer :: answers next later

def freshAnswer (files : Listing String String) (query : Query) : Option String :=
  ((ofFiles files).resolve query.importer query.path).1

def atPlace? (files : Listing String String) (query : Query) : Option String :=
  (ofFiles files).neighbour? query.importer query.path

/-- An import that is no file as it is written, and so is looked for by its place and its name. -/
structure Sought (files : Listing String String) (path : String) : Prop where
  absent : path ∉ files
  strippedAbsent : dropLeadingSlash path ∉ files
  relative : isRelative path = true

/-- A query that is answered by filename when nothing was asked before. -/
structure Guessed (files : Listing String String) (query : Query) (best : String) : Prop where
  sought : Sought files query.path
  misplaced : atPlace? files query = none
  isBest : (namesakes files query.path).head? = some best

/-- The match of an earlier query by filename hides the file at the place of a later one. -/
def Hides (files : Listing String String) (earlier later : Query) : Prop :=
  earlier.path = later.path ∧ ∃ best file, Guessed files earlier best ∧
    atPlace? files later = some file ∧ file ≠ best

/-! ## One answer -/

section

variable {locals : LocalFiles} {importer : Option String} {path : String}

theorem resolve_of_not_sought (notSought : ¬Sought locals.files path)
    (unmapped : locals.aliases.get? path = none) :
    locals.resolve importer path =
      (((ofFiles locals.files).resolve importer path).1, locals) := by
  simp only [resolve, unmapped, ofFiles, Listing.get?_empty]
  by_cases present : path ∈ locals.files
  · simp only [present, if_true]
  · by_cases strippedPresent : dropLeadingSlash path ∈ locals.files
    · simp only [present, strippedPresent, if_true, if_false]
    · have absolute : isRelative path = false := by
        rw [← Bool.not_eq_true]
        exact fun relative => notSought ⟨present, strippedPresent, relative⟩
      simp only [present, strippedPresent, absolute, Bool.not_false, if_true, if_false]

theorem resolve_of_sought (sought : Sought locals.files path) :
    locals.resolve importer path =
      match locals.aliases.get? path with
      | some known => (some known, locals)
      | none =>
          match locals.neighbour? importer path with
          | some file => (some file, locals)
          | none => locals.matchFilename path := by
  have relative : ¬(!isRelative path) = true := by simp [sought.relative]
  refine (if_neg sought.absent).trans ((if_neg sought.strippedAbsent).trans ?_)
  cases locals.aliases.get? path with
  | some known => rfl
  | none => exact if_neg relative

end

theorem neighbour?_eq_atPlace? (locals : LocalFiles) (query : Query) :
    locals.neighbour? query.importer query.path = atPlace? locals.files query := by
  rw [atPlace?]
  cases query.importer <;> rfl

/-- Without a remembered match, a file at its place comes before the best one of its name. -/
theorem fst_resolve_of_unmapped {locals : LocalFiles} {query : Query}
    (sought : Sought locals.files query.path)
    (unmapped : locals.aliases.get? query.path = none) :
    (locals.resolve query.importer query.path).1 =
      (atPlace? locals.files query).or (namesakes locals.files query.path).head? := by
  rw [resolve_of_sought sought, unmapped, neighbour?_eq_atPlace?]
  cases atPlace? locals.files query with
  | some file => rfl
  | none =>
      simp only [matchFilename, Option.none_or]
      cases namesakes locals.files query.path <;> rfl

theorem freshAnswer_of_sought {files : Listing String String} {query : Query}
    (sought : Sought files query.path) :
    freshAnswer files query = (atPlace? files query).or (namesakes files query.path).head? :=
  @fst_resolve_of_unmapped (ofFiles files) query sought (Listing.get?_empty _)

/-! ## What is remembered -/

structure Remembers (files : Listing String String) (asked : List Query) (locals : LocalFiles) :
    Prop where
  sameFiles : locals.files = files
  aliasIff : ∀ path best, locals.aliases.get? path = some best ↔
    ∃ query ∈ asked, query.path = path ∧ Guessed files query best

theorem remembers_ofFiles (files : Listing String String) : Remembers files [] (ofFiles files) :=
  ⟨rfl, fun _ _ => by simp [ofFiles]⟩

variable {files : Listing String String} {asked : List Query} {locals : LocalFiles}

theorem Guessed.unique {query other : Query} {best otherBest : String}
    (guessed : Guessed files query best) (otherGuessed : Guessed files other otherBest)
    (same : query.path = other.path) : best = otherBest := by
  have isBest := guessed.isBest
  rw [same, otherGuessed.isBest] at isBest
  exact (Option.some.inj isBest).symm

theorem Remembers.unmapped_of_not_sought (remembers : Remembers files asked locals) {path : String}
    (notSought : ¬Sought files path) : locals.aliases.get? path = none := by
  refine Option.eq_none_iff_forall_ne_some.2 fun best mapped => ?_
  rcases (remembers.aliasIff path best).1 mapped with ⟨query, -, rfl, guessed⟩
  exact notSought guessed.sought

theorem Remembers.keep (remembers : Remembers files asked locals) {query : Query}
    (known : ∀ best, Guessed files query best → locals.aliases.get? query.path = some best) :
    Remembers files (asked ++ [query]) locals where
  sameFiles := remembers.sameFiles
  aliasIff := by
    intro path best
    constructor
    · intro mapped
      rcases (remembers.aliasIff path best).1 mapped with ⟨other, isAsked, same⟩
      exact ⟨other, List.mem_append_left _ isAsked, same⟩
    · rintro ⟨other, member, rfl, guessed⟩
      rcases List.mem_append.1 member with isAsked | isQuery
      · exact (remembers.aliasIff _ best).2 ⟨other, isAsked, rfl, guessed⟩
      · cases List.mem_singleton.1 isQuery
        exact known best guessed

theorem Remembers.add (remembers : Remembers files asked locals) {query : Query} {best : String}
    (guessed : Guessed files query best) {next : LocalFiles} (sameFiles : next.files = files)
    (noted : next.aliases = locals.aliases.insert query.path best) :
    Remembers files (asked ++ [query]) next where
  sameFiles := sameFiles
  aliasIff := by
    intro path other
    rw [noted, Listing.get?_insert]
    split
    next same =>
      subst same
      constructor
      · rintro ⟨⟩
        exact ⟨query, List.mem_append_right _ List.mem_cons_self, rfl, guessed⟩
      · rintro ⟨earlier, -, same, otherGuessed⟩
        rw [otherGuessed.unique guessed same]
    next different =>
      rw [remembers.aliasIff]
      constructor
      · rintro ⟨earlier, isAsked, same⟩
        exact ⟨earlier, List.mem_append_left _ isAsked, same⟩
      · rintro ⟨earlier, member, same, otherGuessed⟩
        rcases List.mem_append.1 member with isAsked | isQuery
        · exact ⟨earlier, isAsked, same, otherGuessed⟩
        · cases List.mem_singleton.1 isQuery
          exact absurd same.symm different

theorem Remembers.next (remembers : Remembers files asked locals) (query : Query) :
    Remembers files (asked ++ [query]) (locals.resolve query.importer query.path).2 := by
  obtain rfl := remembers.sameFiles
  by_cases sought : Sought locals.files query.path
  · rw [resolve_of_sought sought]
    cases mapped : locals.aliases.get? query.path with
    | some known =>
        refine remembers.keep fun best guessed => ?_
        rcases (remembers.aliasIff _ known).1 mapped with ⟨other, -, same, otherGuessed⟩
        rw [mapped, otherGuessed.unique guessed same]
    | none =>
        simp only [neighbour?_eq_atPlace?]
        cases atPlace : atPlace? locals.files query with
        | some file =>
            refine remembers.keep fun best guessed => ?_
            cases atPlace.symm.trans guessed.misplaced
        | none =>
            simp only [matchFilename]
            cases candidates : namesakes locals.files query.path with
            | nil =>
                refine remembers.keep fun best guessed => ?_
                cases (congrArg List.head? candidates).symm.trans guessed.isBest
            | cons best others =>
                exact remembers.add ⟨sought, atPlace, congrArg List.head? candidates⟩ rfl rfl
  · have unmapped := remembers.unmapped_of_not_sought sought
    rw [resolve_of_not_sought sought unmapped]
    exact remembers.keep fun best guessed => absurd guessed.sought sought

/-- Only a remembered match hides a file, and it hides every other one that a query of its spelling
names by place. -/
theorem Remembers.hidden_iff (remembers : Remembers files asked locals) {query : Query} :
    (∃ earlier ∈ asked, Hides files earlier query) ↔
      ∃ best file, locals.aliases.get? query.path = some best ∧
        atPlace? files query = some file ∧ file ≠ best := by
  constructor
  · rintro ⟨earlier, isAsked, same, best, file, guessed, atPlace, different⟩
    have mapped := (remembers.aliasIff query.path best).2 ⟨earlier, isAsked, same, guessed⟩
    exact ⟨best, file, mapped, atPlace, different⟩
  · rintro ⟨best, file, mapped, atPlace, different⟩
    rcases (remembers.aliasIff _ best).1 mapped with ⟨earlier, isAsked, same, guessed⟩
    exact ⟨earlier, isAsked, same, best, file, guessed, atPlace, different⟩

theorem Remembers.fst_resolve_eq_iff (remembers : Remembers files asked locals) (query : Query) :
    (locals.resolve query.importer query.path).1 = freshAnswer files query ↔
      ¬∃ earlier ∈ asked, Hides files earlier query := by
  obtain rfl := remembers.sameFiles
  rw [remembers.hidden_iff]
  cases mapped : locals.aliases.get? query.path with
  | none =>
      refine iff_of_true ?_ (by rintro ⟨best, file, ⟨⟩, -⟩)
      by_cases sought : Sought locals.files query.path
      · rw [fst_resolve_of_unmapped sought mapped, freshAnswer_of_sought sought]
      · rw [resolve_of_not_sought sought mapped]
        rfl
  | some known =>
      rcases (remembers.aliasIff _ known).1 mapped with ⟨first, -, same, guessed⟩
      have sought : Sought locals.files query.path := same ▸ guessed.sought
      rw [freshAnswer_of_sought sought, resolve_of_sought sought, mapped, ← same, guessed.isBest]
      cases atPlace : atPlace? locals.files query with
      | none => exact iff_of_true rfl (by rintro ⟨best, file, -, ⟨⟩, -⟩)
      | some file => simp [eq_comm]

/-! ## Many answers -/

theorem Remembers.answers_eq_iff (remembers : Remembers files asked locals)
    (queries : List Query) :
    locals.answers queries = queries.map (freshAnswer files) ↔
      (∀ later ∈ queries, ¬∃ earlier ∈ asked, Hides files earlier later) ∧
        queries.Pairwise fun earlier later => ¬Hides files earlier later := by
  induction queries generalizing asked locals with
  | nil => simp [answers]
  | cons query queries induction =>
      have further := induction (remembers.next query)
      have here := remembers.fst_resolve_eq_iff query
      have askedAfter : ∀ later, (¬∃ earlier ∈ asked ++ [query], Hides files earlier later) ↔
          (¬∃ earlier ∈ asked, Hides files earlier later) ∧ ¬Hides files query later := by
        intro later
        simp only [List.mem_append, List.mem_singleton, or_and_right, exists_or, exists_eq_left,
          not_or]
      simp only [askedAfter] at further
      rw [answers, List.map_cons, List.cons.injEq, here, further, List.forall_mem_cons,
        List.pairwise_cons]
      constructor
      · rintro ⟨unhidden, others, pairs⟩
        exact ⟨⟨unhidden, fun later member => (others later member).1⟩,
          fun later member => (others later member).2, pairs⟩
      · rintro ⟨⟨unhidden, others⟩, afterQuery, pairs⟩
        exact ⟨unhidden, fun later member => ⟨others later member, afterQuery later member⟩, pairs⟩

/-- Queries are answered as if each were the only one exactly if none hides the file at the place of
a later one. A query that is the only one is answered with the file at its place. -/
theorem answers_eq_fresh_iff (files : Listing String String) :
    (∀ queries, (ofFiles files).answers queries = queries.map (freshAnswer files) ↔
      queries.Pairwise fun earlier later => ¬Hides files earlier later) ∧
      ∀ query file, Sought files query.path → atPlace? files query = some file →
        freshAnswer files query = some file := by
  constructor
  · intro queries
    rw [(remembers_ofFiles files).answers_eq_iff queries]
    exact and_iff_right fun _ _ => by simp
  · intro query file sought atPlace
    rw [freshAnswer_of_sought sought, atPlace, Option.some_or]

/-- `./x.sol` is first imported where no file stands, and then where `q/x.sol` does. -/
theorem answers_ne_fresh_of_other_importer :
    (ofFiles (.ofList [("p/x.sol", ""), ("q/x.sol", "")])).answers
        [⟨some "main.sol", "./x.sol"⟩, ⟨some "q/main.sol", "./x.sol"⟩] ≠
      [⟨some "main.sol", "./x.sol"⟩, ⟨some "q/main.sol", "./x.sol"⟩].map
        (freshAnswer (.ofList [("p/x.sol", ""), ("q/x.sol", "")])) := by
  rw [Ne, (remembers_ofFiles _).answers_eq_iff]
  rintro ⟨-, unhidden⟩
  have sorted : ["p/x.sol", "q/x.sol"].Pairwise fun path other => precedes path other := by
    decide +kernel
  have candidates : namesakes (.ofList [("p/x.sol", ""), ("q/x.sol", "")]) "./x.sol" =
      ["p/x.sol", "q/x.sol"] :=
    List.mergeSort_of_pairwise sorted
  have sought : Sought (.ofList [("p/x.sol", ""), ("q/x.sol", "")]) "./x.sol" :=
    ⟨by decide +kernel, by decide +kernel, by decide +kernel⟩
  have guessed : Guessed (.ofList [("p/x.sol", ""), ("q/x.sol", "")])
      ⟨some "main.sol", "./x.sol"⟩ "p/x.sol" :=
    ⟨sought, by decide +kernel, by rw [candidates]; rfl⟩
  exact List.rel_of_pairwise_cons unhidden List.mem_cons_self
    ⟨rfl, "p/x.sol", "q/x.sol", guessed, by decide +kernel, by decide⟩

end SourceTree.LocalFiles
