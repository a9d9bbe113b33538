import SourceTree.Proofs.Engine.Fetching

/-! # What is asked of the network

Asking an address sends requests for it, and the reply to the last of them is the verdict on the
address unless the time ran out. A path is asked for at one address after another until one has
content, the time runs out or no address is left; what became of each address decides what becomes
of the path. -/

namespace SourceTree

namespace Network

variable {T : Type}

def Latest (network : Network T) (past : List (Event T)) (url : String) (reaction : Reaction) :
    Prop :=
  ∃ request start earlier, past = .request request start :: earlier ∧ request.url = url ∧
    (network.reply earlier url).reaction = reaction

def Reacted (network : Network T) (past : List (Event T)) (url : String) (reaction : Reaction) :
    Prop :=
  ∃ moment, moment <:+ past ∧ network.Latest moment url reaction

theorem Reacted.mono {network : Network T} {past longer : List (Event T)} {url : String}
    {reaction : Reaction} (reacted : network.Reacted past url reaction) (grows : past <:+ longer) :
    network.Reacted longer url reaction := by
  rcases reacted with ⟨moment, held, latest⟩
  exact ⟨moment, held.trans grows, latest⟩

end Network

def Event.Sent {T : Type} (past later : List (Event T)) (url : String) : Prop :=
  ∃ request start, .request request start :: past <:+ later ∧ request.url = url

theorem Event.Sent.grows {T : Type} {past later : List (Event T)} {url : String}
    (sent : Event.Sent past later url) : past <:+ later := by
  rcases sent with ⟨request, start, held, _⟩
  exact (List.suffix_cons _ _).trans held

theorem Event.Sent.mono {T : Type} {past later last : List (Event T)} {url : String}
    (sent : Event.Sent past later url) (grows : later <:+ last) : Event.Sent past last url := by
  rcases sent with ⟨request, start, held, isUrl⟩
  exact ⟨request, start, held.trans grows, isUrl⟩

namespace FetchPolicy

variable {T : Type}

theorem verdict_eq_failed_cases {policy : FetchPolicy T} {url : String} {reaction : Reaction}
    {error : FetchError T} (isVerdict : policy.verdict url reaction = .failed error) :
    (∃ status body, reaction = .answered status body ∧ error = .status url status) ∨
      (reaction = .timedOut ∧ error = .timeout url policy.timeout) ∨
        ∃ cause, reaction = .unreachable cause ∧ error = .connection url cause := by
  cases reaction with
  | answered status body =>
      simp only [verdict] at isVerdict
      split at isVerdict <;> cases isVerdict
      exact Or.inl ⟨status, body, rfl, rfl⟩
  | timedOut =>
      cases isVerdict
      exact Or.inr (Or.inl ⟨rfl, rfl⟩)
  | unreachable cause =>
      cases isVerdict
      exact Or.inr (Or.inr ⟨cause, rfl, rfl⟩)
  | broken reason => cases isVerdict

inductive Gives (policy : FetchPolicy T) (url : String) (reaction : Reaction) : Fetched T → Prop
  | verdict : Gives policy url reaction (policy.verdict url reaction)
  | cut {error : FetchError T} (isVerdict : policy.verdict url reaction = .failed error)
      (passes : error.isRetryable = true) (interruption : Interruption T) :
      Gives policy url reaction (.interrupted interruption)

theorem Gives.of_failed {policy : FetchPolicy T} {url : String} {error : FetchError T}
    {reaction : Reaction} (gives : policy.Gives url reaction (.failed error)) :
    policy.verdict url reaction = .failed error := by
  generalize isFailed : Fetched.failed error = fetched at gives
  cases gives with
  | verdict => rfl
  | cut _ _ _ => cases isFailed

theorem Gives.of_content {policy : FetchPolicy T} {url text : String} {reaction : Reaction}
    (gives : policy.Gives url reaction (.content text)) :
    ∃ status, 200 ≤ status ∧ status < 300 ∧ reaction = .answered status text := by
  generalize isContent : Fetched.content text = fetched at gives
  cases gives with
  | cut _ _ _ => cases isContent
  | verdict =>
      cases reaction with
      | answered status body =>
          simp only [FetchPolicy.verdict] at isContent
          split at isContent
          next success =>
            cases isContent
            exact ⟨status, success.1, success.2, rfl⟩
          next => cases isContent
      | timedOut => cases isContent
      | unreachable cause => cases isContent
      | broken reason => cases isContent

/-- What asking an address does: requests are sent, and the reply to the last one is decisive. -/
structure Asks (policy : FetchPolicy T) (network : Network T) (url : String) (before : World T)
    (result : Fetched T × World T) : Prop where
  sent : Event.Sent before.past result.2.past url
  last : ∃ reaction, network.Latest result.2.past url reaction ∧
    policy.Gives url reaction result.1

theorem attempt_asks [Timescale T] (policy : FetchPolicy T) (network : Network T) (url : String)
    (world : World T) : policy.Asks network url world (policy.attempt network url world) where
  sent := ⟨_, _, List.suffix_refl _, rfl⟩
  last := ⟨_, ⟨_, _, _, rfl, rfl, rfl⟩, .verdict⟩

theorem attempts_asks [Timescale T] (policy : FetchPolicy T) (network : Network T)
    (deadline : Option T) (budget : T) (url : String) (left made : Nat) (world : World T) :
    policy.Asks network url world
      (policy.attempts network deadline budget url left made world) := by
  induction left generalizing made world with
  | zero => exact attempt_asks policy network url world
  | succ left induction =>
      have asks := attempt_asks policy network url world
      simp only [attempts]
      generalize policy.attempt network url world = result at asks ⊢
      rcases result with ⟨fetched, after⟩
      cases fetched with
      | content text => exact asks
      | interrupted interruption => exact asks
      | failed error =>
          simp only
          split
          next => exact asks
          next passes =>
            simp only [Bool.not_eq_true', Bool.not_eq_false] at passes
            rcases asks.last with ⟨reaction, latest, gives⟩
            split
            · exact ⟨asks.sent, reaction, latest, .cut gives.of_failed passes _⟩
            · split
              next => exact ⟨asks.sent, reaction, latest, .cut gives.of_failed passes _⟩
              next delay _ _ =>
                have again := induction (made + 1) (after.pause delay)
                exact ⟨asks.sent.mono ((List.suffix_cons _ _).trans again.sent.grows),
                  again.last⟩

theorem fetch_asks [Timescale T] (policy : FetchPolicy T) (network : Network T)
    (deadline : Option T) (url : String) (world : World T) :
    policy.Asks network url world (policy.fetch network deadline url world) :=
  attempts_asks policy network deadline _ url _ _ world

end FetchPolicy

/-! ## Tries -/

def AllFailed {T : Type} (tries : List (String × Fetched T)) : Prop :=
  ∀ entry ∈ tries, ∃ error, entry.2 = .failed error

theorem AllFailed.concat {T : Type} {tries : List (String × Fetched T)}
    (failed : AllFailed tries) (url : String) (error : FetchError T) :
    AllFailed (tries ++ [(url, .failed error)]) := by
  intro entry made
  rcases List.mem_append.1 made with earlier | now
  · exact failed entry earlier
  · rw [List.mem_singleton.1 now]
    exact ⟨error, rfl⟩

inductive Concluded {T : Type} (path : String) :
    List (String × Fetched T) → ImportOutcome T → Prop
  | content {tries : List (String × Fetched T)} {url text : String} (failed : AllFailed tries) :
      Concluded path (tries ++ [(url, .content text)]) (.content text)
  | interrupted {tries : List (String × Fetched T)} {url : String}
      {interruption : Interruption T} (failed : AllFailed tries) :
      Concluded path (tries ++ [(url, .interrupted interruption)]) (.interrupted interruption)
  | overdue {tries : List (String × Fetched T)} {interruption : Interruption T}
      (failed : AllFailed tries) : Concluded path tries (.interrupted interruption)
  | exhausted {tries : List (String × Fetched T)} {url : String} {first : FetchError T}
      (head : tries.head? = some (url, .failed first)) (failed : AllFailed tries) :
      Concluded path tries (.failed (.fetch (.exhausted path first (tries.map Prod.fst))))

namespace Engine

variable {T : Type}

def Answered (engine : Engine T) (addresses : List String) (past : List (Event T))
    (tries : List (String × Fetched T)) : Prop :=
  ∀ entry ∈ tries, entry.1 ∈ addresses ∧ ∃ reaction,
    engine.network.Reacted past entry.1 reaction ∧ engine.policy.Gives entry.1 reaction entry.2

theorem Answered.mono {engine : Engine T} {addresses : List String} {past later : List (Event T)}
    {tries : List (String × Fetched T)} (answered : engine.Answered addresses past tries)
    (grows : past <:+ later) : engine.Answered addresses later tries := by
  intro entry made
  rcases answered entry made with ⟨isAddress, reaction, reacted, gives⟩
  exact ⟨isAddress, reaction, reacted.mono grows, gives⟩

theorem Answered.concat {engine : Engine T} {addresses : List String}
    {tries : List (String × Fetched T)} {url : String} {before : World T}
    {result : Fetched T × World T} (answered : engine.Answered addresses before.past tries)
    (isAddress : url ∈ addresses) (asks : engine.policy.Asks engine.network url before result) :
    engine.Answered addresses result.2.past (tries ++ [(url, result.1)]) := by
  intro entry made
  rcases List.mem_append.1 made with earlier | now
  · exact answered.mono asks.sent.grows entry earlier
  · rcases asks.last with ⟨reaction, latest, gives⟩
    rw [List.mem_singleton.1 now]
    exact ⟨isAddress, reaction, ⟨_, List.suffix_refl _, latest⟩, gives⟩

variable [Timescale T]

def substituteTries (engine : Engine T) (deadline : Option T) :
    List Candidate → World T → List (String × Fetched T)
  | [], _ => []
  | candidate :: rest, world =>
      if FetchPolicy.isReached deadline world.now then []
      else
        let (fetched, after) :=
          engine.policy.fetch engine.network deadline candidate.url world
        match fetched with
        | .failed _ => (candidate.url, fetched) :: engine.substituteTries deadline rest after
        | _ => [(candidate.url, fetched)]

def tries (engine : Engine T) (library : Library) (deadline : Option T) (path : String)
    (holdings : Holdings T) : List (String × Fetched T) :=
  let relativePath := library.relativePath path
  let selected := holdings.preference.select library
  let url := selected.url relativePath
  let (fetched, after) := engine.policy.fetch engine.network deadline url holdings.world
  match fetched with
  | .failed _ =>
      (url, fetched) ::
        engine.substituteTries deadline (library.substitutes selected relativePath) after
  | _ => [(url, fetched)]

structure AsksFor (engine : Engine T) (path : String) (addresses : List String) (before : World T)
    (tries : List (String × Fetched T)) (result : ImportOutcome T × Holdings T) : Prop where
  concluded : Concluded path tries result.1
  answered : engine.Answered addresses result.2.world.past tries
  grows : before.past <:+ result.2.world.past

theorem fetchSubstitutes_asksFor (engine : Engine T) (library : Library) (deadline : Option T)
    (path : String) {url : String} {first : FetchError T} {addresses : List String}
    {candidates : List Candidate} (isAddress : ∀ candidate ∈ candidates, candidate.url ∈ addresses)
    {made : List (String × Fetched T)} (head : made.head? = some (url, .failed first))
    (failed : AllFailed made) {holdings : Holdings T}
    (answered : engine.Answered addresses holdings.world.past made) :
    AsksFor engine path addresses holdings.world
      (made ++ engine.substituteTries deadline candidates holdings.world)
      (engine.fetchSubstitutes library deadline path first candidates (made.map Prod.fst)
        holdings) := by
  induction candidates generalizing made holdings with
  | nil =>
      rw [substituteTries, List.append_nil]
      exact ⟨.exhausted head failed, answered, List.suffix_refl _⟩
  | cons candidate rest induction =>
      have asks := FetchPolicy.fetch_asks engine.policy engine.network deadline candidate.url
        holdings.world
      have answeredNow := answered.concat (isAddress candidate List.mem_cons_self) asks
      simp only [substituteTries, fetchSubstitutes]
      split
      · rw [List.append_nil]
        exact ⟨.overdue failed, answered, List.suffix_refl _⟩
      · generalize engine.policy.fetch engine.network deadline candidate.url holdings.world =
          result at asks answeredNow ⊢
        rcases result with ⟨fetched, after⟩
        cases fetched with
        | content text => exact ⟨.content failed, answeredNow, asks.sent.grows⟩
        | interrupted interruption => exact ⟨.interrupted failed, answeredNow, asks.sent.grows⟩
        | failed error =>
            -- The first failure is the one that is told, however many come after it.
            have headNow : (made ++ [(candidate.url, Fetched.failed error)]).head? =
                some (url, .failed first) := by
              rw [List.head?_append, head]
              rfl
            have later := @induction
              (fun other inRest => isAddress other (List.mem_cons_of_mem _ inRest)) _ headNow
              (failed.concat candidate.url error) { holdings with world := after } answeredNow
            rw [List.append_assoc, List.map_append] at later
            exact ⟨later.concluded, later.answered, asks.sent.grows.trans later.grows⟩

theorem fetchFromLibrary_asksFor (engine : Engine T) (library : Library) (deadline : Option T)
    (path : String) (holdings : Holdings T) :
    AsksFor engine path (library.addresses (library.relativePath path)) holdings.world
      (engine.tries library deadline path holdings)
      (engine.fetchFromLibrary library deadline path holdings) ∧
    ∃ url ∈ library.addresses (library.relativePath path), Event.Sent holdings.world.past
      (engine.fetchFromLibrary library deadline path holdings).2.world.past url := by
  have member := library.version_mem (holdings.preference.get? library.root)
  have isAddress := fun url =>
    Library.mem_addresses_iff member (library.relativePath path) url
  have nothing : AllFailed ([] : List (String × Fetched T)) := fun _ made =>
    absurd made List.not_mem_nil
  have unasked : engine.Answered (library.addresses (library.relativePath path))
      holdings.world.past [] := fun _ made => absurd made List.not_mem_nil
  have asks := FetchPolicy.fetch_asks engine.policy engine.network deadline
    ((holdings.preference.select library).url (library.relativePath path)) holdings.world
  have isSelected := (isAddress _).2 (Or.inl rfl)
  have answered := unasked.concat isSelected asks
  simp only [tries, fetchFromLibrary]
  generalize engine.policy.fetch engine.network deadline _ holdings.world = result
    at asks answered ⊢
  rcases result with ⟨fetched, after⟩
  cases fetched with
  | content text =>
      exact ⟨⟨.content nothing, answered, asks.sent.grows⟩, _, isSelected, asks.sent⟩
  | interrupted interruption =>
      exact ⟨⟨.interrupted nothing, answered, asks.sent.grows⟩, _, isSelected, asks.sent⟩
  | failed first =>
      have later := @fetchSubstitutes_asksFor _ _ engine library deadline path _ first _ _
        (fun candidate isCandidate =>
          (isAddress candidate.url).2 (Or.inr ⟨candidate, isCandidate, rfl⟩))
        _ rfl (nothing.concat _ first) { holdings with world := after } answered
      exact ⟨⟨later.concluded, later.answered, asks.sent.grows.trans later.grows⟩,
        _, isSelected, asks.sent.mono later.grows⟩

end Engine

end SourceTree
