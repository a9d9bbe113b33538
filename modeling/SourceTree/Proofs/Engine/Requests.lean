import SourceTree.Proofs.Engine.Integrity

/-! # Which requests are sent

A fetch sends a request for each of its attempts, and a path is fetched from each of its addresses
at most. So the requests for a path are bounded by the versions of its library and by the retries,
whatever is answered. They go to the addresses of the path, and none but the first is sent without a
look at the deadline. -/

namespace SourceTree

namespace Event

variable {T : Type} {allowed : Request T → T → Prop}

def Within (allowed : Request T → T → Prop) (before after : List (Event T)) : Prop :=
  ∃ made, made ++ before = after ∧
    ∀ request start, .request request start ∈ made → allowed request start

theorem Within.refl (past : List (Event T)) : Within allowed past past :=
  ⟨[], rfl, fun _ _ isMade => absurd isMade List.not_mem_nil⟩

theorem Within.trans {first second third : List (Event T)} (left : Within allowed first second)
    (right : Within allowed second third) : Within allowed first third := by
  rcases left with ⟨front, rfl, isFront⟩
  rcases right with ⟨back, rfl, isBack⟩
  refine ⟨back ++ front, List.append_assoc .., fun request start isMade => ?_⟩
  exact (List.mem_append.1 isMade).elim (isBack request start) (isFront request start)

theorem Within.grows {before after : List (Event T)} (within : Within allowed before after) :
    before <:+ after := by
  rcases within with ⟨made, isAfter, _⟩
  exact ⟨made, isAfter⟩

theorem Within.mono {wider : Request T → T → Prop} {before after : List (Event T)}
    (within : Within allowed before after)
    (implies : ∀ request start, allowed request start → wider request start) :
    Within wider before after := by
  rcases within with ⟨made, isAfter, isAllowed⟩
  exact ⟨made, isAfter, fun request start isMade => implies _ _ (isAllowed request start isMade)⟩

theorem within_request {past : List (Event T)} {request : Request T} {start : T}
    (isAllowed : allowed request start) : Within allowed past (.request request start :: past) := by
  refine ⟨[.request request start], rfl, fun other moment isMade => ?_⟩
  cases List.mem_singleton.1 isMade
  exact isAllowed

theorem within_pause (past : List (Event T)) (length : T) :
    Within allowed past (.pause length :: past) :=
  ⟨[.pause length], rfl, fun _ _ isMade => nomatch List.mem_singleton.1 isMade⟩

end Event

namespace World

variable {T : Type}

def Sends (before after : World T) (most : Nat) : Prop :=
  ∃ urls, after.requested = before.requested ++ urls ∧ urls.length ≤ most

theorem Sends.refl (world : World T) : Sends world world 0 :=
  ⟨[], (List.append_nil _).symm, le_rfl⟩

theorem Sends.trans {first second third : World T} {most more : Nat}
    (left : Sends first second most) (right : Sends second third more) :
    Sends first third (most + more) := by
  rcases left with ⟨urls, requested, few⟩
  rcases right with ⟨later, requestedLater, fewLater⟩
  refine ⟨urls ++ later, ?_, ?_⟩
  · rw [requestedLater, requested, List.append_assoc]
  · rw [List.length_append]
    exact Nat.add_le_add few fewLater

theorem Sends.mono {before after : World T} {most more : Nat} (sends : Sends before after most)
    (larger : most ≤ more) : Sends before after more := by
  rcases sends with ⟨urls, requested, few⟩
  exact ⟨urls, requested, few.trans larger⟩

variable [Timescale T]

theorem requested_request (network : Network T) (request : Request T) (world : World T) :
    (world.request network request).2.requested = world.requested ++ [request.url] := by
  simp [World.request, requested]

theorem requested_pause (world : World T) (length : T) :
    (world.pause length).requested = world.requested := by
  simp [pause, requested]

end World

namespace FetchPolicy

variable {T : Type} [Timescale T]

theorem attempt_sends (policy : FetchPolicy T) (network : Network T) (url : String)
    (world : World T) : world.Sends (policy.attempt network url world).2 1 :=
  ⟨[url], World.requested_request network ⟨url, policy.timeout, headers⟩ world, le_rfl⟩

theorem attempts_succ_cases (policy : FetchPolicy T) (network : Network T) (deadline : Option T)
    (budget : T) (url : String) (left made : Nat) (world : World T) :
    let asked := policy.attempt network url world
    let result := policy.attempts network deadline budget url (left + 1) made world
    result.2 = asked.2 ∨ ∃ delay, ¬endsLate deadline (asked.2.pause delay).now = true ∧
      result = policy.attempts network deadline budget url left (made + 1)
        (asked.2.pause delay) := by
  simp only [attempts]
  rcases policy.attempt network url world with ⟨fetched, after⟩
  cases fetched with
  | content text => exact Or.inl rfl
  | interrupted interruption => exact Or.inl rfl
  | failed error =>
      simp only
      split
      · exact Or.inl rfl
      · split
        · exact Or.inl rfl
        · split
          next => exact Or.inl rfl
          next delay _ early => exact Or.inr ⟨delay, early, rfl⟩

theorem attempts_sends (policy : FetchPolicy T) (network : Network T) (deadline : Option T)
    (budget : T) (url : String) (left made : Nat) (world : World T) :
    world.Sends (policy.attempts network deadline budget url left made world).2 (left + 1) := by
  induction left generalizing made world with
  | zero => exact attempt_sends policy network url world
  | succ left induction =>
      have sends := attempt_sends policy network url world
      rcases attempts_succ_cases policy network deadline budget url left made world with
        ends | ⟨delay, _, goesOn⟩
      · rw [ends]
        exact sends.mono (Nat.succ_le_succ (Nat.zero_le (left + 1)))
      · rw [goesOn]
        rcases induction (made + 1) ((policy.attempt network url world).2.pause delay) with
          ⟨urls, requested, few⟩
        rw [World.requested_pause] at requested
        exact (sends.trans ⟨urls, requested, few⟩).mono (by omega)

def maxAttempts (policy : FetchPolicy T) : Nat :=
  policy.retries.toNat + 1

theorem fetch_sends (policy : FetchPolicy T) (network : Network T) (deadline : Option T)
    (url : String) (world : World T) :
    world.Sends (policy.fetch network deadline url world).2 policy.maxAttempts :=
  attempts_sends policy network deadline _ url _ _ world

/-- Whether a look at the deadline lets a request start at a moment: the deadline is not reached, or
a pause that ends then does not end late. -/
def MaySend (deadline : Option T) (moment : T) : Prop :=
  isReached deadline moment = false ∨ ¬endsLate deadline moment = true

variable {policy : FetchPolicy T} {network : Network T} {deadline : Option T} {url : String}
  {allowed : Request T → T → Prop} {world : World T}

theorem attempts_within (budget : T) (left made : Nat)
    (first : allowed ⟨url, policy.timeout, headers⟩ world.now)
    (again : ∀ moment, MaySend deadline moment → allowed ⟨url, policy.timeout, headers⟩ moment) :
    Event.Within allowed world.past
      (policy.attempts network deadline budget url left made world).2.past := by
  have asked : Event.Within allowed world.past (policy.attempt network url world).2.past :=
    Event.within_request first
  induction left generalizing made world with
  | zero => exact asked
  | succ left induction =>
      rcases attempts_succ_cases policy network deadline budget url left made world with
        ends | ⟨delay, early, goesOn⟩
      · rw [ends]
        exact asked
      · rw [goesOn]
        have isAllowed := again _ (Or.inr early)
        apply (asked.trans (Event.within_pause _ delay)).trans
        exact induction (made + 1) isAllowed (Event.within_request isAllowed)

theorem fetch_within (first : allowed ⟨url, policy.timeout, headers⟩ world.now)
    (again : ∀ moment, MaySend deadline moment → allowed ⟨url, policy.timeout, headers⟩ moment) :
    Event.Within allowed world.past (policy.fetch network deadline url world).2.past :=
  attempts_within _ _ _ first again

end FetchPolicy

namespace Library

theorem length_substitutes_le {library : Library} {selected : LibraryVersion}
    (member : selected ∈ library.versions) (relativePath : String) :
    (library.substitutes selected relativePath).length ≤ library.versions.length := by
  have others : (library.versions.filter fun version => version.name ≠ selected.name).length <
      library.versions.length :=
    List.length_filter_lt_length_iff_exists.2 ⟨selected, member, by simp⟩
  have spare : ∀ candidates : Option Candidate, candidates.toList.length ≤ 1 := by
    intro candidates
    cases candidates <;> simp
  simp only [substitutes, List.length_append, List.length_map]
  exact (Nat.add_le_add_left (spare _) _).trans others

end Library

namespace Engine

variable {T : Type} [Timescale T]

theorem fetchSubstitutes_cons_cases (engine : Engine T) (library : Library) (deadline : Option T)
    (path : String) (first : FetchError T) (candidate : Candidate) (rest : List Candidate)
    (attempted : List String) (holdings : Holdings T) :
    let asked := engine.policy.fetch engine.network deadline candidate.url holdings.world
    let result := engine.fetchSubstitutes library deadline path first (candidate :: rest) attempted
      holdings
    result.2.world = holdings.world ∨
      FetchPolicy.isReached deadline holdings.world.now = false ∧
        (result.2.world = asked.2 ∨
          result = engine.fetchSubstitutes library deadline path first rest
            (attempted ++ [candidate.url]) { holdings with world := asked.2 }) := by
  simp only [fetchSubstitutes]
  split
  next => exact Or.inl rfl
  next early =>
    refine Or.inr ⟨Bool.not_eq_true _ ▸ early, ?_⟩
    rcases engine.policy.fetch engine.network deadline candidate.url holdings.world with
      ⟨fetched, after⟩
    cases fetched with
    | content text => exact Or.inl rfl
    | interrupted interruption => exact Or.inl rfl
    | failed error => exact Or.inr rfl

theorem fetchFromLibrary_cases (engine : Engine T) (library : Library) (deadline : Option T)
    (path : String) (holdings : Holdings T) :
    let selected := holdings.preference.select library
    let url := selected.url (library.relativePath path)
    let asked := engine.policy.fetch engine.network deadline url holdings.world
    let result := engine.fetchFromLibrary library deadline path holdings
    result.2.world = asked.2 ∨ ∃ first,
      result = engine.fetchSubstitutes library deadline path first
        (library.substitutes selected (library.relativePath path)) [url]
        { holdings with world := asked.2 } := by
  simp only [fetchFromLibrary]
  rcases engine.policy.fetch engine.network deadline _ holdings.world with ⟨fetched, after⟩
  cases fetched with
  | content text => exact Or.inl rfl
  | interrupted interruption => exact Or.inl rfl
  | failed first => exact Or.inr ⟨first, rfl⟩

theorem fetchSubstitutes_sends (engine : Engine T) (library : Library) (deadline : Option T)
    (path : String) (first : FetchError T) (candidates : List Candidate)
    (attempted : List String) (holdings : Holdings T) :
    holdings.world.Sends
      (engine.fetchSubstitutes library deadline path first candidates attempted holdings).2.world
      (candidates.length * engine.policy.maxAttempts) := by
  induction candidates generalizing attempted holdings with
  | nil => exact (World.Sends.refl _).mono (Nat.zero_le _)
  | cons candidate rest induction =>
      have sends := FetchPolicy.fetch_sends engine.policy engine.network deadline candidate.url
        holdings.world
      rw [List.length_cons, Nat.succ_mul, Nat.add_comm]
      rcases fetchSubstitutes_cons_cases engine library deadline path first candidate rest
        attempted holdings with late | ⟨_, ends | goesOn⟩
      · rw [late]
        exact (World.Sends.refl _).mono (Nat.zero_le _)
      · rw [ends]
        exact sends.mono (Nat.le_add_right _ _)
      · rw [goesOn]
        exact sends.trans (induction _ _)

theorem fetchFromLibrary_sends (engine : Engine T) (library : Library) (deadline : Option T)
    (path : String) (holdings : Holdings T) :
    holdings.world.Sends (engine.fetchFromLibrary library deadline path holdings).2.world
      ((library.versions.length + 1) * engine.policy.maxAttempts) := by
  have substitutes := Library.length_substitutes_le
    (library.version_mem (holdings.preference.get? library.root)) (library.relativePath path)
  have sends := FetchPolicy.fetch_sends engine.policy engine.network deadline
    ((holdings.preference.select library).url (library.relativePath path)) holdings.world
  rw [Nat.succ_mul, Nat.add_comm]
  rcases fetchFromLibrary_cases engine library deadline path holdings with ends | ⟨first, goesOn⟩
  · rw [ends]
    exact sends.mono (Nat.le_add_right _ _)
  · rw [goesOn]
    exact sends.trans ((fetchSubstitutes_sends ..).mono (Nat.mul_le_mul_right _ substitutes))

def requestLimit (engine : Engine T) (path : String) : Nat :=
  match engine.registry.find path with
  | some library => (library.versions.length + 1) * engine.policy.maxAttempts
  | none => 0

theorem fetchImport_sends (engine : Engine T) (deadline : Option T) (path : String)
    (holdings : Holdings T) :
    holdings.world.Sends (engine.fetchImport deadline path holdings).2.world
      (engine.requestLimit path) := by
  have fetches := fetchImport_fetches engine deadline path holdings
  generalize engine.fetchImport deadline path holdings = result at fetches ⊢
  have silent : holdings.world.Sends holdings.world (engine.requestLimit path) :=
    (World.Sends.refl _).mono (Nat.zero_le _)
  cases fetches with
  | refused _ => exact silent
  | recalled _ _ _ => exact silent
  | failedBefore _ _ _ _ => exact silent
  | @asked library absolute isOwned unknown unfailed =>
      rw [world_remember, requestLimit, isOwned]
      exact fetchFromLibrary_sends engine library deadline path holdings

/-! ## Where and when requests are sent -/

variable {engine : Engine T} {deadline : Option T} {path : String}
  {allowed : Request T → T → Prop}

theorem fetchSubstitutes_within (library : Library) (first : FetchError T)
    {candidates : List Candidate}
    (isAllowed : ∀ candidate ∈ candidates, ∀ moment, FetchPolicy.MaySend deadline moment →
      allowed ⟨candidate.url, engine.policy.timeout, FetchPolicy.headers⟩ moment)
    (attempted : List String) (holdings : Holdings T) :
    Event.Within allowed holdings.world.past (engine.fetchSubstitutes library deadline path first
      candidates attempted holdings).2.world.past := by
  induction candidates generalizing attempted holdings with
  | nil => exact .refl _
  | cons candidate rest induction =>
      rcases fetchSubstitutes_cons_cases engine library deadline path first candidate rest
        attempted holdings with late | ⟨early, step⟩
      · rw [late]
        exact .refl _
      · have allowedNow := isAllowed candidate List.mem_cons_self
        have asked : Event.Within allowed holdings.world.past (engine.policy.fetch engine.network
            deadline candidate.url holdings.world).2.past :=
          FetchPolicy.fetch_within (allowedNow _ (Or.inl early)) allowedNow
        rcases step with ends | goesOn
        · rw [ends]
          exact asked
        · rw [goesOn]
          apply asked.trans
          exact induction (fun other inRest => isAllowed other (List.mem_cons_of_mem _ inRest)) _
            { holdings with world := _ }

theorem fetchSubstitutes_grows (engine : Engine T) (library : Library) (deadline : Option T)
    (path : String) (first : FetchError T) (candidates : List Candidate)
    (attempted : List String) (holdings : Holdings T) :
    holdings.world.past <:+
      (engine.fetchSubstitutes library deadline path first candidates attempted
        holdings).2.world.past := by
  have within : Event.Within (fun _ _ => True) holdings.world.past (engine.fetchSubstitutes library
      deadline path first candidates attempted holdings).2.world.past :=
    fetchSubstitutes_within library first (fun _ _ _ _ => trivial) attempted holdings
  exact within.grows

theorem fetchFromLibrary_within (library : Library) {holdings : Holdings T}
    (first : allowed ⟨(holdings.preference.select library).url (library.relativePath path),
      engine.policy.timeout, FetchPolicy.headers⟩ holdings.world.now)
    (isAllowed : ∀ url ∈ library.addresses (library.relativePath path), ∀ moment,
      FetchPolicy.MaySend deadline moment →
        allowed ⟨url, engine.policy.timeout, FetchPolicy.headers⟩ moment) :
    Event.Within allowed holdings.world.past
      (engine.fetchFromLibrary library deadline path holdings).2.world.past := by
  have isAddress := fun url => Library.mem_addresses_iff
    (library.version_mem (holdings.preference.get? library.root)) (library.relativePath path) url
  have asked : Event.Within allowed holdings.world.past (engine.policy.fetch engine.network deadline
      ((holdings.preference.select library).url (library.relativePath path))
        holdings.world).2.past :=
    FetchPolicy.fetch_within first (isAllowed _ ((isAddress _).2 (Or.inl rfl)))
  rcases fetchFromLibrary_cases engine library deadline path holdings with ends | ⟨error, goesOn⟩
  · rw [ends]
    exact asked
  · rw [goesOn]
    apply asked.trans
    have allowedNext : ∀ candidate ∈ library.substitutes (holdings.preference.select library)
        (library.relativePath path), ∀ moment, FetchPolicy.MaySend deadline moment →
          allowed ⟨candidate.url, engine.policy.timeout, FetchPolicy.headers⟩ moment :=
      fun candidate isCandidate =>
        isAllowed _ ((isAddress _).2 (Or.inr ⟨candidate, isCandidate, rfl⟩))
    exact fetchSubstitutes_within library error allowedNext _ { holdings with world := _ }

end Engine

end SourceTree
