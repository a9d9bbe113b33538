import SourceTree.Proofs.Engine.Punctuality
import SourceTree.Proofs.Engine.Turns
import SourceTree.Proofs.Resolution.Lockstep

/-! # More time

Deadlines are looked at in three places: before a batch, before a substitute and before a pause.
Each time being early enough for one deadline is being early enough for a later one, and nothing
but an interruption shows how much time is left. So what ends without an interruption happens in
the same way when there is more time. -/

namespace SourceTree

structure Timescale.Transitive (T : Type) [Timescale T] : Prop where
  strict : ∀ {first second third : T}, first < second → second ≤ third → first < third
  weak : ∀ {first second third : T}, first ≤ second → second ≤ third → first ≤ third

variable {T : Type} [Timescale T]

/-- Whether a deadline leaves at least as much time as another. Without one there is no end. -/
def NoEarlier (deadline later : Option T) : Prop :=
  ∀ limit, later = some limit → ∃ sooner, deadline = some sooner ∧ sooner ≤ limit

theorem noEarlier_none (deadline : Option T) : NoEarlier deadline none :=
  fun _ isLimit => nomatch isLimit

theorem noEarlier_some {sooner limit : T} (more : sooner ≤ limit) :
    NoEarlier (some sooner) (some limit) := by
  rintro _ ⟨⟩
  exact ⟨sooner, rfl, more⟩

namespace FetchPolicy

variable {deadline later : Option T}

theorem isReached_of_noEarlier (transitive : Timescale.Transitive T)
    (more : NoEarlier deadline later) {moment : T} (inTime : isReached deadline moment = false) :
    isReached later moment = false := by
  rw [isReached_eq_false_iff] at inTime ⊢
  intro limit isLimit
  rcases more limit isLimit with ⟨sooner, isSooner, before⟩
  exact transitive.strict (inTime sooner isSooner) before

theorem endsLate_of_noEarlier (transitive : Timescale.Transitive T)
    (more : NoEarlier deadline later) {moment : T} (inTime : endsLate deadline moment = false) :
    endsLate later moment = false := by
  cases later with
  | none => rfl
  | some limit =>
      rcases more limit rfl with ⟨sooner, rfl, before⟩
      simp only [endsLate, Option.any_some, decide_eq_false_iff_not] at inTime ⊢
      exact fun passed => inTime (transitive.weak before passed)

theorem attempts_of_noEarlier (transitive : Timescale.Transitive T)
    (more : NoEarlier deadline later) (policy : FetchPolicy T) (network : Network T)
    (budget larger : T) (url : String) (left made : Nat) {world : World T}
    (settles : ∀ interruption,
      (policy.attempts network deadline budget url left made world).1 ≠
        .interrupted interruption) :
    policy.attempts network later larger url left made world =
      policy.attempts network deadline budget url left made world := by
  induction left generalizing made world with
  | zero => rfl
  | succ left induction =>
      simp only [attempts] at settles ⊢
      generalize policy.attempt network url world = result at settles ⊢
      rcases result with ⟨fetched, after⟩
      cases fetched with
      | content text => rfl
      | interrupted interruption => rfl
      | failed error =>
          simp only at settles ⊢
          split
          next => rfl
          next retryable =>
            simp only [if_neg retryable] at settles
            cases pause : Timescale.doubled policy.backoff made with
            | none => rfl
            | some delay =>
                simp only [pause] at settles ⊢
                -- The deadlines differ here alone, and a late pause would be an interruption.
                cases late : endsLate deadline (after.now + delay) with
                | true =>
                    simp only [late, if_true] at settles
                    exact absurd rfl (settles _)
                | false =>
                    simp only [late, Bool.false_eq_true, if_false] at settles
                    simp only [endsLate_of_noEarlier transitive more late, Bool.false_eq_true,
                      if_false]
                    exact induction (made + 1) settles

theorem fetch_of_noEarlier (transitive : Timescale.Transitive T) (more : NoEarlier deadline later)
    (policy : FetchPolicy T) (network : Network T) (url : String) (world : World T)
    (settles : ∀ interruption,
      (policy.fetch network deadline url world).1 ≠ .interrupted interruption) :
    policy.fetch network later url world = policy.fetch network deadline url world :=
  attempts_of_noEarlier transitive more policy network _ _ url _ _ settles

end FetchPolicy

namespace Engine

variable {engine : Engine T} {deadline later : Option T}

/-! ## Paths and batches -/

theorem fetchSubstitutes_of_noEarlier (transitive : Timescale.Transitive T)
    (more : NoEarlier deadline later) (library : Library) (path : String) (first : FetchError T)
    (candidates : List Candidate) (attempted : List String) {holdings : Holdings T}
    (settles : (engine.fetchSubstitutes library deadline path first candidates attempted
      holdings).1.settles = true) :
    engine.fetchSubstitutes library later path first candidates attempted holdings =
      engine.fetchSubstitutes library deadline path first candidates attempted holdings := by
  induction candidates generalizing attempted holdings with
  | nil => rfl
  | cons candidate rest induction =>
      simp only [fetchSubstitutes] at settles ⊢
      cases reached : FetchPolicy.isReached deadline holdings.world.now with
      | true =>
          simp only [reached, if_true] at settles
          cases settles
      | false =>
          have fetched := FetchPolicy.fetch_of_noEarlier transitive more engine.policy
            engine.network candidate.url holdings.world
          simp only [reached, FetchPolicy.isReached_of_noEarlier transitive more reached,
            Bool.false_eq_true, if_false] at settles ⊢
          generalize engine.policy.fetch engine.network deadline candidate.url holdings.world =
            result at settles fetched ⊢
          rcases result with ⟨told, world⟩
          cases told with
          | interrupted interruption => cases settles
          | content text => rw [fetched (by simp)]
          | failed reason =>
              rw [fetched (by simp)]
              exact induction _ settles

theorem fetchFromLibrary_of_noEarlier (transitive : Timescale.Transitive T)
    (more : NoEarlier deadline later) (library : Library) (path : String) {holdings : Holdings T}
    (settles : (engine.fetchFromLibrary library deadline path holdings).1.settles = true) :
    engine.fetchFromLibrary library later path holdings =
      engine.fetchFromLibrary library deadline path holdings := by
  have fetched := FetchPolicy.fetch_of_noEarlier transitive more engine.policy engine.network
    ((holdings.preference.select library).url (library.relativePath path))
    holdings.world
  simp only [fetchFromLibrary] at settles ⊢
  generalize engine.policy.fetch engine.network deadline
    ((holdings.preference.select library).url (library.relativePath path)) holdings.world = result
    at settles fetched ⊢
  rcases result with ⟨told, world⟩
  cases told with
  | interrupted interruption => cases settles
  | content text => rw [fetched (by simp)]
  | failed reason =>
      rw [fetched (by simp)]
      exact fetchSubstitutes_of_noEarlier transitive more library path reason _ _ settles

theorem fetchImport_of_noEarlier (transitive : Timescale.Transitive T)
    (more : NoEarlier deadline later) (path : String) {holdings : Holdings T}
    (settles : (engine.fetchImport deadline path holdings).1.settles = true) :
    engine.fetchImport later path holdings = engine.fetchImport deadline path holdings := by
  unfold fetchImport at settles ⊢
  split
  next => rfl
  next absolute =>
    simp only [if_neg absolute] at settles
    cases owner : engine.registry.find path with
    | none => rfl
    | some library =>
        simp only [owner] at settles ⊢
        split at settles
        · rfl
        · rfl
        · rw [fst_remember] at settles
          rw [fetchFromLibrary_of_noEarlier transitive more library path settles]

theorem fetchAll_of_noEarlier (transitive : Timescale.Transitive T)
    (more : NoEarlier deadline later) {paths : List String} {holdings : Holdings T}
    (all : unsettled (engine.fetchAll deadline paths holdings).1 = []) :
    engine.fetchAll later paths holdings = engine.fetchAll deadline paths holdings := by
  induction paths generalizing holdings with
  | nil => rfl
  | cons path rest induction =>
      simp only [fetchAll] at all ⊢
      have settles : (engine.fetchImport deadline path holdings).1.settles = true :=
        List.dropWhile_eq_nil_iff.1 all _ List.mem_cons_self
      rw [unsettled_cons settles] at all
      rw [fetchImport_of_noEarlier transitive more path settles, induction all]

theorem fetchBatch_of_noEarlier (transitive : Timescale.Transitive T)
    (more : NoEarlier deadline later) (pooled : Bool) {paths : List String}
    {holdings : Holdings T}
    (all : unsettled (engine.fetchBatch pooled deadline paths holdings).1 = []) :
    engine.fetchBatch pooled later paths holdings =
      engine.fetchBatch pooled deadline paths holdings := by
  have alike := fetchBatch_eq_fetchAll engine pooled deadline all
  rw [alike] at all ⊢
  have same := fetchAll_of_noEarlier transitive more all
  rw [← same] at all ⊢
  exact fetchBatch_eq_fetchAll engine pooled later (unsettled_fetchAll engine pooled later all)

/-! ## Resolutions -/

/-- A resolution that returns a report does so in the same way, request by request and pause by
pause, when its deadline is later or when it has none: what it reports and what it leaves, with the
clock and the events so far, are the same. -/
theorem resolveWith_of_noEarlier (transitive : Timescale.Transitive T)
    {files : Listing String String} {first second : Option T} {holdings : Holdings T}
    {resolution : Resolution}
    (resolved : (engine.resolveWith files first holdings).1 = .ok resolution)
    (more : NoEarlier (engine.deadlineFrom first holdings.world.now)
      (engine.deadlineFrom second holdings.world.now)) :
    engine.resolveWith files second holdings = engine.resolveWith files first holdings := by
  rw [← resolveVia_ownWay, ← resolveVia_ownWay]
  rw [← resolveVia_ownWay] at resolved
  have step : ∀ demand ∈ (engine.courseVia engine.ownWay files first holdings).demands, ∀ other,
      demand.holdings = other →
        unsettled (engine.ownWay (engine.deadlineFrom first holdings.world.now) demand.paths
          demand.holdings).1 = [] →
          (engine.ownWay (engine.deadlineFrom second holdings.world.now) demand.paths other).1 =
              (engine.ownWay (engine.deadlineFrom first holdings.world.now) demand.paths
                demand.holdings).1 ∧
            (engine.ownWay (engine.deadlineFrom first holdings.world.now) demand.paths
                demand.holdings).2 =
              (engine.ownWay (engine.deadlineFrom second holdings.world.now) demand.paths
                other).2 := by
    rintro demand - _ rfl all
    have same := fetchBatch_of_noEarlier transitive more (1 < engine.maxWorkers) all
    exact ⟨congrArg Prod.fst same, (congrArg Prod.snd same).symm⟩
  rcases resolveVia_lockstep Eq
    (fun same early => same ▸ FetchPolicy.isReached_of_noEarlier transitive more early) rfl
    resolved step with ⟨paths, last, rfl, versions, again⟩
  rw [again, ← versions, ← resolved]

theorem transitive_rat : Timescale.Transitive Rat where
  strict := fun before after =>
    Rat.not_le.1 fun back => Rat.not_le.2 before (Rat.le_trans after back)
  weak := Rat.le_trans

def hesitantSample : Engine Rat :=
  { flakySample with
    network := ⟨fun past _ => ⟨2, if past.isEmpty then .answered 503 "" else .answered 200 "text"⟩⟩
    policy := ⟨15, 2, 1⟩ }

def loneFile : Listing String String :=
  .ofList [("m.sol", "import '@lib/a.sol';")]

/-- Four seconds are enough for a pause and a request after it. So the resolution goes the same way
with a minute and without a deadline. -/
theorem resolveWith_of_more_time :
    Timescale.Transitive Rat ∧
    (∃ resolution, (hesitantSample.resolveWith loneFile (some 4)
        ⟨.empty, .empty, .startingAt 0⟩).1 = .ok resolution ∧
      resolution.files.keys = ["@lib/a.sol", "m.sol"]) ∧
    (hesitantSample.resolveWith loneFile (some 4) ⟨.empty, .empty, .startingAt 0⟩).2.world.pauses =
      [1] ∧
    NoEarlier (some (4 : Rat)) (some 60) ∧ NoEarlier (some (4 : Rat)) none ∧
    hesitantSample.resolveWith loneFile (some 60) ⟨.empty, .empty, .startingAt 0⟩ =
      hesitantSample.resolveWith loneFile (some 4) ⟨.empty, .empty, .startingAt 0⟩ ∧
    hesitantSample.resolveWith loneFile none ⟨.empty, .empty, .startingAt 0⟩ =
      hesitantSample.resolveWith loneFile (some 4) ⟨.empty, .empty, .startingAt 0⟩ := by
  have report : (hesitantSample.resolveWith loneFile (some 4)
      ⟨.empty, .empty, .startingAt 0⟩).1.toOption.map (fun resolution => resolution.files.keys) =
        some ["@lib/a.sol", "m.sol"] := by
    decide +kernel
  have aMinute : NoEarlier (some (4 : Rat)) (some 60) := noEarlier_some (by decide)
  rcases exists_of_toOption_map report with ⟨resolution, resolved, keys⟩
  exact ⟨transitive_rat, ⟨resolution, resolved, keys⟩, by decide +kernel, aMinute,
    noEarlier_none _, resolveWith_of_noEarlier transitive_rat resolved aMinute,
    resolveWith_of_noEarlier transitive_rat resolved (noEarlier_none _)⟩

end Engine

end SourceTree
