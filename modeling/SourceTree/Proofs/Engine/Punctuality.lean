import SourceTree.Proofs.Engine.Budget
import SourceTree.Proofs.Engine.Permanence
import SourceTree.Proofs.Engine.Requests

/-! # Requests and the deadline

No request is meant to start at or after the deadline. The engine looks at the clock before every
batch, before every substitute and before every pause, but not between the paths of a batch. So the
only requests that may start late are the first ones for paths, and whether one does depends on how
long the paths before it in the batch took. With one worker none does. -/

namespace SourceTree

variable {T : Type} [Timescale T]

def Timescale.Comparable (T : Type) [Timescale T] : Prop :=
  ∀ first second : T, ¬second ≤ first → first < second

def InTime (deadline : Option T) (moment : T) : Prop :=
  ∀ limit, deadline = some limit → moment < limit

theorem FetchPolicy.isReached_eq_false_iff {deadline : Option T} {moment : T} :
    isReached deadline moment = false ↔ InTime deadline moment := by
  cases deadline with
  | none => exact iff_of_true rfl fun _ isLimit => nomatch isLimit
  | some limit => simp [isReached, InTime]

namespace Event

def Punctual (deadline : Option T) (before after : List (Event T)) : Prop :=
  ∃ made, made ++ before = after ∧
    ∀ request start, .request request start ∈ made → InTime deadline start

theorem Punctual.refl (deadline : Option T) (past : List (Event T)) :
    Punctual deadline past past :=
  Within.refl past

theorem punctual_iff {deadline : Option T} {first second third : List (Event T)}
    (left : first <:+ second) (right : second <:+ third) :
    Punctual deadline first third ↔
      Punctual deadline first second ∧ Punctual deadline second third := by
  rcases left with ⟨made, rfl⟩
  rcases right with ⟨later, rfl⟩
  constructor
  · rintro ⟨all, isAll, punctual⟩
    rw [← List.append_assoc, List.append_left_inj] at isAll
    subst isAll
    exact ⟨⟨made, rfl, fun request start isMade =>
        punctual request start (List.mem_append_right later isMade)⟩,
      ⟨later, rfl, fun request start isMade =>
        punctual request start (List.mem_append_left made isMade)⟩⟩
  · rintro ⟨⟨front, isFront, punctual⟩, ⟨back, isBack, punctualLater⟩⟩
    rw [List.append_left_inj] at isFront isBack
    subst isFront isBack
    refine ⟨back ++ front, List.append_assoc .., fun request start isMade => ?_⟩
    exact (List.mem_append.1 isMade).elim (punctualLater request start) (punctual request start)

theorem Punctual.trans {deadline : Option T} {first second third : List (Event T)}
    (left : Punctual deadline first second) (right : Punctual deadline second third) :
    Punctual deadline first third :=
  Within.trans left right

theorem Punctual.first {deadline : Option T} {past later : List (Event T)}
    (punctual : Punctual deadline past later) {request : Request T} {start : T}
    (first : .request request start :: past <:+ later) : InTime deadline start := by
  rw [punctual_iff (List.suffix_cons _ _) first] at punctual
  rcases punctual.1 with ⟨made, isMade, inTime⟩
  have only : made = [.request request start] := List.append_left_inj past |>.1 isMade
  exact inTime request start (only ▸ List.mem_cons_self)

end Event

/-! ## Fetches -/

namespace FetchPolicy

theorem inTime_of_endsLate (comparable : Timescale.Comparable T) {deadline : Option T} {moment : T}
    (punctual : ¬endsLate deadline moment = true) : InTime deadline moment := by
  rintro limit rfl
  exact comparable _ _ fun passed => punctual (decide_eq_true passed)

theorem MaySend.inTime (comparable : Timescale.Comparable T) {deadline : Option T} {moment : T}
    (maySend : MaySend deadline moment) : InTime deadline moment :=
  maySend.elim isReached_eq_false_iff.1 (inTime_of_endsLate comparable)

theorem attempts_first (policy : FetchPolicy T) (network : Network T) (deadline : Option T)
    (budget : T) (url : String) (left made : Nat) (world : World T) :
    ∃ request, .request request world.now :: world.past <:+
      (policy.attempts network deadline budget url left made world).2.past := by
  cases left with
  | zero => exact ⟨_, List.suffix_refl _⟩
  | succ left =>
      refine ⟨⟨url, policy.timeout, headers⟩, ?_⟩
      rcases attempts_succ_cases policy network deadline budget url left made world with
        ends | ⟨delay, _, goesOn⟩
      · rw [ends]
        exact List.suffix_refl _
      · rw [goesOn]
        exact (List.suffix_cons _ _).trans (attempts_asks policy network deadline budget url left
          (made + 1) ((policy.attempt network url world).2.pause delay)).sent.grows

theorem fetch_first (policy : FetchPolicy T) (network : Network T) (deadline : Option T)
    (url : String) (world : World T) :
    ∃ request, .request request world.now :: world.past <:+
      (policy.fetch network deadline url world).2.past :=
  attempts_first policy network deadline _ url _ _ world

end FetchPolicy

namespace Engine

/-- Where the first request for a path starts before the deadline, all of them do. -/
theorem fetchFromLibrary_punctual (comparable : Timescale.Comparable T) (engine : Engine T)
    (library : Library) {deadline : Option T} (path : String) {holdings : Holdings T}
    (inTime : InTime deadline holdings.world.now) :
    Event.Punctual deadline holdings.world.past
      (engine.fetchFromLibrary library deadline path holdings).2.world.past :=
  fetchFromLibrary_within library inTime fun _ _ _ maySend => maySend.inTime comparable

theorem fetchFromLibrary_first (engine : Engine T) (library : Library) (deadline : Option T)
    (path : String) (holdings : Holdings T) :
    ∃ request, .request request holdings.world.now :: holdings.world.past <:+
      (engine.fetchFromLibrary library deadline path holdings).2.world.past := by
  rcases FetchPolicy.fetch_first engine.policy engine.network deadline
    ((holdings.preference.select library).url (library.relativePath path)) holdings.world with
    ⟨request, sent⟩
  refine ⟨request, ?_⟩
  rcases fetchFromLibrary_cases engine library deadline path holdings with ends | ⟨first, goesOn⟩
  · rw [ends]
    exact sent
  · rw [goesOn]
    exact sent.trans (fetchSubstitutes_grows engine library deadline path first _ _
      { holdings with world := _ })

end Engine

/-! ## Visits -/

namespace Visit

variable {engine : Engine T} {visit : Visit T}

theorem unchanged_or_asks (engine : Engine T) (visit : Visit T) :
    visit.after engine = visit.holdings ∨ ∃ library, visit.Asks engine library := by
  have fetches := Engine.fetchImport_fetches engine visit.deadline visit.path visit.holdings
  unfold after
  generalize engine.fetchImport visit.deadline visit.path visit.holdings = result at fetches ⊢
  cases fetches with
  | refused _ => exact Or.inl rfl
  | recalled _ _ _ => exact Or.inl rfl
  | failedBefore _ _ _ _ => exact Or.inl rfl
  | asked absolute isOwned unknown unfailed =>
      exact Or.inr ⟨_, asks_of_provides (Registry.provides_of_find absolute isOwned) unknown
        unfailed⟩

theorem Asks.punctual_iff {library : Library} (asks : visit.Asks engine library)
    (comparable : Timescale.Comparable T) :
    Event.Punctual visit.deadline visit.holdings.world.past (visit.after engine).world.past ↔
      InTime visit.deadline visit.holdings.world.now := by
  rw [after, asks.told, Engine.world_remember]
  constructor
  · intro punctual
    rcases Engine.fetchFromLibrary_first engine library visit.deadline visit.path
      visit.holdings with ⟨request, first⟩
    exact punctual.first first
  · exact Engine.fetchFromLibrary_punctual comparable engine library visit.path

/-- Whether a visit sends requests, but not before its deadline. -/
def Late (engine : Engine T) (visit : Visit T) : Prop :=
  (∃ library, visit.Asks engine library) ∧ ¬InTime visit.deadline visit.holdings.world.now

theorem punctual_iff (comparable : Timescale.Comparable T) (engine : Engine T)
    (visit : Visit T) :
    Event.Punctual visit.deadline visit.holdings.world.past (visit.after engine).world.past ↔
      ¬visit.Late engine := by
  by_cases asks : ∃ library, visit.Asks engine library
  · rcases asks with ⟨library, asks⟩
    rw [asks.punctual_iff comparable, Late, not_and_not_right]
    exact ⟨fun inTime _ => inTime, fun early => early ⟨library, asks⟩⟩
  · rw [(unchanged_or_asks engine visit).resolve_right asks]
    exact iff_of_true (.refl _ _) fun late => asks late.1

theorem grows (engine : Engine T) (visit : Visit T) :
    visit.holdings.world.past <:+ (visit.after engine).world.past := by
  rcases unchanged_or_asks engine visit with unchanged | ⟨library, asks⟩
  · simp only [unchanged, List.suffix_refl]
  · rcases asks.requests with ⟨_, _, _, _, sent⟩
    exact sent.grows

end Visit

namespace Engine

variable {engine : Engine T} {deadline : Option T}

theorem Leads.punctual_iff (comparable : Timescale.Comparable T) {first last : Record T}
    {visits : List (Visit T)} (leads : Leads engine first visits last)
    (same : ∀ visit ∈ visits, visit.deadline = deadline) :
    Event.Punctual deadline first.past last.past ↔ ∀ visit ∈ visits, ¬visit.Late engine := by
  induction leads with
  | done record => exact iff_of_true (.refl _ _) fun _ made => absurd made List.not_mem_nil
  | visit visit later induction =>
      have grown := (@Leads.related _ _ engine (fun earlier later => earlier.past <:+ later.past)
        (fun _ => List.suffix_refl _) List.IsSuffix.trans (Visit.grows engine) _ _ _ later).2.2.2
      have rest := induction fun other made => same other (List.mem_cons_of_mem visit made)
      have now := visit.punctual_iff comparable engine
      rw [same visit List.mem_cons_self] at now
      rw [List.forall_mem_cons, ← rest, ← now]
      exact Event.punctual_iff (visit.grows engine) grown

theorem deadline_of_mem_visitsAlong {paths : List String} {holdings : Holdings T}
    {visit : Visit T} (made : visit ∈ engine.visitsAlong deadline paths holdings) :
    visit.deadline = deadline := by
  induction paths generalizing holdings with
  | nil => exact absurd made List.not_mem_nil
  | cons path rest induction =>
      rcases List.mem_cons.1 made with rfl | later
      · rfl
      · exact induction later

/-! ## Rounds -/

/-- Of the visits of a round that begins before the deadline, the first is not late. -/
theorem round_punctual (comparable : Timescale.Comparable T) (alone : engine.maxWorkers = 1)
    (pooled : Bool) (files : Listing String String) (budget : Nat) {pass : Pass T}
    (inTime : InTime deadline pass.holdings.world.now) :
    Event.Punctual deadline pass.holdings.world.past
      (engine.round pooled files deadline budget pass).pass.holdings.world.past := by
  have told := fetchAll_round engine pooled files deadline budget pass
  have asked := fetchBatch_prefix engine pooled deadline
    (Batch.take engine.maxWorkers budget pass.state pass.queue).paths pass.holdings
  have short :
      ((engine.round pooled files deadline budget pass).outcomes.map Prod.fst).length ≤ 1 :=
    asked.length_le.trans (alone ▸ Batch.length_paths_take_le _ _ _ _)
  generalize engine.round pooled files deadline budget pass = round at *
  have along := leads_visitsAlong engine deadline (round.outcomes.map Prod.fst) pass.holdings
  rw [told] at along
  refine (along.punctual_iff comparable fun visit => deadline_of_mem_visitsAlong).2 ?_
  intro visit made late
  generalize round.outcomes.map Prod.fst = paths at short made
  cases paths with
  | nil => exact absurd made List.not_mem_nil
  | cons path rest =>
      have noOther : rest.length = 0 := Nat.le_zero.1 (Nat.le_of_succ_le_succ short)
      obtain rfl : rest = [] := List.length_eq_zero_iff.1 noOther
      cases List.mem_singleton.1 made
      exact late.2 inTime

theorem drainLogged_punctual (comparable : Timescale.Comparable T)
    (alone : engine.maxWorkers = 1) (pooled : Bool) (files : Listing String String)
    (deadline : Option T) (rounds budget : Nat) (pass : Pass T) :
    Event.Punctual deadline pass.holdings.world.past
      (engine.drainLogged pooled files deadline rounds budget pass).last.holdings.world.past := by
  induction rounds generalizing budget pass with
  | zero => exact .refl _ _
  | succ rounds induction =>
      by_cases stops : pass.queue = [] ∨ budget = 0
      · rw [drainLogged_stop engine pooled files deadline (rounds + 1) stops]
        exact .refl _ _
      · rcases drainLogged_succ_cases engine pooled files deadline rounds stops with
          ⟨_, late⟩ | ⟨early, step⟩
        · rw [late]
          exact .refl _ _
        · have punctual := round_punctual comparable alone pooled files budget
            (FetchPolicy.isReached_eq_false_iff.1 early)
          rcases step with ⟨_, goesOn⟩ | ⟨_, cause, interrupted⟩
          · rw [goesOn]
            exact punctual.trans (induction _ _)
          · rw [interrupted]
            exact punctual

/-- Whether every request of a call to resolve files starts before the deadline of the call. -/
def MeetsDeadline (engine : Engine T) (files : Listing String String)
    (preference : Option Preference) (deadline : Option T) (cache : ContentCache (FetchError T))
    (world : World T) : Prop :=
  Event.Punctual (engine.deadlineFrom deadline world.now) world.past
    (engine.serve (.resolve files preference deadline) cache world).2.past

theorem meetsDeadline_of_one_worker (comparable : Timescale.Comparable T)
    (alone : engine.maxWorkers = 1) (files : Listing String String)
    (preference : Option Preference) (deadline : Option T) (cache : ContentCache (FetchError T))
    (world : World T) : MeetsDeadline engine files preference deadline cache world := by
  unfold MeetsDeadline
  cases starts : engine.holdingsFor files preference cache world with
  | error fault =>
      simp only [serve, starts]
      exact .refl _ _
  | ok holdings =>
      rcases map_eq_ok_iff.1 starts with ⟨chosen, -, rfl⟩
      simp only [serve, starts, snd_resolveWith]
      split
      · exact .refl _ _
      · rw [← drainSeedsLog_eq]
        exact drainLogged_punctual comparable alone (1 < engine.maxWorkers) files
          (engine.deadlineFrom deadline world.now) engine.maxIterations.toNat
          engine.maxIterations.toNat
          (openPass (Resolution.Seeds.ofFiles files) ⟨cache, chosen, world⟩)

/-- The requests of a resolution start before its deadline exactly when no visit that sends any
begins late. With one worker none does. -/
theorem meetsDeadline_iff (comparable : Timescale.Comparable T) (engine : Engine T)
    (files : Listing String String) (preference : Option Preference) (deadline : Option T)
    (cache : ContentCache (FetchError T)) (world : World T) :
    (MeetsDeadline engine files preference deadline cache world ↔
      ∀ visit ∈ engine.visitsOf (.resolve files preference deadline) cache world,
        ¬visit.Late engine) ∧
    (engine.maxWorkers = 1 → MeetsDeadline engine files preference deadline cache world) := by
  refine ⟨?_, fun alone => meetsDeadline_of_one_worker comparable alone files preference deadline
    cache world⟩
  refine (leads_visitsOf engine (.resolve files preference deadline) cache world).punctual_iff
    comparable fun visit made => ?_
  cases starts : engine.holdingsFor files preference cache world with
  | error fault =>
      simp only [visitsOf, starts] at made
      exact absurd made List.not_mem_nil
  | ok holdings =>
      rcases map_eq_ok_iff.1 starts with ⟨chosen, -, rfl⟩
      simp only [visitsOf, starts, visitsWith] at made
      split at made
      · exact absurd made List.not_mem_nil
      · exact deadline_of_mem_visitsAlong made

def tardySample : Engine Rat :=
  { flakySample with
    network := ⟨fun _ _ => ⟨10, .answered 200 "contract A {}"⟩⟩
    maxWorkers := 2 }

def pairFile : Listing String String :=
  .ofList [("m.sol", "import '@lib/a.sol'; import '@lib/b.sol';")]

theorem comparable_rat : Timescale.Comparable Rat := fun _ _ => Rat.not_le.1

/-- Two workers: the second path of the batch is requested when the deadline is five seconds ago. -/
theorem not_meetsDeadline_of_batch :
    ¬MeetsDeadline tardySample pairFile (some .empty) (some 5) .empty (.startingAt 0) := by
  rintro ⟨made, isMade, punctual⟩
  have late : ((tardySample.serve (.resolve pairFile (some .empty) (some 5)) .empty
      (.startingAt 0)).2.past.any fun
        | .request _ start => !decide (start < 5)
        | .pause _ => false) = true := by
    decide +kernel
  rw [← isMade, World.startingAt, List.append_nil, List.any_eq_true] at late
  rcases late with ⟨event, isEvent, isLate⟩
  cases event with
  | request request start =>
      have early := punctual request start isEvent 5 rfl
      simp [early] at isLate
  | pause length => cases isLate

theorem meetsDeadline_of_late_answer :
    Timescale.Comparable Rat ∧
    (tardySample.visitsOf (.resolve pairFile (some .empty) (some 15)) .empty
      (.startingAt 0)).map (fun visit => visit.holdings.world.now) = [0, 10] ∧
    (tardySample.serve (.resolve pairFile (some .empty) (some 15)) .empty
      (.startingAt 0)).2.now = 20 ∧
    MeetsDeadline tardySample pairFile (some .empty) (some 15) .empty (.startingAt 0) := by
  have early : ((tardySample.visitsOf (.resolve pairFile (some .empty) (some 15)) .empty
      (.startingAt 0)).all fun visit =>
        !FetchPolicy.isReached visit.deadline visit.holdings.world.now) = true := by
    decide +kernel
  have inTime : ∀ visit ∈ tardySample.visitsOf (.resolve pairFile (some .empty) (some 15)) .empty
      (.startingAt 0), ¬visit.Late tardySample := fun visit made late =>
    late.2 (FetchPolicy.isReached_eq_false_iff.1
      (Bool.not_eq_true' _ ▸ List.all_eq_true.1 early visit made))
  have meets := meetsDeadline_iff comparable_rat tardySample pairFile (some .empty) (some 15) .empty
    (.startingAt 0)
  exact ⟨comparable_rat, by decide +kernel, by decide +kernel, meets.1.2 inTime⟩

end Engine

end SourceTree
