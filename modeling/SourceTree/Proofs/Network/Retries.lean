import Mathlib.Algebra.Order.Ring.Unbundled.Rat
import SourceTree.Proofs.Engine.Requests

/-! # Retries on exact numbers

The course of a fetch is laid out as if nothing ended it: every attempt is made in the world that
the pause before it leaves, and pauses double from one to the next. What a fetch does is this course
up to the first attempt after which the policy lets it make no other. -/

namespace SourceTree.FetchPolicy

/-! ## The course of a fetch -/

def pauseAfter (policy : FetchPolicy Rat) (number : Nat) : Rat :=
  policy.backoff * 2 ^ number

def worldAt (policy : FetchPolicy Rat) (network : Network Rat) (url : String)
    (world : World Rat) : Nat → World Rat
  | 0 => world
  | number + 1 =>
      (policy.attempt network url (policy.worldAt network url world number)).2.pause
        (policy.pauseAfter number)

section

variable (policy : FetchPolicy Rat) (network : Network Rat) (deadline : Option Rat) (url : String)
  (world : World Rat)

def told (number : Nat) : Fetched Rat :=
  (policy.attempt network url (policy.worldAt network url world number)).1

def worldAfter (number : Nat) : World Rat :=
  (policy.attempt network url (policy.worldAt network url world number)).2

/-- Whether an attempt failed with an error that may pass, and is not the last that the policy
allows. -/
def MayRetry (number : Nat) : Prop :=
  (∃ error, policy.told network url world number = .failed error ∧ error.isRetryable = true) ∧
    (number : Int) < policy.retries

/-- Whether the pause after an attempt ends before the deadline, if there is one. -/
def PausesInTime (number : Nat) : Prop :=
  ∀ limit, deadline = some limit →
    (policy.worldAfter network url world number).now + policy.pauseAfter number < limit

structure EndsWith (budget : Rat) (last : Nat) (result : Fetched Rat × World Rat) : Prop where
  late : policy.MayRetry network url world last → result.1 = .interrupted (.late budget)
  settled : ¬policy.MayRetry network url world last →
    result.1 = policy.told network url world last
  worldAfter : result.2 = policy.worldAfter network url world last

end

variable {policy : FetchPolicy Rat} {network : Network Rat} {deadline : Option Rat} {url : String}
  {world : World Rat}

theorem endsLate_eq_false_iff {number : Nat} :
    endsLate deadline ((policy.worldAfter network url world number).now +
        policy.pauseAfter number) = false ↔
      policy.PausesInTime network deadline url world number := by
  cases deadline with
  | none => exact iff_of_true rfl fun _ isLimit => nomatch isLimit
  | some limit =>
      simp only [endsLate, Option.any_some, decide_eq_false_iff_not, PausesInTime,
        Option.some.injEq, forall_eq']
      exact Rat.not_le

theorem attempts_of_retried {number : Nat}
    (mayRetry : policy.MayRetry network url world number)
    (inTime : policy.PausesInTime network deadline url world number) (budget : Rat) (left : Nat) :
    policy.attempts network deadline budget url (left + 1) number
        (policy.worldAt network url world number) =
      policy.attempts network deadline budget url left (number + 1)
        (policy.worldAt network url world (number + 1)) := by
  rcases mayRetry.1 with ⟨error, failed, retryable⟩
  have early := endsLate_eq_false_iff.2 inTime
  simp only [told, worldAfter] at failed early
  rw [worldAt]
  simp only [attempts]
  generalize policy.attempt network url (policy.worldAt network url world number) = asked at *
  rcases asked with ⟨fetched, after⟩
  subst failed
  simp only [retryable, Bool.not_true, Bool.false_eq_true, if_false]
  exact if_neg (Bool.not_eq_true _ ▸ early)

theorem endsWith_of_stopped {number : Nat} (allowed : (number : Int) < policy.retries)
    (stopped : ¬(policy.MayRetry network url world number ∧
      policy.PausesInTime network deadline url world number)) (budget : Rat) (left : Nat) :
    policy.EndsWith network url world budget number
      (policy.attempts network deadline budget url (left + 1) number
        (policy.worldAt network url world number)) := by
  rw [not_and, ← endsLate_eq_false_iff, Bool.not_eq_false] at stopped
  -- The attempt is the last for one of two reasons: its verdict is final, or its pause ends late.
  have settles : ∀ result : Fetched Rat × World Rat,
      result = (policy.told network url world number, policy.worldAfter network url world number) →
        (∀ error, policy.told network url world number = .failed error →
          error.isRetryable = false) → policy.EndsWith network url world budget number result := by
    rintro _ rfl lasting
    refine ⟨?_, fun _ => rfl, rfl⟩
    rintro ⟨⟨error, failed, retryable⟩, -⟩
    exact absurd retryable (by simp [lasting error failed])
  have isTold : policy.attempt network url (policy.worldAt network url world number) =
    (policy.told network url world number, policy.worldAfter network url world number) := rfl
  simp only [attempts, isTold]
  cases outcome : policy.told network url world number with
  | content text =>
      exact settles _ (by rw [outcome]) fun _ failed => by cases outcome.symm.trans failed
  | interrupted interruption =>
      exact settles _ (by rw [outcome]) fun _ failed => by cases outcome.symm.trans failed
  | failed error =>
      cases retryable : error.isRetryable with
      | false =>
          refine settles _ (by simp [outcome, retryable]) fun other failed => ?_
          cases outcome.symm.trans failed
          exact retryable
      | true =>
          have mayRetry : policy.MayRetry network url world number :=
            ⟨⟨error, outcome, retryable⟩, allowed⟩
          have late := stopped mayRetry
          simp only [pauseAfter] at late
          have pause : Timescale.doubled policy.backoff number =
            some (policy.backoff * 2 ^ number) := rfl
          simp only [retryable, Bool.not_true, Bool.false_eq_true, if_false, pause, late, if_true]
          exact ⟨fun _ => rfl, fun final => absurd mayRetry final, rfl⟩

variable (policy network deadline url world) in
/-- A fetch that has made some attempts ends with the first that is not followed by another. -/
theorem attempts_endsWith (budget : Rat) {left number : Nat}
    (counted : number + left = policy.retries.toNat) :
    ∃ last, number ≤ last ∧
      (∀ between, number ≤ between → between < last →
        policy.MayRetry network url world between ∧
          policy.PausesInTime network deadline url world between) ∧
      ¬(policy.MayRetry network url world last ∧
        policy.PausesInTime network deadline url world last) ∧
      policy.EndsWith network url world budget last
        (policy.attempts network deadline budget url left number
          (policy.worldAt network url world number)) := by
  induction left generalizing number with
  | zero =>
      have noneLeft : ¬policy.MayRetry network url world number := fun mayRetry => by
        have allowed := mayRetry.2
        omega
      exact ⟨number, le_rfl, fun _ notBefore before => absurd notBefore (Nat.not_le.2 before),
        fun both => noneLeft both.1,
        fun mayRetry => absurd mayRetry noneLeft, fun _ => rfl, rfl⟩
  | succ left induction =>
      by_cases retried : policy.MayRetry network url world number ∧
        policy.PausesInTime network deadline url world number
      · have oneFewer : number + 1 + left = policy.retries.toNat := by omega
        rcases induction oneFewer with ⟨last, after, followed, stopped, ends⟩
        refine ⟨last, by omega, fun between notBefore before => ?_, stopped, ?_⟩
        · rcases Nat.eq_or_lt_of_le notBefore with rfl | later
          · exact retried
          · exact followed between later before
        · rw [attempts_of_retried retried.1 retried.2]
          exact ends
      · exact ⟨number, le_rfl, fun _ notBefore before => absurd notBefore (Nat.not_le.2 before),
          retried, endsWith_of_stopped (by omega) retried budget left⟩

/-! ## What a fetch leaves behind -/

theorem requested_worldAfter (number : Nat) :
    (policy.worldAfter network url world number).requested =
      world.requested ++ List.replicate (number + 1) url := by
  have asks : ∀ before : World Rat, (policy.attempt network url before).2.requested =
      before.requested ++ [url] :=
    World.requested_request network ⟨url, policy.timeout, headers⟩
  induction number with
  | zero => exact asks world
  | succ number induction =>
      rw [worldAfter, asks, worldAt, World.requested_pause, ← worldAfter, induction,
        List.append_assoc, ← List.replicate_succ']

theorem pauses_worldAfter (number : Nat) :
    (policy.worldAfter network url world number).pauses =
      world.pauses ++ (List.range number).map policy.pauseAfter := by
  have asks : ∀ before : World Rat, (policy.attempt network url before).2.pauses =
      before.pauses := by
    intro before
    simp [attempt, World.request, World.pauses]
  have rests : ∀ (before : World Rat) (length : Rat), (before.pause length).pauses =
      before.pauses ++ [length] := by
    intro before length
    simp [World.pause, World.pauses]
  induction number with
  | zero => simp [worldAfter, worldAt, asks]
  | succ number induction =>
      rw [worldAfter, asks, worldAt, rests, ← worldAfter, induction, List.append_assoc,
        List.range_succ, List.map_append]
      rfl

theorem limitOr_some_zero (length : Rat) : Timescale.limitOr (some length) 0 = length := by
  simp only [Timescale.limitOr]
  split
  next nothing =>
    rw [Timescale.isNothing, Bool.and_eq_true, decide_eq_true_eq, decide_eq_true_eq] at nothing
    exact Rat.le_antisymm nothing.2 nothing.1
  next => rfl

theorem budget_some (limit now : Rat) : budget (some limit) now = max (limit - now) 0 := by
  rw [budget, Option.map_some, limitOr_some_zero, Timescale.remaining]
  split
  next passed => exact (max_eq_right (Rat.le_of_lt passed)).symm
  next ahead => exact (max_eq_left (Rat.not_lt.1 ahead)).symm

/-- How a fetch keeps to its policy. Its attempts are counted from 0, whatever was fetched before,
and all of them but the last are followed by another. -/
structure Keeps (policy : FetchPolicy Rat) (network : Network Rat) (deadline : Option Rat)
    (url : String) (world : World Rat) (last : Nat) (result : Fetched Rat × World Rat) : Prop where
  followedIff : ∀ number ≤ last, number < last ↔
    policy.MayRetry network url world number ∧
      policy.PausesInTime network deadline url world number
  content : ∀ status body,
    (network.reply (policy.worldAt network url world last).past url).reaction =
      .answered status body → 200 ≤ status → status < 300 → result.1 = .content body
  late : policy.MayRetry network url world last → ∃ limit, deadline = some limit ∧
    limit ≤ (policy.worldAfter network url world last).now + policy.backoff * 2 ^ last ∧
      result.1 = .interrupted (.late (max (limit - world.now) 0))
  settled : ¬policy.MayRetry network url world last →
    result.1 = policy.told network url world last
  worldAfter : result.2 = policy.worldAfter network url world last
  requested : result.2.requested = world.requested ++ List.replicate (last + 1) url
  pauses : result.2.pauses =
    world.pauses ++ (List.range last).map fun number => policy.backoff * 2 ^ number
  few : (last : Int) + 1 ≤ max policy.retries 0 + 1
  inTime : ∀ number < last, ∀ limit, deadline = some limit →
    (policy.worldAt network url world (number + 1)).now < limit

/-- Every fetch keeps to its policy, whatever the replies are and however long they take. An attempt
is followed by another exactly when its error may pass, retries are left and the pause, twice as
long as the one before, ends before the deadline. Where the deadline alone stands against a retry
the fetch is late, by the time that was left when it started; otherwise the last attempt decides. -/
theorem fetch_keeps (policy : FetchPolicy Rat) (network : Network Rat) (deadline : Option Rat)
    (url : String) (world : World Rat) :
    ∃ last, policy.Keeps network deadline url world last
      (policy.fetch network deadline url world) := by
  rcases attempts_endsWith policy network deadline url world (budget deadline world.now)
    (Nat.zero_add policy.retries.toNat) with ⟨last, _, followed, stopped, ends⟩
  have isFetch : policy.fetch network deadline url world =
    policy.attempts network deadline (budget deadline world.now) url policy.retries.toNat 0
      (policy.worldAt network url world 0) := rfl
  rw [← isFetch] at ends
  exact ⟨last, {
    followedIff := by
      intro number notAfter
      refine ⟨followed number (Nat.zero_le number), fun both => ?_⟩
      rcases Nat.eq_or_lt_of_le notAfter with rfl | before
      · exact absurd both stopped
      · exact before
    content := by
      intro status body answered success noRedirect
      have isContent : policy.told network url world last = .content body := by
        rw [told, attempt, World.request, answered]
        exact if_pos ⟨success, noRedirect⟩
      rw [ends.settled, isContent]
      rintro ⟨⟨error, failed, _⟩, _⟩
      cases isContent ▸ failed
    late := by
      intro mayRetry
      -- The attempt may be retried and was not, so the deadline alone stands against it.
      have tooLate := fun inTime => stopped ⟨mayRetry, inTime⟩
      rw [imp_false] at tooLate
      simp only [PausesInTime, not_forall, exists_prop, Rat.not_lt] at tooLate
      rcases tooLate with ⟨limit, rfl, passed⟩
      exact ⟨limit, rfl, passed, by rw [ends.late mayRetry, budget_some]⟩
    settled := ends.settled
    worldAfter := ends.worldAfter
    requested := by rw [ends.worldAfter, requested_worldAfter]
    pauses := by
      rw [ends.worldAfter, pauses_worldAfter]
      rfl
    few := by
      cases last with
      | zero => exact Int.add_le_add_right (Int.le_max_right _ _) 1
      | succ before =>
          have allowed := (followed before (Nat.zero_le before) (Nat.lt_succ_self before)).1.2
          omega
    inTime := fun number before => (followed number (Nat.zero_le number) before).2 }⟩

end SourceTree.FetchPolicy
