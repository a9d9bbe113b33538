import SourceTree.Proofs.Engine.Integrity

/-! # Which failures are remembered

Failures are meant to be remembered when they are permanent. What the engine remembers is that all
addresses of a path failed, for whatever reason. So a failure that may pass is remembered as well,
and the path is never asked for again, exactly when it was all that its addresses gave. -/

namespace SourceTree

namespace Fetched

variable {T : Type}

def mayPass : Fetched T → Bool
  | .content _ => false
  | .failed error => error.isRetryable
  | .interrupted _ => true

def isPermanent : Fetched T → Bool
  | .failed error => !error.isRetryable
  | _ => false

theorem mayPass_of_isPermanent {fetched : Fetched T} (permanent : fetched.isPermanent = true) :
    fetched.mayPass = false := by
  cases fetched with
  | failed error => exact Bool.not_eq_true' _ ▸ permanent
  | content text => rfl
  | interrupted interruption => cases permanent

end Fetched

def Reaction.mayPass : Reaction → Bool
  | .answered status _ => 500 ≤ status || status = 408 || status = 429
  | .timedOut => true
  | .unreachable _ => true
  | .broken _ => false

theorem FetchPolicy.isRetryable_of_verdict {T : Type} {policy : FetchPolicy T} {url : String}
    {reaction : Reaction} {error : FetchError T}
    (isVerdict : policy.verdict url reaction = .failed error) :
    error.isRetryable = reaction.mayPass := by
  rcases verdict_eq_failed_cases isVerdict with
    ⟨status, body, rfl, rfl⟩ | ⟨rfl, rfl⟩ | ⟨cause, rfl, rfl⟩
  · rfl
  · rfl
  · rfl

variable {T : Type} [Timescale T]

namespace Visit

def tries (engine : Engine T) (visit : Visit T) : List (String × Fetched T) :=
  if ImportPath.isRelative visit.path then []
  else
    match engine.registry.find visit.path with
    | none => []
    | some library =>
        match visit.holdings.cache.content? visit.path,
          visit.holdings.cache.failure? visit.path with
        | none, none => engine.tries library visit.deadline visit.path visit.holdings
        | _, _ => []

def Records (engine : Engine T) (visit : Visit T) : Prop :=
  visit.holdings.cache.failure? visit.path = none ∧
    (visit.after engine).cache.failure? visit.path ≠ none

/-- Whether a visit gives its path up after all of its addresses were tried. -/
def Exhausts (engine : Engine T) (visit : Visit T) : Prop :=
  visit.tries engine ≠ [] ∧ ∃ failure, visit.outcome engine = .failed failure

/-- Whether a visit ends without content, although another request may give one. -/
def MayPass (engine : Engine T) (visit : Visit T) : Prop :=
  (∃ entry ∈ visit.tries engine, entry.2.mayPass = true) ∧
    ∀ text, visit.outcome engine ≠ .content text

def Requests (engine : Engine T) (visit : Visit T) : Prop :=
  ∃ library, engine.registry.Provides library visit.path ∧
    ∃ url ∈ library.addresses (library.relativePath visit.path),
      Event.Sent visit.holdings.world.past (visit.after engine).world.past url

end Visit

/-- Whether no failure is remembered but permanent ones: a visit records a failure only if the
errors of all addresses that it tried are final, and a path that may still have content is
requested again by the next visit to it. -/
structure Engine.RemembersOnlyPermanent (engine : Engine T) (visits : List (Visit T)) : Prop where
  permanent : ∀ visit ∈ visits, visit.Records engine →
    ∀ entry ∈ visit.tries engine, entry.2.isPermanent = true
  requested : ∀ front earlier between later back,
    visits = front ++ earlier :: (between ++ later :: back) → later.path = earlier.path →
      (∀ visit ∈ between, visit.path ≠ earlier.path) → earlier.MayPass engine →
        later.Requests engine

namespace Visit

variable {engine : Engine T} {visit : Visit T}

def IsQuiet (engine : Engine T) (visit : Visit T) : Prop :=
  visit.tries engine = [] ∧ (visit.after engine).cache = visit.holdings.cache

structure Asks (engine : Engine T) (visit : Visit T) (library : Library) : Prop where
  provides : engine.registry.Provides library visit.path
  unknown : visit.holdings.cache.content? visit.path = none
  unfailed : visit.holdings.cache.failure? visit.path = none
  tried : visit.tries engine = engine.tries library visit.deadline visit.path visit.holdings
  told : engine.fetchImport visit.deadline visit.path visit.holdings =
    Engine.remember visit.path
      (engine.fetchFromLibrary library visit.deadline visit.path visit.holdings)

theorem asks_of_provides {library : Library}
    (provides : engine.registry.Provides library visit.path)
    (unknown : visit.holdings.cache.content? visit.path = none)
    (unfailed : visit.holdings.cache.failure? visit.path = none) : visit.Asks engine library where
  provides := provides
  unknown := unknown
  unfailed := unfailed
  tried := by
    rw [tries, provides.absolute, provides.found]
    simp only [unknown, unfailed, Bool.false_eq_true, if_false]
  told := by
    rw [Engine.fetchImport, provides.absolute, provides.found]
    simp only [unknown, unfailed, Bool.false_eq_true, if_false]

theorem quiet_or_asks (engine : Engine T) (visit : Visit T) :
    visit.IsQuiet engine ∨ ∃ library, visit.Asks engine library := by
  cases relative : ImportPath.isRelative visit.path with
  | true =>
      refine Or.inl ⟨?_, ?_⟩
      · rw [tries, relative, if_pos rfl]
      · rw [after, Engine.fetchImport, relative, if_pos rfl]
  | false =>
      cases owner : engine.registry.find visit.path with
      | none =>
          refine Or.inl ⟨?_, ?_⟩
          · simp only [tries, relative, owner, Bool.false_eq_true, if_false]
          · simp only [after, Engine.fetchImport, relative, owner, Bool.false_eq_true, if_false]
      | some library =>
          by_cases remembers : visit.holdings.cache.Remembers visit.path
          · refine Or.inl ⟨?_, ?_⟩
            · simp only [tries, relative, owner, Bool.false_eq_true, if_false]
              split
              next unknown unfailed => exact (remembers.elim (· unknown) (· unfailed)).elim
              next => rfl
            · rw [after_of_remembers remembers]
          · rw [ContentCache.Remembers, not_or, not_not, not_not] at remembers
            exact Or.inr ⟨library, asks_of_provides (Registry.provides_of_find relative owner)
              remembers.1 remembers.2⟩

theorem Asks.requests {library : Library} (asks : visit.Asks engine library) :
    visit.Requests engine := by
  rcases (Engine.fetchFromLibrary_asksFor engine library visit.deadline visit.path
    visit.holdings).2 with ⟨url, isAddress, sent⟩
  refine ⟨library, asks.provides, url, isAddress, ?_⟩
  rw [after, asks.told, Engine.world_remember]
  exact sent

/-- A path is given up for the failures of all of its addresses, and then they are recorded;
otherwise nothing is recorded unless there is content. -/
theorem Asks.ends {library : Library} (asks : visit.Asks engine library) :
    (∃ text, visit.outcome engine = .content text ∧
        (visit.after engine).cache.failure? visit.path = none) ∨
      (visit.Exhausts engine ∧ visit.Records engine ∧ AllFailed (visit.tries engine)) ∨
        (∃ interruption, visit.outcome engine = .interrupted interruption) ∧
          (visit.after engine).cache = visit.holdings.cache := by
  have concluded := (Engine.fetchFromLibrary_asksFor engine library visit.deadline visit.path
    visit.holdings).1.concluded
  have unchanged := Engine.cache_fetchFromLibrary engine library visit.deadline visit.path
    visit.holdings
  have unfailed := asks.unfailed
  rw [← asks.tried] at concluded
  unfold Exhausts Records outcome after
  rw [asks.told]
  generalize engine.fetchFromLibrary library visit.deadline visit.path visit.holdings = result
    at concluded unchanged ⊢
  rcases result with ⟨outcome, held⟩
  generalize visit.tries engine = made at concluded ⊢
  cases concluded with
  | content failed =>
      refine Or.inl ⟨_, rfl, ?_⟩
      rw [Engine.remember, ContentCache.failure?_put, if_pos rfl]
  | interrupted failed => exact Or.inr (Or.inr ⟨⟨_, rfl⟩, unchanged⟩)
  | overdue failed => exact Or.inr (Or.inr ⟨⟨_, rfl⟩, unchanged⟩)
  | exhausted head failed =>
      refine Or.inr (Or.inl ⟨⟨?_, _, rfl⟩, ⟨unfailed, ?_⟩, failed⟩)
      · rintro rfl
        cases head
      · rw [Engine.remember, ContentCache.failure?_recordFailure, if_pos rfl]
        exact Option.some_ne_none _

theorem not_records_of_cache_eq (same : (visit.after engine).cache = visit.holdings.cache) :
    ¬visit.Records engine := by
  intro records
  rw [Records, same] at records
  exact records.2 records.1

theorem records_iff_exhausts : visit.Records engine ↔ visit.Exhausts engine := by
  rcases quiet_or_asks engine visit with ⟨untried, same⟩ | ⟨library, asks⟩
  · exact iff_of_false (not_records_of_cache_eq same) fun exhausts => exhausts.1 untried
  · rcases asks.ends with ⟨text, isContent, unfailed⟩ | ⟨exhausts, records, _⟩ |
      ⟨⟨interruption, interrupted⟩, same⟩
    · refine iff_of_false (fun records => records.2 unfailed) fun exhausts => ?_
      rcases exhausts.2 with ⟨failure, isFailed⟩
      cases isContent.symm.trans isFailed
    · exact iff_of_true records exhausts
    · refine iff_of_false (not_records_of_cache_eq same) fun exhausts => ?_
      rcases exhausts.2 with ⟨failure, isFailed⟩
      cases interrupted.symm.trans isFailed

theorem Exhausts.verdicts (exhausts : visit.Exhausts engine) :
    ∀ entry ∈ visit.tries engine, ∃ error past, entry.2 = .failed error ∧
      engine.policy.verdict entry.1 (engine.network.reply past entry.1).reaction =
        .failed error := by
  intro entry made
  rcases quiet_or_asks engine visit with ⟨untried, _⟩ | ⟨library, asks⟩
  · exact absurd untried exhausts.1
  · have answered := (Engine.fetchFromLibrary_asksFor engine library visit.deadline visit.path
      visit.holdings).1.answered
    rw [← asks.tried] at answered
    rcases exhausts.2 with ⟨failure, isFailed⟩
    rcases asks.ends with ⟨text, isContent, _⟩ | ⟨_, _, allFailed⟩ | ⟨⟨_, interrupted⟩, _⟩
    · cases isContent.symm.trans isFailed
    · rcases answered entry made with
        ⟨_, reaction, ⟨_, _, _, _, earlier, _, _, rfl⟩, gives⟩
      rcases allFailed entry made with ⟨error, isError⟩
      rw [isError] at gives
      exact ⟨error, earlier, isError, gives.of_failed⟩
    · cases interrupted.symm.trans isFailed

theorem MayPass.unremembered (mayPass : visit.MayPass engine)
    (unexhausted : ¬visit.Exhausts engine) :
    ∃ library, engine.registry.Provides library visit.path ∧
      (visit.after engine).cache.content? visit.path = none ∧
        (visit.after engine).cache.failure? visit.path = none := by
  rcases mayPass with ⟨⟨entry, made, _⟩, contentless⟩
  rcases quiet_or_asks engine visit with ⟨untried, _⟩ | ⟨library, asks⟩
  · rw [untried] at made
    exact absurd made List.not_mem_nil
  · rcases asks.ends with ⟨text, isContent, _⟩ | ⟨exhausts, _⟩ | ⟨_, same⟩
    · exact absurd isContent (contentless text)
    · exact absurd exhausts unexhausted
    · rw [same]
      exact ⟨library, asks.provides, asks.unknown, asks.unfailed⟩

end Visit

namespace Engine

variable {engine : Engine T}

theorem Leads.agreeAt {first last : Record T} {visits : List (Visit T)}
    (leads : Leads engine first visits last) {path : String}
    (absent : ∀ visit ∈ visits, visit.path ≠ path) : last.cache.AgreeAt first.cache path := by
  induction leads with
  | done record => exact ⟨rfl, rfl⟩
  | visit visit later induction =>
      have rest := induction fun other made => absent other (List.mem_cons_of_mem visit made)
      exact rest.trans (fetchImport_frame engine visit.deadline
        (absent visit List.mem_cons_self).symm visit.holdings)

theorem Leads.remembersOnlyPermanent {first last : Record T} {visits : List (Visit T)}
    (leads : Leads engine first visits last)
    (permanent : ∀ visit ∈ visits, visit.Exhausts engine →
      ∀ entry ∈ visit.tries engine, entry.2.isPermanent = true) :
    RemembersOnlyPermanent engine visits where
  permanent := fun visit made records => permanent visit made (Visit.records_iff_exhausts.1 records)
  requested := by
    rintro front earlier between later back rfl samePath others mayPass
    have unexhausted : ¬earlier.Exhausts engine := by
      intro exhausts
      rcases mayPass.1 with ⟨entry, made, passes⟩
      have isMade : earlier ∈ front ++ earlier :: (between ++ later :: back) :=
        List.mem_append_right front List.mem_cons_self
      have final := Fetched.mayPass_of_isPermanent (permanent earlier isMade exhausts entry made)
      exact Bool.false_ne_true (final.symm.trans passes)
    rcases mayPass.unremembered unexhausted with ⟨library, provides, unknown, unfailed⟩
    rcases leads.split with ⟨middle, _, fromEarlier⟩
    cases fromEarlier with
    | visit _ afterEarlier =>
        rcases afterEarlier.split with ⟨found, along, fromLater⟩
        have agree := along.agreeAt others
        cases fromLater with
        | visit _ _ =>
            rw [← samePath] at provides agree unknown unfailed
            exact (Visit.asks_of_provides provides (agree.1.trans unknown)
              (agree.2.trans unfailed)).requests

/-- Only permanent failures are remembered exactly when no path is given up for others. -/
theorem remembersOnlyPermanent_iff (engine : Engine T) (history : List (Call T))
    (cache : ContentCache (FetchError T)) (world : World T) :
    RemembersOnlyPermanent engine (engine.visits history cache world) ↔
      ∀ visit ∈ engine.visits history cache world, visit.Exhausts engine →
        ∀ entry ∈ visit.tries engine, entry.2.isPermanent = true := by
  constructor
  · exact fun remembers visit made exhausts =>
      remembers.permanent visit made (Visit.records_iff_exhausts.2 exhausts)
  · exact (leads_visits engine history cache world).remembersOnlyPermanent

theorem remembersOnlyPermanent_of_lasting {engine : Engine T}
    (lasting : ∀ past url, (engine.network.reply past url).reaction.mayPass = false)
    (history : List (Call T)) (cache : ContentCache (FetchError T)) (world : World T) :
    RemembersOnlyPermanent engine (engine.visits history cache world) := by
  refine (leads_visits engine history cache world).remembersOnlyPermanent ?_
  intro visit _ exhausts entry made
  rcases exhausts.verdicts entry made with ⟨error, past, isError, isVerdict⟩
  have final := (FetchPolicy.isRetryable_of_verdict isVerdict).trans (lasting past entry.1)
  rw [isError, Fetched.isPermanent, final]
  rfl

def flakySample : Engine Rat :=
  make
    (.ofLibraries [.ofVersions "@lib" ⟨"1", "https://one/", none, [], []⟩ [] (by decide)])
    Pattern.search
    ⟨fun past _ => ⟨0, if past.isEmpty then .answered 503 "" else .answered 200 "text"⟩⟩
    ⟨15, 0, 1⟩ 200 2 1 none

theorem not_remembersOnlyPermanent_of_fault :
    ¬RemembersOnlyPermanent flakySample
      (flakySample.visits
        [.fetch "@lib/a.sol" .empty none, .fetch "@lib/a.sol" .empty none]
        .empty (.startingAt 0)) := by
  intro remembers
  have records : Visit.Records flakySample
      ⟨"@lib/a.sol", none, ⟨.empty, .empty, .startingAt 0⟩⟩ := by
    refine ⟨rfl, Option.isSome_iff_ne_none.1 ?_⟩
    decide +kernel
  have passes : (Visit.tries flakySample
      ⟨"@lib/a.sol", none, ⟨.empty, .empty, .startingAt 0⟩⟩).any (fun entry => entry.2.mayPass) =
        true := by
    decide +kernel
  rcases List.any_eq_true.1 passes with ⟨entry, made, mayPass⟩
  have permanent := remembers.permanent _ List.mem_cons_self records entry made
  exact Bool.false_ne_true ((Fetched.mayPass_of_isPermanent permanent).symm.trans mayPass)

end Engine

end SourceTree
