import SourceTree.Proofs.Engine.Asking
import SourceTree.Proofs.Engine.Books
import SourceTree.Proofs.Value

/-! # Calls one after another

An engine serves calls with one cache: it resolves source trees and fetches single paths, while
time passes. All that a call does to the cache and to the network is done by visits to single
paths, so what every visit keeps holds throughout, however the calls end. -/

namespace SourceTree

inductive Call (T : Type) where
  | resolve (files : Listing String String) (preference : Option Preference) (deadline : Option T)
  | fetch (path : String) (preference : Preference) (deadline : Option T)
  /-- Time that passes without a call. -/
  | idle (length : T)

structure Visit (T : Type) where
  path : String
  deadline : Option T
  holdings : Holdings T

structure Record (T : Type) where
  cache : ContentCache (FetchError T)
  past : List (Event T)

def Holdings.record {T : Type} (holdings : Holdings T) : Record T :=
  ⟨holdings.cache, holdings.world.past⟩

variable {T : Type} [Timescale T]

def Visit.outcome (engine : Engine T) (visit : Visit T) : ImportOutcome T :=
  (engine.fetchImport visit.deadline visit.path visit.holdings).1

def Visit.after (engine : Engine T) (visit : Visit T) : Holdings T :=
  (engine.fetchImport visit.deadline visit.path visit.holdings).2

namespace Engine

omit [Timescale T] in
def holdingsFor (engine : Engine T) (files : Listing String String)
    (preference : Option Preference) (cache : ContentCache (FetchError T)) (world : World T) :
    Except Unexpected (Holdings T) :=
  (preference.elim (engine.detect files) .ok).map fun chosen => ⟨cache, chosen, world⟩

def serve (engine : Engine T) : Call T → ContentCache (FetchError T) → World T →
    ContentCache (FetchError T) × World T
  | .resolve files preference deadline, cache, world =>
      match engine.holdingsFor files preference cache world with
      | .error _ => (cache, world)
      | .ok holdings =>
          let (_, after) := engine.resolveWith files deadline holdings
          (after.cache, after.world)
  | .fetch path preference deadline, cache, world =>
      let (_, after) := engine.fetchImport deadline path ⟨cache, preference, world⟩
      (after.cache, after.world)
  | .idle length, cache, world => (cache, world.advance length)

def serveAll (engine : Engine T) : List (Call T) → ContentCache (FetchError T) → World T →
    ContentCache (FetchError T) × World T
  | [], cache, world => (cache, world)
  | call :: rest, cache, world =>
      let (cache, world) := engine.serve call cache world
      engine.serveAll rest cache world

/-! ## Visits -/

def visitsAlong (engine : Engine T) (deadline : Option T) :
    List String → Holdings T → List (Visit T)
  | [], _ => []
  | path :: rest, holdings =>
      ⟨path, deadline, holdings⟩ ::
        engine.visitsAlong deadline rest (engine.fetchImport deadline path holdings).2

def visitsWith (engine : Engine T) (files : Listing String String) (deadline : Option T)
    (holdings : Holdings T) : List (Visit T) :=
  if engine.maxImports < (Resolution.Seeds.ofFiles files).discovered.length then []
  else
    engine.visitsAlong (engine.deadlineFrom deadline holdings.world.now)
      ((engine.drainSeedsLog files deadline holdings).outcomes.map Prod.fst) holdings

def visitsOf (engine : Engine T) : Call T → ContentCache (FetchError T) → World T →
    List (Visit T)
  | .resolve files preference deadline, cache, world =>
      match engine.holdingsFor files preference cache world with
      | .error _ => []
      | .ok holdings => engine.visitsWith files deadline holdings
  | .fetch path preference deadline, cache, world =>
      [⟨path, deadline, ⟨cache, preference, world⟩⟩]
  | .idle _, _, _ => []

def visits (engine : Engine T) : List (Call T) → ContentCache (FetchError T) → World T →
    List (Visit T)
  | [], _, _ => []
  | call :: rest, cache, world =>
      let (nextCache, nextWorld) := engine.serve call cache world
      engine.visitsOf call cache world ++ engine.visits rest nextCache nextWorld

/-- Whether visits, one after another, are all that leads from one record to another. -/
inductive Leads (engine : Engine T) : Record T → List (Visit T) → Record T → Prop
  | done (record : Record T) : Leads engine record [] record
  | visit (visit : Visit T) {rest : List (Visit T)} {last : Record T}
      (later : Leads engine (visit.after engine).record rest last) :
      Leads engine visit.holdings.record (visit :: rest) last

variable {engine : Engine T}

theorem Leads.trans {first second third : Record T} {front back : List (Visit T)}
    (left : Leads engine first front second) (right : Leads engine second back third) :
    Leads engine first (front ++ back) third := by
  induction left with
  | done _ => exact right
  | visit visit _ induction => exact .visit visit (induction right)

theorem Leads.split {first last : Record T} {front back : List (Visit T)}
    (leads : Leads engine first (front ++ back) last) :
    ∃ middle, Leads engine first front middle ∧ Leads engine middle back last := by
  induction front generalizing first with
  | nil => exact ⟨first, .done first, leads⟩
  | cons visit rest induction =>
      cases leads with
      | visit _ later =>
          rcases induction later with ⟨middle, inFront, inBack⟩
          exact ⟨middle, .visit visit inFront, inBack⟩

theorem leads_visitsAlong (engine : Engine T) (deadline : Option T) (paths : List String)
    (holdings : Holdings T) :
    Leads engine holdings.record (engine.visitsAlong deadline paths holdings)
      (engine.fetchAll deadline paths holdings).2.record := by
  induction paths generalizing holdings with
  | nil => exact .done holdings.record
  | cons path rest induction =>
      exact .visit ⟨path, deadline, holdings⟩ (induction _)

theorem outcomes_visitsAlong (engine : Engine T) (deadline : Option T) (paths : List String)
    (holdings : Holdings T) :
    ((engine.visitsAlong deadline paths holdings).map fun visit =>
        (visit.path, visit.outcome engine)) =
      (engine.fetchAll deadline paths holdings).1 := by
  induction paths generalizing holdings with
  | nil => rfl
  | cons path rest induction =>
      simp only [visitsAlong, List.map_cons, induction]
      rfl

theorem outcomes_visitsWith (engine : Engine T) {files : Listing String String}
    (allowed : ¬engine.maxImports < (Resolution.Seeds.ofFiles files).discovered.length)
    (deadline : Option T) (holdings : Holdings T) :
    ((engine.visitsWith files deadline holdings).map fun visit =>
        (visit.path, visit.outcome engine)) =
      (engine.drainSeedsLog files deadline holdings).outcomes := by
  have fetched := (drainSeedsLog_accounted engine files deadline holdings).fetched
  simp only [visitsWith, if_neg allowed, outcomes_visitsAlong]
  exact congrArg Prod.fst fetched

theorem map_path_visitsWith (engine : Engine T) (files : Listing String String)
    (deadline : Option T) (holdings : Holdings T) :
    ((engine.visitsWith files deadline holdings).map Visit.path).Sublist
      ((engine.drainSeedsLog files deadline holdings).outcomes.map Prod.fst) := by
  by_cases tooMany : engine.maxImports < (Resolution.Seeds.ofFiles files).discovered.length
  · simp only [visitsWith, if_pos tooMany, List.map_nil]
    exact List.nil_sublist _
  · rw [← outcomes_visitsWith engine tooMany deadline holdings, List.map_map]
    exact List.Sublist.refl _

theorem nodup_visitsWith (engine : Engine T) (files : Listing String String)
    (deadline : Option T) (holdings : Holdings T) :
    ((engine.visitsWith files deadline holdings).map Visit.path).Nodup :=
  (map_path_visitsWith engine files deadline holdings).nodup
    (drainSeedsLog_accounted engine files deadline holdings).advances.distinct

theorem snd_resolveWith (engine : Engine T) (files : Listing String String) (deadline : Option T)
    (holdings : Holdings T) :
    (engine.resolveWith files deadline holdings).2 =
      if engine.maxImports < (Resolution.Seeds.ofFiles files).discovered.length then holdings
      else (engine.drainSeeds files deadline holdings).2.holdings := by
  unfold resolveWith drainSeeds
  simp only
  split <;> rfl

theorem leads_visitsWith (engine : Engine T) (files : Listing String String)
    (deadline : Option T) (holdings : Holdings T) :
    Leads engine holdings.record (engine.visitsWith files deadline holdings)
      (engine.resolveWith files deadline holdings).2.record := by
  simp only [visitsWith, snd_resolveWith]
  split
  · exact .done _
  · have accounted := drainSeedsLog_accounted engine files deadline holdings
    rw [← drainSeedsLog_eq]
    generalize engine.drainSeedsLog files deadline holdings = drain at accounted ⊢
    have fetched : engine.fetchAll (engine.deadlineFrom deadline holdings.world.now)
        (drain.outcomes.map Prod.fst) holdings = (drain.outcomes, drain.last.holdings) :=
      accounted.fetched
    have along := leads_visitsAlong engine (engine.deadlineFrom deadline holdings.world.now)
      (drain.outcomes.map Prod.fst) holdings
    rw [fetched] at along
    exact along

omit [Timescale T] in
theorem record_of_holdingsFor {files : Listing String String} {preference : Option Preference}
    {cache : ContentCache (FetchError T)} {world : World T} {holdings : Holdings T}
    (starts : engine.holdingsFor files preference cache world = .ok holdings) :
    holdings.record = ⟨cache, world.past⟩ := by
  rcases map_eq_ok_iff.1 starts with ⟨chosen, -, rfl⟩
  rfl

theorem leads_visitsOf (engine : Engine T) (call : Call T) (cache : ContentCache (FetchError T))
    (world : World T) :
    Leads engine ⟨cache, world.past⟩ (engine.visitsOf call cache world)
      ⟨(engine.serve call cache world).1, (engine.serve call cache world).2.past⟩ := by
  cases call with
  | idle length => exact .done _
  | fetch path preference deadline =>
      exact .visit ⟨path, deadline, ⟨cache, preference, world⟩⟩ (.done _)
  | resolve files preference deadline =>
      cases starts : engine.holdingsFor files preference cache world with
      | error fault =>
          simp only [serve, visitsOf, starts]
          exact .done _
      | ok holdings =>
          simp only [serve, visitsOf, starts, ← record_of_holdingsFor starts]
          exact leads_visitsWith engine files deadline holdings

theorem leads_visits (engine : Engine T) (history : List (Call T))
    (cache : ContentCache (FetchError T)) (world : World T) :
    Leads engine ⟨cache, world.past⟩ (engine.visits history cache world)
      ⟨(engine.serveAll history cache world).1, (engine.serveAll history cache world).2.past⟩ := by
  induction history generalizing cache world with
  | nil => exact .done _
  | cons call rest induction =>
      exact (leads_visitsOf engine call cache world).trans (induction _ _)

theorem Leads.preserves {motive : Record T → Prop}
    (step : ∀ visit : Visit T, motive visit.holdings.record → motive (visit.after engine).record)
    {first last : Record T} {visits : List (Visit T)} (leads : Leads engine first visits last)
    (initially : motive first) :
    (∀ visit ∈ visits, motive visit.holdings.record ∧ motive (visit.after engine).record) ∧
      motive last := by
  induction leads with
  | done _ => exact ⟨fun _ made => absurd made List.not_mem_nil, initially⟩
  | visit visit later induction =>
      have kept := step visit initially
      rcases induction kept with ⟨throughout, atEnd⟩
      refine ⟨fun other made => ?_, atEnd⟩
      rcases List.mem_cons.1 made with now | inRest
      · exact now ▸ ⟨initially, kept⟩
      · exact throughout other inRest

/-- Whatever relates what every visit finds to what it leaves relates what a visit leaves to what
every later visit finds, and to the end. -/
theorem Leads.related {related : Record T → Record T → Prop}
    (refl : ∀ record, related record record)
    (trans : ∀ {first second third}, related first second → related second third →
      related first third)
    (step : ∀ visit : Visit T, related visit.holdings.record (visit.after engine).record)
    {first last : Record T} {visits : List (Visit T)} (leads : Leads engine first visits last) :
    visits.Pairwise (fun earlier later =>
        related (earlier.after engine).record later.holdings.record) ∧
      (∀ visit ∈ visits, related first visit.holdings.record) ∧
      (∀ visit ∈ visits, related (visit.after engine).record last) ∧ related first last := by
  induction leads with
  | done record =>
      exact ⟨.nil, fun _ made => absurd made List.not_mem_nil,
        fun _ made => absurd made List.not_mem_nil, refl record⟩
  | visit visit later induction =>
      rcases induction with ⟨pairwise, fromStart, toEnd, whole⟩
      refine ⟨.cons fromStart pairwise, fun other made => ?_, fun other made => ?_,
        trans (step visit) whole⟩
      · rcases List.mem_cons.1 made with now | inRest
        · exact now ▸ refl _
        · exact trans (step visit) (fromStart other inRest)
      · rcases List.mem_cons.1 made with now | inRest
        · exact now ▸ whole
        · exact toEnd other inRest

end Engine

end SourceTree
