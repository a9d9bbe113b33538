import SourceTree.Proofs.Engine.Lockstep

/-! # Resolutions in lockstep

A resolution may ask for its batches in another way than the engine does. As long as it is told the
same, it reports the same, but for the versions in use: these are what it prefers at the end. -/

namespace SourceTree.Engine

open Resolution

variable {T : Type} [Timescale T]

def courseVia (engine : Engine T) (ask : Option T → Asking T) (files : Listing String String)
    (deadline : Option T) (holdings : Holdings T) : Course T :=
  let limit := engine.deadlineFrom deadline holdings.world.now
  engine.drainVia (ask limit) files limit engine.maxIterations.toNat engine.maxIterations.toNat
    (openPass (Seeds.ofFiles files) holdings)

def resolveVia (engine : Engine T) (ask : Option T → Asking T) (files : Listing String String)
    (deadline : Option T) (holdings : Holdings T) : Except (Fault T) Resolution × Holdings T :=
  let seeds := Seeds.ofFiles files
  if engine.maxImports < seeds.discovered.length then
    (.error (.known (.inputTooLarge .imports engine.maxImports seeds.discovered.length)), holdings)
  else
    let course := engine.courseVia ask files deadline holdings
    let outcome : Except (Fault T) Resolution :=
      match course.exit with
      | .timedOut after unresolved => .error (.known (.resolutionTimeout after unresolved))
      | .broken fault => .error (.unexpected fault)
      | settled =>
          .ok (ofPass engine.registry files seeds.locals.ambiguous settled course.last)
    (outcome, course.last.holdings)

def ownWay (engine : Engine T) (deadline : Option T) : Asking T :=
  engine.fetchBatch (1 < engine.maxWorkers) deadline

theorem told_courseVia_ownWay (engine : Engine T) (files : Listing String String)
    (deadline : Option T) (holdings : Holdings T) :
    (engine.courseVia engine.ownWay files deadline holdings).told
        (engine.ownWay (engine.deadlineFrom deadline holdings.world.now)) =
      engine.drainSeedsLog files deadline holdings :=
  drainVia_fetchBatch engine (1 < engine.maxWorkers) files _ _ _ _

theorem resolveVia_ownWay (engine : Engine T) (files : Listing String String)
    (deadline : Option T) (holdings : Holdings T) :
    engine.resolveVia engine.ownWay files deadline holdings =
      engine.resolveWith files deadline holdings := by
  have drained := drainSeedsLog_eq engine files deadline holdings
  rw [← told_courseVia_ownWay] at drained
  unfold drainSeeds at drained
  simp only [Course.told] at drained
  simp only [resolveVia, resolveWith]
  generalize engine.drain (1 < engine.maxWorkers) files _ _ = result at drained ⊢
  subst drained
  rfl

variable {engine : Engine T} {ask again : Option T → Asking T} {files : Listing String String}

theorem resolveVia_eq_ok {deadline : Option T} {holdings : Holdings T} {resolution : Resolution}
    (resolved : (engine.resolveVia ask files deadline holdings).1 = .ok resolution) :
    ¬engine.maxImports < (Seeds.ofFiles files).discovered.length ∧
      (engine.courseVia ask files deadline holdings).exit.Completes ∧
      resolution = ofPass engine.registry files (Seeds.ofFiles files).locals.ambiguous
        (engine.courseVia ask files deadline holdings).exit
        (engine.courseVia ask files deadline holdings).last := by
  unfold resolveVia at resolved
  simp only at resolved
  split at resolved
  next => cases resolved
  next allowed =>
    generalize engine.courseVia ask files deadline holdings = course at resolved ⊢
    rcases course with ⟨demands, exit, last⟩
    cases exit <;> cases resolved <;> exact ⟨allowed, trivial, rfl⟩

theorem resolveVia_of_completes {deadline : Option T} {holdings : Holdings T}
    (allowed : ¬engine.maxImports < (Seeds.ofFiles files).discovered.length)
    (completes : (engine.courseVia ask files deadline holdings).exit.Completes) :
    engine.resolveVia ask files deadline holdings =
      (.ok (ofPass engine.registry files (Seeds.ofFiles files).locals.ambiguous
          (engine.courseVia ask files deadline holdings).exit
          (engine.courseVia ask files deadline holdings).last),
        (engine.courseVia ask files deadline holdings).last.holdings) := by
  unfold resolveVia
  simp only [if_neg allowed]
  generalize engine.courseVia ask files deadline holdings = course at completes ⊢
  rcases course with ⟨demands, exit, last⟩
  cases exit with
  | finished => rfl
  | ceiling limit remaining => rfl
  | timedOut after unresolved => exact completes.elim
  | broken fault => exact completes.elim

/-- Two resolutions of the same files report the same, but for the versions in use, if their drains
go in lockstep. -/
theorem resolveVia_lockstep (related : Holdings T → Holdings T → Prop) {deadline later : Option T}
    {holdings second : Holdings T} {resolution : Resolution}
    (inTime : ∀ {left right : Holdings T}, related left right →
      FetchPolicy.isReached (engine.deadlineFrom deadline holdings.world.now) left.world.now =
          false →
        FetchPolicy.isReached (engine.deadlineFrom later second.world.now) right.world.now = false)
    (initially : related holdings second)
    (resolved : (engine.resolveVia ask files deadline holdings).1 = .ok resolution)
    (step : ∀ demand ∈ (engine.courseVia ask files deadline holdings).demands, ∀ other,
      related demand.holdings other →
        unsettled (ask (engine.deadlineFrom deadline holdings.world.now)
          demand.paths demand.holdings).1 = [] →
          (again (engine.deadlineFrom later second.world.now) demand.paths other).1 =
              (ask (engine.deadlineFrom deadline holdings.world.now) demand.paths
                demand.holdings).1 ∧
            related
              (ask (engine.deadlineFrom deadline holdings.world.now) demand.paths
                demand.holdings).2
              (again (engine.deadlineFrom later second.world.now) demand.paths other).2) :
    ∃ paths last, related (engine.resolveVia ask files deadline holdings).2 last ∧
      resolution.versions = versionsUsed engine.registry
        (engine.resolveVia ask files deadline holdings).2.preference paths ∧
      engine.resolveVia again files later second =
        (.ok { resolution with
            versions := versionsUsed engine.registry last.preference paths }, last) := by
  rcases resolveVia_eq_ok resolved with ⟨allowed, completes, rfl⟩
  rcases drainVia_lockstep related inTime _ _ initially completes step with
    ⟨last, relatedLast, sameExit, sameLast⟩
  have sameExit : (engine.courseVia again files later second).exit =
    (engine.courseVia ask files deadline holdings).exit := sameExit
  have sameLast : (engine.courseVia again files later second).last =
    { (engine.courseVia ask files deadline holdings).last with holdings := last } := sameLast
  have completesToo : (engine.courseVia again files later second).exit.Completes :=
    sameExit ▸ completes
  rw [resolveVia_of_completes allowed completes, resolveVia_of_completes allowed completesToo,
    sameExit, sameLast]
  exact ⟨_, last, relatedLast, rfl, rfl⟩

end SourceTree.Engine
