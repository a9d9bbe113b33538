import SourceTree.Proofs.Compilation.Requests
import SourceTree.Proofs.Resolution.Closure

/-! # Timeouts of compilations

A request whose time is up before its compiler starts, or before it is done, ends with a timeout of
its compilation, and so does no other, whatever goes wrong with it: except that a compiler which in
time reports a timeout of its own cannot be told from one that takes too long. -/

namespace SourceTree

variable {T σ : Type}

def Fault.IsCompilationTimeout (fault : Fault T) : Prop :=
  ∃ limit, fault = .known (.compilationTimeout limit)

/-- The faults that a compiler can take for its own and that pass for a compilation which took too
long. -/
inductive Fault.PassesForTimeout : Fault T → Prop
  | general (text : String) : PassesForTimeout (.unexpected (.timeout text))
  | compilation (limit : T) : PassesForTimeout (.known (.compilationTimeout limit))

variable [Timescale T]

/-! ## Faults of the other stages -/

namespace Compilation

theorem not_isCompilationTimeout_of_ofOutput {mainFile : String} {resolution : Resolution}
    {output : Value} {compilationTime totalTime : T} {fault : Fault T}
    (failed : ofOutput mainFile resolution output compilationTime totalTime = .error fault) :
    ¬fault.IsCompilationTimeout := by
  rcases ofOutput_eq_error failed with ⟨cause, rfl⟩ | ⟨reason, errors, warnings, unresolved, rfl, -⟩
  · simp [Fault.IsCompilationTimeout]
  · simp [Fault.IsCompilationTimeout]

end Compilation

namespace Service

variable {service : Service T σ} {files main : Value} {state : ServiceState T σ}

theorem not_isCompilationTimeout_of_resolve {deadline : Option T} {fault : Fault T}
    (failed : (service.resolve files main deadline state).1 = .error fault) :
    ¬fault.IsCompilationTimeout := by
  simp only [resolve] at failed
  split at failed
  next refused =>
    cases failed
    cases SourceRequest.isRefusal_or_isCompound refused with
    | inl isRefusal => cases isRefusal <;> simp [Fault.IsCompilationTimeout]
    | inr isCompound =>
        rcases isCompound with ⟨-, rfl⟩
        simp [Fault.IsCompilationTimeout]
  next =>
    rcases Engine.resolve_eq_error (map_eq_error_iff.1 failed) with
      ⟨cause, rfl⟩ | ⟨actual, rfl⟩ | ⟨after, unresolved, rfl⟩ <;>
      simp [Fault.IsCompilationTimeout]

/-! ## Requests that get as far as the compiler -/

def timedOut (service : Service T σ) : Fault T :=
  .known (.compilationTimeout service.settings.compileTimeout)

structure Resolved (service : Service T σ) (files main : Value) (state : ServiceState T σ) where
  request : SourceRequest
  resolution : Resolution
  start : ServiceState T σ
  resolves : service.resolve files main (some (service.deadline state)) state =
    (.ok (request, resolution), start)

namespace Resolved

def remaining (resolved : service.Resolved files main state) : T :=
  service.deadline state - resolved.start.world.now

def run (resolved : service.Resolved files main state) : CompilerRun T σ :=
  service.compiler.compile
    (service.jobFor resolved.request resolved.resolution resolved.start.cache)
    resolved.start.compilerState resolved.start.world

/-- Whether no time is left for the compiler, or it is not done when the time runs out. -/
def IsLate (resolved : service.Resolved files main state) : Prop :=
  resolved.remaining ≤ 0 ∨
    ∀ waiting, resolved.run.waiting = some waiting → resolved.remaining < waiting

theorem unique (resolved other : service.Resolved files main state) : other = resolved := by
  rcases resolved with ⟨request, resolution, start, resolves⟩
  rcases other with ⟨otherRequest, otherResolution, otherStart, otherResolves⟩
  cases resolves.symm.trans otherResolves
  rfl

theorem exists_of_resolve
    (succeeds :
      (service.resolve files main (some (service.deadline state)) state).1.toOption.isSome) :
    Nonempty (service.Resolved files main state) := by
  generalize same : service.resolve files main (some (service.deadline state)) state = result
    at succeeds
  rcases result with ⟨outcome, start⟩
  cases outcome with
  | error fault => cases succeeds
  | ok pair => exact ⟨⟨pair.1, pair.2, start, same⟩⟩

def verdict (resolved : service.Resolved files main state) : Except (Fault T) Value :=
  if resolved.remaining ≤ 0 then .error service.timedOut
  else service.verdict resolved.remaining resolved.run

theorem compile_eq (resolved : service.Resolved files main state) :
    ∃ compilationTime totalTime, (service.compile files main state).1 =
      resolved.verdict.bind fun output =>
        Compilation.ofOutput resolved.request.mainFile resolved.resolution output
          compilationTime totalTime := by
  rcases resolved with ⟨request, resolution, start, resolves⟩
  have verdictOfRun : (service.runCompiler (service.jobFor request resolution start.cache)
      (service.deadline state) start).1 = verdict ⟨request, resolution, start, resolves⟩ := by
    rw [runCompiler, verdict]
    exact apply_ite Prod.fst _ _ _
  simp only [compile]
  rw [← deadline, resolves]
  simp only
  rw [← jobFor, ← verdictOfRun]
  generalize service.runCompiler (service.jobFor request resolution start.cache)
    (service.deadline state) start = compiled
  rcases compiled with ⟨outcome, after⟩
  exact ⟨after.world.now - start.world.now, after.world.now - state.world.now,
    by cases outcome <;> rfl⟩

theorem verdict_of_isLate {resolved : service.Resolved files main state}
    (late : resolved.IsLate) : resolved.verdict = .error service.timedOut := by
  rw [verdict]
  split
  next => rfl
  next left =>
    have tooLong := late.resolve_left left
    simp only [Service.verdict]
    split
    next => rfl
    next waiting waited => exact if_pos (tooLong waiting waited)

theorem verdict_of_inTime {resolved : service.Resolved files main state}
    (inTime : ¬resolved.IsLate) : resolved.verdict =
      match resolved.run.outcome with
      | .error (.unexpected (.timeout _)) => .error service.timedOut
      | outcome => outcome := by
  rw [IsLate, not_or, not_forall] at inTime
  rcases inTime with ⟨left, waiting, ends⟩
  rw [Classical.not_imp] at ends
  rcases ends with ⟨waited, notLonger⟩
  rw [verdict, if_neg left]
  simp only [Service.verdict, waited]
  exact if_neg notLonger

end Resolved

/-! ## When a timeout is reported -/

/-- Whether a request ends with a timeout of its compilation exactly if its time is up after it was
resolved, and a compiler that fails in time is heard. -/
structure ReportsTimeouts (service : Service T σ) (files main : Value)
    (state : ServiceState T σ) : Prop where
  timeout : (∃ fault, (service.compile files main state).1 = .error fault ∧
      fault.IsCompilationTimeout) ↔
    ∃ resolved : service.Resolved files main state, resolved.IsLate
  raised : ∀ (resolved : service.Resolved files main state) (fault : Fault T), ¬resolved.IsLate →
    resolved.run.outcome = .error fault → (service.compile files main state).1 = .error fault

theorem compile_of_isLate {resolved : service.Resolved files main state}
    (late : resolved.IsLate) :
    (service.compile files main state).1 = .error (service.timedOut) := by
  rcases resolved.compile_eq with ⟨compilationTime, totalTime, compiles⟩
  rw [compiles, Resolved.verdict_of_isLate late]
  rfl

theorem compile_of_raised {resolved : service.Resolved files main state}
    (inTime : ¬resolved.IsLate) {fault : Fault T} (raised : resolved.run.outcome = .error fault)
    (other : ¬fault.PassesForTimeout) : (service.compile files main state).1 = .error fault := by
  rcases resolved.compile_eq with ⟨compilationTime, totalTime, compiles⟩
  rw [compiles, Resolved.verdict_of_inTime inTime, raised]
  split
  next text isTimeout =>
    cases isTimeout
    exact absurd (.general text) other
  next => rfl

theorem compile_of_passesForTimeout {resolved : service.Resolved files main state}
    (inTime : ¬resolved.IsLate) {fault : Fault T} (raised : resolved.run.outcome = .error fault)
    (passes : fault.PassesForTimeout) : ∃ told, (service.compile files main state).1 = .error told ∧
      told.IsCompilationTimeout := by
  rcases resolved.compile_eq with ⟨compilationTime, totalTime, compiles⟩
  rw [compiles, Resolved.verdict_of_inTime inTime, raised]
  cases passes with
  | general text => exact ⟨_, rfl, _, rfl⟩
  | compilation limit => exact ⟨_, rfl, _, rfl⟩

theorem not_isCompilationTimeout_of_output {resolved : service.Resolved files main state}
    (inTime : ¬resolved.IsLate) {output : Value} (ended : resolved.run.outcome = .ok output)
    {fault : Fault T} (failed : (service.compile files main state).1 = .error fault) :
    ¬fault.IsCompilationTimeout := by
  rcases resolved.compile_eq with ⟨compilationTime, totalTime, compiles⟩
  rw [compiles, Resolved.verdict_of_inTime inTime, ended] at failed
  exact Compilation.not_isCompilationTimeout_of_ofOutput failed

theorem isLate_or_passesForTimeout {fault : Fault T}
    (failed : (service.compile files main state).1 = .error fault)
    (isTimeout : fault.IsCompilationTimeout) :
    ∃ resolved : service.Resolved files main state, resolved.IsLate ∨
      ∃ raised, resolved.run.outcome = .error raised ∧ raised.PassesForTimeout := by
  cases same : service.resolve files main (some (service.deadline state)) state with
  | mk outcome start =>
      cases outcome with
      | error refusal =>
          have ended : (service.compile files main state).1 = .error refusal := by
            simp only [compile]
            rw [← deadline, same]
          cases ended.symm.trans failed
          exact absurd isTimeout (not_isCompilationTimeout_of_resolve (congrArg Prod.fst same))
      | ok pair =>
          let resolved : service.Resolved files main state := ⟨pair.1, pair.2, start, same⟩
          refine ⟨resolved, ?_⟩
          by_cases late : resolved.IsLate
          · exact .inl late
          · right
            cases ended : resolved.run.outcome with
            | ok output =>
                exact absurd isTimeout (not_isCompilationTimeout_of_output late ended failed)
            | error raised =>
                refine ⟨raised, rfl, ?_⟩
                by_contra other
                cases (compile_of_raised late ended other).symm.trans failed
                rcases isTimeout with ⟨limit, rfl⟩
                exact other (.compilation limit)

/-- Timeouts are reported as they should be exactly if no compiler that is done in time reports a
timeout itself. -/
theorem reportsTimeouts_iff (service : Service T σ) (files main : Value)
    (state : ServiceState T σ) :
    service.ReportsTimeouts files main state ↔
      ∀ (resolved : service.Resolved files main state) (fault : Fault T), ¬resolved.IsLate →
        resolved.run.outcome = .error fault → ¬fault.PassesForTimeout := by
  constructor
  · intro reports resolved fault inTime raised passes
    have told := compile_of_passesForTimeout inTime raised passes
    rcases reports.timeout.1 told with ⟨other, late⟩
    rw [resolved.unique other] at late
    exact inTime late
  · intro silent
    refine ⟨⟨?_, ?_⟩, ?_⟩
    · rintro ⟨fault, failed, isTimeout⟩
      rcases isLate_or_passesForTimeout failed isTimeout with ⟨resolved, either⟩
      refine ⟨resolved, ?_⟩
      by_contra inTime
      rcases either.resolve_left inTime with ⟨raised, ended, passes⟩
      exact silent resolved raised inTime ended passes
    · rintro ⟨resolved, late⟩
      exact ⟨_, compile_of_isLate late, _, rfl⟩
    · intro resolved fault inTime raised
      exact compile_of_raised inTime raised (silent resolved fault inTime raised)

def givingUp : Service Rat Unit :=
  ⟨usualSettings, Pattern.search, .serving .empty,
    ⟨fun _ state world => ⟨some 0, .error (.unexpected (.timeout "no answer")), state, world⟩⟩⟩

/-- A compiler that gives up in time is taken for one that took too long. -/
theorem not_reportsTimeouts_of_givingUp :
    ¬givingUp.ReportsTimeouts (.record [("main.sol", .text "contract Token {}")])
      (.text "main.sol") fresh := by
  intro reports
  have resolves : (givingUp.resolve (.record [("main.sol", .text "contract Token {}")])
      (.text "main.sol") (some (givingUp.deadline fresh)) fresh).1.toOption.isSome ∧
      (givingUp.resolve (.record [("main.sol", .text "contract Token {}")])
        (.text "main.sol") (some (givingUp.deadline fresh)) fresh).2.world.now = 0 := by
    decide +kernel
  rcases resolves with ⟨succeeds, instant⟩
  rcases Resolved.exists_of_resolve succeeds with ⟨resolved⟩
  have instant : resolved.start.world.now = 0 :=
    (congrArg (fun result => result.2.world.now) resolved.resolves).symm.trans instant
  have inTime : ¬resolved.IsLate := by
    rw [Resolved.IsLate, Resolved.remaining, instant]
    rintro (noTime | tooLong)
    · exact absurd noTime (by decide +kernel)
    · exact absurd (tooLong 0 rfl) (by decide +kernel)
  have heard := reports.raised resolved _ inTime rfl
  rcases compile_of_passesForTimeout inTime rfl (.general "no answer") with
    ⟨told, failed, isTimeout⟩
  cases heard.symm.trans failed
  rcases isTimeout with ⟨limit, isLimit⟩
  cases isLimit

end Service

end SourceTree
