import SourceTree.Proofs.Compilation.Requests
import SourceTree.Proofs.Resolution.Closure
import SourceTree.Response

/-! # Answers

A request that can be handled is answered, with a success exactly if there is a compilation, and
otherwise with the status of the fault that ended it. Only a compilation with a part that is nested
too deep to be sent stays without an answer. -/

namespace SourceTree

variable {T σ : Type}

def Timescale.Subtractive (T : Type) [Timescale T] : Prop :=
  ∀ moment limit : T, ¬limit - moment ≤ 0 → moment < limit

/-! ## Refusals -/

def Fault.statusCode : Fault T → Int
  | .known failure => failure.statusCode
  | _ => 500

def Fault.IsDeclared : Fault T → Prop
  | .known failure => ∀ diagnostic ∈ failure.errors ++ failure.warnings, diagnostic.isRecord
  | _ => True

def SourceCompiler.RaisesDeclared (compiler : SourceCompiler T σ) : Prop :=
  ∀ job state world fault, (compiler.compile job state world).outcome = .error fault →
    fault.IsDeclared

theorem Failure.statusCode_ne_success (failure : Failure T) : failure.statusCode ≠ 200 := by
  cases failure with
  | fetch error => cases error <;> simp [statusCode, FetchError.statusCode]
  | _ => simp [statusCode]

theorem Fault.statusCode_ne_success (fault : Fault T) : fault.statusCode ≠ 200 := by
  cases fault with
  | known failure => exact failure.statusCode_ne_success
  | _ => simp [statusCode]

variable [Timescale T]

theorem Fault.statusCode_refusal (fault : Fault T) :
    fault.refusal.statusCode = fault.statusCode := by
  cases fault <;> rfl

theorem items_table_of_records {values : List Value} (records : ∀ value ∈ values, value.isRecord)
    (index : Nat) : ∃ read, Reading.items Shape.table index values = .accepted read := by
  induction values generalizing index with
  | nil => exact ⟨[], rfl⟩
  | cons first rest induction =>
      rcases List.forall_mem_cons.1 records with ⟨isRecord, others⟩
      rcases Value.isRecord_iff.1 isRecord with ⟨fields, rfl⟩
      rcases induction others (index + 1) with ⟨read, isRead⟩
      exact ⟨.record fields :: read, by rw [Reading.items, isRead]; rfl⟩

theorem Refusal.body_of_records {refusal : Refusal}
    (records : ∀ diagnostic ∈ refusal.errors ++ refusal.warnings, diagnostic.isRecord) :
    refusal.body = .ok refusal.toValue := by
  rcases List.forall_mem_append.1 records with ⟨errors, warnings⟩
  rcases items_table_of_records errors 0 with ⟨_, readErrors⟩
  rcases items_table_of_records warnings 0 with ⟨_, readWarnings⟩
  have noIssues : refusal.issues = [] := by
    simp only [Refusal.issues, Shape.interface, Shape.listOf, readErrors, readWarnings,
      Reading.within]
    rfl
  rw [Refusal.body, noIssues]
  rfl

theorem Fault.isDeclared_iff {fault : Fault T} : fault.IsDeclared ↔
    ∀ diagnostic ∈ fault.refusal.errors ++ fault.refusal.warnings, diagnostic.isRecord := by
  cases fault <;> simp [IsDeclared, refusal]

/-! ## Faults of a compilation -/

omit [Timescale T] in
theorem Fault.isDeclared_of_plain {failure : Failure T} (noErrors : failure.errors = [])
    (noWarnings : failure.warnings = []) : (Fault.known failure).IsDeclared := by
  rw [IsDeclared, noErrors, noWarnings]
  exact List.forall_mem_nil _

namespace Compilation

theorem isDeclared_of_ofOutput {mainFile : String} {resolution : Resolution} {output : Value}
    {compilationTime totalTime : T} {fault : Fault T}
    (failed : ofOutput mainFile resolution output compilationTime totalTime = .error fault) :
    fault.IsDeclared := by
  rcases ofOutput_eq_error failed with
    ⟨cause, rfl⟩ | ⟨reason, errors, warnings, unresolved, rfl, records⟩
  · trivial
  · exact records

end Compilation

namespace Service

variable {service : Service T σ}

omit [Timescale T] in
theorem isDeclared_of_check {settings : Settings T} {files main : Value} {fault : Fault T}
    (refused : SourceRequest.check settings files main = .error fault) : fault.IsDeclared := by
  rcases SourceRequest.isRefusal_or_isCompound refused with isRefusal | ⟨-, rfl⟩
  · cases isRefusal with
    | invalidInput reason => exact Fault.isDeclared_of_plain rfl rfl
    | inputTooLarge excess exceeds => exact Fault.isDeclared_of_plain rfl rfl
  · trivial

theorem isDeclared_of_resolution {engine : Engine T} {files : Listing String String}
    {deadline : Option T} {cache : ContentCache (FetchError T)} {world : World T} {fault : Fault T}
    (failed : (engine.resolve files deadline cache world).1 = .error fault) :
    fault.IsDeclared := by
  rcases Engine.resolve_eq_error failed with ⟨cause, rfl⟩ | ⟨actual, rfl⟩ | ⟨after, unresolved, rfl⟩
  · trivial
  · exact Fault.isDeclared_of_plain rfl rfl
  · exact Fault.isDeclared_of_plain rfl rfl

theorem isDeclared_of_runCompiler (declared : service.compiler.RaisesDeclared) {job : CompilerJob T}
    {deadline : T} {state : ServiceState T σ} {fault : Fault T}
    (failed : (service.runCompiler job deadline state).1 = .error fault) : fault.IsDeclared := by
  simp only [runCompiler] at failed
  split at failed
  · cases failed
    exact Fault.isDeclared_of_plain rfl rfl
  · rcases verdict_eq_error failed with rfl | raised
    · exact Fault.isDeclared_of_plain rfl rfl
    · exact declared _ _ _ _ raised

theorem isDeclared_of_resolve {files main : Value} {deadline : Option T}
    {state after : ServiceState T σ} {fault : Fault T}
    (failed : service.resolve files main deadline state = (.error fault, after)) :
    fault.IsDeclared := by
  simp only [resolve] at failed
  split at failed
  next refused =>
    cases failed
    exact isDeclared_of_check refused
  next => exact isDeclared_of_resolution (map_eq_error_iff.1 (Prod.ext_iff.1 failed).1)

/-- A compilation ends with a fault as declared, if the compiler raises no others. -/
theorem isDeclared_of_compile (declared : service.compiler.RaisesDeclared) {files main : Value}
    {state : ServiceState T σ} {fault : Fault T}
    (failed : (service.compile files main state).1 = .error fault) : fault.IsDeclared := by
  simp only [compile] at failed
  split at failed
  next resolves =>
    cases failed
    exact isDeclared_of_resolve resolves
  next =>
    split at failed
    next runs =>
      cases failed
      exact isDeclared_of_runCompiler declared (congrArg Prod.fst runs)
    next => exact Compilation.isDeclared_of_ofOutput failed

/-! ## Answers -/

/-- What an answer with the status of a success stands for: a compilation that went through all
stages, and a body that tells what the output of the compiler and the resolution hold. -/
structure Success (service : Service T σ) (files main : Value) (state : ServiceState T σ)
    (body : Value) where
  compilation : Compilation T
  compiled : (service.compile files main state).1 = .ok compilation
  stages : service.Stages files main state compilation
  reading : compilation.ReadOff stages.request.mainFile stages.output
  early : Timescale.Subtractive T → stages.world.now < service.deadline state
  contractName : body.field? "contract_name" = some (.text compilation.contractName)
  code : String
  isCode : reading.data.at? ["evm", "bytecode", "object"] = some (.text code)
  bytecode : body.field? "bytecode" = some (.text (Bytecode.marked code))
  warnings : body.field? "warnings" = some (.list
    (((Diagnostics.listedIn stages.output).filter (Diagnostics.isOf "warning")).map Value.finite))
  unresolved : body.field? "unresolved_imports" =
    some (.list (stages.resolution.unresolved.map .text))

/-- What an answer with another status stands for: the fault that ended the request has it, and the
body names it. -/
def Refuses (service : Service T σ) (files main : Value) (state : ServiceState T σ) (status : Int)
    (body : Value) : Prop :=
  (∃ fault, (service.compile files main state).1 = .error fault ∧ fault.statusCode = status) ∧
    body.field? "status_code" = some (.int status)

def filesOf (payload : Value) : Value :=
  (payload.field? "files").getD .null

/-- Whether a payload is answered, and the answer has the status of a success exactly if it stands
for one. -/
def AnswersTruly (service : Service T σ) (payload : Value) (state : ServiceState T σ) : Prop :=
  ∃ status body, (service.answer payload state).1 = .ok (status, body) ∧
    if status = 200 then
      Nonempty (service.Success (filesOf payload) (mainFileOf payload) state body)
    else service.Refuses (filesOf payload) (mainFileOf payload) state status body

theorem answer_of_compiled {payload : Value} (isRecord : payload.isRecord)
    {state : ServiceState T σ} {compilation : Compilation T}
    (compiled : (service.compile (filesOf payload) (mainFileOf payload) state).1 =
      .ok compilation) :
    (service.answer payload state).1 = compilation.body.map fun body => (200, body) := by
  simp only [answer, if_pos isRecord, handle]
  rw [← filesOf]
  generalize service.compile (filesOf payload) (mainFileOf payload) state = result at compiled ⊢
  rcases result with ⟨outcome, after⟩
  cases compiled
  rfl

theorem answer_of_failed {payload : Value} (isRecord : payload.isRecord)
    {state : ServiceState T σ} {fault : Fault T}
    (failed : (service.compile (filesOf payload) (mainFileOf payload) state).1 = .error fault) :
    (service.answer payload state).1 =
      fault.refusal.body.map fun body => (fault.statusCode, body) := by
  simp only [answer, if_pos isRecord, handle]
  rw [← filesOf]
  generalize service.compile (filesOf payload) (mainFileOf payload) state = result at failed ⊢
  rcases result with ⟨outcome, after⟩
  cases failed
  rw [← fault.statusCode_refusal]
  rfl

theorem field?_toValue (compilation : Compilation T) :
    compilation.toValue.field? "contract_name" = some (.text compilation.contractName) ∧
      compilation.toValue.field? "bytecode" = some (.text compilation.bytecode) ∧
      compilation.toValue.field? "warnings" =
        some (.list (compilation.warnings.map Value.finite)) ∧
      compilation.toValue.field? "unresolved_imports" =
        some (.list (compilation.unresolved.map .text)) := by
  simp [Compilation.toValue, Value.finite, Value.finiteFields, Value.field?, Value.fieldIn?,
    Value.finiteItems_eq_map]

theorem success_of_compiled {files main : Value} {state : ServiceState T σ}
    {compilation : Compilation T}
    (compiled : (service.compile files main state).1 = .ok compilation) :
    Nonempty (service.Success files main state compilation.toValue) := by
  rcases stages_of_compile (Prod.ext compiled rfl) with ⟨stages, -⟩
  rcases Compilation.ofOutput_eq_ok stages.described with ⟨⟨reading⟩, unresolved⟩
  rcases ContractEntry.code_eq_ok_iff.1 (ContractEntry.code_of_compiled reading.compiled) with
    ⟨code, isCode, marked⟩
  have marked : Bytecode.marked code = compilation.bytecode := marked
  rcases field?_toValue compilation with ⟨name, bytecode, warnings, leftOpen⟩
  rw [← marked] at bytecode
  rw [reading.warnings] at warnings
  rw [unresolved] at leftOpen
  exact ⟨compilation, compiled, stages, reading, fun law => law _ _ stages.early, name, code,
    isCode, bytecode, warnings, leftOpen⟩

/-- A request for a compilation is answered truly exactly if every part of the compilation that is
passed on can be sent; all others are answered truly. -/
theorem answersTruly_iff (declared : service.compiler.RaisesDeclared) {payload : Value}
    (isRecord : payload.isRecord) (state : ServiceState T σ) :
    service.AnswersTruly payload state ↔
      ∀ compilation, (service.compile (filesOf payload) (mainFileOf payload) state).1 =
          .ok compilation →
        ∀ passed ∈ compilation.passedOn, passed.nesting ≤ maxSentNesting := by
  cases ended : (service.compile (filesOf payload) (mainFileOf payload) state).1 with
  | error fault =>
      -- Whatever ended the request, its diagnostics are records, and nothing else can be wrong.
      refine iff_of_true ?_ nofun
      have sent := Refusal.body_of_records
        (Fault.isDeclared_iff.1 (isDeclared_of_compile declared ended))
      refine ⟨fault.statusCode, fault.refusal.toValue, ?_, ?_⟩
      · rw [answer_of_failed isRecord ended, sent]
        rfl
      · rw [if_neg fault.statusCode_ne_success]
        refine ⟨⟨fault, ended, rfl⟩, ?_⟩
        rw [← fault.statusCode_refusal]
        rfl
  | ok compilation =>
      have answered := answer_of_compiled isRecord ended
      simp only [Except.ok.injEq, forall_eq']
      constructor
      · rintro ⟨status, body, isAnswer, -⟩
        rw [answered] at isAnswer
        rcases map_eq_ok_iff.1 isAnswer with ⟨_, isBody, -⟩
        rw [Compilation.body] at isBody
        split at isBody
        next sendable => simpa using sendable
        next => cases isBody
      · intro sendable
        refine ⟨200, compilation.toValue, ?_, ?_⟩
        · rw [answered, Compilation.body, if_pos (by simpa using sendable)]
          rfl
        · rw [if_pos rfl]
          exact success_of_compiled ended

def wrapped : Nat → Value
  | 0 => .text ""
  | levels + 1 => .record [("inner", wrapped levels)]

def warned (levels : Nat) : Value :=
  .record [
    ("errors", .list [.record [("severity", .text "warning"), ("detail", wrapped levels)]]),
    ("contracts", .record [("main.sol", .record [("Token", plainContract "60")])])]

def loneRequest : Value :=
  .record [("files", .record [("main.sol", .text "contract Token {}")]),
    ("mainFile", .text "main.sol")]

theorem raisesDeclared_giving (output : Value) : (SourceCompiler.giving output).RaisesDeclared :=
  nofun

theorem subtractive_rat : Timescale.Subtractive Rat :=
  fun moment limit left => (Rat.lt_iff_sub_pos moment limit).2 (Rat.not_le.1 left)

theorem answersTruly_of_shallow_warning :
    Timescale.Subtractive Rat ∧ (giving (warned 1)).compiler.RaisesDeclared ∧
    loneRequest.isRecord ∧
    (∃ compilation, ((giving (warned 1)).compile (filesOf loneRequest) (mainFileOf loneRequest)
      fresh).1 = .ok compilation ∧ compilation.warnings.length = 1) ∧
    (giving (warned 1)).AnswersTruly loneRequest fresh := by
  have report : ((giving (warned 1)).compile (filesOf loneRequest) (mainFileOf loneRequest)
      fresh).1.toOption.map (fun compilation => (compilation.warnings.length,
        compilation.passedOn.all fun passed => passed.nesting ≤ maxSentNesting)) =
      some (1, true) := by
    decide +kernel
  rcases Engine.exists_of_toOption_map report with ⟨compilation, compiled, parts⟩
  rcases Prod.mk.inj parts with ⟨length, sendable⟩
  refine ⟨subtractive_rat, raisesDeclared_giving _, rfl, ⟨compilation, compiled, length⟩,
    (answersTruly_iff (raisesDeclared_giving _) rfl fresh).2 ?_⟩
  rintro other isOther
  cases compiled.symm.trans isOther
  simpa using sendable

/-- A warning that is nested too deep leaves a request without an answer. -/
theorem not_answersTruly_of_deep_warning :
    ¬(giving (warned 255)).AnswersTruly loneRequest fresh := by
  have unanswered : ((giving (warned 255)).answer loneRequest fresh).1.toOption.isNone = true := by
    decide +kernel
  rintro ⟨status, body, isAnswer, -⟩
  rw [isAnswer] at unanswered
  cases unanswered

end Service

end SourceTree
