import SourceTree.Compilation
import SourceTree.Proofs.Value

/-! # What a compilation is read off

A compilation is read off the output of a compiler in many steps, each of which may fail. What an
output holds from which a compilation was read is said here once. -/

namespace SourceTree

/-! ## Diagnostics -/

namespace Diagnostics

def listedIn (output : Value) : List Value :=
  match (output.field? "errors").getD .null with
  | .list diagnostics => diagnostics
  | _ => []

def isOf (severity : String) (diagnostic : Value) : Bool :=
  match diagnostic.field? "severity" with
  | some (.text written) => written = severity
  | _ => false

theorem ofSeverity_eq_ok {severity : String} {diagnostics found : List Value}
    (sorted : ofSeverity severity diagnostics = .ok found) :
    found = diagnostics.filter (isOf severity) ∧
      ∀ diagnostic ∈ diagnostics, diagnostic.isRecord := by
  have agrees : ∀ (diagnostic : Value) (told : Bool),
      (diagnostic.entry? "severity").map (fun found => match found with
        | some (.text written) => decide (written = severity)
        | _ => false) = .ok told → told = isOf severity diagnostic := by
    intro diagnostic told isTold
    rcases map_eq_ok_iff.1 isTold with ⟨found, isFound, rfl⟩
    rw [isOf, (Value.entry?_eq_ok_iff.1 isFound).2]
  rcases filterM_eq_ok agrees sorted with ⟨isFound, told⟩
  refine ⟨isFound, fun diagnostic member => ?_⟩
  rcases told diagnostic member with ⟨told, isTold⟩
  rcases map_eq_ok_iff.1 isTold with ⟨_, entry, _⟩
  exact (Value.entry?_eq_ok_iff.1 entry).1

theorem ofOutput_eq_ok {output : Value} {diagnostics : List Value}
    (reported : ofOutput output = .ok diagnostics)
    (records : ∀ diagnostic ∈ diagnostics, diagnostic.isRecord) :
    diagnostics = listedIn output := by
  rcases bind_eq_ok_iff.1 reported with ⟨found, isFound, members⟩
  rcases Value.entry?_eq_ok_iff.1 isFound with ⟨-, rfl⟩
  rw [listedIn]
  generalize (output.field? "errors").getD .null = value at members
  change (if value.isBlank then pure [] else value.members) = _ at members
  split at members
  next blank =>
    cases members
    cases value with
    | list items => exact (List.isEmpty_iff.1 blank).symm
    | _ => rfl
  next =>
    rcases Value.members?_eq_some (Value.members_eq_ok_iff.1 members) with rfl | others
    · rfl
    · -- The members are no records, so there are none.
      cases diagnostics with
      | nil => cases value with
          | list items => exact (Option.some.inj (Value.members_eq_ok_iff.1 members)).symm
          | _ => rfl
      | cons first rest =>
          have isRecord := records first List.mem_cons_self
          rw [others first List.mem_cons_self] at isRecord
          cases isRecord

end Diagnostics

/-! ## Contracts -/

namespace ContractEntry

def listed (sources : List (String × Value)) : List ContractEntry :=
  sources.flatMap fun source => (ofSource source).toOption.getD []

theorem foldOutput_eq_ok {α : Type} {step : α → ContractEntry → Except Unexpected α}
    {start result : α} {contracts : Value}
    (folded : foldOutput step start contracts = .ok result) :
    ∃ sources, contracts = .record sources ∧ (∀ source ∈ sources, source.2.isRecord) ∧
      (listed sources).foldlM step start = .ok result := by
  rcases bind_eq_ok_iff.1 folded with ⟨sources, isRecord, steps⟩
  refine ⟨sources, Value.entries_eq_ok_iff.1 isRecord, ?_⟩
  clear folded isRecord
  -- A source is taken apart only when its turn comes, so it is known to be a record only if all
  -- entries before it were gone through.
  induction sources generalizing start with
  | nil => exact ⟨nofun, steps⟩
  | cons source rest induction =>
      rw [List.foldlM_cons] at steps
      rcases bind_eq_ok_iff.1 steps with ⟨middle, first, further⟩
      rcases bind_eq_ok_iff.1 first with ⟨entries, isEntries, ofFirst⟩
      rcases map_eq_ok_iff.1 isEntries with ⟨fields, isFields, -⟩
      rcases induction further with ⟨others, ofRest⟩
      refine ⟨List.forall_mem_cons.2 ⟨?_, others⟩, ?_⟩
      · rw [Value.entries_eq_ok_iff.1 isFields]
        rfl
      · rw [listed, List.flatMap_cons, List.foldlM_append, isEntries]
        exact bind_eq_ok_iff.2 ⟨middle, ofFirst, ofRest⟩

theorem mem_listed {sources fields : List (String × Value)} {source name : String} {data : Value}
    (isSource : Value.fieldIn? sources source = some (.record fields))
    (isContract : (name, data) ∈ fields) : ⟨source, name, data⟩ ∈ listed sources :=
  List.mem_flatMap.2 ⟨_, Value.mem_of_fieldIn? isSource,
    List.mem_map.2 ⟨(name, data), isContract, rfl⟩⟩

theorem object_eq_ok_iff {data part : Value} {key : String} :
    object data key = .ok part ↔ data.at? ["evm", key, "object"] = some part := by
  simp only [object, bind_eq_ok_iff, Value.field_eq_ok_iff, Value.at?, Option.bind_eq_some_iff,
    Option.some.injEq, exists_eq_right]

theorem markedCode_eq_ok_iff {part : Value} {code : String} :
    markedCode part = .ok code ↔
      ∃ written, part = .text written ∧ Bytecode.marked written = code := by
  cases part <;> simp [markedCode]

theorem code_eq_ok_iff {data : Value} {key code : String} :
    ContractEntry.code data key = .ok code ↔
      ∃ written, data.at? ["evm", key, "object"] = some (.text written) ∧
        Bytecode.marked written = code := by
  simp only [ContractEntry.code, bind_eq_ok_iff, object_eq_ok_iff, markedCode_eq_ok_iff]
  constructor
  · rintro ⟨_, isPart, written, rfl, isCode⟩
    exact ⟨written, isPart, isCode⟩
  · rintro ⟨written, isPart, isCode⟩
    exact ⟨_, isPart, written, rfl, isCode⟩

theorem code_of_compiled {entry : ContractEntry} {contract : CompiledContract}
    (isCompiled : entry.compiled = .ok contract) :
    ContractEntry.code entry.data "bytecode" = .ok contract.bytecode := by
  simp only [ContractEntry.compiled, bind_eq_ok_iff] at isCompiled
  rcases isCompiled with ⟨_, -, code, isCode, _, -, ⟨⟩⟩
  exact isCode

end ContractEntry

namespace Compilation

variable {T : Type}

theorem firstContract_eq_ok {contracts named : Value} {findings : Findings}
    (found : firstContract contracts named = .ok findings) :
    findings.contracts = contracts ∧ ∀ fields, named = .record fields →
      ∃ others, fields = (findings.name, findings.data) :: others := by
  rcases bind_eq_ok_iff.1 found with ⟨members, isMembers, first⟩
  have isMembers := Value.members_eq_ok_iff.1 (mapError_eq_ok_iff.1 isMembers)
  split at first
  next => cases first
  next head isFirst =>
    split at first
    · cases first
    · rcases bind_eq_ok_iff.1 first with ⟨part, isPart, ⟨⟩⟩
      refine ⟨rfl, ?_⟩
      rintro fields rfl
      cases isMembers
      cases fields with
      | nil => cases isFirst
      | cons field others =>
          cases isFirst
          have isPart := Value.field_eq_ok_iff.1 (mapError_eq_ok_iff.1 isPart)
          simp only [Value.field?, Value.fieldIn?, List.find?_cons, decide_true,
            Option.map_some, Option.some.injEq] at isPart
          exact ⟨others, isPart ▸ rfl⟩

theorem find_eq_ok {mainFile : String} {output : Value} {findings : Findings}
    (found : find mainFile output = .ok findings) :
    output.field? "contracts" = some findings.contracts ∧
      ∃ named, findings.contracts.field? mainFile = some named ∧
        firstContract findings.contracts named = .ok findings := by
  rcases bind_eq_ok_iff.1 found with ⟨contracts, isContracts, further⟩
  have isContracts := (Value.entry?_eq_ok_iff.1 (mapError_eq_ok_iff.1 isContracts)).2
  change (if (contracts.getD .null).isBlank then _ else _) = _ at further
  split at further
  next => cases further
  next full =>
    rcases bind_eq_ok_iff.1 further with ⟨named, isNamed, first⟩
    have isNamed := (Value.entry?_eq_ok_iff.1 (mapError_eq_ok_iff.1 isNamed)).2
    cases contracts with
    | none => exact absurd rfl full
    | some contracts =>
        split at first
        · cases first
        · cases first
        · have isGiven := (firstContract_eq_ok first).1
          rw [isContracts, isGiven]
          exact ⟨rfl, _, isNamed, isGiven ▸ first⟩

structure ReadOff (compilation : Compilation T) (mainFile : String) (output : Value) where
  sources : List (String × Value)
  data : Value
  others : List (String × Value)
  contracts : output.field? "contracts" = some (.record sources)
  main : Value.fieldIn? sources mainFile =
    some (.record ((compilation.contractName, data) :: others))
  compiled : ContractEntry.compiled ⟨mainFile, compilation.contractName, data⟩ =
    .ok ⟨compilation.interface, compilation.bytecode⟩
  byName : ContractEntry.compiledByName (.record sources) = .ok compilation.contracts
  typesByName : ContractEntry.typesByName (.record sources) = .ok compilation.contractTypes
  noErrors : ∀ diagnostic ∈ Diagnostics.listedIn output, ¬Diagnostics.isOf "error" diagnostic
  warnings : compilation.warnings =
    (Diagnostics.listedIn output).filter (Diagnostics.isOf "warning")

theorem ofFindings_eq_ok [Timescale T] {findings : Findings} {resolution : Resolution}
    {output : Value} {warnings : List Value} {compilationTime totalTime : T}
    {compilation : Compilation T}
    (made : ofFindings findings resolution output warnings compilationTime totalTime =
      .ok compilation) :
    compilation.contractName = findings.name ∧ compilation.warnings = warnings ∧
      compilation.unresolved = resolution.unresolved ∧
      ContractEntry.compiledByName findings.contracts = .ok compilation.contracts ∧
      ContractEntry.typesByName findings.contracts = .ok compilation.contractTypes ∧
      ∀ source, ContractEntry.compiled ⟨source, findings.name, findings.data⟩ =
        .ok ⟨compilation.interface, compilation.bytecode⟩ := by
  simp only [ofFindings, bind_eq_ok_iff] at made
  rcases made with ⟨machine, isMachine, _, -, interface, isInterface, holder, isHolder, object,
    isObject, bytecode, isBytecode, -, -, -, -, -, -, contracts, isContracts, types, isTypes,
    entries, areEntries, -, -, ⟨⟩⟩
  refine ⟨rfl, rfl, rfl, isContracts, isTypes, fun source => ?_⟩
  simp only [ContractEntry.compiled, ContractEntry.code, ContractEntry.object, bind_eq_ok_iff]
  exact ⟨interface, isInterface, bytecode,
    ⟨object, ⟨machine, isMachine, holder, isHolder, isObject⟩, isBytecode⟩, entries, areEntries,
    rfl⟩

theorem ofOutput_eq_ok [Timescale T] {mainFile : String} {resolution : Resolution} {output : Value}
    {compilationTime totalTime : T} {compilation : Compilation T}
    (described : ofOutput mainFile resolution output compilationTime totalTime = .ok compilation) :
    Nonempty (compilation.ReadOff mainFile output) ∧
      compilation.unresolved = resolution.unresolved := by
  simp only [ofOutput, bind_eq_ok_iff, mapError_eq_ok_iff] at described
  rcases described with ⟨diagnostics, reported, errors, areErrors, warnings, areWarnings, rest⟩
  rcases Diagnostics.ofSeverity_eq_ok areErrors with ⟨isErrors, records⟩
  have isWarnings := (Diagnostics.ofSeverity_eq_ok areWarnings).1
  have isListed := Diagnostics.ofOutput_eq_ok reported records
  split at rest
  next => cases rest
  next noErrors =>
    have noErrors : errors = [] := by simpa using noErrors
    split at rest
    next => cases rest
    next => cases rest
    next findings found =>
      rcases find_eq_ok found with ⟨isContracts, named, isNamed, isFirst⟩
      rcases ofFindings_eq_ok (mapError_eq_ok_iff.1 rest) with
        ⟨name, sameWarnings, sameUnresolved, byName, typesByName, compiled⟩
      rcases ContractEntry.foldOutput_eq_ok byName with ⟨sources, isRecord, records, -⟩
      rw [isRecord] at isContracts isNamed byName typesByName
      rcases Value.isRecord_iff.1 (records _ (Value.mem_of_fieldIn? isNamed)) with ⟨fields, rfl⟩
      rcases (firstContract_eq_ok isFirst).2 fields rfl with ⟨others, rfl⟩
      refine ⟨⟨⟨sources, findings.data, others, isContracts, ?_, ?_, byName, typesByName, ?_, ?_⟩⟩,
        sameUnresolved⟩
      · rw [name]
        exact isNamed
      · rw [name]
        exact compiled mainFile
      · rw [isErrors, List.filter_eq_nil_iff] at noErrors
        exact isListed ▸ noErrors
      · rw [sameWarnings, isWarnings, isListed]

theorem unexpected_of_mapError {T α : Type} {step : Except Unexpected α} {fault : Fault T}
    (failed : step.mapError Fault.unexpected = .error fault) :
    ∃ cause, fault = .unexpected cause := by
  rcases mapError_eq_error_iff.1 failed with ⟨cause, -, rfl⟩
  exact ⟨cause, rfl⟩

/-- An output that describes no compilation has something in it that nobody expected, or stands for
a failed one, whose diagnostics are records. -/
theorem ofOutput_eq_error [Timescale T] {mainFile : String} {resolution : Resolution}
    {output : Value} {compilationTime totalTime : T} {fault : Fault T}
    (failed : ofOutput mainFile resolution output compilationTime totalTime = .error fault) :
    (∃ cause, fault = .unexpected cause) ∨
      ∃ reason errors warnings unresolved,
        fault = .known (.compilationFailed reason errors warnings unresolved) ∧
          ∀ diagnostic ∈ errors ++ warnings, diagnostic.isRecord := by
  simp only [ofOutput] at failed
  rcases bind_eq_error_iff.1 failed with isError | ⟨diagnostics, -, failed⟩
  · exact .inl (unexpected_of_mapError isError)
  rcases bind_eq_error_iff.1 failed with isError | ⟨errors, areErrors, failed⟩
  · exact .inl (unexpected_of_mapError isError)
  rcases bind_eq_error_iff.1 failed with isError | ⟨warnings, areWarnings, failed⟩
  · exact .inl (unexpected_of_mapError isError)
  have records : ∀ diagnostic ∈ errors ++ warnings, diagnostic.isRecord := by
    rcases Diagnostics.ofSeverity_eq_ok (mapError_eq_ok_iff.1 areErrors) with ⟨rfl, records⟩
    rcases Diagnostics.ofSeverity_eq_ok (mapError_eq_ok_iff.1 areWarnings) with ⟨rfl, -⟩
    exact List.forall_mem_append.2 ⟨fun diagnostic member => records _ (List.mem_filter.1 member).1,
      fun diagnostic member => records _ (List.mem_filter.1 member).1⟩
  split at failed
  · cases failed
    exact .inr ⟨_, _, _, _, rfl, records⟩
  · split at failed
    · cases failed
      exact .inr ⟨_, _, _, _, rfl, records⟩
    · cases failed
      exact .inl ⟨_, rfl⟩
    · exact .inl (unexpected_of_mapError failed)

end Compilation

end SourceTree
