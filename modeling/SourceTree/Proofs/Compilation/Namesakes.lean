import Mathlib.Data.List.Induction
import SourceTree.Proofs.Compilation.Stages

/-! # Contracts of one name

The contracts of all sources are put under their bare names. So a contract of the main file stays
visible there only if the last contract of its name does not differ from it; and among the contract
types the last one of its name that is linked has to be it. -/

namespace SourceTree

namespace ContractEntry

variable {α : Type}

/-! ## The last entry of a name -/

def lastNamed (name : String) (admits : ContractEntry → Bool) (entries : List ContractEntry) :
    Option ContractEntry :=
  (entries.filter fun entry => entry.name = name && admits entry).getLast?

theorem lastNamed_concat (name : String) (admits : ContractEntry → Bool)
    (entries : List ContractEntry) (last : ContractEntry) :
    lastNamed name admits (entries ++ [last]) =
      if last.name = name && admits last then some last else lastNamed name admits entries := by
  rw [lastNamed, lastNamed, List.filter_append]
  split <;> simp_all

theorem mem_of_lastNamed {name : String} {admits : ContractEntry → Bool}
    {entries : List ContractEntry} {last : ContractEntry}
    (isLast : last ∈ lastNamed name admits entries) :
    last ∈ entries ∧ last.name = name ∧ admits last := by
  have member := List.mem_of_getLast? isLast
  simpa using List.mem_filter.1 member

theorem exists_lastNamed {name : String} (admits : ContractEntry → Bool)
    {entries : List ContractEntry} {entry : ContractEntry} (member : entry ∈ entries)
    (named : entry.name = name) (admitted : admits entry) :
    ∃ last, lastNamed name admits entries = some last := by
  refine Option.isSome_iff_exists.1 (List.getLast?_isSome.2 fun empty => ?_)
  exact List.filter_eq_nil_iff.1 empty entry member (by simp [named, admitted])

def keep (read : ContractEntry → Except Unexpected (Option α)) (table : Listing String α)
    (entry : ContractEntry) : Except Unexpected (Listing String α) :=
  (read entry).map fun
    | some found => table.insert entry.name found
    | none => table

theorem isRead_of_foldlM_keep {read : ContractEntry → Except Unexpected (Option α)}
    {entries : List ContractEntry} {start table : Listing String α}
    (kept : entries.foldlM (keep read) start = .ok table) :
    ∀ entry ∈ entries, ∃ found, read entry = .ok found := by
  induction entries generalizing start with
  | nil => exact nofun
  | cons first rest induction =>
      rw [List.foldlM_cons] at kept
      rcases bind_eq_ok_iff.1 kept with ⟨middle, step, further⟩
      rcases map_eq_ok_iff.1 step with ⟨found, isFound, -⟩
      exact List.forall_mem_cons.2 ⟨⟨found, isFound⟩, induction further⟩

/-- Under a name stands what is read of the last entry with that name of which anything is read. -/
theorem get?_foldlM_keep {read : ContractEntry → Except Unexpected (Option α)}
    {admits : ContractEntry → Bool}
    (isRead : ∀ entry found, read entry = .ok found → found.isSome = admits entry)
    {entries : List ContractEntry} {table : Listing String α}
    (kept : entries.foldlM (keep read) .empty = .ok table) (name : String) :
    table.get? name =
      (lastNamed name admits entries).bind fun entry => (read entry).toOption.join := by
  -- An entry overwrites those before it, so the induction is on the last one.
  induction entries using List.reverseRecOn generalizing table with
  | nil =>
      cases kept
      rfl
  | append_singleton entries last induction =>
      rw [List.foldlM_append] at kept
      rcases bind_eq_ok_iff.1 kept with ⟨earlier, front, back⟩
      rw [List.foldlM_cons] at back
      rcases bind_eq_ok_iff.1 back with ⟨_, step, ⟨⟩⟩
      rcases map_eq_ok_iff.1 step with ⟨found, isFound, rfl⟩
      have admitted := isRead last found isFound
      rw [lastNamed_concat]
      cases found with
      | none =>
          simp only [← admitted, Option.isSome_none, Bool.and_false, Bool.false_eq_true, if_false]
          exact induction front
      | some found =>
          simp only [← admitted, Option.isSome_some, Bool.and_true, decide_eq_true_eq,
            Listing.get?_insert, induction front]
          by_cases same : name = last.name
          · subst same
            simp [isFound, Except.toOption]
          · rw [if_neg same, if_neg fun other => same other.symm]

/-! ## What is kept of an entry -/

def isLinked (entry : ContractEntry) : Bool :=
  match codes entry.data with
  | .ok found => !isUnlinked found
  | .error _ => false

theorem get?_compiledByName {sources : List (String × Value)}
    {contracts : Listing String CompiledContract}
    (made : compiledByName (.record sources) = .ok contracts) (name : String) :
    contracts.get? name =
      (lastNamed name (fun _ => true) (listed sources)).bind fun entry =>
        entry.compiled.toOption := by
  rcases foldOutput_eq_ok made with ⟨_, ⟨⟩, -, folded⟩
  have isKeep : addCompiled = keep fun entry => entry.compiled.map some := by
    funext contracts entry
    simp only [addCompiled, keep]
    cases entry.compiled <;> rfl
  have always : ∀ (entry : ContractEntry) (found : Option CompiledContract),
      entry.compiled.map some = .ok found → found.isSome = true := by
    intro entry found isFound
    rcases map_eq_ok_iff.1 isFound with ⟨_, -, rfl⟩
    rfl
  rw [isKeep] at folded
  rw [get?_foldlM_keep always folded]
  congr 1
  funext entry
  cases entry.compiled <;> rfl

theorem demand_eq_ok_iff {reading : Reading α} {result : α} :
    demand reading = .ok result ↔ reading = .accepted result := by
  rw [demand, mapError_eq_ok_iff]
  cases reading <;> simp [Reading.result]

theorem deployment_of_contractTypeOf {source deployment runtime : String}
    {interface : Reading (List InterfaceEntry)} {user developer : Value} {type : ContractType}
    (accepted : contractTypeOf source deployment runtime interface user developer =
      .accepted type) :
    type.sourceId = source ∧ Bytecode.normalForm deployment = .ok type.deployment := by
  rcases Reading.apply_eq_accepted accepted with ⟨_, _, fourth, -, rfl⟩
  rcases Reading.apply_eq_accepted fourth with ⟨_, _, third, -, rfl⟩
  rcases Reading.apply_eq_accepted third with ⟨_, _, second, -, rfl⟩
  rcases Reading.apply_eq_accepted second with ⟨_, _, first, -, rfl⟩
  rcases Reading.apply_eq_accepted first with ⟨_, deployed, ⟨⟩, isCode, rfl⟩
  refine ⟨rfl, ?_⟩
  simp only [Shape.code] at isCode
  split at isCode
  next normal isNormal =>
    cases isCode
    exact isNormal
  next => cases isCode

theorem contractType?_eq_ok {entry : ContractEntry} {found : Option ContractType}
    (isFound : entry.contractType? = .ok found) :
    found.isSome = entry.isLinked ∧ ∀ type ∈ found, type.sourceId = entry.sourceId ∧
      ∃ code, ContractEntry.code entry.data "bytecode" = .ok code ∧
        Bytecode.normalForm code = .ok type.deployment := by
  rcases bind_eq_ok_iff.1 isFound with ⟨⟨deployment, runtime⟩, areCodes, further⟩
  simp only at further
  rw [isLinked, areCodes]
  split at further
  next unlinked =>
    cases further
    simp [unlinked]
  next linked =>
    simp only [bind_eq_ok_iff, demand_eq_ok_iff] at further
    rcases further with ⟨interface, -, user, -, developer, -, entries, -, type, isType, ⟨⟩⟩
    rcases bind_eq_ok_iff.1 areCodes with ⟨_, isCode, rest⟩
    rcases bind_eq_ok_iff.1 rest with ⟨_, -, ⟨⟩⟩
    rcases deployment_of_contractTypeOf isType with ⟨source, normal⟩
    refine ⟨by simp [linked], fun _ isSome => ?_⟩
    cases isSome
    exact ⟨source, deployment, isCode, normal⟩

theorem addContractType_eq_keep : addContractType = keep contractType? := by
  funext types entry
  simp only [addContractType, keep]
  cases entry.contractType? with
  | error fault => rfl
  | ok found => cases found <;> rfl

theorem get?_typesByName {sources : List (String × Value)} {types : Listing String ContractType}
    (made : typesByName (.record sources) = .ok types) (name : String) :
    types.get? name =
      (lastNamed name isLinked (listed sources)).bind fun entry =>
        entry.contractType?.toOption.join := by
  rcases foldOutput_eq_ok made with ⟨_, ⟨⟩, -, folded⟩
  rw [addContractType_eq_keep] at folded
  exact get?_foldlM_keep (fun _ _ isFound => (contractType?_eq_ok isFound).1) folded name

theorem contractType?_of_typesByName {sources : List (String × Value)}
    {types : Listing String ContractType} (made : typesByName (.record sources) = .ok types)
    {entry : ContractEntry} (member : entry ∈ listed sources) (linked : entry.isLinked) :
    ∃ type, entry.contractType? = .ok (some type) := by
  rcases foldOutput_eq_ok made with ⟨_, ⟨⟩, -, folded⟩
  rw [addContractType_eq_keep] at folded
  rcases isRead_of_foldlM_keep folded entry member with ⟨found, isFound⟩
  have isSome := (contractType?_eq_ok isFound).1
  rw [linked] at isSome
  rcases Option.isSome_iff_exists.1 isSome with ⟨type, rfl⟩
  exact ⟨type, isFound⟩

end ContractEntry

/-! ## The main contract -/

namespace Compilation

variable {T : Type}

/-- Whether a compilation tells the same of its contract wherever it tells of it. -/
structure SpeaksOf (mainFile : String) (compilation : Compilation T) : Prop where
  contract : compilation.contracts.get? compilation.contractName =
    some ⟨compilation.interface, compilation.bytecode⟩
  contractType : ∀ type, compilation.contractTypes.get? compilation.contractName = some type →
    type.sourceId = mainFile ∧ type.deployment = compilation.bytecode

namespace ReadOff

variable {mainFile : String} {output : Value} {compilation : Compilation T}

def entry (reading : compilation.ReadOff mainFile output) : ContractEntry :=
  ⟨mainFile, compilation.contractName, reading.data⟩

theorem entry_mem (reading : compilation.ReadOff mainFile output) :
    reading.entry ∈ ContractEntry.listed reading.sources :=
  ContractEntry.mem_listed reading.main List.mem_cons_self

/-- Whether the main contract prevails over its namesakes: the last of them has its interface and
code, and the last of them that is linked is in the main file and has its code, in normal form. -/
structure Prevails (reading : compilation.ReadOff mainFile output) : Prop where
  last : ∀ entry ∈ ContractEntry.lastNamed compilation.contractName (fun _ => true)
    (ContractEntry.listed reading.sources), entry.compiled = reading.entry.compiled
  lastLinked : ∀ entry ∈ ContractEntry.lastNamed compilation.contractName ContractEntry.isLinked
    (ContractEntry.listed reading.sources), entry.sourceId = mainFile ∧
      ∃ code, ContractEntry.code entry.data "bytecode" = .ok code ∧
        Bytecode.normalForm code = .ok compilation.bytecode

theorem contract_iff (reading : compilation.ReadOff mainFile output) :
    compilation.contracts.get? compilation.contractName =
        some ⟨compilation.interface, compilation.bytecode⟩ ↔
      ∀ entry ∈ ContractEntry.lastNamed compilation.contractName (fun _ => true)
        (ContractEntry.listed reading.sources), entry.compiled = reading.entry.compiled := by
  have named : reading.entry.name = compilation.contractName := rfl
  rcases ContractEntry.exists_lastNamed (fun _ => true) reading.entry_mem named rfl with
    ⟨last, isLast⟩
  have isMain : reading.entry.compiled = .ok ⟨compilation.interface, compilation.bytecode⟩ :=
    reading.compiled
  rw [ContractEntry.get?_compiledByName reading.byName, isLast, isMain]
  simp only [Option.bind_some, Option.mem_some_iff, forall_eq']
  cases last.compiled <;> simp [Except.toOption]

theorem contractType_iff (reading : compilation.ReadOff mainFile output) :
    (∀ type, compilation.contractTypes.get? compilation.contractName = some type →
        type.sourceId = mainFile ∧ type.deployment = compilation.bytecode) ↔
      ∀ entry ∈ ContractEntry.lastNamed compilation.contractName ContractEntry.isLinked
        (ContractEntry.listed reading.sources), entry.sourceId = mainFile ∧
          ∃ code, ContractEntry.code entry.data "bytecode" = .ok code ∧
            Bytecode.normalForm code = .ok compilation.bytecode := by
  rw [ContractEntry.get?_typesByName reading.typesByName]
  cases isLast : ContractEntry.lastNamed compilation.contractName ContractEntry.isLinked
      (ContractEntry.listed reading.sources) with
  | none => simp
  | some last =>
      -- The table was made, so a linked contract does have a contract type in it.
      rcases ContractEntry.mem_of_lastNamed isLast with ⟨member, -, linked⟩
      rcases ContractEntry.contractType?_of_typesByName reading.typesByName member linked with
        ⟨type, isType⟩
      rcases (ContractEntry.contractType?_eq_ok isType).2 type rfl with
        ⟨source, code, isCode, normal⟩
      simp [isType, Except.toOption, source, isCode, normal]

theorem speaksOf_iff_prevails (reading : compilation.ReadOff mainFile output) :
    compilation.SpeaksOf mainFile ↔ reading.Prevails :=
  ⟨fun speaks => ⟨reading.contract_iff.1 speaks.contract,
      reading.contractType_iff.1 speaks.contractType⟩,
    fun prevails => ⟨reading.contract_iff.2 prevails.last,
      reading.contractType_iff.2 prevails.lastLinked⟩⟩

theorem prevails_of_only (reading : compilation.ReadOff mainFile output)
    (only : ∀ entry ∈ ContractEntry.listed reading.sources,
      entry.name = compilation.contractName → entry = reading.entry)
    (normal : reading.entry.isLinked → Bytecode.normalForm compilation.bytecode =
      .ok compilation.bytecode) : reading.Prevails where
  last := by
    intro entry isLast
    rcases ContractEntry.mem_of_lastNamed isLast with ⟨member, named, -⟩
    rw [only entry member named]
  lastLinked := by
    intro entry isLast
    rcases ContractEntry.mem_of_lastNamed isLast with ⟨member, named, linked⟩
    cases only entry member named
    exact ⟨rfl, compilation.bytecode, ContractEntry.code_of_compiled reading.compiled,
      normal linked⟩

end ReadOff

end Compilation

namespace Service

variable {T σ : Type} [Timescale T] {service : Service T σ}

/-- A compilation speaks of its main contract throughout exactly if that contract prevails over its
namesakes in the output of the compiler. -/
theorem speaksOf_iff {files main : Value} {state : ServiceState T σ} {compilation : Compilation T}
    (compiled : (service.compile files main state).1 = .ok compilation) :
    ∃ (stages : service.Stages files main state compilation)
        (reading : compilation.ReadOff stages.request.mainFile stages.output),
      compilation.SpeaksOf stages.request.mainFile ↔ reading.Prevails := by
  rcases stages_of_compile (Prod.ext compiled rfl) with ⟨stages, -⟩
  rcases (Compilation.ofOutput_eq_ok stages.described).1 with ⟨reading⟩
  exact ⟨stages, reading, reading.speaksOf_iff_prevails⟩

def namesakeFiles : Value :=
  .record [("main.sol", .text "contract Token {}"), ("lib.sol", .text "contract Token {}")]

def mainLast : Service Rat Unit :=
  giving (tokenOutput [("lib.sol", "61"), ("main.sol", "60")])

theorem speaksOf_of_main_last :
    ∃ compilation, (mainLast.compile namesakeFiles (.text "main.sol") fresh).1 = .ok compilation ∧
      compilation.SpeaksOf "main.sol" ∧
      ∃ (stages : mainLast.Stages namesakeFiles (.text "main.sol") fresh compilation)
          (reading : compilation.ReadOff stages.request.mainFile stages.output),
        compilation.SpeaksOf stages.request.mainFile ↔ reading.Prevails := by
  have report : (mainLast.compile namesakeFiles (.text "main.sol") fresh).1.toOption.map
        (fun compilation =>
          ((compilation.contractName, compilation.interface.isEmpty, compilation.bytecode),
            (compilation.contracts.get? "Token").map (fun contract =>
              (contract.interface.isEmpty, contract.bytecode)),
            (compilation.contractTypes.get? "Token").map fun type =>
              (type.sourceId, type.deployment))) =
      some (("Token", true, "0x60"), some (true, "0x60"), some ("main.sol", "0x60")) := by
    decide +kernel
  rcases Engine.exists_of_toOption_map report with ⟨compilation, compiled, parts⟩
  simp only [Prod.mk.injEq, Option.map_eq_some_iff, List.isEmpty_iff] at parts
  rcases parts with ⟨⟨name, noEntries, code⟩, ⟨contract, isContract, noEntry, sameCode⟩,
    ⟨type, isType, source, deployment⟩⟩
  have speaks : compilation.SpeaksOf "main.sol" := by
    refine ⟨?_, fun other isOther => ?_⟩
    · rw [name, isContract, noEntries, code, ← noEntry, ← sameCode]
    · rw [name, isType] at isOther
      cases isOther
      exact ⟨source, deployment.trans code.symm⟩
  exact ⟨compilation, compiled, speaks, speaksOf_iff compiled⟩

/-- The namesake of a library that comes after the main contract takes its place. -/
theorem not_speaksOf_of_library_last :
    ∃ compilation, ((giving (tokenOutput [("main.sol", "60"), ("lib.sol", "61")])).compile
        namesakeFiles (.text "main.sol") fresh).1 = .ok compilation ∧
      ¬compilation.SpeaksOf "main.sol" := by
  have report : ((giving (tokenOutput [("main.sol", "60"), ("lib.sol", "61")])).compile
        namesakeFiles (.text "main.sol") fresh).1.toOption.map (fun compilation =>
          (compilation.contractName, (compilation.contractTypes.get? "Token").map
            ContractType.sourceId)) =
      some ("Token", some "lib.sol") := by
    decide +kernel
  rcases Engine.exists_of_toOption_map report with ⟨compilation, compiled, parts⟩
  rcases Prod.mk.inj parts with ⟨name, source⟩
  refine ⟨compilation, compiled, fun speaks => ?_⟩
  rcases Option.map_eq_some_iff.1 source with ⟨type, isType, isLibrary⟩
  rw [← name] at isType
  exact absurd (isLibrary.symm.trans (speaks.contractType type isType).1) (by decide)

end Service

end SourceTree
