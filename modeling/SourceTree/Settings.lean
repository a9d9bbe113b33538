import SourceTree.Library
import SourceTree.Network.Fetch
import SourceTree.Timescale
import SourceTree.Value

/-! # Settings

What can be configured: the limits on requests, how imports are fetched, further libraries, and how
sources are compiled. -/

namespace SourceTree

structure Settings (T : Type) where
  maxFiles : Int
  maxFileSize : Int
  maxTotalSize : Int
  /-- The most distinct imports that a source tree may lead to directly. -/
  maxImports : Int
  iterationFactor : Int
  maxFetchRetries : Int
  fetchTimeout : T
  fetchBackoff : T
  compileTimeout : T
  maxWorkers : Int
  /-- Libraries besides the known ones, or in place of those with the same root. -/
  libraries : List Library
  /-- The compiler to use whatever a source asks for. -/
  version : Option String
  optimize : Bool
  optimizationRuns : Int
  evmVersion : Option String
  /-- Fields that mean nothing here; they are kept as they were given. -/
  further : List (String × Value)

namespace Settings

variable {T : Type}

def fetchPolicy (settings : Settings T) : FetchPolicy T :=
  ⟨settings.fetchTimeout, settings.maxFetchRetries, settings.fetchBackoff⟩

def reported : List String :=
  ["abi", "evm.bytecode", "evm.deployedBytecode", "metadata", "userdoc", "devdoc"]

def compilerSettings (settings : Settings T) : Value :=
  let target : List (String × Value) :=
    match settings.evmVersion with
    | some version => if version.isEmpty then [] else [("evmVersion", .text version)]
    | none => []
  .record ([
    ("optimizer", .record [
      ("enabled", .bool settings.optimize), ("runs", .int settings.optimizationRuns)]),
    ("outputSelection", .record [
      ("*", .record [("*", .list (reported.map .text))])])] ++ target)

end Settings

end SourceTree
