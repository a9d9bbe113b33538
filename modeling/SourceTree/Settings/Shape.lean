import SourceTree.Fault
import SourceTree.Library.Shape
import SourceTree.Settings

/-! The shape of settings, with their defaults. Libraries may be given as a list or by root. Fields
with other names are kept. -/

namespace SourceTree.Shape

def rootedLibrary (root : String) : Value → Value
  | .record fields => .recordOf (("prefix", .text root) :: fields)
  | other => other

def strayLibrary? : Value → Option Value
  | .record fields => (fields.map Prod.snd).find? fun library => !library.isRecord
  | _ => none

def listedLibraries : Value → Value
  | .record fields => .list (fields.map fun field => rootedLibrary field.1 field.2)
  | other => other

def libraries : Shape (List Library) :=
  fun value => listOf library (listedLibraries value)

def settingNames : List String := [
  "max_files", "max_file_size", "max_total_size", "max_imports", "iteration_factor",
  "max_fetch_retries", "fetch_timeout", "fetch_backoff", "compile_timeout", "max_workers",
  "libraries", "version", "optimize", "optimization_runs", "evm_version"]

def settings : Shape (Settings Float) :=
  record fun fields =>
    Settings.mk
      <$> optional integer "max_files" 100 fields
      <*> optional integer "max_file_size" (500 * 1024) fields
      <*> optional integer "max_total_size" (2 * 1024 * 1024) fields
      <*> optional integer "max_imports" 200 fields
      <*> optional integer "iteration_factor" 2 fields
      <*> optional integer "max_fetch_retries" 3 fields
      <*> optional number "fetch_timeout" 10.0 fields
      <*> optional number "fetch_backoff" 1.0 fields
      <*> optional number "compile_timeout" 30.0 fields
      <*> optional integer "max_workers" 1 fields
      <*> optional libraries "libraries" [] fields
      <*> optional (nullable text) "version" none fields
      <*> optional truth "optimize" true fields
      <*> optional integer "optimization_runs" 200 fields
      <*> optional (nullable text) "evm_version" (some "london") fields
      <*> .accepted (fields.filter fun field => field.1 ∉ settingNames)

end SourceTree.Shape

namespace SourceTree.Settings

def ofValue (value : Value) : Except Unexpected (Settings Float) :=
  match (value.field? "libraries").bind Shape.strayLibrary? with
  | some stray => .error (.noFields stray.kindName)
  | none => (Shape.settings value).result.mapError .misshapen

end SourceTree.Settings
