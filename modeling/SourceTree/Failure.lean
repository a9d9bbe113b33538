import SourceTree.FetchError
import SourceTree.Value

/-! # Failures

The reasons for which resolving or compiling a source tree ends without a result, or for which a
single path stays without content. Every failure has a message and the status code with which a
request is answered. -/

namespace SourceTree

inductive InvalidInput where
  | missingFields
  | filesNotTexts
  | mainFileMissing (name : String)
  | described (text : String)
  deriving DecidableEq, Repr

namespace InvalidInput

def message : InvalidInput → String
  | .missingFields => "Missing required fields: files and mainFile"
  | .filesNotTexts => "Files must map each file path to its source code."
  | .mainFileMissing name => s!"Main file {name} not found in provided files"
  | .described text => text

end InvalidInput

inductive Excess where
  | files
  | fileSize (path : String)
  | totalSize
  | imports
  | described (text : String)
  deriving DecidableEq, Repr

namespace Excess

def message (limit actual : Int) : Excess → String
  | .files => s!"Too many files ({actual}). Maximum is {limit}"
  | .fileSize path => s!"File {path} is too large ({actual} bytes). Maximum is {limit} bytes"
  | .totalSize => s!"Total size of all files ({actual} bytes) exceeds maximum of {limit} bytes"
  | .imports => s!"Too many imports ({actual}). Maximum is {limit}"
  | .described text => text

end Excess

inductive CompilationFault where
  | errors
  | noOutput
  | mainFileAbsent (name : String)
  | noContracts
  | described (text : String)
  deriving DecidableEq, Repr

namespace CompilationFault

def message : CompilationFault → String
  | .errors => "Compilation failed with errors"
  | .noOutput => "Compilation did not produce any output"
  | .mainFileAbsent name => s!"Main file {name} was not found in compilation output"
  | .noContracts => "No contracts found in main file"
  | .described text => text

end CompilationFault

inductive Failure (T : Type) where
  | general (text : String)
  | invalidInput (reason : InvalidInput)
  | inputTooLarge (excess : Excess) (limit actual : Int)
  | unsupportedImport (path : String)
  | localImportMissing (path : String)
  | fetch (error : FetchError T)
  | iterationLimit (limit remaining : Int)
  | resolutionTimeout (after : T) (unresolved : List String)
  | compilationTimeout (after : T)
  | compilationFailed (reason : CompilationFault) (errors warnings : List Value)
      (unresolved : List String)
  deriving Inhabited

namespace Failure

variable {T : Type}

def localImportMessage (path : String) : String :=
  s!"Relative import {path} not found. Make sure the file exists in your project."

def message [Timescale T] : Failure T → String
  | .general text => text
  | .invalidInput reason => reason.message
  | .inputTooLarge excess limit actual => excess.message limit actual
  | .unsupportedImport path => s!"Unsupported external library: {path}"
  | .localImportMissing path => localImportMessage path
  | .fetch error => error.message
  | .iterationLimit limit remaining =>
      s!"Reached maximum iterations ({limit}) while resolving imports " ++
        s!"with {remaining} import(s) still queued. This may indicate circular dependencies."
  | .resolutionTimeout after _ =>
      let seconds := Timescale.text after
      s!"Import resolution timed out after {seconds}s."
  | .compilationTimeout after =>
      let seconds := Timescale.text after
      s!"Compilation timed out after {seconds}s."
  | .compilationFailed reason _ _ _ => reason.message

def statusCode : Failure T → Int
  | .general _ => 500
  | .invalidInput _ => 400
  | .inputTooLarge _ _ _ => 400
  | .unsupportedImport _ => 400
  | .localImportMissing _ => 400
  | .fetch error => error.statusCode
  | .iterationLimit _ _ => 500
  | .resolutionTimeout _ _ => 504
  | .compilationTimeout _ => 504
  | .compilationFailed _ _ _ _ => 400

def errors : Failure T → List Value
  | .compilationFailed _ errors _ _ => errors
  | _ => []

def warnings : Failure T → List Value
  | .compilationFailed _ _ warnings _ => warnings
  | _ => []

def unresolved : Failure T → List String
  | .resolutionTimeout _ unresolved => unresolved
  | .compilationFailed _ _ _ unresolved => unresolved
  | _ => []

end Failure

end SourceTree
