import SourceTree.Failure
import SourceTree.Text.Character
import SourceTree.Unexpected
import SourceTree.Value.Shown

/-! # Faults

Everything that can end a request: the failures that the library itself describes, failures of the
compiler's toolchain, and faults that nobody expected. -/

namespace SourceTree

structure RunReport where
  message : String
  command : List Value
  returnCode : Value
  standardOutput : Value
  standardError : Value
  /-- Diagnostics of the sources, when the run got as far as compiling them. -/
  diagnostics : Value

namespace RunReport

def defaultMessage : String := "An error occurred during execution"

def detailed (report : RunReport) : String :=
  let command := String.intercalate " " (report.command.map Value.shown)
  let full :=
    report.message ++ "\n> command: \x60" ++ command ++
      "\x60\n> return code: \x60" ++ report.returnCode.shown ++
      "\x60\n> stdout:\n" ++ report.standardOutput.shown ++
      "\n> stderr:\n" ++ report.standardError.shown
  String.ofList (Text.trimBlanks full.toList)

end RunReport

inductive ToolchainFault where
  | noCompiler
  | runFailed (report : RunReport)

namespace ToolchainFault

def message : ToolchainFault → String
  | .noCompiler =>
      "No applicable 'solc' versions installed and unable to install the required version. " ++
        "Check your internet connection or set a version in the config."
  | .runFailed report => report.message

def detailed : ToolchainFault → String
  | .runFailed report => report.detailed
  | fault => fault.message

end ToolchainFault

inductive Fault (T : Type) where
  | known (failure : Failure T)
  | toolchain (fault : ToolchainFault)
  | unexpected (fault : Unexpected)

namespace Fault

variable {T : Type}

def message [Timescale T] : Fault T → String
  | .known failure => failure.message
  | .toolchain fault => fault.message
  | .unexpected fault => fault.message

end Fault

end SourceTree
