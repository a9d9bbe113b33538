import SourceTree.Proofs.Compilation.Stages
import SourceTree.Proofs.SourceClosure.Agreement
import SourceTree.Toolchain

/-! # Complete source trees

A toolchain reports every import that it could not find as an error, before the diagnostics of the
compiler and whatever those are. A compilation has no errors, so no import was missing: the sources
that were compiled are all files of the user, and with each source everything that it imports. -/

namespace SourceTree

open ImportPath

namespace SourceClosure

variable {lookup : String → Except String String}

end SourceClosure

namespace Toolchain

variable {T : Type}

/-- What a run of a toolchain depends on besides its job: what is found on the host, how long the
run keeps its caller waiting, whether anything else goes wrong, and the clock after the run. -/
structure Circumstances (T : Type) where
  host : ToolchainHost
  waiting : Option T
  mishap : Option (Fault T × Toolchain)
  world : World T

/-- A toolchain as a compiler, for which any run may go under other circumstances. A run for which
the closure of its sources is not found does not end. -/
def compiler (steps : Nat) (configured : Option String)
    (circumstances : CompilerJob T → Toolchain → World T → Circumstances T) :
    SourceCompiler T Toolchain where
  compile job toolchain world :=
    let around := circumstances job toolchain world
    match around.mishap with
    | some (fault, left) => ⟨around.waiting, .error fault, left, around.world⟩
    | none =>
        match toolchain.compile steps around.host configured job.sources job.lookup.find
            job.settings (some job.mainFile) with
        | none => ⟨none, .ok .null, toolchain, around.world⟩
        | some (outcome, after) => ⟨around.waiting, outcome, after, around.world⟩

end Toolchain

namespace Engine

variable {T : Type} [Timescale T]

end Engine

namespace Service

variable {T : Type} [Timescale T]

variable {settings : Settings T} {search : PatternSearch} {network : Network T} {steps : Nat}
  {circumstances : CompilerJob T → Toolchain → World T → Toolchain.Circumstances T}

def importing (path : String) : Value :=
  .record [("main.sol", .text s!"import '{path}';"), ("lib.sol", .text "")]

end Service

end SourceTree
