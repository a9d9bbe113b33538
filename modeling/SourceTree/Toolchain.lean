import SourceTree.Pragma
import SourceTree.SourceClosure
import SourceTree.Value.Part

/-! # Toolchains

A toolchain compiles with installed releases of a compiler and installs those that are missing. A
configured release always wins; otherwise the main source chooses, and the newest installed release
is preferred to the newest one that could be installed. Which releases could be installed is asked
once. -/

namespace SourceTree

inductive ToolchainEvent where
  | listedInstallable
  | installed (release : Release)
  | ran (release : Release) (sources : Listing String String) (settings : Value)

structure Toolchain where
  installed : List Release
  available : Option (List Release)
  /-- The events so far, newest first. -/
  past : List ToolchainEvent

structure ToolchainHost where
  /-- The releases that could be installed; `none` without a connection. -/
  installable : Option (List Release)
  /-- What a compiler makes of sources. -/
  run : Release → Listing String String → Value → Except RunReport Value

namespace Toolchain

def ofInstalled (releases : List Release) : Toolchain := ⟨releases, none, []⟩

def listAvailable (host : ToolchainHost) (toolchain : Toolchain) : List Release × Toolchain :=
  match toolchain.available with
  | some releases => (releases, toolchain)
  | none =>
      let releases := host.installable.getD []
      (releases, { toolchain with
        available := some releases
        past := .listedInstallable :: toolchain.past })

def install (toolchain : Toolchain) (release : Release) : Toolchain :=
  { toolchain with
    installed := toolchain.installed ++ [release]
    past := .installed release :: toolchain.past }

def isInstalled (toolchain : Toolchain) (release : Release) : Bool :=
  toolchain.installed.any fun other => Release.isSame other release

/-! ## Choosing a release -/

inductive Preferred where
  | configured (written : String)
  | constrained (set : ConstraintSet)
  | newest
  /-- The source says what it wants in a way that cannot be followed. -/
  | unsupported (text : String)

/-- What the main source asks for. A pragma that puts no constraint counts as none. -/
def preferredBy (source : Option String) : Preferred :=
  match source.bind Pragma.ofSource? with
  | some (.constraints set) => if set.isEmpty then .newest else .constrained set
  | some (.unsupported text) => .unsupported text
  | some .unusable => .newest
  | none => .newest

def preferred (configured source : Option String) : Preferred :=
  match configured with
  | some written => if written.isEmpty then preferredBy source else .configured written
  | none => preferredBy source

def best {T : Type} (choose : List Release → Except Release.Fault (Option Release))
    (host : ToolchainHost) (toolchain : Toolchain) : Except (Fault T) Release × Toolchain :=
  match choose toolchain.installed with
  | .error fault => (.error (.unexpected (.ofRelease fault)), toolchain)
  | .ok (some release) => (.ok release, toolchain)
  | .ok none =>
      let (releases, asked) := toolchain.listAvailable host
      match choose releases with
      | .error fault => (.error (.unexpected (.ofRelease fault)), asked)
      | .ok (some release) => (.ok release, asked.install release)
      | .ok none => (.error (.toolchain .noCompiler), asked)

def configuredRelease {T : Type} (written : String) (toolchain : Toolchain) :
    Except (Fault T) Release × Toolchain :=
  match Release.withoutBuild written with
  | .error fault => (.error (.unexpected (.ofRelease fault)), toolchain)
  | .ok release =>
      (.ok release, if toolchain.isInstalled release then toolchain else toolchain.install release)

def chooseRelease {T : Type} (host : ToolchainHost) (configured source : Option String)
    (toolchain : Toolchain) : Except (Fault T) Release × Toolchain :=
  match preferred configured source with
  | .configured written => toolchain.configuredRelease written
  | .constrained set => toolchain.best set.select host
  | .newest => toolchain.best (fun releases => .ok (Release.greatest? releases)) host
  | .unsupported text =>
      (.error (.unexpected (.badValue (Pragma.unsupportedMessage text))), toolchain)

/-! ## Compiling -/

def salvage {T : Type} (report : RunReport) : Except (Fault T) Value :=
  if report.diagnostics.isBlank then .error (.toolchain (.runFailed report))
  else .ok (.record [("errors", report.diagnostics)])

def reported (output : Value) : Except Unexpected (List Value) := do
  match ← output.entry? "errors" with
  | none => pure []
  | some value => (value.members?).elim (.error (.noItems value.kindName)) .ok

def complete {T : Type} (missing : List Value) (release : Release) (output : Value) :
    Except (Fault T) Value :=
  let finish : Except Unexpected Value := do
    let diagnostics ← reported output
    let fields ← output.entries
    pure (.record (Value.setField (Value.setField fields "errors" (.list (missing ++ diagnostics)))
      "compilerVersion" (.text release.text)))
  finish.mapError .unexpected

/-- Compile sources with everything they import. The outer option is empty when the closure of the
sources is not found within `steps`. -/
def compile {T : Type} (steps : Nat) (host : ToolchainHost) (configured : Option String)
    (sources : Listing String String) (lookup : String → Except String String) (settings : Value)
    (mainFile : Option String) (toolchain : Toolchain) :
    Option (Except (Fault T) Value × Toolchain) :=
  (SourceClosure.collect steps sources lookup).map fun closure =>
    let main := mainFile.bind fun name =>
      if name.isEmpty then none else closure.sources.get? name
    match toolchain.chooseRelease host configured main with
    | (.error fault, chosen) => (.error fault, chosen)
    | (.ok release, chosen) =>
        let ran := { chosen with past := .ran release closure.sources settings :: chosen.past }
        let output : Except (Fault T) Value :=
          match host.run release closure.sources settings with
          | .ok output => .ok output
          | .error report => salvage report
        (output.bind (complete closure.diagnostics release), ran)

end Toolchain

end SourceTree
