import SourceTree.Fault
import SourceTree.Listing
import SourceTree.Settings
import SourceTree.Value.Shown

/-! # Requests

A request names a map of files and the main one among them. It is checked against the limits
before anything else happens. -/

namespace SourceTree

structure SourceRequest where
  files : Listing String String
  mainFile : String

namespace SourceRequest

variable {T : Type}

def textFields? : List (String × Value) → Option (List (String × String))
  | [] => some []
  | (key, .text content) :: rest => (textFields? rest).map ((key, content) :: ·)
  | _ :: _ => none

def files? : Value → Option (Listing String String)
  | .record fields => (textFields? fields).map .ofList
  | _ => none

def oversized? (limit : Int) (files : Listing String String) : Option (String × Nat) :=
  files.entries.findSome? fun (path, content) =>
    if limit < content.utf8ByteSize then some (path, content.utf8ByteSize) else none

def totalSize (files : Listing String String) : Nat :=
  files.values.foldl (fun total content => total + content.utf8ByteSize) 0

def excess? (settings : Settings T) (files : Listing String String) : Option (Failure T) :=
  if settings.maxFiles < files.size then
    some (.inputTooLarge .files settings.maxFiles files.size)
  else
    match oversized? settings.maxFileSize files with
    | some (path, size) => some (.inputTooLarge (.fileSize path) settings.maxFileSize size)
    | none =>
        if settings.maxTotalSize < totalSize files then
          some (.inputTooLarge .totalSize settings.maxTotalSize (totalSize files))
        else
          none

def mainIn (files : Listing String String) : Value → Except (Fault T) String
  | .text name =>
      if name ∈ files then .ok name else .error (.known (.invalidInput (.mainFileMissing name)))
  | .list items => .error (.unexpected (.unusableKey (Value.list items).kindName))
  | .record fields => .error (.unexpected (.unusableKey (Value.record fields).kindName))
  | other => .error (.known (.invalidInput (.mainFileMissing other.shown)))

def check (settings : Settings T) (files main : Value) : Except (Fault T) SourceRequest :=
  if files.isBlank || main.isBlank then
    .error (.known (.invalidInput .missingFields))
  else
    match files? files with
    | none => .error (.known (.invalidInput .filesNotTexts))
    | some sources =>
        match excess? settings sources with
        | some failure => .error (.known failure)
        | none => (mainIn sources main).map fun name => ⟨sources, name⟩

end SourceRequest

end SourceTree
