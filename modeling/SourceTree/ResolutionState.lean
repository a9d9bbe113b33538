import SourceTree.Fault
import SourceTree.Listing

/-! # The state of a resolution

The bookkeeping of one pass over the imports of a source tree. Discovered paths keep the order in
which they were first seen. A path is done when it is being processed, resolved, failed or mapped
to a local file. -/

namespace SourceTree

inductive ImportStatus where
  | discovered
  | processing
  | resolved
  | mappedLocal
  | failed
  deriving DecidableEq, Repr

def ImportStatus.text : ImportStatus → String
  | .discovered => "discovered"
  | .processing => "processing"
  | .resolved => "resolved"
  | .mappedLocal => "mapped_local"
  | .failed => "failed"

structure ResolutionState (T : Type) where
  discovered : List String
  processing : List String
  resolved : List String
  failed : Listing String (Fault T)
  aliases : Listing String String

namespace ResolutionState

variable {T : Type}

def empty : ResolutionState T := ⟨[], [], [], .empty, .empty⟩

def appendNew (paths : List String) (path : String) : List String :=
  if path ∈ paths then paths else paths ++ [path]

@[simp] theorem mem_appendNew (paths : List String) (path other : String) :
    other ∈ appendNew paths path ↔ other ∈ paths ∨ other = path := by
  unfold appendNew
  split
  next present =>
    constructor
    · exact Or.inl
    · rintro (member | equal)
      · exact member
      · exact equal ▸ present
  next => simp

theorem nodup_appendNew {paths : List String} (distinct : paths.Nodup) (path : String) :
    (appendNew paths path).Nodup := by
  unfold appendNew
  split
  next => exact distinct
  next absent =>
    rw [List.nodup_append]
    refine ⟨distinct, by simp, ?_⟩
    intro left leftMember right rightMember equal
    rw [List.mem_singleton.1 rightMember] at equal
    exact absent (equal ▸ leftMember)

def remove (paths : List String) (path : String) : List String :=
  paths.filter (· ≠ path)

@[simp] theorem mem_remove (paths : List String) (path other : String) :
    other ∈ remove paths path ↔ other ∈ paths ∧ other ≠ path := by
  simp [remove]

/-! ## Steps -/

def discover (state : ResolutionState T) (path : String) : ResolutionState T :=
  { state with discovered := appendNew state.discovered path }

def start (state : ResolutionState T) (path : String) : ResolutionState T :=
  { state.discover path with processing := appendNew state.processing path }

def finish (state : ResolutionState T) (path : String) : ResolutionState T :=
  { state with processing := remove state.processing path }

def resolve (state : ResolutionState T) (path : String) : ResolutionState T :=
  { state with
    processing := remove state.processing path
    failed := state.failed.erase path
    resolved := appendNew state.resolved path }

def fail (state : ResolutionState T) (path : String) (fault : Fault T) : ResolutionState T :=
  { state with
    processing := remove state.processing path
    failed := state.failed.insert path fault }

def mapTo (state : ResolutionState T) (path target : String) : ResolutionState T :=
  { state with aliases := state.aliases.insert path target }

/-! ## Questions -/

def status (state : ResolutionState T) (path : String) : Option ImportStatus :=
  if path ∈ state.processing then some .processing
  else if path ∈ state.resolved then some .resolved
  else if path ∈ state.failed then some .failed
  else if path ∈ state.aliases then some .mappedLocal
  else if path ∈ state.discovered then some .discovered
  else none

def isDone (state : ResolutionState T) (path : String) : Bool :=
  match state.status path with
  | none => false
  | some .discovered => false
  | some _ => true

def unresolved (state : ResolutionState T) : List String :=
  state.discovered.filter fun path => path ∉ state.resolved ∧ path ∉ state.aliases

def describe (state : ResolutionState T) : String :=
  let discovered := state.discovered.length
  let resolved := state.resolved.length
  let failed := state.failed.size
  s!"<ResolutionState discovered={discovered} resolved={resolved} failed={failed}>"

theorem isDone_iff (state : ResolutionState T) (path : String) :
    state.isDone path = true ↔
      path ∈ state.processing ∨ path ∈ state.resolved ∨ path ∈ state.failed ∨
        path ∈ state.aliases := by
  unfold isDone status
  by_cases inFlight : path ∈ state.processing
  · simp [inFlight]
  by_cases isResolved : path ∈ state.resolved
  · simp [inFlight, isResolved]
  by_cases hasFailed : path ∈ state.failed
  · simp [inFlight, isResolved, hasFailed]
  by_cases isMapped : path ∈ state.aliases
  · simp [inFlight, isResolved, hasFailed, isMapped]
  by_cases seen : path ∈ state.discovered
  all_goals simp [inFlight, isResolved, hasFailed, isMapped, seen]

theorem not_isDone_iff (state : ResolutionState T) (path : String) :
    state.isDone path = false ↔ path ∉ state.processing ∧ path ∉ state.resolved ∧
      path ∉ state.failed ∧ path ∉ state.aliases := by
  rw [← Bool.not_eq_true, isDone_iff, not_or, not_or, not_or]

theorem start_eq {state : ResolutionState T} {path : String} (known : path ∈ state.discovered)
    (pending : state.isDone path = false) :
    state.start path = { state with processing := state.processing ++ [path] } := by
  have idle : path ∉ state.processing := ((state.not_isDone_iff path).1 pending).1
  simp only [start, discover, appendNew, if_pos known, if_neg idle]

@[simp] theorem mem_unresolved (state : ResolutionState T) (path : String) :
    path ∈ state.unresolved ↔
      path ∈ state.discovered ∧ path ∉ state.resolved ∧ path ∉ state.aliases := by
  simp [unresolved]

end ResolutionState

end SourceTree
