import SourceTree.Proofs.Compilation.Requests
import SourceTree.Proofs.Resolution.Admission

/-! # Requests that are turned away

The limits on a request and on its imports are enforced before anything is touched. A request that
breaks one of them is answered out of its files alone: nothing is sent for it, and what is
remembered and preferred stays as it was. -/

namespace SourceTree

open Resolution

variable {T σ : Type} [Timescale T]

namespace Service

/-- The faults for which a request is turned away: those that its check finds, and an excess of
strangers among the imports of its files. Strangers are counted when the versions are detected. -/
inductive TurnsAway (service : Service T σ) (files main : Value) : Fault T → Prop
  | unfit {fault : Fault T}
      (refused : SourceRequest.check service.settings files main = .error fault) :
      TurnsAway service files main fault
  | crowded {request : SourceRequest}
      (checked : SourceRequest.check service.settings files main = .ok request)
      {preference : Preference} (detected : service.engine.detect request.files = .ok preference)
      (many : service.settings.maxImports < (strangers request.files).card) :
      TurnsAway service files main
        (.known (.inputTooLarge .imports service.settings.maxImports
          (strangers request.files).card))

variable {service : Service T σ} {files main : Value} {fault : Fault T}

theorem resolve_engine_of_many {sources : Listing String String} {preference : Preference}
    (detected : service.engine.detect sources = .ok preference)
    (many : service.settings.maxImports < (strangers sources).card) (deadline : Option T)
    (cache : ContentCache (FetchError T)) (world : World T) :
    service.engine.resolve sources deadline cache world =
      (.error (.known (.inputTooLarge .imports service.settings.maxImports
        (strangers sources).card)), cache, world) := by
  have many : service.engine.maxImports < (strangers sources).card := many
  have refused := (Engine.resolveWith_eq_inputTooLarge_iff service.engine sources deadline
    ⟨cache, preference, world⟩ _ _ _).2 ⟨many, rfl, rfl, rfl⟩
  have unchanged := Engine.snd_resolveWith_of_many many deadline ⟨cache, preference, world⟩
  rw [Engine.resolve_of_detect detected, refused, unchanged]
  rfl

theorem TurnsAway.resolve (turned : service.TurnsAway files main fault) (deadline : Option T)
    (state : ServiceState T σ) :
    service.resolve files main deadline state = (.error fault, state) := by
  rw [Service.resolve]
  cases turned with
  | unfit refused => rw [refused]
  | crowded checked detected many =>
      rw [checked]
      simp only [resolve_engine_of_many detected many]
      rfl

theorem TurnsAway.compile (turned : service.TurnsAway files main fault)
    (state : ServiceState T σ) : service.compile files main state = (.error fault, state) := by
  simp only [Service.compile, turned.resolve]

theorem turnsAway_of_isRefusal (isRefusal : SourceRequest.IsRefusal fault) {deadline : Option T}
    {state : ServiceState T σ}
    (failed : (service.resolve files main deadline state).1 = .error fault) :
    service.TurnsAway files main fault := by
  simp only [Service.resolve] at failed
  split at failed
  next refused =>
    cases failed
    exact .unfit refused
  next request checked =>
    have ended : (service.engine.resolve request.files deadline state.cache state.world).1 =
        .error fault := map_eq_error_iff.1 failed
    cases isRefusal with
    | invalidInput reason =>
        rcases Engine.resolve_eq_error ended with
          ⟨_, isFault⟩ | ⟨_, isFault⟩ | ⟨_, _, isFault⟩ <;> cases isFault
    | inputTooLarge excess exceeds =>
        cases detected : service.engine.detect request.files with
        | error cause =>
            rw [Engine.resolve, detected] at ended
            cases ended
        | ok preference =>
            rw [Engine.resolve_of_detect detected] at ended
            rcases (Engine.resolveWith_eq_inputTooLarge_iff _ _ _ _ _ _ _).1 ended with
              ⟨many, rfl, rfl, rfl⟩
            exact .crowded checked detected many

/-- A resolution, at whatever preference, is refused for its size exactly if more paths than are
admitted are imported without a local file that answers, and is told their number; asked in turn or
alone makes no difference. A refused resolution changes nothing, and neither does a request that is
turned away, which are all that end in a refusal before compiling. -/
theorem inputTooLarge_iff_and_unchanged_of_refused (T σ : Type) [Timescale T] :
    (∀ (engine : Engine T) (files : Listing String String) (deadline : Option T)
        (holdings : Holdings T),
      (∀ excess limit actual, (engine.resolveWith files deadline holdings).1 =
          .error (.known (.inputTooLarge excess limit actual)) ↔
        engine.maxImports < (strangers files).card ∧
          excess = .imports ∧ limit = engine.maxImports ∧ actual = (strangers files).card) ∧
      (∀ front importer path back, Seeds.asked files = front ++ (importer, path) :: back →
        (((Seeds.afterAsking files front).locals.resolve (some importer) path).1 = none ↔
          Seeds.Foreign files importer path)) ∧
      (engine.maxImports < (strangers files).card →
        (engine.resolveWith files deadline holdings).2 = holdings)) ∧
    ∀ (service : Service T σ) (files main : Value) (fault : Fault T),
      (service.TurnsAway files main fault → ∀ deadline state,
        service.resolve files main deadline state = (.error fault, state) ∧
          service.compile files main state = (.error fault, state)) ∧
      ∀ deadline state, SourceRequest.IsRefusal fault →
        (service.resolve files main deadline state).1 = .error fault →
          service.TurnsAway files main fault := by
  constructor
  · intro engine files deadline holdings
    refine ⟨fun excess limit actual => ?_, fun front importer path back inTurn => ?_,
      fun many => ?_⟩
    · exact engine.resolveWith_eq_inputTooLarge_iff files deadline holdings excess limit actual
    · exact Seeds.resolve_eq_none_iff_of_turn inTurn
    · exact Engine.snd_resolveWith_of_many many deadline holdings
  · intro service files main fault
    constructor
    · intro turned deadline state
      exact ⟨turned.resolve deadline state, turned.compile state⟩
    · intro deadline state isRefusal failed
      exact turnsAway_of_isRefusal isRefusal failed

def crowdedFiles : List (String × String) :=
  [("main.sol", "import './lib/n.sol'; import '@lib/a.sol';"),
    ("n.sol", "import '@lib/a.sol'; import '@lib/b.sol';")]

def crowdedFault : Fault Rat :=
  .known (.inputTooLarge .imports 1 2)

def narrow : Service Rat Unit :=
  ⟨{ usualSettings with maxImports := 1 }, Pattern.search, .serving .empty, .giving (.record [])⟩

theorem turnsAway_of_crowded_files :
    (narrow.engine.maxImports < (strangers (.ofList crowdedFiles)).card ∧
      (narrow.engine.resolveWith (.ofList crowdedFiles) none
        ⟨.empty, .empty, .startingAt 0⟩).2 = ⟨.empty, .empty, .startingAt 0⟩) ∧
    (Seeds.asked (.ofList crowdedFiles) = [("main.sol", "./lib/n.sol")] ++
        ("main.sol", "@lib/a.sol") :: [("n.sol", "@lib/a.sol"), ("n.sol", "@lib/b.sol")] ∧
      (((Seeds.afterAsking (.ofList crowdedFiles) [("main.sol", "./lib/n.sol")]).locals.resolve
          (some "main.sol") "@lib/a.sol").1 = none ↔
        Seeds.Foreign (.ofList crowdedFiles) "main.sol" "@lib/a.sol")) ∧
    SourceRequest.IsRefusal crowdedFault ∧
    narrow.TurnsAway (.record (crowdedFiles.map fun file => (file.1, .text file.2)))
      (.text "main.sol") crowdedFault ∧
    narrow.compile (.record (crowdedFiles.map fun file => (file.1, .text file.2)))
      (.text "main.sol") fresh = (.error crowdedFault, fresh) := by
  have count : (strangers (.ofList crowdedFiles)).card = 2 := by
    decide +kernel
  have many : narrow.engine.maxImports < (strangers (.ofList crowdedFiles)).card := by
    rw [count]
    decide
  have inTurn : Seeds.asked (.ofList crowdedFiles) = [("main.sol", "./lib/n.sol")] ++
      ("main.sol", "@lib/a.sol") :: [("n.sol", "@lib/a.sol"), ("n.sol", "@lib/b.sol")] := by
    decide +kernel
  have checked : SourceRequest.check narrow.settings
      (.record (crowdedFiles.map fun file => (file.1, .text file.2))) (.text "main.sol") =
        .ok ⟨.ofList crowdedFiles, "main.sol"⟩ := by
    rfl
  have detected : narrow.engine.detect (.ofList crowdedFiles) = .ok .empty := by
    rfl
  have turned := TurnsAway.crowded checked detected many
  rw [count] at turned
  rcases inputTooLarge_iff_and_unchanged_of_refused Rat Unit with ⟨ofEngine, ofService⟩
  rcases ofEngine narrow.engine (.ofList crowdedFiles) none ⟨.empty, .empty, .startingAt 0⟩ with
    ⟨-, answer, unchanged⟩
  rcases ofService narrow (.record (crowdedFiles.map fun file => (file.1, .text file.2)))
    (.text "main.sol") crowdedFault with ⟨untouched, onlyTurned⟩
  rcases untouched turned none fresh with ⟨resolves, compiles⟩
  have isRefusal : SourceRequest.IsRefusal crowdedFault := .inputTooLarge _ (by decide)
  exact ⟨⟨many, unchanged many⟩, ⟨inTurn, answer _ _ _ _ inTurn⟩, isRefusal,
    onlyTurned none fresh isRefusal (congrArg Prod.fst resolves), compiles⟩

end Service

end SourceTree
