import SourceTree.Proofs.Release.BuildMark
import SourceTree.Proofs.Release.Order
import SourceTree.Toolchain

/-! # The release that a toolchain chooses

A configured release is taken as it is written, without its build mark. Otherwise the greatest
installed release that the main source admits is taken, and only when there is none, the greatest
one of those that could be installed. A release is installed when it is taken and no installed
release is the same as it and was asked for. Being the same alone is not enough: a source may ask
for a spelling, and then an installed release with another spelling does not count. -/

namespace SourceTree

/-! ## Picking one of a list -/

namespace Release

inductive Picks (asked : Release → Prop) (releases : List Release) : Option Release → Prop where
  | greatest {release : Release}
      (isGreatest : IsGreatest (fun other => other ∈ releases ∧ asked other) release) :
      Picks asked releases (some release)
  | none (unasked : ∀ other ∈ releases, ¬asked other) : Picks asked releases none

theorem picks_greatest? {asked : Release → Prop} (every : ∀ release, asked release)
    (releases : List Release) : Picks asked releases (greatest? releases) := by
  cases found : greatest? releases with
  | none =>
      obtain rfl := greatest?_eq_none.1 found
      exact .none (by simp)
  | some release =>
      rcases isGreatest_of_greatest? found with ⟨listed, bounds⟩
      exact .greatest ⟨⟨listed, every release⟩, fun other isAmong => bounds other isAmong.1⟩

end Release

namespace ConstraintSet

variable {set : ConstraintSet} {releases : List Release} {release : Release}

/-- Whether a release belongs to a set of constraints: all of them admit it, and when it is a
preview, one of them names a preview. -/
structure Contains (set : ConstraintSet) (release : Release) : Prop where
  admitted : ∀ constraint ∈ set.constraints, constraint.admits release
  named : release.isPreview → ∃ constraint ∈ set.constraints, constraint.namesPreview

theorem mem_filter (constrains : set.constraints ≠ []) :
    release ∈ set.filter releases ↔ release ∈ releases ∧ set.Contains release := by
  have notEmpty : set.isEmpty = false := by simpa [isEmpty] using constrains
  have candidate : release ∈ set.candidates releases ↔
      release ∈ releases ∧
        (release.isPreview → ∃ constraint ∈ set.constraints, constraint.namesPreview) := by
    rw [candidates, notEmpty]
    cases naming : set.constraints.any Constraint.namesPreview with
    | true => simp [List.any_eq_true.1 naming]
    | false =>
        have noneNames : ¬∃ constraint ∈ set.constraints, constraint.namesPreview := by
          rintro ⟨constraint, mem, names⟩
          exact List.any_eq_false.1 naming constraint mem names
        simp only [Bool.false_eq_true, if_false, List.mem_filter, noneNames, imp_false,
          Bool.not_eq_eq_eq_not, Bool.not_true, Bool.not_eq_true]
  rw [filter, List.mem_filter, candidate, admits, List.all_eq_true]
  constructor
  · rintro ⟨⟨listed, named⟩, admitted⟩
    exact ⟨listed, admitted, named⟩
  · rintro ⟨listed, admitted, named⟩
    exact ⟨⟨listed, named⟩, admitted⟩

theorem picks_select (constrains : set.constraints ≠ []) {choice : Option Release}
    (selected : set.select releases = .ok choice) :
    Release.Picks set.Contains releases choice := by
  rw [select, usable] at selected
  split at selected
  · cases selected
  · obtain rfl := Except.ok.inj selected
    cases first : (Release.descending (set.filter releases)).head? with
    | none =>
        have empty : set.filter releases = [] := by
          rw [List.eq_nil_iff_forall_not_mem]
          intro release mem
          rw [← Release.mem_descending, List.head?_eq_none_iff.1 first] at mem
          cases mem
        apply Release.Picks.none
        intro other listed contained
        have mem := (mem_filter constrains).2 ⟨listed, contained⟩
        rw [empty] at mem
        cases mem
    | some release =>
        have isGreatest := Release.isGreatest_of_head?_descending first
        simp only [mem_filter constrains] at isGreatest
        exact .greatest isGreatest

theorem exists_select (usable : set.fault? releases = none) :
    ∃ choice, set.select releases = .ok choice := by
  rw [select, ConstraintSet.usable, usable]
  exact ⟨_, rfl⟩

end ConstraintSet

namespace Toolchain

variable {T : Type} {host : ToolchainHost} {toolchain : Toolchain} {asked : Release → Prop}

/-! ## What is asked for -/

def offered (host : ToolchainHost) (toolchain : Toolchain) : List Release :=
  toolchain.available.getD (host.installable.getD [])

def IsConfigured (configured : Option String) : Prop :=
  ∃ written, configured = some written ∧ written ≠ ""

/-- Whether the configuration and the main source leave a release to be chosen. The source has a say
when nothing is configured, with constraints in its pragma. -/
def Asked (configured source : Option String) (release : Release) : Prop :=
  ¬IsConfigured configured → ∀ set, source.bind Pragma.ofSource? = some (.constraints set) →
    set.constraints ≠ [] → set.Contains release

def Followable (source : Option String) (releases : List Release) : Prop :=
  ∀ meaning, source.bind Pragma.ofSource? = some meaning →
    (∀ unclear, meaning ≠ .unsupported unclear) ∧
      ∀ set, meaning = .constraints set → set.fault? releases = none

/-- The best of the installed releases that are asked for, or else of those that are offered, or
else none. -/
inductive BestChoice (asked : Release → Prop) (installed offered : List Release) :
    Except (Fault T) Release → Prop where
  | installed {release : Release}
      (isBest : Release.IsGreatest (fun other => other ∈ installed ∧ asked other) release) :
      BestChoice asked installed offered (.ok release)
  | offered {release : Release} (noneInstalled : ∀ other ∈ installed, ¬asked other)
      (isBest : Release.IsGreatest (fun other => other ∈ offered ∧ asked other) release) :
      BestChoice asked installed offered (.ok release)
  | none (noneInstalled : ∀ other ∈ installed, ¬asked other)
      (noneOffered : ∀ other ∈ offered, ¬asked other) :
      BestChoice asked installed offered (.error (.toolchain .noCompiler))

/-! ## What is installed -/

def installs (events : List ToolchainEvent) : List Release :=
  events.filterMap fun event =>
    match event with
    | .installed release => some release
    | _ => none

/-- A chosen release is installed once, unless an installed release that counts is the same as it.
Nothing else is installed. -/
inductive InstallsMissing (counts : Release → Prop) (installed : List Release) :
    Except (Fault T) Release → List Release → Prop where
  | present {release other : Release} (mem : other ∈ installed)
      (same : Release.isSame other release) (counted : counts other) :
      InstallsMissing counts installed (.ok release) []
  | missing {release : Release}
      (absent : ∀ other ∈ installed, Release.isSame other release → ¬counts other) :
      InstallsMissing counts installed (.ok release) [release]
  | failed {fault : Fault T} : InstallsMissing counts installed (.error fault) []

/-- What the choice of a release has to come to. Only some installed releases count when it is told
whether the chosen one is missing. -/
structure IsChoice (counts : Release → Prop) (host : ToolchainHost)
    (configured source : Option String) (toolchain : Toolchain)
    (chosen : Except (Fault T) Release) (after : Toolchain) : Prop where
  keepsConfigured : ∀ written release, configured = some written →
    Release.ofText written = .ok release → chosen = .ok { release with build := [] }
  choosesBest : ¬IsConfigured configured → Followable source toolchain.installed →
    Followable source (toolchain.offered host) →
    BestChoice (Asked configured source) toolchain.installed (toolchain.offered host) chosen
  installsMissing : ∃ news, after.past = news ++ toolchain.past ∧
    InstallsMissing counts toolchain.installed chosen (installs news)

/-! ## Choosing the best -/

theorem listAvailable_eq_offered (host : ToolchainHost) (toolchain : Toolchain) :
    (toolchain.listAvailable host).1 = toolchain.offered host := by
  rw [listAvailable, offered]
  cases toolchain.available <;> rfl

theorem exists_listAvailable (host : ToolchainHost) (toolchain : Toolchain) :
    ∃ news, (toolchain.listAvailable host).2.past = news ++ toolchain.past ∧
      installs news = [] := by
  rw [listAvailable]
  cases toolchain.available with
  | some releases => exact ⟨[], rfl, rfl⟩
  | none => exact ⟨[.listedInstallable], rfl, rfl⟩

theorem best_isBest {choose : List Release → Except Release.Fault (Option Release)}
    (picks : ∀ releases choice, choose releases = .ok choice →
      Release.Picks asked releases choice)
    (installed : ∃ choice, choose toolchain.installed = .ok choice)
    (offered : ∃ choice, choose (toolchain.offered host) = .ok choice) :
    BestChoice asked toolchain.installed (toolchain.offered host)
      (toolchain.best (T := T) choose host).1 := by
  rcases installed with ⟨first, chosenInstalled⟩
  rcases offered with ⟨second, chosenOffered⟩
  have offers := listAvailable_eq_offered host toolchain
  cases picks _ _ chosenInstalled with
  | greatest isGreatest =>
      rw [best, chosenInstalled]
      exact .installed isGreatest
  | none noneInstalled =>
      rw [← offers] at chosenOffered
      cases picks _ _ chosenOffered with
      | greatest isGreatest =>
          simp only [best, chosenInstalled, chosenOffered]
          exact .offered noneInstalled (offers ▸ isGreatest)
      | none noneOffered =>
          simp only [best, chosenInstalled, chosenOffered]
          exact .none noneInstalled (offers ▸ noneOffered)

theorem best_installsMissing {choose : List Release → Except Release.Fault (Option Release)}
    (picks : ∀ releases choice, choose releases = .ok choice →
      Release.Picks asked releases choice)
    (host : ToolchainHost) (toolchain : Toolchain) :
    ∃ news, (toolchain.best (T := T) choose host).2.past = news ++ toolchain.past ∧
      InstallsMissing asked toolchain.installed (toolchain.best (T := T) choose host).1
        (installs news) := by
  cases chosenInstalled : choose toolchain.installed with
  | error fault =>
      simp only [best, chosenInstalled]
      exact ⟨[], rfl, .failed⟩
  | ok first =>
      cases picks _ _ chosenInstalled with
      | greatest isGreatest =>
          simp only [best, chosenInstalled]
          rcases isGreatest with ⟨⟨mem, counted⟩, -⟩
          exact ⟨[], rfl, .present mem (Release.isSame_self _) counted⟩
      | none noneInstalled =>
          rcases exists_listAvailable host toolchain with ⟨news, past, nothing⟩
          cases chosenOffered : choose (toolchain.listAvailable host).1 with
          | error fault =>
              simp only [best, chosenInstalled, chosenOffered]
              exact ⟨news, past, nothing ▸ .failed⟩
          | ok second =>
              cases second with
              | none =>
                  simp only [best, chosenInstalled, chosenOffered]
                  exact ⟨news, past, nothing ▸ .failed⟩
              | some release =>
                  simp only [best, chosenInstalled, chosenOffered]
                  refine ⟨.installed release :: news, ?_, ?_⟩
                  · rw [install, past, List.cons_append]
                  · have installsOne : installs (.installed release :: news) = [release] := by
                      simpa [installs] using nothing
                    rw [installsOne]
                    exact .missing fun other mem _ => noneInstalled other mem

/-! ## Configured releases -/

theorem configuredRelease_of_ok {written : String} {release : Release}
    (read : Release.withoutBuild written = .ok release) (toolchain : Toolchain) :
    toolchain.configuredRelease (T := T) written =
      (.ok release,
        if toolchain.isInstalled release then toolchain else toolchain.install release) := by
  unfold configuredRelease
  rw [read]

theorem configuredRelease_of_error {written : String} {fault : Release.Fault}
    (unread : Release.withoutBuild written = .error fault) (toolchain : Toolchain) :
    toolchain.configuredRelease (T := T) written =
      (.error (.unexpected (.ofRelease fault)), toolchain) := by
  unfold configuredRelease
  rw [unread]

theorem configuredRelease_installsMissing {counts : Release → Prop}
    (every : ∀ release, counts release) (written : String) (toolchain : Toolchain) :
    ∃ news, (configuredRelease (T := T) written toolchain).2.past = news ++ toolchain.past ∧
      InstallsMissing counts toolchain.installed (configuredRelease (T := T) written toolchain).1
        (installs news) := by
  cases read : Release.withoutBuild written with
  | error fault =>
      rw [configuredRelease_of_error read]
      exact ⟨[], rfl, .failed⟩
  | ok release =>
      rw [configuredRelease_of_ok read]
      cases present : toolchain.isInstalled release with
      | true =>
          rcases List.any_eq_true.1 present with ⟨other, mem, same⟩
          exact ⟨[], rfl, .present mem same (every other)⟩
      | false =>
          refine ⟨[.installed release], rfl, .missing ?_⟩
          intro other mem same
          exact absurd same (List.any_eq_false.1 present other mem)

/-! ## The choice -/

theorem preferred_of_written {written : String} (notEmpty : written ≠ "")
    (source : Option String) : preferred (some written) source = .configured written := by
  simp [preferred, notEmpty]

theorem preferred_of_not_isConfigured {configured : Option String}
    (notConfigured : ¬IsConfigured configured) (source : Option String) :
    preferred configured source = preferredBy source := by
  cases configured with
  | none => rfl
  | some written =>
      have empty : written = "" := by
        by_contra notEmpty
        exact notConfigured ⟨written, rfl, notEmpty⟩
      simp [preferred, empty]

inductive Asks (source : Option String) : Preferred → Prop where
  | constraints {set : ConstraintSet}
      (pragma : source.bind Pragma.ofSource? = some (.constraints set))
      (constrains : set.constraints ≠ []) : Asks source (.constrained set)
  | unclear {text : String} (pragma : source.bind Pragma.ofSource? = some (.unsupported text)) :
      Asks source (.unsupported text)
  | nothing (unconstrained : ∀ set, source.bind Pragma.ofSource? = some (.constraints set) →
      set.constraints = []) : Asks source .newest

theorem asks_preferredBy (source : Option String) : Asks source (preferredBy source) := by
  unfold preferredBy
  cases pragma : source.bind Pragma.ofSource? with
  | none => exact .nothing (by simp [pragma])
  | some meaning =>
      cases meaning with
      | constraints set =>
          dsimp only
          split
          next empty =>
            apply Asks.nothing
            intro other otherPragma
            rw [pragma, Option.some.injEq, Pragma.Meaning.constraints.injEq] at otherPragma
            exact otherPragma ▸ List.isEmpty_iff.1 empty
          next notEmpty =>
            exact .constraints pragma (by simpa [ConstraintSet.isEmpty] using notEmpty)
      | unusable => exact .nothing (by simp [pragma])
      | unsupported text => exact .unclear pragma

theorem asked_iff_contains {configured source : Option String} {set : ConstraintSet}
    (notConfigured : ¬IsConfigured configured)
    (pragma : source.bind Pragma.ofSource? = some (.constraints set))
    (constrains : set.constraints ≠ []) (release : Release) :
    Asked configured source release ↔ set.Contains release := by
  constructor
  · intro isAsked
    exact isAsked notConfigured set pragma constrains
  · intro contained _ other otherPragma _
    rw [pragma, Option.some.injEq, Pragma.Meaning.constraints.injEq] at otherPragma
    exact otherPragma ▸ contained

theorem asked_of_unconstrained {source : Option String}
    (unconstrained : ∀ set, source.bind Pragma.ofSource? = some (.constraints set) →
      set.constraints = [])
    (configured : Option String) (release : Release) : Asked configured source release := by
  intro _ set pragma constrains
  exact absurd (unconstrained set pragma) constrains

theorem not_ofText_empty (release : Release) : Release.ofText "" ≠ .ok release := by
  intro read
  cases read

theorem keepsConfigured_of_not_isConfigured {configured : Option String}
    (notConfigured : ¬IsConfigured configured) (chosen : Except (Fault T) Release) :
    ∀ written release, configured = some written → Release.ofText written = .ok release →
      chosen = .ok { release with build := [] } := by
  intro written release isWritten read
  exfalso
  apply notConfigured
  refine ⟨written, isWritten, ?_⟩
  rintro rfl
  exact not_ofText_empty release read

theorem configuredRelease_isChoice {written : String} (notEmpty : written ≠ "")
    (host : ToolchainHost) (source : Option String) (toolchain : Toolchain) :
    IsChoice (T := T) (Asked (some written) source) host (some written) source toolchain
      (toolchain.configuredRelease written).1
      (configuredRelease (T := T) written toolchain).2 where
  keepsConfigured := by
    intro other release isOther read
    obtain rfl := Option.some.inj isOther
    rw [configuredRelease_of_ok (Release.withoutBuild_of_ofText read)]
  choosesBest := fun notConfigured => absurd ⟨written, rfl, notEmpty⟩ notConfigured
  installsMissing :=
    configuredRelease_installsMissing
      (fun _ notConfigured => absurd ⟨written, rfl, notEmpty⟩ notConfigured) written toolchain

theorem best_isChoice {configured source : Option String}
    {choose : List Release → Except Release.Fault (Option Release)}
    (notConfigured : ¬IsConfigured configured)
    (picks : ∀ releases choice, choose releases = .ok choice →
      Release.Picks (Asked configured source) releases choice)
    (followed : ∀ releases, Followable source releases → ∃ choice, choose releases = .ok choice)
    (host : ToolchainHost) (toolchain : Toolchain) :
    IsChoice (T := T) (Asked configured source) host configured source toolchain
      (toolchain.best choose host).1 (toolchain.best (T := T) choose host).2 where
  keepsConfigured := keepsConfigured_of_not_isConfigured notConfigured _
  choosesBest := fun _ onInstalled onOffered =>
    best_isBest picks (followed _ onInstalled) (followed _ onOffered)
  installsMissing := best_installsMissing picks host toolchain

/-- A toolchain chooses the best release that is asked for, and installs it when no release that is
asked for is installed and the same. -/
theorem chooseRelease_isChoice (host : ToolchainHost) (configured source : Option String)
    (toolchain : Toolchain) :
    IsChoice (T := T) (Asked configured source) host configured source toolchain
      (toolchain.chooseRelease host configured source).1
      (toolchain.chooseRelease (T := T) host configured source).2 := by
  by_cases isConfigured : IsConfigured configured
  · rcases isConfigured with ⟨written, rfl, notEmpty⟩
    rw [chooseRelease, preferred_of_written notEmpty]
    exact configuredRelease_isChoice notEmpty host source toolchain
  · rw [chooseRelease, preferred_of_not_isConfigured isConfigured]
    have asks := asks_preferredBy source
    generalize preferredBy source = preferred at asks ⊢
    cases asks with
    | constraints pragma constrains =>
        apply best_isChoice isConfigured
        · intro releases choice selected
          have asked : Asked configured source = _ :=
            funext fun release =>
              propext (asked_iff_contains isConfigured pragma constrains release)
          exact asked ▸ ConstraintSet.picks_select constrains selected
        · intro releases followable
          exact ConstraintSet.exists_select ((followable _ pragma).2 _ rfl)
    | nothing unconstrained =>
        apply best_isChoice isConfigured
        · intro releases choice found
          obtain rfl := Except.ok.inj found
          exact Release.picks_greatest? (asked_of_unconstrained unconstrained configured) releases
        · intro releases _
          exact ⟨_, rfl⟩
    | unclear pragma =>
        exact {
          keepsConfigured := keepsConfigured_of_not_isConfigured isConfigured _
          choosesBest := fun _ onInstalled => absurd rfl ((onInstalled _ pragma).1 _)
          installsMissing := ⟨[], rfl, .failed⟩ }

/-! ## Two choices -/

theorem followable_of_constraints {source : Option String} {set : ConstraintSet}
    {releases : List Release}
    (pragma : source.bind Pragma.ofSource? = some (.constraints set))
    (noFault : set.fault? releases = none) : Followable source releases := by
  intro meaning isMeaning
  obtain rfl := Option.some.inj (pragma.symm.trans isMeaning)
  refine ⟨by simp, ?_⟩
  intro other isOther
  exact Pragma.Meaning.constraints.inj isOther ▸ noFault

def plain (numbers : List Nat) : Release := ⟨0, numbers, none, none, none, []⟩

def chosenFor (source : String) (installed offered : List Release) :
    Except (Fault Nat) Release × Toolchain :=
  (ofInstalled installed).chooseRelease ⟨some offered, fun _ _ _ => .ok (.record [])⟩ none
    (some source)

theorem bestChoice_of_missing_family :
    Followable (some "pragma solidity ^0.8.0;") [plain [0, 7, 6]] ∧
      Followable (some "pragma solidity ^0.8.0;") [plain [0, 8, 24], plain [0, 8, 20]] ∧
      BestChoice (Asked none (some "pragma solidity ^0.8.0;")) [plain [0, 7, 6]]
        [plain [0, 8, 24], plain [0, 8, 20]]
        (chosenFor "pragma solidity ^0.8.0;" [plain [0, 7, 6]]
          [plain [0, 8, 24], plain [0, 8, 20]]).1 := by
  have pragma : (some "pragma solidity ^0.8.0;").bind Pragma.ofSource? =
      some (.constraints
        ⟨[⟨.compatible, .onward (plain [0, 8, 0]) (plain [0, 8]), "0.8.0"⟩]⟩) := by
    decide +kernel
  have onInstalled : Followable (some "pragma solidity ^0.8.0;") [plain [0, 7, 6]] :=
    followable_of_constraints pragma (by decide +kernel)
  have onOffered :
      Followable (some "pragma solidity ^0.8.0;") [plain [0, 8, 24], plain [0, 8, 20]] :=
    followable_of_constraints pragma (by decide +kernel)
  have notConfigured : ¬IsConfigured none := by
    rintro ⟨written, isWritten, -⟩
    cases isWritten
  have isChoice := chooseRelease_isChoice (T := Nat)
    ⟨some [plain [0, 8, 24], plain [0, 8, 20]], fun _ _ _ => .ok (.record [])⟩ none
    (some "pragma solidity ^0.8.0;") (ofInstalled [plain [0, 7, 6]])
  exact ⟨onInstalled, onOffered, isChoice.choosesBest notConfigured onInstalled onOffered⟩

/-- A source that asks for one spelling of a release has it installed, although another spelling of
the same release is. -/
theorem not_isChoice_of_spelled_pragma :
    Followable (some "pragma solidity ===0.8.0;") [plain [0, 8, 0, 0]] ∧
      Followable (some "pragma solidity ===0.8.0;") [plain [0, 8, 0]] ∧
      ¬IsChoice (fun _ => True) ⟨some [plain [0, 8, 0]], fun _ _ _ => .ok (.record [])⟩ none
        (some "pragma solidity ===0.8.0;") (ofInstalled [plain [0, 8, 0, 0]])
        (chosenFor "pragma solidity ===0.8.0;" [plain [0, 8, 0, 0]] [plain [0, 8, 0]]).1
        (chosenFor "pragma solidity ===0.8.0;" [plain [0, 8, 0, 0]] [plain [0, 8, 0]]).2 := by
  have pragma : (some "pragma solidity ===0.8.0;").bind Pragma.ofSource? =
      some (.constraints ⟨[⟨.identical, .spelling "0.8.0", "0.8.0"⟩]⟩) := by
    decide +kernel
  have chosen : (chosenFor "pragma solidity ===0.8.0;" [plain [0, 8, 0, 0]]
      [plain [0, 8, 0]]).1.toOption = some (plain [0, 8, 0]) := by
    decide +kernel
  have installsIt : installs (chosenFor "pragma solidity ===0.8.0;" [plain [0, 8, 0, 0]]
      [plain [0, 8, 0]]).2.past = [plain [0, 8, 0]] := by
    decide +kernel
  refine ⟨followable_of_constraints pragma (by decide +kernel),
    followable_of_constraints pragma (by decide +kernel), ?_⟩
  intro isChoice
  rcases isChoice.installsMissing with ⟨news, past, missing⟩
  rw [ofInstalled, List.append_nil] at past
  rw [← past, installsIt] at missing
  generalize (chosenFor "pragma solidity ===0.8.0;" _ _).1 = outcome at chosen missing
  cases missing with
  | missing absent =>
      have isSame : Release.isSame (plain [0, 8, 0, 0]) (plain [0, 8, 0]) := by decide +kernel
      exact absent _ List.mem_cons_self isSame trivial

end Toolchain

end SourceTree
