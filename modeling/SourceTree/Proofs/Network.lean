import SourceTree.Engine
import SourceTree.Pattern.Reader
import SourceTree.Timescale

/-! # Stable networks

A network is stable when it reacts to an address in the same way every time. -/

namespace SourceTree

namespace Network

variable {T : Type}

/-- Whether the reaction to a request depends on its address alone. -/
def Stable (network : Network T) : Prop :=
  ∀ first second url, (network.reply first url).reaction = (network.reply second url).reaction

def serving (pages : Listing String String) : Network Rat where
  reply := fun _ url =>
    ⟨0, match pages.get? url with
      | some page => .answered 200 page
      | none => .answered 404 ""⟩

theorem stable_serving (pages : Listing String String) : (serving pages).Stable :=
  fun _ _ _ => rfl

end Network

namespace FetchPolicy

variable {T : Type} [Timescale T]

theorem attempt_stable {network : Network T} (stable : network.Stable) (policy : FetchPolicy T)
    (url : String) (first second : World T) :
    (policy.attempt network url first).1 = (policy.attempt network url second).1 := by
  simp only [attempt, World.request, stable first.past second.past url]

theorem attempts_stable {network : Network T} (stable : network.Stable) (policy : FetchPolicy T)
    (url : String) (left made : Nat) (firstBudget secondBudget : T) (first second : World T) :
    (policy.attempts network none firstBudget url left made first).1 =
      (policy.attempts network none secondBudget url left made second).1 := by
  induction left generalizing made first second with
  | zero => exact attempt_stable stable policy url first second
  | succ left induction =>
      have same := attempt_stable stable policy url first second
      simp only [attempts]
      generalize policy.attempt network url first = firstMade at same ⊢
      generalize policy.attempt network url second = secondMade at same ⊢
      rcases firstMade with ⟨fetched, firstAfter⟩
      rcases secondMade with ⟨_, secondAfter⟩
      cases same
      cases fetched with
      | content text => rfl
      | interrupted interruption => rfl
      | failed error =>
          simp only
          split
          · rfl
          · cases Timescale.doubled policy.backoff made with
            | none => rfl
            | some delay =>
                simp only [endsLate, Option.any_none, Bool.false_eq_true, if_false]
                exact induction (made + 1) _ _

theorem fetch_stable {network : Network T} (stable : network.Stable) (policy : FetchPolicy T)
    (url : String) (first second : World T) :
    (policy.fetch network none url first).1 = (policy.fetch network none url second).1 :=
  attempts_stable stable policy url _ _ _ _ first second

end FetchPolicy

def Library.ofVersions (root : String) (first : LibraryVersion) (others : List LibraryVersion)
    (distinct : (LibraryVersion.names (first :: others)).Nodup) : Library where
  root := root
  name := ""
  url := none
  versions := first :: others
  defaultName := first.name
  qualifiers := .empty
  spareUrls := .empty
  namesDistinct := distinct
  defaultListed := List.mem_cons_self
  qualifiedListed := fun _ qualified => absurd qualified List.not_mem_nil

namespace Engine

theorem exists_of_toOption_map {E R P : Type} {outcome : Except E R} {parts : R → P} {value : P}
    (report : outcome.toOption.map parts = some value) :
    ∃ resolution, outcome = .ok resolution ∧ parts resolution = value := by
  cases outcome with
  | error fault => cases report
  | ok resolution => exact ⟨resolution, rfl, Option.some.inj report⟩

def serving (registry : Registry) (pages : Listing String String) : Engine Rat :=
  make registry Pattern.search (.serving pages) ⟨15, 2, 1⟩ 200 2 1 none

end Engine

end SourceTree
