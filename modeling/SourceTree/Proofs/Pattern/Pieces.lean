import SourceTree.Proofs.Pattern.Places

/-! # Pieces that patterns describe

A pattern describes pieces of a text, each from one place to another. Searching follows all places
of the text together and finds a piece exactly when the pattern describes one, whatever the pattern:
no alternative is lost by following places together, and no repetition ends too early. -/

namespace SourceTree.Pattern

open Cursor

/-! ## The first piece -/

def FindsBehind (find : Cursor → (Cursor → Option Cursor) → Option Cursor) : Prop :=
  ∀ {cursor found : Cursor} {accept : Cursor → Option Cursor}, find cursor accept = some found →
    ∃ stop, Reaches cursor stop ∧ accept stop = some found

theorem FindsBehind.reaches {find : Cursor → (Cursor → Option Cursor) → Option Cursor}
    (finds : FindsBehind find) {cursor found : Cursor} (isFound : find cursor some = some found) :
    Reaches cursor found := by
  rcases finds isFound with ⟨stop, reaches, ⟨⟩⟩
  exact reaches

theorem findsBehind_repeatInOrder (lazily : Bool)
    {step : Cursor → (Cursor → Option Cursor) → Option Cursor} (finds : FindsBehind step)
    {accept : Cursor → Option Cursor} {fuel : Nat} {cursor found : Cursor}
    (isFound : repeatInOrder lazily step accept fuel cursor = some found) :
    ∃ stop, Reaches cursor stop ∧ accept stop = some found := by
  induction fuel generalizing cursor with
  | zero => exact ⟨cursor, Reaches.refl cursor, isFound⟩
  | succ fuel induction =>
      have again : (step cursor fun next =>
          if next.left < cursor.left then repeatInOrder lazily step accept fuel next
          else accept next) = some found →
            ∃ stop, Reaches cursor stop ∧ accept stop = some found := by
        intro stepped
        rcases finds stepped with ⟨next, reaches, continued⟩
        split at continued
        · rcases induction continued with ⟨stop, further, accepted⟩
          exact ⟨stop, reaches.trans further, accepted⟩
        · exact ⟨next, reaches, continued⟩
      rw [repeatInOrder] at isFound
      cases lazily with
      | true =>
          simp only [if_true, Option.orElse_eq_or, Option.or_eq_some_iff] at isFound
          rcases isFound with accepted | ⟨-, stepped⟩
          · exact ⟨cursor, Reaches.refl cursor, accepted⟩
          · exact again stepped
      | false =>
          simp only [Bool.false_eq_true, if_false, Option.orElse_eq_or,
            Option.or_eq_some_iff] at isFound
          rcases isFound with stepped | ⟨-, accepted⟩
          · exact again stepped
          · exact ⟨cursor, Reaches.refl cursor, accepted⟩

theorem findsBehind_firstOnChain? (lazily : Bool) (set : CharSet) :
    FindsBehind fun cursor accept => firstOnChain? lazily (pass? set) accept cursor := by
  intro cursor found accept isFound
  rcases List.exists_of_findSome?_eq_some isFound with ⟨place, member, accepted⟩
  have onChain : place ∈ cursor.chain (pass? set) cursor.left [] := by
    cases lazily with
    | true => exact List.mem_reverse.1 member
    | false => exact member
  have reaches := (reaches_of_mem_chain reaches_of_pass? onChain).resolve_left List.not_mem_nil
  exact ⟨place, reaches, accepted⟩

theorem findsBehind_firstEnd? (pattern : Pattern) : FindsBehind pattern.firstEnd? := by
  induction pattern with
  | empty => exact fun isFound => ⟨_, Reaches.refl _, isFound⟩
  | one set =>
      intro cursor found accept isFound
      rcases Option.bind_eq_some_iff.1 isFound with ⟨next, passed, accepted⟩
      exact ⟨next, reaches_of_pass? passed, accepted⟩
  | boundary inside | textStart | textEnd =>
      intro cursor found accept isFound
      rcases Option.ite_none_right_eq_some.1 isFound with ⟨-, accepted⟩
      exact ⟨cursor, Reaches.refl cursor, accepted⟩
  | followed first second firstFinds secondFinds =>
      intro cursor found accept isFound
      rcases firstFinds isFound with ⟨middle, toMiddle, further⟩
      rcases secondFinds further with ⟨stop, toStop, accepted⟩
      exact ⟨stop, toMiddle.trans toStop, accepted⟩
  | either left right leftFinds rightFinds =>
      intro cursor found accept isFound
      rw [firstEnd?, Option.orElse_eq_or, Option.or_eq_some_iff] at isFound
      rcases isFound with onLeft | ⟨-, onRight⟩
      · exact leftFinds onLeft
      · exact rightFinds onRight
  | many lazily body finds =>
      intro cursor found accept isFound
      cases body with
      | one set => exact findsBehind_firstOnChain? lazily set isFound
      | _ => exact findsBehind_repeatInOrder lazily finds isFound
  | exhausted body finds =>
      intro cursor found accept isFound
      rcases Option.bind_eq_some_iff.1 isFound with ⟨last, isLast, accepted⟩
      have onChain := List.mem_of_mem_head? isLast
      have reaches := (reaches_of_mem_chain (fun ended => finds.reaches ended)
        onChain).resolve_left List.not_mem_nil
      exact ⟨last, reaches, accepted⟩
  | settled body finds =>
      intro cursor found accept isFound
      rcases Option.bind_eq_some_iff.1 isFound with ⟨next, ended, accepted⟩
      exact ⟨next, finds.reaches ended, accepted⟩
  | ahead negated body _ =>
      intro cursor found accept isFound
      rcases Option.ite_none_right_eq_some.1 isFound with ⟨-, accepted⟩
      exact ⟨cursor, Reaches.refl cursor, accepted⟩

/-! ## Any piece -/

/-- The places between which a pattern describes a piece. A settled pattern stays with the first
one, and an exhausted one goes on with first ones until it is stuck. -/
def Describes : Pattern → Cursor → Cursor → Prop
  | .empty, start, stop => stop = start
  | .one set, start, stop => start.pass? set = some stop
  | .boundary inside, start, stop => stop = start ∧ start.isBoundary ≠ inside
  | .textStart, start, stop => stop = start ∧ start.before = none
  | .textEnd, start, stop => stop = start ∧ start.isAtEnd
  | .followed first second, start, stop =>
      ∃ middle, first.Describes start middle ∧ second.Describes middle stop
  | .either left right, start, stop => left.Describes start stop ∨ right.Describes start stop
  | .many _ body, start, stop => Relation.ReflTransGen body.Describes start stop
  | .exhausted body, start, stop =>
      Relation.ReflTransGen (fun place next => body.firstEnd? place some = some next) start stop ∧
        body.isStuckAt stop
  | .settled body, start, stop => body.firstEnd? start some = some stop
  | .ahead negated body, start, stop =>
      stop = start ∧ ((∃ next, body.Describes start next) ↔ negated = false)

theorem follows_filter {keeps : Cursor → Bool} {leads : Cursor → Cursor → Prop}
    (leadsIff : ∀ {text : List Char} {place : Cursor}, IsIn text place → ∀ next,
      leads place next ↔ next = place ∧ keeps place)
    (stays : ∀ {place next : Cursor}, leads place next → next = place) :
    Follows leads (List.filter keeps) where
  reaches := fun toNext => stays toNext ▸ Reaches.refl _
  listed := fun listed => listed.sublist List.filter_sublist
  memIff := by
    intro text places listed next
    rw [List.mem_filter]
    constructor
    · rintro ⟨member, kept⟩
      exact ⟨next, member, (leadsIff (listed.isIn next member) next).2 ⟨rfl, kept⟩⟩
    · rintro ⟨place, member, toNext⟩
      rcases (leadsIff (listed.isIn place member) next).1 toNext with ⟨rfl, kept⟩
      exact ⟨member, kept⟩

theorem reaches_of_firstEnd? {pattern : Pattern} {place next : Cursor}
    (found : pattern.firstEnd? place some = some next) : Reaches place next :=
  FindsBehind.reaches (findsBehind_firstEnd? pattern) found

theorem firstEnds_cases (pattern : Pattern) {text : List Char} {places : List Cursor}
    (listed : Listed text places) :
    Listed text (pattern.firstEnds places) ∧ ∀ next, next ∈ pattern.firstEnds places ↔
      ∃ place ∈ places, pattern.firstEnd? place some = some next := by
  induction places with
  | nil => exact ⟨listed_nil, by simp [firstEnds]⟩
  | cons place places induction =>
      rcases listed_cons.1 listed with ⟨isIn, -, rest⟩
      rcases induction rest with ⟨restListed, members⟩
      have hereListed : Listed text (pattern.firstEnd? place some).toList := by
        cases found : pattern.firstEnd? place some with
        | none => exact listed_nil
        | some next => exact listed_singleton ((reaches_of_firstEnd? found).isIn isIn)
      refine ⟨listed_merge hereListed restListed, fun next => ?_⟩
      have isHere : pattern.firstEnd? place some = some next ↔
          next ∈ (pattern.firstEnd? place some).toList := Option.mem_toList.symm
      rw [List.exists_mem_cons_iff, ← members next, isHere]
      exact mem_merge hereListed restListed

theorem follows_firstEnds (pattern : Pattern) :
    Follows (fun place next => pattern.firstEnd? place some = some next) pattern.firstEnds where
  reaches := reaches_of_firstEnd?
  listed := fun listed => (firstEnds_cases pattern listed).1
  memIff := fun listed _ => (firstEnds_cases pattern listed).2 _

theorem follows_pass? (set : CharSet) :
    Follows (fun place next => place.pass? set = some next)
      (List.filterMap (Cursor.pass? set)) where
  reaches := reaches_of_pass?
  listed := by
    intro text places listed
    refine ⟨fun next member => ?_, ?_⟩
    · rcases List.mem_filterMap.1 member with ⟨place, isPlace, passed⟩
      exact (reaches_of_pass? passed).isIn (listed.isIn place isPlace)
    · refine listed.ascending.filterMap _
        fun place other before next passed otherNext otherPassed => ?_
      have := left_of_pass? passed
      have := left_of_pass? otherPassed
      omega
  memIff := fun _ _ => List.mem_filterMap

theorem follows_ends (pattern : Pattern) : Follows pattern.Describes pattern.ends := by
  induction pattern with
  | empty =>
      exact ⟨fun same => same ▸ Reaches.refl _, id, fun _ _ => by simp [Describes, ends]⟩
  | one set => exact follows_pass? set
  | boundary inside =>
      exact follows_filter (fun _ _ => by simp [Describes, bne_iff_ne]) And.left
  | textStart => exact follows_filter (fun _ _ => by simp [Describes]) And.left
  | textEnd => exact follows_filter (fun _ _ => by simp [Describes]) And.left
  | followed first second firstFollows secondFollows =>
      refine ⟨?_, fun listed => secondFollows.listed (firstFollows.listed listed), ?_⟩
      · rintro place next ⟨middle, toMiddle, toNext⟩
        exact (firstFollows.reaches toMiddle).trans (secondFollows.reaches toNext)
      · intro text places listed next
        rw [ends, secondFollows.memIff (firstFollows.listed listed)]
        simp only [firstFollows.memIff listed, Describes]
        tauto
  | either left right leftFollows rightFollows =>
      refine ⟨?_, fun listed => ?_, ?_⟩
      · rintro place next (onLeft | onRight)
        · exact leftFollows.reaches onLeft
        · exact rightFollows.reaches onRight
      · exact listed_merge (leftFollows.listed listed) (rightFollows.listed listed)
      · intro text places listed next
        rw [ends, mem_merge (leftFollows.listed listed) (rightFollows.listed listed),
          leftFollows.memIff listed, rightFollows.memIff listed]
        simp only [Describes, and_or_left, exists_or]
  | many lazily body follows => exact follows.closure
  | exhausted body _ =>
      have chained := (follows_firstEnds body).closure
      refine ⟨fun described => chained.reaches described.1, fun listed => ?_, ?_⟩
      · exact (chained.listed listed).sublist List.filter_sublist
      · intro text places listed next
        rw [ends, List.mem_filter, chained.memIff listed]
        simp only [Describes]
        tauto
  | settled body _ => exact follows_firstEnds body
  | ahead negated body follows =>
      -- Looking ahead leads nowhere. A place is kept for the ends from that place alone.
      refine follows_filter (fun {text place} isIn next => and_congr_right fun _ => ?_) And.left
      have members : ∀ next, next ∈ body.ends [place] ↔
          ∃ start ∈ [place], body.Describes start next :=
        fun _ => follows.memIff (listed_singleton isIn)
      simp only [List.mem_singleton, exists_eq_left] at members
      rw [decide_eq_true_eq]
      cases found : body.ends [place] with
      | nil => simp [← members, found]
      | cons first _ =>
          have described : ∃ next, body.Describes place next :=
            ⟨first, (members first).1 (by simp [found])⟩
          simp [described, eq_comm]

/-- A search finds a piece exactly where the pattern describes one. -/
theorem occursIn_iff {pattern : Pattern} {text : List Char} :
    pattern.occursIn text = true ↔
      ∃ front rest stop, text = front ++ rest ∧ pattern.Describes (between front rest) stop := by
  have members : ∀ stop, stop ∈ pattern.ends (all text) ↔
      ∃ start ∈ all text, pattern.Describes start stop :=
    fun _ => (follows_ends pattern).memIff (listed_all text)
  rw [occursIn, Bool.not_eq_true', List.isEmpty_eq_false_iff_exists_mem]
  simp only [members, mem_all]
  constructor
  · rintro ⟨stop, start, ⟨front, rest, split, rfl⟩, described⟩
    exact ⟨front, rest, stop, split, described⟩
  · rintro ⟨front, rest, stop, split, described⟩
    exact ⟨stop, between front rest, ⟨front, rest, split, rfl⟩, described⟩

end SourceTree.Pattern
