import SourceTree.Pattern.Reader
import SourceTree.Proofs.ImportStatement.Layouts
import SourceTree.Proofs.Pattern.Pieces

/-! # Pieces spelled out

What sequences of literals, repetitions and boundaries describe, as texts that stand between two
parts of a text. -/

namespace SourceTree.Pattern

open Cursor ImportStatement

def literal (word : List Char) : List Pattern :=
  word.map fun character => .one (.only character)

def StandsIn (word : List Char) (continues : List Char → Prop) (text : List Char) : Prop :=
  ∃ front rest, text = front ++ (word ++ rest) ∧ endsInWord front = false ∧ continues rest

def StartsWith (admits : Char → Prop) (text : List Char) : Prop :=
  ∃ blanks character rest, text = blanks ++ character :: rest ∧
    (∀ blank ∈ blanks, Text.isBlank blank = true) ∧ admits character

/-! ## Sequences -/

theorem describes_sequence_cons {first : Pattern} {rest : List Pattern} {start stop : Cursor} :
    (sequence (first :: rest)).Describes start stop ↔
      ∃ middle, first.Describes start middle ∧ (sequence rest).Describes middle stop := by
  cases rest with
  | nil => simp [sequence, Describes]
  | cons second rest => exact Iff.rfl

theorem exists_describes_nil (start : Cursor) : ∃ stop, (sequence []).Describes start stop :=
  ⟨start, rfl⟩

theorem exists_describes_cons {first : Pattern} {rest : List Pattern} {start : Cursor} :
    (∃ stop, (sequence (first :: rest)).Describes start stop) ↔
      ∃ middle, first.Describes start middle ∧
        ∃ stop, (sequence rest).Describes middle stop := by
  simp only [describes_sequence_cons]
  constructor
  · rintro ⟨stop, middle, toMiddle, toStop⟩
    exact ⟨middle, toMiddle, stop, toStop⟩
  · rintro ⟨middle, toMiddle, stop, toStop⟩
    exact ⟨stop, middle, toMiddle, toStop⟩

section

variable {front text : List Char} {stop : Cursor}

theorem describes_one_iff {set : CharSet} :
    (Pattern.one set).Describes (between front text) stop ↔
      ∃ character rest, text = character :: rest ∧ set.contains character = true ∧
        stop = between (front ++ [character]) rest := by
  cases text with
  | nil => simp [Describes, pass?_between_nil]
  | cons character rest =>
      rw [Describes, pass?_between, Option.ite_none_right_eq_some]
      constructor
      · rintro ⟨contained, isStop⟩
        exact ⟨character, rest, rfl, contained, (Option.some.inj isStop).symm⟩
      · rintro ⟨_, _, ⟨⟩, contained, rfl⟩
        exact ⟨contained, rfl⟩

theorem describes_many_one_iff {lazily : Bool} {set : CharSet} :
    (Pattern.many lazily (.one set)).Describes (between front text) stop ↔
      ∃ run rest, text = run ++ rest ∧ (∀ character ∈ run, set.contains character = true) ∧
        stop = between (front ++ run) rest := by
  rw [Describes]
  constructor
  · intro repeated
    induction repeated with
    | refl => exact ⟨[], text, rfl, List.forall_mem_nil _, by rw [List.append_nil]⟩
    | tail _ next induction =>
        rcases induction with ⟨run, rest, rfl, contained, rfl⟩
        rcases describes_one_iff.1 next with ⟨character, further, rfl, isContained, rfl⟩
        refine ⟨run ++ [character], further, List.append_cons _ _ _, ?_, by simp⟩
        exact List.forall_mem_append.2 ⟨contained, List.forall_mem_singleton.2 isContained⟩
  · rintro ⟨run, rest, rfl, contained, rfl⟩
    induction run generalizing front with
    | nil =>
        rw [List.append_nil]
        exact .refl
    | cons character run induction =>
        rcases List.forall_mem_cons.1 contained with ⟨isContained, others⟩
        refine .head (describes_one_iff.2 ⟨character, run ++ rest, rfl, isContained, rfl⟩) ?_
        have moved : front ++ character :: run = front ++ [character] ++ run :=
          List.append_cons front character run
        rw [moved]
        exact induction others

theorem describes_literal_append_iff {word : List Char} {others : List Pattern} :
    (sequence (literal word ++ others)).Describes (between front text) stop ↔
      ∃ rest, text = word ++ rest ∧
        (sequence others).Describes (between (front ++ word) rest) stop := by
  induction word generalizing front text with
  | nil => simp [literal]
  | cons character word induction =>
      rw [literal, List.map_cons, List.cons_append, describes_sequence_cons]
      constructor
      · rintro ⟨middle, first, others⟩
        rcases describes_one_iff.1 first with ⟨found, rest, rfl, isFound, rfl⟩
        rcases induction.1 others with ⟨further, rfl, described⟩
        have same : found = character := by simpa [CharSet.contains] using isFound
        subst same
        exact ⟨further, rfl, by rwa [List.append_cons]⟩
      · rintro ⟨rest, rfl, described⟩
        refine ⟨between (front ++ [character]) (word ++ rest),
          describes_one_iff.2 ⟨character, _, rfl, by simp [CharSet.contains], rfl⟩, ?_⟩
        exact induction.2 ⟨rest, rfl, by rwa [← List.append_cons]⟩

theorem describes_literal_iff {word : List Char} :
    (sequence (literal word)).Describes (between front text) stop ↔
      ∃ rest, text = word ++ rest ∧ stop = between (front ++ word) rest := by
  rw [← List.append_nil (literal word)]
  exact describes_literal_append_iff

def oneOf : List (List Char) → Pattern
  | [] => .one .nothing
  | [word] => sequence (literal word)
  | word :: words => .either (sequence (literal word)) (oneOf words)

theorem describes_oneOf_iff {words : List (List Char)} :
    (oneOf words).Describes (between front text) stop ↔
      ∃ word ∈ words, ∃ rest, text = word ++ rest ∧ stop = between (front ++ word) rest := by
  induction words with
  | nil => simp [oneOf, describes_one_iff, CharSet.contains]
  | cons word words induction =>
      rw [List.exists_mem_cons_iff, ← describes_literal_iff]
      cases words with
      | nil => simp [oneOf]
      | cons other words => exact or_congr_right induction

theorem exists_describes_oneOf_iff {words : List (List Char)} {others : List Pattern} :
    (∃ stop, (sequence (oneOf words :: others)).Describes (between front text) stop) ↔
      ∃ word ∈ words, ∃ rest, text = word ++ rest ∧
        ∃ stop, (sequence others).Describes (between (front ++ word) rest) stop := by
  rw [exists_describes_cons]
  constructor
  · rintro ⟨_, isWord, continued⟩
    rcases describes_oneOf_iff.1 isWord with ⟨word, member, rest, rfl, rfl⟩
    exact ⟨word, member, rest, rfl, continued⟩
  · rintro ⟨word, member, rest, rfl, continued⟩
    exact ⟨_, describes_oneOf_iff.2 ⟨word, member, rest, rfl, rfl⟩, continued⟩

theorem isBoundary_between {character : Char} (isWord : Text.isWord character = true)
    (rest : List Char) :
    (between front (character :: rest)).isBoundary = true ↔ endsInWord front = false := by
  simp [isBoundary, between, atStart, endsInWord, isWord]

end

/-! ## Words -/

theorem exists_describes_word_iff {character : Char} {word : List Char}
    (isWord : Text.isWord character = true) {others : List Pattern} {front text : List Char} :
    (∃ stop, (sequence (.boundary false :: literal (character :: word) ++ others)).Describes
        (between front text) stop) ↔
      endsInWord front = false ∧ ∃ rest, text = character :: word ++ rest ∧
        ∃ stop, (sequence others).Describes (between (front ++ character :: word) rest) stop := by
  rw [List.cons_append, exists_describes_cons]
  constructor
  · rintro ⟨_, ⟨rfl, isBoundary⟩, stop, described⟩
    rcases describes_literal_append_iff.1 described with ⟨rest, rfl, continued⟩
    rw [Bool.ne_false_iff, List.cons_append, isBoundary_between isWord] at isBoundary
    exact ⟨isBoundary, rest, rfl, stop, continued⟩
  · rintro ⟨separate, rest, rfl, stop, continued⟩
    refine ⟨_, ⟨rfl, ?_⟩, stop, describes_literal_append_iff.2 ⟨rest, rfl, continued⟩⟩
    rw [Bool.ne_false_iff, List.cons_append, isBoundary_between isWord]
    exact separate

theorem exists_describes_blanks_iff {set : CharSet} {admits : Char → Prop}
    (containsIff : ∀ character, set.contains character = true ↔ admits character)
    {front text : List Char} :
    (∃ stop, (sequence [.many false (.one .blank), .one set]).Describes (between front text) stop) ↔
      StartsWith admits text := by
  rw [exists_describes_cons]
  simp only [StartsWith, ← containsIff]
  constructor
  · rintro ⟨_, blanks, stop, described⟩
    rcases describes_many_one_iff.1 blanks with ⟨run, rest, rfl, blank, rfl⟩
    rcases describes_one_iff.1 described with ⟨character, further, rfl, contained, -⟩
    exact ⟨run, character, further, rfl, blank, contained⟩
  · rintro ⟨run, character, further, rfl, blank, contained⟩
    exact ⟨_, describes_many_one_iff.2 ⟨run, character :: further, rfl, blank, rfl⟩, _,
      describes_one_iff.2 ⟨character, further, rfl, contained, rfl⟩⟩

theorem exists_describes_somewhere_iff {lazily : Bool} {set : CharSet}
    (all : ∀ character, set.contains character = true) {character : Char} {word : List Char}
    (isWord : Text.isWord character = true) {others : List Pattern}
    {continues : List Char → Prop} {text : List Char}
    (continued : ∀ {front rest : List Char},
      (∃ stop, (sequence others).Describes (between front rest) stop) ↔ continues rest) :
    (∃ stop, (sequence (.many lazily (.one set) :: .boundary false ::
        literal (character :: word) ++ others)).Describes (between [] text) stop) ↔
      StandsIn (character :: word) continues text := by
  rw [List.cons_append, List.cons_append, exists_describes_cons]
  constructor
  · rintro ⟨_, run, described⟩
    rcases describes_many_one_iff.1 run with ⟨front, rest, rfl, -, rfl⟩
    rcases (exists_describes_word_iff isWord).1 described with ⟨separate, further, rfl, others⟩
    exact ⟨front, further, rfl, separate, continued.1 others⟩
  · rintro ⟨front, rest, rfl, separate, continues⟩
    refine ⟨_, describes_many_one_iff.2 ⟨front, _, rfl, fun _ _ => all _, rfl⟩, ?_⟩
    exact (exists_describes_word_iff isWord).2 ⟨separate, rest, rfl, continued.2 continues⟩

theorem occursIn_word_iff {character : Char} {word : List Char}
    (isWord : Text.isWord character = true) {others : List Pattern}
    {continues : List Char → Prop} {text : List Char}
    (continued : ∀ {front rest : List Char},
      (∃ stop, (sequence others).Describes (between front rest) stop) ↔ continues rest) :
    (sequence (.boundary false :: literal (character :: word) ++ others)).occursIn text = true ↔
      StandsIn (character :: word) continues text := by
  rw [occursIn_iff]
  constructor
  · rintro ⟨front, rest, stop, rfl, described⟩
    rcases (exists_describes_word_iff isWord).1 ⟨stop, described⟩ with
      ⟨separate, further, rfl, others⟩
    exact ⟨front, further, rfl, separate, continued.1 others⟩
  · rintro ⟨front, rest, rfl, separate, continues⟩
    rcases (exists_describes_word_iff isWord).2 ⟨separate, rest, rfl, continued.2 continues⟩ with
      ⟨stop, described⟩
    exact ⟨front, _, stop, rfl, described⟩

end SourceTree.Pattern
