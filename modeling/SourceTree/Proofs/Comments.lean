import Mathlib.Data.List.Infix
import SourceTree.Comments

/-! # Texts with comments

A text is made up of code and comments. Removing the comments takes two passes, and the first looks
for block comments in line comments as well. Where no line comment lets it start a block comment
that ends behind the line, the two passes leave the code and the ends of the lines, and nothing
else. -/

namespace SourceTree.Comments

/-! ## What a text is made up of -/

structure Plain (text : List Char) : Prop where
  noBlock : ¬['/', '*'] <:+: text
  noLine : ¬['/', '/'] <:+: text

/-- A comment of the language: what opens it, a text that does not end it, and what ends it. -/
inductive Comment where
  | line (text : List Char) (oneLine : '\n' ∉ text)
  | block (text : List Char) (unclosed : ¬['*', '/'] <:+: text)

/-- A piece of code does not end in a slash, so that what follows opens no comment together with
it. -/
inductive Piece where
  | code (text : List Char) (plain : Plain text) (apart : text.getLast? ≠ some '/')
  | comment (inner : Comment)

def Comment.render : Comment → List Char
  | line text _ => '/' :: '/' :: (text ++ ['\n'])
  | block text _ => '/' :: '*' :: (text ++ ['*', '/'])

def Comment.remains : Comment → List Char
  | line _ _ => ['\n']
  | block _ _ => []

def Piece.render : Piece → List Char
  | code text _ _ => text
  | comment inner => inner.render

def Piece.remains : Piece → List Char
  | code text _ _ => text
  | comment inner => inner.remains

def render (pieces : List Piece) : List Char :=
  pieces.flatMap Piece.render

/-! ## Harmless line comments -/

/-- What is left of a line without the block comments that open in it, each of which is closed in
the line, or not even in what follows it. -/
inductive Reduces (rest : List Char) : List Char → List Char → Prop where
  | nothing : Reduces rest [] []
  | character {character : Char} {text kept : List Char}
      (noOpening : ¬['/', '*'] <+: character :: text) (reduces : Reduces rest text kept) :
      Reduces rest (character :: text) (character :: kept)
  | closed (inside : List Char) {text kept : List Char} (unclosed : ¬['*', '/'] <:+: inside)
      (reduces : Reduces rest text kept) :
      Reduces rest ('/' :: '*' :: (inside ++ '*' :: '/' :: text)) kept
  | unclosed {text : List Char} (never : ¬['*', '/'] <:+: text ++ rest) :
      Reduces rest ('/' :: '*' :: text) ('/' :: '*' :: text)

/-- Whether a comment that is followed by the given text does not disturb the pass over block
comments: those that open behind the first slash of a line comment are closed in its line or
nowhere, and leave a second slash in place. -/
def Comment.Harmless (rest : List Char) : Comment → Prop
  | line text _ => ∃ kept, Reduces ('\n' :: rest) ('/' :: text) ('/' :: kept)
  | block _ _ => True

def Piece.Harmless (rest : List Char) : Piece → Prop
  | code _ _ _ => True
  | comment inner => inner.Harmless rest

/-- Whether every line comment of a text is harmless where it stands. -/
def Harmless : List Piece → Prop
  | [] => True
  | piece :: pieces => piece.Harmless (render pieces) ∧ Harmless pieces

/-! ## Looking for two characters -/

theorem infix_of_cons {pair text : List Char} {character : Char}
    (absent : ¬pair <:+: character :: text) : ¬pair <:+: text :=
  fun found => absent (found.trans (List.suffix_cons character text).isInfix)

theorem pair_prefix_cons_iff {first second character : Char} {text : List Char} :
    [first, second] <+: character :: text ↔ character = first ∧ text.head? = some second := by
  rw [List.cons_prefix_cons, eq_comm (a := first)]
  cases text with
  | nil => simp
  | cons other text =>
      rw [List.cons_prefix_cons, and_iff_left List.nil_prefix, List.head?_cons, Option.some.injEq,
        eq_comm (a := second)]

theorem not_pair {first second character : Char} {text rest : List Char}
    (absent : ¬[first, second] <:+: character :: text)
    (apart : (character :: text).getLast? ≠ some first ∨ rest.head? ≠ some second) :
    ¬(character = first ∧ (text ++ rest).head? = some second) := by
  rintro ⟨isFirst, next⟩
  cases text with
  | nil => simp_all
  | cons other text =>
      have starts : [first, second] <+: character :: other :: text :=
        pair_prefix_cons_iff.2 ⟨isFirst, next⟩
      exact absent starts.isInfix

theorem apart_of_cons {first second character : Char} {text rest : List Char}
    (apart : (character :: text).getLast? ≠ some first ∨ rest.head? ≠ some second) :
    text.getLast? ≠ some first ∨ rest.head? ≠ some second := by
  cases text with
  | nil => exact .inl nofun
  | cons other text => rwa [List.getLast?_cons_cons] at apart

theorem not_infix_append {first second : Char} {text rest : List Char}
    (absent : ¬[first, second] <:+: text) (absentLater : ¬[first, second] <:+: rest)
    (apart : text.getLast? ≠ some first ∨ rest.head? ≠ some second) :
    ¬[first, second] <:+: text ++ rest := by
  induction text with
  | nil => exact absentLater
  | cons character text induction =>
      rw [List.cons_append, List.infix_cons_iff, pair_prefix_cons_iff, not_or]
      exact ⟨not_pair absent apart, induction (infix_of_cons absent) (apart_of_cons apart)⟩

theorem Plain.of_no_slash {text : List Char} (noSlash : '/' ∉ text) : Plain text :=
  ⟨fun found => noSlash (found.subset List.mem_cons_self),
    fun found => noSlash (found.subset List.mem_cons_self)⟩

theorem apart_of_no_slash {text : List Char} (noSlash : '/' ∉ text) :
    text.getLast? ≠ some '/' :=
  fun last => noSlash (List.mem_of_getLast? last)

theorem Plain.append {text rest : List Char} (plain : Plain text) (plainLater : Plain rest)
    (apart : text.getLast? ≠ some '/' ∨ (rest.head? ≠ some '*' ∧ rest.head? ≠ some '/')) :
    Plain (text ++ rest) :=
  ⟨not_infix_append plain.noBlock plainLater.noBlock (apart.imp_right And.left),
    not_infix_append plain.noLine plainLater.noLine (apart.imp_right And.right)⟩

theorem Plain.append_of_no_slash {text rest : List Char} (plain : Plain rest)
    (noSlash : '/' ∉ text) : Plain (text ++ rest) :=
  (Plain.of_no_slash noSlash).append plain (.inl (apart_of_no_slash noSlash))

theorem Plain.cons {character : Char} {rest : List Char} (noSlash : character ≠ '/')
    (plain : Plain rest) : Plain (character :: rest) := by
  have absent : '/' ∉ [character] := by simpa using noSlash.symm
  exact plain.append_of_no_slash absent

theorem closes_eq_true_iff {text : List Char} : closes text = true ↔ ['*', '/'] <:+: text := by
  induction text with
  | nil => simp [closes]
  | cons character text induction =>
      rw [List.infix_cons_iff, ← induction, pair_prefix_cons_iff, closes, Bool.or_eq_true,
        Bool.and_eq_true, decide_eq_true_eq, decide_eq_true_eq]

theorem closes_eq_false_iff {text : List Char} :
    closes text = false ↔ ¬['*', '/'] <:+: text := by
  rw [← closes_eq_true_iff, Bool.not_eq_true]

/-! ## Texts that are harmless in a line comment -/

theorem Reduces.append {rest front text kept : List Char} (noOpening : ¬['/', '*'] <:+: front)
    (apart : front.getLast? ≠ some '/' ∨ text.head? ≠ some '*')
    (reduces : Reduces rest text kept) : Reduces rest (front ++ text) (front ++ kept) := by
  induction front with
  | nil => exact reduces
  | cons character front induction =>
      exact .character (fun opens => not_pair noOpening apart (pair_prefix_cons_iff.1 opens))
        (induction (infix_of_cons noOpening) (apart_of_cons apart))

theorem Comment.harmless_of_not_infix {text : List Char} (oneLine : '\n' ∉ text)
    (noOpening : ¬['/', '*'] <:+: '/' :: text) (rest : List Char) :
    (Comment.line text oneLine).Harmless rest := by
  have unchanged : Reduces ('\n' :: rest) ('/' :: text ++ []) ('/' :: text ++ []) :=
    .append noOpening (.inr nofun) .nothing
  rw [List.append_nil] at unchanged
  exact ⟨text, unchanged⟩

theorem harmless_of_forall {pieces : List Piece}
    (each : ∀ piece ∈ pieces, ∀ rest, piece.Harmless rest) : Harmless pieces := by
  induction pieces with
  | nil => trivial
  | cons piece pieces induction =>
      exact ⟨each piece List.mem_cons_self _,
        induction fun other member => each other (List.mem_cons_of_mem _ member)⟩

/-! ## The pass over block comments -/

theorem dropBlocks_cons {character : Char} {rest : List Char}
    (code : ¬(character = '/' ∧ rest.head? = some '*')) :
    dropBlocks [] .code (character :: rest) = character :: dropBlocks [] .code rest := by
  rw [dropBlocks, if_neg code, dropBlocks_eq_append]
  rfl

theorem dropBlocks_code {text rest : List Char} (noBlock : ¬['/', '*'] <:+: text)
    (apart : text.getLast? ≠ some '/' ∨ rest.head? ≠ some '*') :
    dropBlocks [] .code (text ++ rest) = text ++ dropBlocks [] .code rest := by
  induction text with
  | nil => rfl
  | cons character text induction =>
      rw [List.cons_append, dropBlocks_cons (not_pair noBlock apart),
        induction (infix_of_cons noBlock) (apart_of_cons apart), List.cons_append]

theorem dropBlocks_comment {inside rest : List Char} (unclosed : ¬['*', '/'] <:+: inside) :
    dropBlocks [] .comment (inside ++ '*' :: '/' :: rest) = dropBlocks [] .code rest := by
  induction inside with
  | nil => rfl
  | cons character inside induction =>
      have inComment : ¬(character = '*' ∧ (inside ++ '*' :: '/' :: rest).head? = some '/') :=
        not_pair unclosed (.inr (by simp))
      rw [List.cons_append, dropBlocks, if_neg inComment, induction (infix_of_cons unclosed)]

theorem dropBlocks_block {inside rest : List Char} (unclosed : ¬['*', '/'] <:+: inside) :
    dropBlocks [] .code ('/' :: '*' :: (inside ++ '*' :: '/' :: rest)) =
      dropBlocks [] .code rest := by
  have isClosed : closes (inside ++ '*' :: '/' :: rest) = true :=
    closes_eq_true_iff.2 ⟨inside, rest, by simp⟩
  rw [dropBlocks, if_pos ⟨rfl, rfl⟩, List.drop_one, List.tail_cons, if_pos isClosed, dropBlocks,
    dropBlocks_comment unclosed]

theorem dropBlocks_unclosed {text : List Char} (never : ¬['*', '/'] <:+: text) :
    dropBlocks [] .code ('/' :: '*' :: text) = '/' :: '*' :: text := by
  simp [dropBlocks, closes_eq_false_iff.2 never]

theorem dropBlocks_of_never {text : List Char} (never : ¬['*', '/'] <:+: text) :
    dropBlocks [] .code text = text := by
  induction text with
  | nil => rfl
  | cons character text induction =>
      by_cases opens : character = '/' ∧ text.head? = some '*'
      · rcases opens with ⟨rfl, next⟩
        rcases List.head?_eq_some_iff.1 next with ⟨inside, rfl⟩
        exact dropBlocks_unclosed (infix_of_cons (infix_of_cons never))
      · rw [dropBlocks_cons opens, induction (infix_of_cons never)]

theorem Reduces.subset {rest text kept : List Char} (reduces : Reduces rest text kept) :
    kept ⊆ text := by
  induction reduces with
  | nothing => exact List.Subset.refl _
  | character noOpening reduces induction => exact List.cons_subset_cons _ induction
  | closed inside unclosed reduces induction =>
      exact fun character member => by simp [induction member]
  | unclosed never => exact List.Subset.refl _

theorem dropBlocks_of_reduces {text rest kept : List Char}
    (reduces : Reduces ('\n' :: rest) text kept) :
    dropBlocks [] .code (text ++ '\n' :: rest) = kept ++ '\n' :: dropBlocks [] .code rest := by
  induction reduces with
  | nothing => exact dropBlocks_cons (by simp)
  | @character character text kept noOpening reduces induction =>
      have isCode : ¬(character = '/' ∧ (text ++ '\n' :: rest).head? = some '*') := by
        rintro ⟨isSlash, next⟩
        cases text with
        | nil => simp at next
        | cons other text => exact noOpening (pair_prefix_cons_iff.2 ⟨isSlash, next⟩)
      rw [List.cons_append, dropBlocks_cons isCode, induction, List.cons_append]
  | closed inside unclosed reduces induction =>
      simp only [List.cons_append, List.append_assoc]
      rw [dropBlocks_block unclosed, induction]
  | @unclosed text never =>
      have neverLater : ¬['*', '/'] <:+: rest := fun found =>
        never (found.trans ⟨text ++ ['\n'], [], by simp⟩)
      rw [dropBlocks_of_never neverLater]
      exact dropBlocks_unclosed never

/-- A harmless line comment stays a line comment. -/
theorem dropBlocks_line {text rest : List Char} (oneLine : '\n' ∉ text)
    (harmless : (Comment.line text oneLine).Harmless rest) :
    ∃ kept, '\n' ∉ kept ∧ dropBlocks [] .code ('/' :: '/' :: (text ++ '\n' :: rest)) =
      '/' :: '/' :: (kept ++ '\n' :: dropBlocks [] .code rest) := by
  rcases harmless with ⟨kept, reduces⟩
  refine ⟨kept, fun member => ?_, ?_⟩
  · have earlier := reduces.subset (List.mem_cons_of_mem _ member)
    exact oneLine ((List.mem_cons.1 earlier).resolve_left (by decide))
  · have drops := dropBlocks_of_reduces reduces
    rw [List.cons_append, List.cons_append] at drops
    rw [dropBlocks_cons (by simp), drops]

/-! ## The pass over line comments -/

theorem dropLines_code {text rest : List Char} (noLine : ¬['/', '/'] <:+: text)
    (apart : text.getLast? ≠ some '/' ∨ rest.head? ≠ some '/') :
    dropLines [] false (text ++ rest) = text ++ dropLines [] false rest := by
  induction text with
  | nil => rfl
  | cons character text induction =>
      rw [List.cons_append, dropLines, if_neg Bool.false_ne_true, if_neg (not_pair noLine apart),
        dropLines_eq_append, induction (infix_of_cons noLine) (apart_of_cons apart)]
      rfl

theorem dropLines_inside {text rest : List Char} (oneLine : '\n' ∉ text) :
    dropLines [] true (text ++ '\n' :: rest) = '\n' :: dropLines [] false rest := by
  induction text with
  | nil =>
      rw [List.nil_append, dropLines, if_pos rfl, if_pos rfl, dropLines_eq_append]
      rfl
  | cons character text induction =>
      rw [List.mem_cons, not_or] at oneLine
      rw [List.cons_append, dropLines, if_pos rfl, if_neg (Ne.symm oneLine.1),
        induction oneLine.2]

theorem dropLines_line {text rest : List Char} (oneLine : '\n' ∉ text) :
    dropLines [] false ('/' :: '/' :: (text ++ '\n' :: rest)) =
      '\n' :: dropLines [] false rest := by
  have slashed : '\n' ∉ '/' :: text := by simpa using oneLine
  rw [← dropLines_inside slashed]
  simp [dropLines]

/-! ## Both passes -/

theorem strip_of_plain {text : List Char} (plain : Plain text) : strip text = text := by
  have blocks : dropBlocks [] .code (text ++ []) = text ++ [] :=
    dropBlocks_code plain.noBlock (.inr nofun)
  have lines : dropLines [] false (text ++ []) = text ++ [] :=
    dropLines_code plain.noLine (.inr nofun)
  rw [List.append_nil] at blocks lines
  rw [strip, blocks, lines]

/-- A harmless piece is stripped on its own, whatever follows it. -/
theorem strip_append {piece : Piece} {rest : List Char} (harmless : piece.Harmless rest) :
    strip (piece.render ++ rest) = piece.remains ++ strip rest := by
  cases piece with
  | code text plain apart =>
      simp only [strip, Piece.render, Piece.remains]
      rw [dropBlocks_code plain.noBlock (.inl apart), dropLines_code plain.noLine (.inl apart)]
  | comment inner =>
      cases inner with
      | line text oneLine =>
          rcases dropBlocks_line oneLine harmless with ⟨kept, stays, drops⟩
          simp only [strip, Piece.render, Piece.remains, Comment.render, Comment.remains,
            List.cons_append, List.append_assoc, List.nil_append]
          rw [drops, dropLines_line stays]
      | block text unclosed =>
          simp only [strip, Piece.render, Piece.remains, Comment.render, Comment.remains,
            List.cons_append, List.append_assoc, List.nil_append]
          rw [dropBlocks_block unclosed]

/-- Where every line comment is harmless, the code is left and the ends of the lines. -/
theorem strip_render {pieces : List Piece} (harmless : Harmless pieces) :
    strip (render pieces) = pieces.flatMap Piece.remains := by
  induction pieces with
  | nil => rfl
  | cons piece pieces induction =>
      rw [render, List.flatMap_cons, ← render, strip_append harmless.1, induction harmless.2,
        List.flatMap_cons]

/-- Elsewhere, a block comment that opens in a line comment takes with it all that stands before
the next closing, whatever lines that spans, and the rest of the closing's line. -/
theorem strip_of_opened_line {text inside more rest : List Char}
    (oneLine : '\n' ∉ text ++ more) (noEarlier : ¬['/', '*'] <:+: '/' :: '/' :: text)
    (unclosed : ¬['*', '/'] <:+: inside) (noLater : ¬['/', '*'] <:+: more) :
    strip ('/' :: '/' :: text ++ '/' :: '*' :: (inside ++ '*' :: '/' :: (more ++ '\n' :: rest))) =
      '\n' :: strip rest := by
  have lineEnd : dropBlocks [] .code ('\n' :: rest) = '\n' :: dropBlocks [] .code rest :=
    dropBlocks_cons (by simp)
  rw [strip, dropBlocks_code noEarlier (.inr (by simp)), dropBlocks_block unclosed,
    dropBlocks_code noLater (.inr (by simp)), lineEnd, strip, ← dropLines_line oneLine,
    List.append_assoc]
  rfl

end SourceTree.Comments
