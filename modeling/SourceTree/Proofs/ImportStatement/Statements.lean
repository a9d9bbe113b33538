import Mathlib.Data.List.TakeDrop
import SourceTree.ImportStatement

/-! # The forms of import statements

A statement is spelled out token by token, with the blanks that stand between the tokens. Reading a
text finds a statement at its start exactly when it starts with a statement that is spelled so, and
then finds its path and what follows it. -/

namespace SourceTree.ImportStatement

open Text

/-! ## Kinds of characters -/

def StopsAt (kind : Char → Bool) (text : List Char) : Prop :=
  ∀ character ∈ text.head?, kind character = false

@[simp] theorem stopsAt_nil (kind : Char → Bool) : StopsAt kind [] :=
  fun _ absurd => nomatch absurd

@[simp] theorem stopsAt_cons {kind : Char → Bool} {character : Char} {text : List Char} :
    StopsAt kind (character :: text) ↔ kind character = false := by
  simp [StopsAt]

theorem StopsAt.of_append {kind : Char → Bool} {front rest : List Char}
    (stops : StopsAt kind (front ++ rest)) : StopsAt kind front := by
  cases front with
  | nil => exact stopsAt_nil kind
  | cons character front => exact stopsAt_cons.2 (stopsAt_cons.1 stops)

theorem stopsAt_dropWhile (kind : Char → Bool) (text : List Char) :
    StopsAt kind (text.dropWhile kind) := by
  intro character first
  have := List.head?_dropWhile_not kind text
  rw [first] at this
  simpa using this

theorem dropWhile_append {kind : Char → Bool} {front rest : List Char}
    (all : ∀ character ∈ front, kind character = true) (stops : StopsAt kind rest) :
    (front ++ rest).dropWhile kind = rest := by
  rw [List.dropWhile_append_of_pos all]
  cases rest with
  | nil => rfl
  | cons character rest => rw [List.dropWhile_cons_of_neg (by simpa using stopsAt_cons.1 stops)]

theorem span_append {kind : Char → Bool} {front rest : List Char}
    (all : ∀ character ∈ front, kind character = true) (stops : StopsAt kind rest) :
    (front ++ rest).span kind = (front, rest) := by
  rw [List.span_eq_takeWhile_dropWhile, dropWhile_append all stops,
    List.takeWhile_append_of_pos all]
  cases rest with
  | nil => simp
  | cons character rest =>
      rw [List.takeWhile_cons_of_neg (by simpa using stopsAt_cons.1 stops), List.append_nil]

theorem isWord_of_isBlank {character : Char} (blank : isBlank character = true) :
    isWord character = false :=
  of_inRanges (isWord · = false) (by decide +kernel) blank

/-! ## Tokens -/

structure Blanks where
  text : List Char
  allBlank : ∀ character ∈ text, isBlank character = true

structure Separator extends Blanks where
  nonempty : text ≠ []

structure Word where
  letters : List Char
  nonempty : letters ≠ []
  allWord : ∀ character ∈ letters, isWord character = true

structure Quote where
  character : Char
  isQuote : isQuote character = true

def Blanks.none : Blanks := ⟨[], nofun⟩

def Separator.space : Separator := ⟨⟨[' '], List.forall_mem_singleton.2 (by decide)⟩, by decide⟩

def Quote.single : Quote := ⟨'\'', rfl⟩

def Quote.double : Quote := ⟨'"', rfl⟩

theorem Quote.eq_or_eq (quote : Quote) : quote.character = '"' ∨ quote.character = '\'' := by
  simpa [ImportStatement.isQuote] using quote.isQuote

theorem Quote.notBlank (quote : Quote) : isBlank quote.character = false := by
  rcases quote.eq_or_eq with same | same <;> rw [same] <;> decide

theorem Quote.notWord (quote : Quote) : isWord quote.character = false := by
  rcases quote.eq_or_eq with same | same <;> rw [same] <;> decide

/-- What a statement imports, up to its path. The blanks before `from` may be missing after a name
as well, which then ends in that word. -/
inductive Clause where
  | nothing
  | members (inside : List Char) (openInside : '\x7d' ∉ inside) (before after : Blanks)
  | everything (beforeAs : Blanks) (afterAs : Separator) (name : Word) (before after : Blanks)
  | named (name : Word) (before after : Blanks)

namespace Clause

def afterName (name : Word) (before after : Blanks) : List Char :=
  name.letters ++ before.text ++ "from".toList ++ after.text

def render : Clause → List Char
  | nothing => []
  | members inside _ before after =>
      '\x7b' :: inside ++ '\x7d' :: before.text ++ "from".toList ++ after.text
  | everything beforeAs afterAs name before after =>
      '*' :: beforeAs.text ++ "as".toList ++ afterAs.text ++ afterName name before after
  | named name before after => afterName name before after

end Clause

inductive Naming where
  | nothing
  | named (beforeAs : Blanks) (afterAs : Separator) (name : Word)

def Naming.render : Naming → List Char
  | nothing => []
  | named beforeAs afterAs name =>
      beforeAs.text ++ "as".toList ++ afterAs.text ++ name.letters

structure Statement where
  afterImport : Separator := .space
  clause : Clause := .nothing
  opening : Quote := .double
  path : List Char
  pathNonempty : path ≠ [] := by decide
  pathUnquoted : ∀ character ∈ path, isQuote character = false := by simp [isQuote]
  closing : Quote := .double
  naming : Naming := .nothing
  beforeEnd : Blanks := .none

def Statement.render (statement : Statement) : List Char :=
  "import".toList ++ statement.afterImport.text ++ statement.clause.render ++
    statement.opening.character :: statement.path ++
      statement.closing.character :: statement.naming.render ++ statement.beforeEnd.text ++ [';']

/-! ## Reading tokens -/

variable {text rest : List Char}

theorem skipBlanks_append (blanks : Blanks) (stops : StopsAt isBlank rest) :
    skipBlanks (blanks.text ++ rest) = rest :=
  dropWhile_append blanks.allBlank stops

theorem exists_skipBlanks (text : List Char) :
    ∃ blanks : Blanks, text = blanks.text ++ skipBlanks text :=
  ⟨⟨text.takeWhile isBlank, List.all_eq_true.1 List.all_takeWhile⟩,
    List.takeWhile_append_dropWhile.symm⟩

theorem afterBlanks?_append (separator : Separator) (stops : StopsAt isBlank rest) :
    afterBlanks? (separator.text ++ rest) = some rest := by
  have skipped := skipBlanks_append separator.toBlanks stops
  rcases separator with ⟨⟨blanks, all⟩, nonempty⟩
  cases blanks with
  | nil => exact absurd rfl nonempty
  | cons character blanks =>
      simp only [List.cons_append] at skipped ⊢
      rw [afterBlanks?, if_pos (all character List.mem_cons_self), skipped]

theorem exists_of_afterBlanks? (found : afterBlanks? text = some rest) :
    ∃ separator : Separator, text = separator.text ++ rest := by
  cases text with
  | nil => cases found
  | cons character text =>
      simp only [afterBlanks?] at found
      split at found
      next blank =>
        rcases exists_skipBlanks (character :: text) with ⟨blanks, split⟩
        cases found
        refine ⟨⟨blanks, fun nothing => ?_⟩, split⟩
        rw [nothing, List.nil_append] at split
        have stops := stopsAt_dropWhile isBlank (character :: text)
        rw [← skipBlanks, ← split, stopsAt_cons, blank] at stops
        cases stops
      next => cases found

theorem word?_append (word : Word) (stops : StopsAt isWord rest) :
    word? (word.letters ++ rest) = some (word.letters, rest) := by
  rw [word?, span_append word.allWord stops]
  simp [word.nonempty]

theorem exists_of_word? {letters : List Char} (found : word? text = some (letters, rest)) :
    ∃ word : Word, word.letters = letters ∧ text = word.letters ++ rest := by
  rw [word?, List.span_eq_takeWhile_dropWhile] at found
  simp only [List.isEmpty_iff] at found
  split at found
  next => cases found
  next nonempty =>
    cases found
    exact ⟨⟨text.takeWhile isWord, nonempty, List.all_eq_true.1 List.all_takeWhile⟩, rfl,
      List.takeWhile_append_dropWhile.symm⟩

/-! ## Reading clauses -/

theorem stopsAt_append {kind : Char → Bool} {front : List Char}
    (all : ∀ character ∈ front, kind character = false) (stops : StopsAt kind rest) :
    StopsAt kind (front ++ rest) := by
  cases front with
  | nil => exact stops
  | cons character front => exact stopsAt_cons.2 (all character List.mem_cons_self)

theorem stopsAt_blanks (blanks : Blanks) (stops : StopsAt isWord rest) :
    StopsAt isWord (blanks.text ++ rest) :=
  stopsAt_append (fun character member => isWord_of_isBlank (blanks.allBlank character member))
    stops

theorem stopsAt_word (word : Word) (rest : List Char) :
    StopsAt isBlank (word.letters ++ rest) := by
  rcases word with ⟨letters, nonempty, all⟩
  cases letters with
  | nil => exact absurd rfl nonempty
  | cons character letters =>
      rw [List.cons_append, stopsAt_cons]
      by_contra blank
      have isWord := all character List.mem_cons_self
      rw [isWord_of_isBlank (Bool.not_eq_false _ ▸ blank)] at isWord
      cases isWord

theorem afterWord?_append (word rest : List Char) : afterWord? word (word ++ rest) = some rest :=
  afterWord?_eq_some_iff.2 rfl

theorem afterFrom?_append (before after : Blanks) (stops : StopsAt isBlank rest) :
    afterFrom? (before.text ++ ("from".toList ++ (after.text ++ rest))) = some rest := by
  have stopsAtFrom : StopsAt isBlank ("from".toList ++ (after.text ++ rest)) :=
    stopsAt_cons.2 (by decide)
  rw [afterFrom?, skipBlanks_append before stopsAtFrom, afterWord?_append,
    Option.map_some, skipBlanks_append after stops]

theorem exists_of_afterFrom? (found : afterFrom? text = some rest) :
    ∃ before after : Blanks, text = before.text ++ ("from".toList ++ (after.text ++ rest)) := by
  rcases Option.map_eq_some_iff.1 found with ⟨afterKeyword, isFrom, rfl⟩
  rcases exists_skipBlanks text with ⟨before, split⟩
  rcases exists_skipBlanks afterKeyword with ⟨after, splitAfter⟩
  rw [afterWord?_eq_some_iff] at isFrom
  exact ⟨before, after, by rw [← splitAfter, ← isFrom, ← split]⟩

theorem afterFrom?_of_quote (after : Blanks) (quote : Quote) (rest : List Char) :
    afterFrom? (after.text ++ quote.character :: rest) = none := by
  have stops : StopsAt isBlank (quote.character :: rest) :=
    stopsAt_cons.2 quote.notBlank
  have isNoKeyword : quote.character ≠ 'f' := by
    rcases quote.eq_or_eq with same | same <;> rw [same] <;> decide
  rw [afterFrom?, skipBlanks_append after stops, afterWord?, if_neg, Option.map_none]
  simp [isNoKeyword.symm]

theorem afterNameFrom?_append (name : Word) (before after : Blanks) (quote : Quote)
    (rest : List Char) :
    afterNameFrom? (Clause.afterName name before after ++ quote.character :: rest) =
      some (quote.character :: rest) := by
  have stops : StopsAt isBlank (quote.character :: rest) :=
    stopsAt_cons.2 quote.notBlank
  have stopsWord : StopsAt isWord (quote.character :: rest) :=
    stopsAt_cons.2 quote.notWord
  -- Without blanks the keyword is the end of the name's word; with blanks it is a word of its own.
  rcases before with ⟨before, allBlank⟩
  cases before with
  | nil =>
      have isWord : ∀ character ∈ name.letters ++ "from".toList, isWord character = true := by
        have isKeyword : ∀ character ∈ "from".toList, Text.isWord character = true :=
          List.all_eq_true.1 (by decide)
        exact fun character member =>
          (List.mem_append.1 member).elim (name.allWord character) (isKeyword character)
      have glued := word?_append ⟨name.letters ++ "from".toList, by simp [name.nonempty], isWord⟩
        (stopsAt_blanks after stopsWord)
      have long : 4 < (name.letters ++ "from".toList).length := by
        have positive := List.length_pos_iff.2 name.nonempty
        simpa using positive
      have endsInFrom : "from".toList.isSuffixOf (name.letters ++ "from".toList) = true :=
        List.isSuffixOf_iff_suffix.2 (List.suffix_append _ _)
      simp only [Clause.afterName, List.append_nil, List.append_assoc] at glued ⊢
      simp only [afterNameFrom?, glued, afterFrom?_of_quote]
      rw [if_pos ⟨long, endsInFrom⟩, skipBlanks_append after stops]
  | cons blank before =>
      have stopsName : StopsAt Text.isWord
          (blank :: before ++ ("from".toList ++ (after.text ++ quote.character :: rest))) :=
        stopsAt_cons.2 (isWord_of_isBlank (allBlank blank List.mem_cons_self))
      have separate := word?_append name stopsName
      have keyword := afterFrom?_append ⟨blank :: before, allBlank⟩ after stops
      simp only [Clause.afterName, List.append_assoc] at separate keyword ⊢
      simp only [afterNameFrom?, separate, keyword]

theorem exists_of_afterNameFrom? (found : afterNameFrom? text = some rest) :
    ∃ (name : Word) (before after : Blanks), text = Clause.afterName name before after ++ rest := by
  simp only [afterNameFrom?] at found
  cases read : word? text with
  | none => simp [read] at found
  | some parts =>
      rcases parts with ⟨letters, afterWord⟩
      rcases exists_of_word? read with ⟨name, rfl, rfl⟩
      simp only [read] at found
      cases keyword : afterFrom? afterWord with
      | some remaining =>
          rcases exists_of_afterFrom? keyword with ⟨before, after, rfl⟩
          simp only [keyword, Option.some.injEq] at found
          subst found
          exact ⟨name, before, after, by simp [Clause.afterName]⟩
      | none =>
          simp only [keyword] at found
          split at found
          next glued =>
            rcases glued with ⟨long, endsInFrom⟩
            rcases List.isSuffixOf_iff_suffix.1 endsInFrom with ⟨front, split⟩
            rcases exists_skipBlanks afterWord with ⟨after, splitAfter⟩
            cases found
            -- The word is longer than the keyword at its end, so something is left for the name.
            have nonempty : front ≠ [] := by
              rintro rfl
              simp [← split] at long
            have isWord : ∀ character ∈ front, Text.isWord character = true :=
              fun character member =>
                name.allWord character (split ▸ List.mem_append_left _ member)
            refine ⟨⟨front, nonempty, isWord⟩, ⟨[], nofun⟩, after, ?_⟩
            simp only [Clause.afterName, List.append_nil]
            rw [split, List.append_assoc, ← splitAfter]
          next => cases found

theorem afterNames?_of_word {character : Char} (isWord : Text.isWord character = true)
    (text : List Char) : afterNames? (character :: text) = afterNameFrom? (character :: text) := by
  have different : ∀ other : Char, Text.isWord other = false → character ≠ other := by
    rintro _ notWord rfl
    rw [isWord] at notWord
    cases notWord
  have notBrace := different '\x7b' (by decide)
  have notStar := different '*' (by decide)
  have notDouble := different '"' (by decide)
  have notSingle := different '\'' (by decide)
  unfold afterNames?
  split <;> simp_all

theorem dropWhile_members {inside : List Char} (openInside : '\x7d' ∉ inside) (rest : List Char) :
    (inside ++ '\x7d' :: rest).dropWhile (· ≠ '\x7d') = '\x7d' :: rest := by
  refine dropWhile_append (fun character member => ?_) (stopsAt_cons.2 (by simp))
  have different : character ≠ '\x7d' := fun same => openInside (same ▸ member)
  simpa using different

theorem afterNames?_append (clause : Clause) (quote : Quote) (rest : List Char) :
    afterNames? (clause.render ++ quote.character :: rest) = some (quote.character :: rest) := by
  have stops : StopsAt isBlank (quote.character :: rest) :=
    stopsAt_cons.2 quote.notBlank
  cases clause with
  | nothing =>
      rcases quote.eq_or_eq with same | same
      · rw [Clause.render, List.nil_append, same]
        rfl
      · rw [Clause.render, List.nil_append, same]
        rfl
  | members inside openInside before after =>
      have closes := dropWhile_members openInside
        (before.text ++ ("from".toList ++ (after.text ++ quote.character :: rest)))
      simp only [Clause.render, List.cons_append, List.append_assoc, afterNames?, closes]
      exact afterFrom?_append before after stops
  | everything beforeAs afterAs name before after =>
      have isAs : StopsAt isBlank ("as".toList ++ (afterAs.text ++
          (Clause.afterName name before after ++ quote.character :: rest))) :=
        stopsAt_cons.2 (by decide)
      have isName : StopsAt isBlank
          (Clause.afterName name before after ++ quote.character :: rest) := by
        simp only [Clause.afterName, List.append_assoc]
        exact stopsAt_word name _
      simp only [Clause.render, List.cons_append, List.append_assoc, afterNames?,
        skipBlanks_append beforeAs isAs, afterWord?_append, Option.bind_some,
        afterBlanks?_append afterAs isName]
      exact afterNameFrom?_append name before after quote rest
  | named name before after =>
      rw [← afterNameFrom?_append name before after quote rest]
      rcases name with ⟨letters, nonempty, allWord⟩
      cases letters with
      | nil => exact absurd rfl nonempty
      | cons character letters =>
          exact afterNames?_of_word (allWord character List.mem_cons_self) _

theorem exists_of_afterNames? (found : afterNames? text = some rest) :
    ∃ clause : Clause, text = clause.render ++ rest := by
  unfold afterNames? at found
  split at found
  next inside =>
    cases closes : inside.dropWhile (· ≠ '\x7d') with
    | nil => simp only [closes, reduceCtorEq] at found
    | cons brace afterBrace =>
        have isBrace := stopsAt_dropWhile (· ≠ '\x7d') inside
        rw [closes, stopsAt_cons, decide_eq_false_iff_not, Decidable.not_not] at isBrace
        have openInside : '\x7d' ∉ inside.takeWhile (· ≠ '\x7d') := fun member => by
          simpa using List.all_eq_true.1 List.all_takeWhile _ member
        have split := List.takeWhile_append_dropWhile (p := (· ≠ '\x7d')) (l := inside)
        simp only [closes] at found
        rcases exists_of_afterFrom? found with ⟨before, after, rfl⟩
        rw [closes, isBrace] at split
        refine ⟨.members _ openInside before after, (congrArg ('\x7b' :: ·) split.symm).trans ?_⟩
        simp [Clause.render]
  next afterStar =>
    rcases exists_skipBlanks afterStar with ⟨beforeAs, split⟩
    cases named : (afterWord? "as".toList (skipBlanks afterStar)).bind afterBlanks? with
    | none => simp only [named, reduceCtorEq] at found
    | some name =>
        simp only [named] at found
        rcases Option.bind_eq_some_iff.1 named with ⟨afterKeyword, isAs, separated⟩
        rcases exists_of_afterBlanks? separated with ⟨afterAs, rfl⟩
        rcases exists_of_afterNameFrom? found with ⟨name, before, after, rfl⟩
        rw [afterWord?_eq_some_iff.1 isAs] at split
        refine ⟨.everything beforeAs afterAs name before after, ?_⟩
        rw [split]
        simp [Clause.render]
  next =>
    cases found
    exact ⟨.nothing, rfl⟩
  next =>
    cases found
    exact ⟨.nothing, rfl⟩
  next =>
    rcases exists_of_afterNameFrom? found with ⟨name, before, after, rfl⟩
    exact ⟨.named name before after, rfl⟩

/-! ## Reading paths and ends -/

theorem quotedPath?_append {path : List Char} (nonempty : path ≠ [])
    (unquoted : ∀ character ∈ path, isQuote character = false) (opening closing : Quote)
    (rest : List Char) :
    quotedPath? (opening.character :: (path ++ closing.character :: rest)) = some (path, rest) := by
  have spanned : (path ++ closing.character :: rest).span (fun other => !isQuote other) =
      (path, closing.character :: rest) :=
    span_append (fun character member => by simp [unquoted character member])
      (stopsAt_cons.2 (by simp [closing.isQuote]))
  simp only [quotedPath?, opening.isQuote, spanned, if_true, List.isEmpty_iff, if_neg nonempty]

theorem exists_of_quotedPath? {path : List Char} (found : quotedPath? text = some (path, rest)) :
    ∃ opening closing : Quote, path ≠ [] ∧ (∀ character ∈ path, isQuote character = false) ∧
      text = opening.character :: (path ++ closing.character :: rest) := by
  cases text with
  | nil => cases found
  | cons character inside =>
      simp only [quotedPath?, List.span_eq_takeWhile_dropWhile] at found
      split at found
      next opens =>
        cases ends : inside.dropWhile (fun other => !isQuote other) with
        | nil => simp only [ends, reduceCtorEq] at found
        | cons closing afterPath =>
            have closes := stopsAt_dropWhile (fun other => !isQuote other) inside
            rw [ends, stopsAt_cons, Bool.not_eq_false'] at closes
            have split := List.takeWhile_append_dropWhile (p := fun other => !isQuote other)
              (l := inside)
            simp only [ends, List.isEmpty_iff] at found
            rw [ends] at split
            split at found
            next => cases found
            next nonempty =>
              cases found
              refine ⟨⟨character, opens⟩, ⟨closing, closes⟩, nonempty, fun other member => ?_,
                congrArg (character :: ·) split.symm⟩
              simpa using List.all_eq_true.1 List.all_takeWhile other member
      next => cases found

theorem afterEnd?_append (naming : Naming) (beforeEnd : Blanks) (rest : List Char) :
    afterEnd? (naming.render ++ (beforeEnd.text ++ ';' :: rest)) = some rest := by
  have isEnd : StopsAt isBlank (';' :: rest) := stopsAt_cons.2 (by decide)
  have notWord : StopsAt isWord (';' :: rest) := stopsAt_cons.2 (by decide)
  have skipped := skipBlanks_append beforeEnd isEnd
  cases naming with
  | nothing =>
      simp only [Naming.render, List.nil_append, afterEnd?, skipped]
      rfl
  | named beforeAs afterAs name =>
      have isAs : StopsAt isBlank ("as".toList ++ (afterAs.text ++
          (name.letters ++ (beforeEnd.text ++ ';' :: rest)))) :=
        stopsAt_cons.2 (by decide)
      simp only [Naming.render, List.append_assoc, afterEnd?, skipBlanks_append beforeAs isAs,
        afterWord?_append, Option.bind_some,
        afterBlanks?_append afterAs (stopsAt_word name _),
        word?_append name (stopsAt_blanks beforeEnd notWord), Option.map_some, skipped,
        Option.getD_some]

theorem exists_of_afterEnd? (found : afterEnd? text = some rest) :
    ∃ (naming : Naming) (beforeEnd : Blanks),
      text = naming.render ++ (beforeEnd.text ++ ';' :: rest) := by
  rcases exists_skipBlanks text with ⟨blanks, split⟩
  -- Reading falls back to an unnamed end wherever `as` or the name behind it is missing.
  have unnamed : skipBlanks text = ';' :: rest → ∃ (naming : Naming) (beforeEnd : Blanks),
      text = naming.render ++ (beforeEnd.text ++ ';' :: rest) :=
    fun ends => ⟨.nothing, blanks, by rw [← ends]; exact split⟩
  simp only [afterEnd?] at found
  cases keyword : (afterWord? "as".toList (skipBlanks text)).bind afterBlanks? with
  | none =>
      simp only [keyword, Option.getD_none] at found
      split at found
      next after ends =>
        cases found
        exact unnamed ends
      next => cases found
  | some afterAs =>
      simp only [keyword] at found
      cases read : word? afterAs with
      | none =>
          simp only [read, Option.map_none, Option.getD_none] at found
          split at found
          next after ends =>
            cases found
            exact unnamed ends
          next => cases found
      | some parts =>
          rcases parts with ⟨letters, afterName⟩
          simp only [read, Option.map_some, Option.getD_some] at found
          rcases Option.bind_eq_some_iff.1 keyword with ⟨afterKeyword, isAs, separated⟩
          rcases exists_of_afterBlanks? separated with ⟨separator, rfl⟩
          rcases exists_of_word? read with ⟨name, -, rfl⟩
          rcases exists_skipBlanks afterName with ⟨beforeEnd, splitEnd⟩
          split at found
          next after ends =>
            cases found
            refine ⟨.named blanks separator name, beforeEnd, ?_⟩
            rw [ends] at splitEnd
            rw [split, afterWord?_eq_some_iff.1 isAs, ← splitEnd]
            simp [Naming.render]
          next => cases found

/-! ## Reading statements -/

theorem render_append (statement : Statement) (rest : List Char) :
    statement.render ++ rest = "import".toList ++ (statement.afterImport.text ++
      (statement.clause.render ++ statement.opening.character :: (statement.path ++
        statement.closing.character :: (statement.naming.render ++
          (statement.beforeEnd.text ++ ';' :: rest))))) := by
  unfold Statement.render
  generalize "import".toList = keyword
  simp

theorem stopsAt_clause (clause : Clause) (quote : Quote) (rest : List Char) :
    StopsAt isBlank (clause.render ++ quote.character :: rest) := by
  cases clause with
  | nothing => exact stopsAt_cons.2 quote.notBlank
  | members inside openInside before after => exact stopsAt_cons.2 (by decide)
  | everything beforeAs afterAs name before after => exact stopsAt_cons.2 (by decide)
  | named name before after =>
      simp only [Clause.render, Clause.afterName, List.append_assoc]
      exact stopsAt_word name _

theorem statement?_append (statement : Statement) (rest : List Char) :
    statement? (statement.render ++ rest) = some (statement.path, rest) := by
  rw [render_append]
  simp only [statement?, afterWord?_append, bind, pure, Option.bind_some,
    afterBlanks?_append statement.afterImport (stopsAt_clause _ _ _),
    afterNames?_append statement.clause statement.opening,
    quotedPath?_append statement.pathNonempty statement.pathUnquoted statement.opening
      statement.closing,
    afterEnd?_append statement.naming statement.beforeEnd rest]

theorem exists_of_statement? {path : List Char} (found : statement? text = some (path, rest)) :
    ∃ statement : Statement, statement.path = path ∧ text = statement.render ++ rest := by
  simp only [statement?, bind, pure, Option.bind_eq_some_iff, Option.some.injEq] at found
  rcases found with ⟨afterKeyword, isImport, beforeClause, separated, beforePath, named,
    ⟨read, afterPath⟩, quoted, after, ends, equal⟩
  rcases Prod.mk.inj equal with ⟨rfl, rfl⟩
  rcases exists_of_afterBlanks? separated with ⟨afterImport, rfl⟩
  rcases exists_of_afterNames? named with ⟨clause, rfl⟩
  rcases exists_of_quotedPath? quoted with ⟨opening, closing, nonempty, unquoted, rfl⟩
  rcases exists_of_afterEnd? ends with ⟨naming, beforeEnd, rfl⟩
  refine
    ⟨⟨afterImport, clause, opening, _, nonempty, unquoted, closing, naming, beforeEnd⟩, rfl, ?_⟩
  rw [afterWord?_eq_some_iff.1 isImport, render_append]

/-- A text starts with a statement exactly when it starts with the spelling of one. -/
theorem statement?_eq_some_iff {path : List Char} :
    statement? text = some (path, rest) ↔
      ∃ statement : Statement, statement.path = path ∧ text = statement.render ++ rest := by
  refine ⟨exists_of_statement?, ?_⟩
  rintro ⟨statement, rfl, rfl⟩
  exact statement?_append statement rest

end SourceTree.ImportStatement
