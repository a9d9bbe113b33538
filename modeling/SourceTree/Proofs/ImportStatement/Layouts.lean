import SourceTree.Proofs.Comments
import SourceTree.Proofs.ImportStatement.Statements

/-! # Layouts of import statements

A source lays out its import statements with gaps between them, in which the keyword does not stand
as a word. From a source without comments all the paths are read, in order, and no others. -/

namespace SourceTree.ImportStatement

open Text

/-! ## Gaps -/

def endsInWord (text : List Char) : Bool :=
  text.getLast?.any isWord

/-- Whether the keyword stands in a text as a word of its own. -/
def HoldsKeyword (text : List Char) : Prop :=
  ∃ front back, text = front ++ ("import".toList ++ back) ∧ endsInWord front = false ∧
    StopsAt isWord back

structure Gap where
  text : List Char
  noKeyword : ¬HoldsKeyword text
  noWord : endsInWord text = false

theorem not_holdsKeyword_of_not_infix {text : List Char} (absent : ¬"import".toList <:+: text) :
    ¬HoldsKeyword text := by
  rintro ⟨front, back, rfl, -, -⟩
  exact absent ⟨front, back, List.append_assoc _ _ _⟩

def Gap.ofText (text : List Char) (absent : ¬"import".toList <:+: text := by decide)
    (noWord : endsInWord text = false := by decide) : Gap :=
  ⟨text, not_holdsKeyword_of_not_infix absent, noWord⟩

theorem not_holdsKeyword_nil : ¬HoldsKeyword [] :=
  not_holdsKeyword_of_not_infix (by decide)

def Gap.none : Gap := ⟨[], not_holdsKeyword_nil, rfl⟩

@[simp] theorem endsInWord_append_singleton (text : List Char) (character : Char) :
    endsInWord (text ++ [character]) = isWord character := by
  simp [endsInWord]

theorem endsInWord_append {front text : List Char} (nonempty : text ≠ []) :
    endsInWord (front ++ text) = endsInWord text := by
  rw [endsInWord, List.getLast?_append_of_ne_nil _ nonempty, endsInWord]

theorem endsInWord_of_cons {character : Char} {text : List Char}
    (noWord : endsInWord (character :: text) = false) : endsInWord text = false := by
  cases text with
  | nil => rfl
  | cons other text =>
      rwa [← List.singleton_append, endsInWord_append (List.cons_ne_nil _ _)] at noWord

theorem isWord_of_mem_keyword : ∀ character ∈ "import".toList, isWord character = true :=
  List.all_eq_true.1 (by decide)

/-! ## Layouts -/

structure Layout where
  statements : List (Gap × Statement)
  tail : List Char
  noKeyword : ¬HoldsKeyword tail

namespace Layout

def renderStatements (statements : List (Gap × Statement)) : List Char :=
  statements.flatMap fun entry => entry.1.text ++ entry.2.render

def render (layout : Layout) : List Char :=
  renderStatements layout.statements ++ layout.tail

def paths (layout : Layout) : List (List Char) :=
  layout.statements.map fun entry => entry.2.path

end Layout

/-! ## Finding statements -/

theorem exists_keyword_of_statement? {text rest path : List Char}
    (found : statement? text = some (path, rest)) :
    ∃ back, text = "import".toList ++ back ∧ StopsAt isWord back := by
  rcases exists_of_statement? found with ⟨statement, -, rfl⟩
  refine ⟨_, render_append statement rest, ?_⟩
  rcases statement with ⟨⟨⟨blanks, allBlank⟩, nonempty⟩⟩
  cases blanks with
  | nil => exact absurd rfl nonempty
  | cons blank blanks =>
      exact stopsAt_cons.2 (isWord_of_isBlank (allBlank blank List.mem_cons_self))

theorem Statement.render_ne_nil (statement : Statement) : statement.render ≠ [] := by
  intro empty
  have starts := render_append statement []
  rw [empty] at starts
  cases starts

theorem Statement.render_eq_append_end (statement : Statement) :
    ∃ front, statement.render = front ++ [';'] :=
  ⟨_, rfl⟩

/-- No statement starts at a word boundary in a text that does not hold the keyword, provided that
its last word is not continued. -/
theorem statement?_eq_none {front text rest : List Char}
    (noKeyword : ¬HoldsKeyword (front ++ text)) (boundary : endsInWord front = false)
    (nonempty : text ≠ []) (separate : endsInWord text = false ∨ rest = []) :
    statement? (text ++ rest) = none := by
  rw [Option.eq_none_iff_forall_ne_some]
  rintro ⟨path, after⟩ found
  rcases exists_keyword_of_statement? found with ⟨back, split, stops⟩
  rcases List.append_eq_append_iff.1 split with ⟨more, isKeyword, isRest⟩ | ⟨more, isText, isBack⟩
  · rcases separate with wordless | rfl
    · have lastMember := List.getLast_mem nonempty
      have isWord : isWord (text.getLast nonempty) = true :=
        isWord_of_mem_keyword _ (isKeyword ▸ List.mem_append_left _ lastMember)
      rw [endsInWord, List.getLast?_eq_getLast_of_ne_nil nonempty, Option.any_some, isWord]
        at wordless
      cases wordless
    · rcases List.append_eq_nil_iff.1 isRest.symm with ⟨rfl, rfl⟩
      rw [List.append_nil] at isKeyword
      exact noKeyword ⟨front, [], by rw [isKeyword, List.append_nil], boundary, stops⟩
  · rw [isBack] at stops
    exact noKeyword ⟨front, more, by rw [isText], boundary, stops.of_append⟩

theorem scan_append (front : List Char) {text rest : List Char}
    (noKeyword : ¬HoldsKeyword (front ++ text))
    (separate : endsInWord text = false ∨ rest = []) (fuel : Nat) (found : List (List Char)) :
    scan (text.length + fuel) (endsInWord front) found (text ++ rest) =
      scan fuel (endsInWord (front ++ text)) found rest := by
  induction text generalizing front with
  | nil => simp
  | cons character text induction =>
      have nothingStarts : (if endsInWord front = true then none
          else statement? (character :: (text ++ rest))) = none := by
        split
        next => rfl
        next boundary =>
          exact statement?_eq_none noKeyword (Bool.not_eq_true _ ▸ boundary)
            (List.cons_ne_nil _ _) separate
      rw [List.append_cons] at noKeyword ⊢
      rw [← induction _ noKeyword (separate.imp_left endsInWord_of_cons),
        endsInWord_append_singleton, List.length_cons, Nat.add_right_comm, List.cons_append, scan,
        nothingStarts]

theorem scan_gap (gap : Gap) (rest : List Char) (fuel : Nat) (found : List (List Char)) :
    scan (gap.text.length + fuel) false found (gap.text ++ rest) = scan fuel false found rest := by
  have passed : scan (gap.text.length + fuel) (endsInWord []) found (gap.text ++ rest) =
      scan fuel (endsInWord gap.text) found rest :=
    scan_append [] gap.noKeyword (.inl gap.noWord) fuel found
  rwa [gap.noWord] at passed

theorem scan_statement (statement : Statement) (rest : List Char) (fuel : Nat)
    (found : List (List Char)) :
    scan (fuel + 1) false found (statement.render ++ rest) =
      scan fuel false (statement.path :: found) rest := by
  have read := statement?_append statement rest
  cases split : statement.render ++ rest with
  | nil =>
      rw [split] at read
      cases read
  | cons character text =>
      rw [split] at read
      rw [scan, if_neg Bool.false_ne_true, read]

theorem scan_tail {tail : List Char} (noKeyword : ¬HoldsKeyword tail) (fuel : Nat)
    (found : List (List Char)) :
    scan (tail.length + fuel) false found tail = found.reverse := by
  have passed : scan (tail.length + fuel) (endsInWord []) found (tail ++ []) =
      scan fuel (endsInWord tail) found [] :=
    scan_append [] noKeyword (.inr rfl) fuel found
  rw [List.append_nil] at passed
  refine passed.trans ?_
  cases fuel <;> rfl

theorem scan_layout (statements : List (Gap × Statement)) {tail : List Char}
    (noKeyword : ¬HoldsKeyword tail) {fuel : Nat}
    (enough : (Layout.renderStatements statements ++ tail).length ≤ fuel)
    (found : List (List Char)) :
    scan fuel false found (Layout.renderStatements statements ++ tail) =
      found.reverse ++ statements.map fun entry => entry.2.path := by
  induction statements generalizing fuel found with
  | nil =>
      rcases Nat.exists_eq_add_of_le enough with ⟨spare, rfl⟩
      exact (scan_tail noKeyword spare found).trans (List.append_nil _).symm
  | cons entry statements induction =>
      rcases entry with ⟨gap, statement⟩
      have split : Layout.renderStatements ((gap, statement) :: statements) ++ tail =
          gap.text ++ (statement.render ++ (Layout.renderStatements statements ++ tail)) := by
        simp [Layout.renderStatements]
      rw [split, List.length_append, List.length_append] at enough
      have positive := List.length_pos_of_ne_nil statement.render_ne_nil
      rcases Nat.exists_eq_add_of_le (Nat.le_of_add_right_le enough) with ⟨left, rfl⟩
      obtain ⟨spare, rfl⟩ : ∃ spare, left = spare + 1 := ⟨left - 1, by omega⟩
      rw [split, scan_gap, scan_statement, induction (by omega)]
      simp

/-- Whatever the text, a path that is found is that of a statement that stands in it, with its
keyword as a word. -/
theorem exists_of_mem_scan {fuel : Nat} {before text path : List Char} {found : List (List Char)}
    (member : path ∈ scan fuel (endsInWord before) found text) :
    path ∈ found ∨ ∃ front statement back,
      before ++ text = front ++ (Statement.render statement ++ back) ∧ statement.path = path ∧
        endsInWord front = false := by
  induction fuel generalizing before text found with
  | zero => exact .inl (List.mem_reverse.1 member)
  | succ fuel induction =>
      cases text with
      | nil => exact .inl (List.mem_reverse.1 member)
      | cons character text =>
          rw [scan] at member
          split at member
          next other after starts =>
            split at starts
            next => cases starts
            next boundary =>
              rcases exists_of_statement? starts with ⟨statement, rfl, split⟩
              rcases statement.render_eq_append_end with ⟨front, isEnd⟩
              -- A statement ends in a semicolon, so the scan goes on at the boundary of a word.
              have separate : endsInWord (before ++ statement.render) = false := by
                rw [isEnd, ← List.append_assoc, endsInWord_append_singleton]
                decide
              rw [← separate] at member
              rw [split]
              rcases induction member with earlier | ⟨front, later, back, splitLater, isPath⟩
              · rcases List.mem_cons.1 earlier with rfl | earlier
                · exact .inr ⟨before, statement, after, rfl, rfl, Bool.not_eq_true _ ▸ boundary⟩
                · exact .inl earlier
              · exact .inr ⟨front, later, back, by rw [← splitLater, List.append_assoc], isPath⟩
          next =>
            rw [← endsInWord_append_singleton before] at member
            rw [List.append_cons]
            exact induction member

theorem pathsIn_render (layout : Layout) : pathsIn layout.render = layout.paths :=
  scan_layout layout.statements layout.noKeyword le_rfl []

theorem exists_of_mem_pathsIn {text path : List Char} (member : path ∈ pathsIn text) :
    ∃ front statement back, text = front ++ (Statement.render statement ++ back) ∧
      statement.path = path ∧ endsInWord front = false := by
  have scanned : path ∈ scan text.length (endsInWord []) [] text := member
  exact (exists_of_mem_scan scanned).resolve_left (List.not_mem_nil)

end SourceTree.ImportStatement

namespace SourceTree

/-- The imports of a source without comments are the paths of its statements, in order of first
appearance. -/
theorem importPaths_render (layout : ImportStatement.Layout)
    (plain : Comments.Plain layout.render) :
    importPaths (String.ofList layout.render) = layout.paths.eraseDups.map String.ofList := by
  rw [importPaths, String.toList_ofList, Comments.strip_of_plain plain,
    ImportStatement.pathsIn_render]

def ImportStatement.Layout.wordy : ImportStatement.Layout where
  statements := [
    (.none, {
      clause := .named ⟨"from".toList, by decide, List.all_eq_true.1 (by decide)⟩
        Separator.space.toBlanks .none
      opening := .single
      path := "x.sol".toList
      closing := .single }),
    (.ofText ['\n'], {
      clause := .members "import 'x';".toList (by decide) .none .none
      path := "y.sol".toList
      naming := .named .none .space ⟨"as".toList, by decide, List.all_eq_true.1 (by decide)⟩ }),
    (.none, {
      path := "x.sol".toList })]
  tail := "contract C".toList
  noKeyword := ImportStatement.not_holdsKeyword_of_not_infix (by decide)

theorem importPaths_of_wordy_layout :
    Comments.Plain ImportStatement.Layout.wordy.render ∧
      importPaths ("import from from'x.sol';\n" ++
        "import \x7bimport 'x';\x7dfrom\"y.sol\"as as;import \"x.sol\";contract C") =
        ["x.sol", "y.sol"] := by
  have plain : Comments.Plain ImportStatement.Layout.wordy.render :=
    ⟨by decide +kernel, by decide +kernel⟩
  exact ⟨plain, importPaths_render .wordy plain⟩

end SourceTree
