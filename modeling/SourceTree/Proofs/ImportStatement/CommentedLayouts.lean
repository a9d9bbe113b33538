import SourceTree.Proofs.ImportStatement.Layouts

/-! # Layouts with comments

Comments stand at the boundaries of statements, before and after the gaps. Whatever they hold, the
imports of the source are those of its statements, as long as every line comment is harmless. A line
comment that is not can hide imports that stand behind it, or invent one that it holds. -/

namespace SourceTree.ImportStatement

open Comments

/-- A statement with what stands before it: comments behind the statement before, a gap, and
comments in front of this one. -/
structure Segment where
  early : List Comment := []
  gap : Gap := .none
  noSlash : '/' ∉ gap.text := by decide
  late : List Comment := []
  statement : Statement
  plain : Plain statement.render

structure CommentedLayout where
  segments : List Segment
  early : List Comment := []
  tail : List Char := []
  noKeyword : ¬HoldsKeyword tail := by exact not_holdsKeyword_nil
  noSlash : '/' ∉ tail := by decide
  late : List Comment := []

/-! ## The pieces of a layout -/

theorem Blanks.slash_notMem (blanks : Blanks) : '/' ∉ blanks.text :=
  fun member => absurd (blanks.allBlank '/' member) (by decide)

theorem Word.slash_notMem (word : Word) : '/' ∉ word.letters :=
  fun member => absurd (word.allWord '/' member) (by decide)

theorem Quote.opens_nothing (quote : Quote) : quote.character ≠ '*' ∧ quote.character ≠ '/' := by
  rcases quote.eq_or_eq with same | same <;> rw [same] <;> decide

theorem Naming.slash_notMem (naming : Naming) : '/' ∉ naming.render := by
  cases naming with
  | nothing => exact List.not_mem_nil
  | named beforeAs afterAs name =>
      simp [Naming.render, beforeAs.slash_notMem, afterAs.slash_notMem, name.slash_notMem]

/-- A statement opens no comment when its path does not and nothing that it lists holds a slash. -/
theorem Statement.plain_render {statement : Statement} (listed : '/' ∉ statement.clause.render)
    (path : Plain statement.path) : Plain statement.render := by
  rcases statement.opening.opens_nothing with ⟨-, opening⟩
  rcases statement.closing.opens_nothing with ⟨notStar, closing⟩
  have ends : Plain (statement.closing.character ::
      (statement.naming.render ++ (statement.beforeEnd.text ++ [';']))) :=
    .of_no_slash (by
      simp [closing.symm, statement.naming.slash_notMem, statement.beforeEnd.slash_notMem])
  have fromPath := path.append ends (.inr ⟨by simpa using notStar, by simpa using closing⟩)
  have fromClause := (fromPath.cons opening).append_of_no_slash listed
  have fromBlanks := fromClause.append_of_no_slash statement.afterImport.slash_notMem
  rw [← List.append_nil statement.render, render_append]
  exact fromBlanks.append_of_no_slash (by decide)

theorem Statement.apart (statement : Statement) : statement.render.getLast? ≠ some '/' := by
  rcases statement.render_eq_append_end with ⟨front, isEnd⟩
  rw [isEnd, List.getLast?_concat]
  decide

def surrounded (early : List Comment) (text : List Char) (noSlash : '/' ∉ text)
    (late : List Comment) : List Piece :=
  early.map .comment ++
    .code text (.of_no_slash noSlash) (apart_of_no_slash noSlash) :: late.map .comment

def Segment.pieces (segment : Segment) : List Piece :=
  surrounded segment.early segment.gap.text segment.noSlash segment.late ++
    [.code segment.statement.render segment.plain segment.statement.apart]

namespace CommentedLayout

def pieces (layout : CommentedLayout) : List Piece :=
  layout.segments.flatMap Segment.pieces ++
    surrounded layout.early layout.tail layout.noSlash layout.late

def render (layout : CommentedLayout) : List Char :=
  Comments.render layout.pieces

def Harmless (layout : CommentedLayout) : Prop :=
  Comments.Harmless layout.pieces

def bare (layout : CommentedLayout) : Layout where
  statements := layout.segments.map fun segment => (segment.gap, segment.statement)
  tail := layout.tail
  noKeyword := layout.noKeyword

end CommentedLayout

/-! ## Ends of lines in gaps -/

def lineEnds (comments : List Comment) : List Char :=
  comments.flatMap Comment.remains

/-- What does not depend on the ends of lines around a text does not depend on the comments that
leave them. -/
theorem lineEnds_induction {motive : List Char → Prop}
    (before : ∀ text, motive text → motive ('\n' :: text))
    (after : ∀ text, motive text → motive (text ++ ['\n'])) (early late : List Comment)
    {text : List Char} (holds : motive text) :
    motive (lineEnds early ++ (text ++ lineEnds late)) := by
  have holdsBehind : motive (text ++ lineEnds late) := by
    induction late generalizing text with
    | nil => simpa [lineEnds] using holds
    | cons comment late induction =>
        cases comment with
        | line inside oneLine =>
            have more := induction (after text holds)
            rwa [List.append_assoc] at more
        | block inside unclosed => exact induction holds
  induction early with
  | nil => exact holdsBehind
  | cons comment early induction =>
      cases comment with
      | line inside oneLine => exact before _ induction
      | block inside unclosed => exact induction

theorem endsInWord_cons_newline {text : List Char} (noWord : endsInWord text = false) :
    endsInWord ('\n' :: text) = false := by
  cases text with
  | nil => decide
  | cons character text =>
      rwa [← List.singleton_append, endsInWord_append (List.cons_ne_nil _ _)]

theorem not_holdsKeyword_cons_newline {text : List Char} (noKeyword : ¬HoldsKeyword text) :
    ¬HoldsKeyword ('\n' :: text) := by
  rintro ⟨front, back, split, boundary, stops⟩
  cases front with
  | nil => cases split
  | cons character front =>
      exact noKeyword ⟨front, back, (List.cons.inj split).2, endsInWord_of_cons boundary, stops⟩

theorem not_holdsKeyword_append_newline {text : List Char} (noKeyword : ¬HoldsKeyword text) :
    ¬HoldsKeyword (text ++ ['\n']) := by
  rintro ⟨front, back, split, boundary, stops⟩
  rcases List.eq_nil_or_concat back with rfl | ⟨back, last, rfl⟩
  · have same := congrArg List.getLast? split
    rw [List.append_nil, List.getLast?_concat, List.getLast?_append_of_ne_nil _ (by decide)] at same
    exact absurd same (by decide)
  · rw [List.concat_eq_append, ← List.append_assoc, ← List.append_assoc] at split
    have sameFront := (List.append_inj' split rfl).1
    rw [List.concat_eq_append] at stops
    exact noKeyword ⟨front, back, by rw [sameFront, List.append_assoc], boundary, stops.of_append⟩

theorem not_holdsKeyword_within {text : List Char} (noKeyword : ¬HoldsKeyword text)
    (early late : List Comment) : ¬HoldsKeyword (lineEnds early ++ (text ++ lineEnds late)) :=
  lineEnds_induction (motive := fun text => ¬HoldsKeyword text)
    (fun _ => not_holdsKeyword_cons_newline) (fun _ => not_holdsKeyword_append_newline) early late
    noKeyword

theorem endsInWord_within {text : List Char} (noWord : endsInWord text = false)
    (early late : List Comment) :
    endsInWord (lineEnds early ++ (text ++ lineEnds late)) = false :=
  lineEnds_induction (motive := fun text => endsInWord text = false)
    (fun _ => endsInWord_cons_newline)
    (fun text _ => (endsInWord_append_singleton text '\n').trans (by decide)) early late noWord

def Gap.within (early : List Comment) (gap : Gap) (late : List Comment) : Gap where
  text := lineEnds early ++ (gap.text ++ lineEnds late)
  noKeyword := not_holdsKeyword_within gap.noKeyword early late
  noWord := endsInWord_within gap.noWord early late

/-! ## Removing the comments of a layout -/

theorem flatMap_comment (comments : List Comment) :
    (comments.map Piece.comment).flatMap Piece.remains = lineEnds comments := by
  rw [List.flatMap_map]
  rfl

theorem remains_surrounded (early : List Comment) {text : List Char} (noSlash : '/' ∉ text)
    (late : List Comment) :
    (surrounded early text noSlash late).flatMap Piece.remains =
      lineEnds early ++ (text ++ lineEnds late) := by
  rw [surrounded, List.flatMap_append, List.flatMap_cons, flatMap_comment, flatMap_comment]
  rfl

namespace CommentedLayout

def stripped (layout : CommentedLayout) : Layout where
  statements := layout.segments.map fun segment =>
    (segment.gap.within segment.early segment.late, segment.statement)
  tail := lineEnds layout.early ++ (layout.tail ++ lineEnds layout.late)
  noKeyword := not_holdsKeyword_within layout.noKeyword layout.early layout.late

theorem strip_render (layout : CommentedLayout) (harmless : layout.Harmless) :
    strip layout.render = layout.stripped.render := by
  have remains : ∀ segment : Segment, segment.pieces.flatMap Piece.remains =
      (segment.gap.within segment.early segment.late).text ++ segment.statement.render := by
    intro segment
    rw [Segment.pieces, List.flatMap_append, remains_surrounded, List.flatMap_singleton]
    rfl
  rw [render, Comments.strip_render harmless, pieces, List.flatMap_append, remains_surrounded,
    List.flatMap_assoc, Layout.render, Layout.renderStatements, stripped, List.flatMap_map]
  simp only [remains]

theorem pathsIn_strip_render (layout : CommentedLayout) (harmless : layout.Harmless) :
    pathsIn (strip layout.render) = layout.bare.paths := by
  rw [layout.strip_render harmless, pathsIn_render]
  simp [Layout.paths, stripped, bare]

def uncommented (layout : CommentedLayout) : CommentedLayout where
  segments := layout.segments.map fun segment => { segment with early := [], late := [] }
  tail := layout.tail
  noKeyword := layout.noKeyword
  noSlash := layout.noSlash

theorem bare_uncommented (layout : CommentedLayout) : layout.uncommented.bare = layout.bare := by
  simp only [bare, uncommented, List.map_map]
  rfl

theorem render_uncommented (layout : CommentedLayout) :
    layout.uncommented.render = layout.bare.render := by
  simp [render, Comments.render, pieces, uncommented, bare, Layout.render,
    Layout.renderStatements, List.flatMap_assoc, List.flatMap_map, Segment.pieces, surrounded,
    Piece.render]

theorem harmless_uncommented (layout : CommentedLayout) : layout.uncommented.Harmless := by
  refine harmless_of_forall fun piece member rest => ?_
  cases piece with
  | code => trivial
  | comment inner =>
      simp [pieces, uncommented, Segment.pieces, surrounded] at member

end CommentedLayout

end SourceTree.ImportStatement

namespace SourceTree

open ImportStatement

/-- Comments neither hide nor invent imports where every line comment is harmless. -/
theorem importPaths_of_harmless (layout : CommentedLayout) (harmless : layout.Harmless) :
    importPaths (String.ofList layout.render) = importPaths (String.ofList layout.bare.render) := by
  have bare := layout.uncommented.pathsIn_strip_render layout.harmless_uncommented
  rw [layout.render_uncommented, layout.bare_uncommented] at bare
  rw [importPaths, importPaths, String.toList_ofList, String.toList_ofList, bare,
    layout.pathsIn_strip_render harmless]

def ImportStatement.CommentedLayout.entangled : CommentedLayout where
  segments := [{
    early := [.line " import 'b.sol'; */ it's".toList (by decide),
      .block " // import 'c.sol'; ".toList (by decide)]
    late := [.line "/* // */".toList (by decide)]
    statement := { path := "a.sol".toList }
    plain := Statement.plain_render (by decide) ⟨by decide, by decide⟩ }]
  late := [.block "/ /* // ".toList (by decide)]

theorem importPaths_of_entangled_comments :
    CommentedLayout.entangled.Harmless ∧
      importPaths ("// import 'b.sol'; */ it's\n/* // import 'c.sol'; *////* // */\n" ++
        "import \"a.sol\";/*/ /* // */") = importPaths "import \"a.sol\";" := by
  have words : ∀ rest,
      (Comments.Comment.line " import 'b.sol'; */ it's".toList (by decide)).Harmless rest :=
    Comments.Comment.harmless_of_not_infix (by decide) (by decide)
  have nested : ∀ rest, (Comments.Comment.line "/* // */".toList (by decide)).Harmless rest :=
    fun _ => ⟨[], .character (by decide) (.closed " // ".toList (by decide) .nothing)⟩
  have harmless : CommentedLayout.entangled.Harmless :=
    ⟨words _, trivial, trivial, nested _, trivial, trivial, trivial, trivial⟩
  exact ⟨harmless, importPaths_of_harmless .entangled harmless⟩

/-! ## Line comments that are not harmless -/

def ImportStatement.CommentedLayout.hiding : CommentedLayout where
  segments := [{
    early := [.line " /*".toList (by decide)]
    statement := { path := "a.sol".toList }
    plain := Statement.plain_render (by decide) ⟨by decide, by decide⟩ }]
  tail := ['\n']
  noKeyword := not_holdsKeyword_of_not_infix (by decide)
  late := [.line " */".toList (by decide)]

def ImportStatement.CommentedLayout.inventing : CommentedLayout where
  segments := []
  early := [.line "* */ import \"b.sol\";".toList (by decide)]

theorem importPaths_of_opened_lines :
    (String.ofList CommentedLayout.hiding.render = "// /*\nimport \"a.sol\";\n// */\n" ∧
      importPaths (String.ofList CommentedLayout.hiding.render) = [] ∧
      importPaths (String.ofList CommentedLayout.hiding.bare.render) = ["a.sol"]) ∧
    (String.ofList CommentedLayout.inventing.render = "//* */ import \"b.sol\";\n" ∧
      importPaths (String.ofList CommentedLayout.inventing.render) = ["b.sol"] ∧
      importPaths (String.ofList CommentedLayout.inventing.bare.render) = []) := by
  decide +kernel

end SourceTree
