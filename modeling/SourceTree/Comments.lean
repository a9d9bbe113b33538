/-! # Comments

Comments are removed in two passes over the text: first every block comment that is closed, then
every line comment up to the end of its line. Neither pass understands quoted texts. -/

namespace SourceTree.Comments

def closes : List Char → Bool
  | [] => false
  | character :: rest => (character = '*' && rest.head? = some '/') || closes rest

/-- Where the pass over block comments stands: in code, on the second character of an opening, in
a comment, or on the second character of a closing. -/
inductive Place where
  | code
  | opening
  | comment
  | closing
  deriving DecidableEq, Repr

/-- Drop closed block comments. What is kept so far is in reverse. After an opening that is never
closed, no later one is closed either. -/
def dropBlocks (kept : List Char) : Place → List Char → List Char
  | _, [] => kept.reverse
  | .code, character :: rest =>
      if character = '/' ∧ rest.head? = some '*' then
        if closes (rest.drop 1) then dropBlocks kept .opening rest
        else kept.reverse ++ character :: rest
      else
        dropBlocks (character :: kept) .code rest
  | .opening, _ :: rest => dropBlocks kept .comment rest
  | .comment, character :: rest =>
      if character = '*' ∧ rest.head? = some '/' then
        dropBlocks kept .closing rest
      else
        dropBlocks kept .comment rest
  | .closing, _ :: rest => dropBlocks kept .code rest

def dropLines (kept : List Char) (inside : Bool) : List Char → List Char
  | [] => kept.reverse
  | character :: rest =>
      if inside then
        if character = '\n' then
          dropLines (character :: kept) false rest
        else
          dropLines kept true rest
      else if character = '/' ∧ rest.head? = some '/' then
        dropLines kept true rest
      else
        dropLines (character :: kept) false rest

theorem dropBlocks_eq_append (kept : List Char) (place : Place) (text : List Char) :
    dropBlocks kept place text = kept.reverse ++ dropBlocks [] place text := by
  induction text generalizing kept place with
  | nil => simp [dropBlocks]
  | cons character rest induction =>
      cases place with
      | code =>
          simp only [dropBlocks]
          split
          · split
            · exact induction kept .opening
            · simp
          · rw [induction (character :: kept), induction [character]]
            simp
      | opening => exact induction kept .comment
      | comment =>
          simp only [dropBlocks]
          split
          · exact induction kept .closing
          · exact induction kept .comment
      | closing => exact induction kept .code

theorem dropLines_eq_append (kept : List Char) (inside : Bool) (text : List Char) :
    dropLines kept inside text = kept.reverse ++ dropLines [] inside text := by
  induction text generalizing kept inside with
  | nil => simp [dropLines]
  | cons character rest induction =>
      simp only [dropLines]
      split
      · split
        · rw [induction (character :: kept), induction [character]]
          simp
        · exact induction kept true
      · split
        · exact induction kept true
        · rw [induction (character :: kept), induction [character]]
          simp

def strip (text : List Char) : List Char :=
  dropLines [] false (dropBlocks [] .code text)

def stripSource (source : String) : String :=
  String.ofList (strip source.toList)

example : stripSource "a/*b*/c//d\ne" = "ac\ne" := by decide +kernel
example : stripSource "a/*/b" = "a/*/b" := by decide +kernel

end SourceTree.Comments
