import SqlWeave.Sql.Region
import SqlWeave.Text.CharClass

/-!
# Statements and their layout

`statements` splits SQL text at the semicolons outside of protected regions; the
pieces joined by semicolons are the text again.  `layout` gives every statement the
left margin: blank lines around it are dropped and its common indentation is
removed.  Statements are separated by a blank line.
-/

namespace SqlWeave.Sql

open Text

/-- Puts characters in front of the first piece. -/
def extendHead (front : List Char) : List (List Char) → List (List Char)
  | [] => [front]
  | piece :: pieces => (front ++ piece) :: pieces

/-- The pieces of a text between the semicolons outside of protected regions. -/
def statements (s : List Char) : List (List Char) :=
  match s with
  | [] => [[]]
  | c :: rest =>
    match hr : Region.openEnded? (c :: rest) with
    | some (region, tail) =>
      have : tail.length ≤ rest.length := Nat.le_of_lt_succ (Region.length_of_openEnded? hr)
      extendHead region (statements tail)
    | none => if c == ';' then [] :: statements rest else extendHead [c] (statements rest)
termination_by s.length

namespace Layout

/-- A character of a line's indentation. -/
def isIndent (c : Char) : Bool :=
  c == ' ' || c == '\t'

/-- The indentation of a line. -/
def indent (line : List Char) : List Char :=
  line.takeWhile isIndent

/-- The longest common start of two texts. -/
def commonStart : List Char → List Char → List Char
  | c :: s, d :: t => if c == d then c :: commonStart s t else []
  | _, _ => []

/-- The longest common start of all texts of a list. -/
def commonStarts : List (List Char) → List Char
  | [] => []
  | [s] => s
  | s :: rest => commonStart s (commonStarts rest)

/-- A line with nothing but indentation is no line of text. -/
def isBare (line : List Char) : Bool :=
  line.all isIndent

/-- The indentation that all lines of text share. -/
def margin (lines : List (List Char)) : List Char :=
  commonStarts ((lines.filter (!isBare ·)).map indent)

/-- The lines without their margin; bare lines become empty. -/
def dedent (lines : List (List Char)) : List (List Char) :=
  let width := (margin lines).length
  lines.map fun line => if isBare line then [] else line.drop width

/-- The lines without the blank ones at both ends. -/
def trimLines (lines : List (List Char)) : List (List Char) :=
  ((lines.dropWhile isBlankText).reverse.dropWhile isBlankText).reverse

/-- A statement at the left margin. -/
def endent (piece : List Char) : List Char :=
  List.intercalate ['\n'] (dedent (trimLines (Identifier.parts '\n' piece)))

end Layout

/-- Every statement at the left margin, with a blank line between statements. -/
def layout (sql : List Char) : List Char :=
  List.intercalate [';', '\n', '\n'] ((statements sql).map Layout.endent)

end SqlWeave.Sql
