import SqlWeave.Fault
import SqlWeave.Sql.Identifier
import SqlWeave.Template.Tag
import SqlWeave.Text.CharClass

/-!
# Directives

What a tag says, read off its body alone.  A directive opens a block, closes one,
separates a block's two parts, or puts out a value, as a literal or through a
helper.  Its argument is a quoted text, a numeral, a fixed word, a loop variable or
a path into the parameters.  Where blocks may stand and what a path is relative to
is not decided here.
-/

namespace SqlWeave.Template

open Text

/-- The kinds of blocks. -/
inductive BlockKind
  | ifTrue
  | ifFalse
  | each
  | sql
  deriving DecidableEq, Repr

/-- A block's name in templates. -/
def BlockKind.name : BlockKind → String
  | ifTrue => "if"
  | ifFalse => "unless"
  | each => "each"
  | sql => "sql"

/-- The block of a name. -/
def BlockKind.ofName? : String → Option BlockKind
  | "if" => some ifTrue
  | "unless" => some ifFalse
  | "each" => some each
  | "sql" => some sql
  | _ => none

/-- The helpers that put out a value. -/
inductive Helper
  /-- Put out as an identifier. -/
  | identifier
  /-- Put out as a literal. -/
  | literal
  deriving DecidableEq, Repr

/-- The helper of a name. -/
def Helper.ofName? : String → Option Helper
  | "sqlEscapeId" => some identifier
  | "sqlEscape" => some literal
  | _ => none

/-- The variables that a loop sets besides its item. -/
inductive LoopVariable
  | key
  | index
  | first
  | last
  deriving DecidableEq, Repr

/-- A loop variable's name in templates, behind the at sign. -/
def LoopVariable.name : LoopVariable → String
  | key => "key"
  | index => "index"
  | first => "first"
  | last => "last"

/-- The loop variable of a name with its at sign. -/
def LoopVariable.ofName? : String → Option LoopVariable
  | "@key" => some key
  | "@index" => some index
  | "@first" => some first
  | "@last" => some last
  | _ => none

/-- The words with a fixed value. -/
inductive Constant
  | yes
  | no
  | nothing
  deriving DecidableEq, Repr

/-- The constant of a word. -/
def Constant.ofName? : String → Option Constant
  | "true" => some yes
  | "false" => some no
  | "null" | "undefined" => some nothing
  | _ => none

/-- An argument of a directive. -/
inductive Argument
  | text (s : List Char)
  | numeral (token : List Char)
  | constant (c : Constant)
  | loopVariable (v : LoopVariable)
  /-- A path from the outermost context, or from the context `ups` levels out. -/
  | path (fromRoot : Bool) (ups : Nat) (segments : List (List Char))
  deriving DecidableEq, Repr

namespace Argument

/-- The text between equal quotes at both ends. -/
def unquoted? : List Char → Option (List Char)
  | c :: rest =>
    if (c == '\x22' || c == '\x27') && rest.getLast? == some c then some rest.dropLast else none
  | [] => none

/-- A numeral: a sign, digits of any script, perhaps a point and more digits. -/
def isNumeral (token : List Char) : Bool :=
  let unsigned := match token with
    | '-' :: rest => rest
    | _ => token
  let whole := unsigned.takeWhile isDecimalDigit
  let rest := unsigned.dropWhile isDecimalDigit
  !whole.isEmpty && match rest with
    | [] => true
    | '.' :: fraction => !fraction.isEmpty && fraction.all isDecimalDigit
    | _ => false

/-- The number of leading `../`, and the rest. -/
def countUps : List Char → Nat × List Char
  | '.' :: '.' :: '/' :: rest =>
    let (n, tail) := countUps rest
    (n + 1, tail)
  | s => (0, s)

/-- The names of a path between points and slashes; a leading `this` is no name. -/
def segmentsOf (s : List Char) : List (List Char) :=
  let names := (s.splitOnP fun c => c == '.' || c == '/').filter (!·.isEmpty)
  match names with
  | name :: rest => if name == "this".toList then rest else names
  | [] => []

/-- The argument that stands behind `@root`. -/
def ofRoot (rest : List Char) : Argument :=
  let tail := rest.dropWhile fun c => c == '.' || c == '/'
  .path true 0 (segmentsOf tail)

/-- Reads an argument, which must not be empty. -/
def read (token : List Char) : Result Argument :=
  if token.isEmpty then .error .emptyOperand
  else
    let name := String.ofList token
    match unquoted? token with
    | some s => .ok (.text s)
    | none =>
      if isNumeral token then .ok (.numeral token)
      else match Constant.ofName? name, LoopVariable.ofName? name with
        | some c, _ => .ok (.constant c)
        | none, some v => .ok (.loopVariable v)
        | none, none =>
          if "@root".toList.isPrefixOf token then .ok (ofRoot (token.drop 5))
          else
            let (ups, tail) := countUps token
            .ok (.path false ups (segmentsOf tail))

end Argument

/-- A word of a directive's body: a text in quotes, or a run without blanks. -/
def cutWord (c : Char) (rest : List Char) : List Char × List Char :=
  let inner := rest.takeWhile (· != c)
  let tail := rest.dropWhile (· != c)
  if (c == '\x22' || c == '\x27') && !tail.isEmpty then (c :: inner ++ [c], tail.tail)
  else (c :: rest.takeWhile (!isBlank ·), rest.dropWhile (!isBlank ·))

theorem length_cutWord (c : Char) (rest : List Char) :
    (cutWord c rest).2.length ≤ rest.length := by
  unfold cutWord
  dsimp only
  split
  · have := (List.dropWhile_suffix (l := rest) fun x => x != c).length_le
    simp only [List.length_tail]
    omega
  · exact (List.dropWhile_suffix _).length_le

/-- The words of a directive's body. -/
def wordsOf (s : List Char) : List (List Char) :=
  match s with
  | [] => []
  | c :: rest =>
    if isBlank c then wordsOf rest
    else
      have := length_cutWord c rest
      (cutWord c rest).1 :: wordsOf (cutWord c rest).2
termination_by s.length
decreasing_by
  · simp
  · simp; omega

/-- What a tag says. -/
inductive Directive
  | comment
  | opens (kind : BlockKind) (argument : List Char)
  | closes (name : List Char)
  | otherwise
  | output (helper : Option Helper) (argument : List Char)
  deriving DecidableEq, Repr

namespace Directive

/-- Reads what stands behind the mark of an opening tag. -/
def readOpening (body : List Char) : Except TemplateFault Directive :=
  match wordsOf body with
  | [] => .error .emptyBlock
  | name :: arguments =>
    let name := String.ofList name
    match BlockKind.ofName? name, arguments with
    | none, _ => .error (.unknownBlock name)
    | some kind, [argument] => .ok (.opens kind argument)
    | some _, _ => .error (.blockArity name)

/-- Reads a tag that puts out a value. -/
def readOutput (body : List Char) : Except TemplateFault Directive :=
  match wordsOf body with
  | [] => .error .emptyDirective
  | word :: arguments =>
    let name := String.ofList word
    match Helper.ofName? name, arguments with
    | none, [] => .ok (.output none word)
    | none, _ => .error (.unknownHelper name)
    | some helper, [argument] => .ok (.output (some helper) argument)
    | some _, _ => .error (.helperArity name)

/-- Reads the body of a directive tag. -/
def readBody (body : List Char) : Except TemplateFault Directive :=
  match body with
  | [] => .error .emptyDirective
  | '#' :: rest => readOpening (trim rest)
  | '/' :: rest => .ok (.closes (trim rest))
  | c :: _ =>
    if body == "else".toList || body == ['^'] then .ok .otherwise
    else if c == '>' || c == '^' || c == '&' then
      .error (.unsupported (String.ofList body))
    else readOutput body

/-- Reads a tag. -/
def ofTag (t : Tag) : Except TemplateFault Directive :=
  match t.kind with
  | .comment => .ok .comment
  | .output => .ok (.output none (trim t.body))
  | .directive => readBody (trim t.body)

end Directive
end SqlWeave.Template
