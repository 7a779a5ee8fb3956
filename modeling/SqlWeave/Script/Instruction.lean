import SqlWeave.Template.Directive

/-!
# Scripts

A template is turned into a script: a flat list of instructions in which every path
is relative to a named context.  Contexts are numbered; context 0 holds the
parameters, and every loop and every bound block numbers a new one.  The literal
text of the template is kept outside of the script, which refers to it by index.

`Instruction.source` writes an instruction; the texts of all instructions in a row
are the source of the script.
-/

namespace SqlWeave.Script

open Template Number

/-- An expression of a script. -/
inductive Expr
  | text (s : List Char)
  /-- A numeral, as the template spells it. -/
  | numeral (token : List Char)
  | constant (c : Constant)
  | loopVariable (v : LoopVariable) (loop : Nat)
  /-- A path from a numbered context; without segments the context itself. -/
  | path (context : Nat) (segments : List (List Char))
  deriving DecidableEq, Repr

/-- An instruction of a script. -/
inductive Instruction
  | text (index : Nat)
  | output (helper : Option Helper) (e : Expr)
  /-- Runs its first part if the value counts as true, or does not. -/
  | opensChoice (expected : Bool) (e : Expr)
  | opensLoop (n : Nat) (e : Expr)
  | opensBound (n : Nat) (e : Expr)
  | otherwise
  | closesChoice
  | closesLoop
  | closesBound
  deriving DecidableEq, Repr

/-- A backslash before every backslash and every quote. -/
def escapeQuoted (s : List Char) : List Char :=
  s.flatMap fun c => if c == '\\' || c == '\x27' then ['\\', c] else [c]

/-- A text between quotes. -/
def quotedSource (s : List Char) : List Char :=
  '\x27' :: escapeQuoted s ++ ['\x27']

/-- A name with a number behind it. -/
def numbered (name : String) (n : Nat) : List Char :=
  name.toList ++ natText n

/-- The name of a context. -/
def contextName (n : Nat) : List Char :=
  numbered "_ctx" n

/-- The name of a loop variable. -/
def variableName (v : LoopVariable) (loop : Nat) : List Char :=
  numbered ("_" ++ v.name) loop

/-- A constant's name in scripts. -/
def constantName : Constant → String
  | .yes => "True"
  | .no => "False"
  | .nothing => "None"

/-- An expression as source. -/
def Expr.source : Expr → List Char
  | .text s => quotedSource s
  | .numeral token => token
  | .constant c => (constantName c).toList
  | .loopVariable v loop => variableName v loop
  | .path context [] => contextName context
  | .path context segments =>
    "_lookup(".toList ++ contextName context ++ ", ".toList ++
      commaJoined (segments.map quotedSource) ++ [')']

/-- The call of a function on an expression, as source. -/
def callSource (function : String) (e : Expr) : List Char :=
  function.toList ++ '(' :: e.source ++ [')']

/-- A source that puts something out. -/
def outputSource (s : List Char) : List Char :=
  "\x7b\x7b ".toList ++ s ++ " \x7d\x7d".toList

/-- A source that steers. -/
def statementSource (s : List Char) : List Char :=
  "\x7b% ".toList ++ s ++ " %\x7d".toList

/-- A helper's name in scripts. -/
def helperName : Helper → String
  | .identifier => "_sqlEscapeId"
  | .literal => "_sqlEscape"

/-- The names that a loop sets. -/
def loopNames (n : Nat) : List (List Char) :=
  [variableName .key n, contextName n, variableName .index n, variableName .first n,
   variableName .last n]

/-- An instruction as source. -/
def Instruction.source : Instruction → List Char
  | text index => outputSource (numbered "_text[" index ++ [']'])
  | output none e => outputSource e.source
  | output (some helper) e => outputSource (callSource (helperName helper) e)
  | opensChoice true e => statementSource ("if ".toList ++ callSource "_truthy" e)
  | opensChoice false e => statementSource ("if not ".toList ++ callSource "_truthy" e)
  | opensLoop n e =>
    statementSource ("for ".toList ++ commaJoined (loopNames n) ++ " in ".toList ++
      callSource "_iterate" e)
  | opensBound n e =>
    statementSource ("call(".toList ++ contextName n ++ ") ".toList ++ callSource "_sql" e)
  | otherwise => statementSource "else".toList
  | closesChoice => statementSource "endif".toList
  | closesLoop => statementSource "endfor".toList
  | closesBound => statementSource "endcall".toList

/-- The source of a script. -/
def source (instructions : List Instruction) : List Char :=
  instructions.flatMap Instruction.source

end SqlWeave.Script
