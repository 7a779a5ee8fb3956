import SqlWeave.Script.Run
import SqlWeave.Script.Assembly
import SqlWeave.Sql.Statement

/-!
# Compiled templates

A template is prepared once, by assembling its script and reading the script's
source, and rendered any number of times.  Rendering resolves the directives; the
bind markers outside of bound blocks are left for `format`, which binds them and
lays the statements out.

A script is run as code, in which blocks are indented and loops stand in one another.
There are limits to both, beyond which a template is not prepared.
-/

namespace SqlWeave

open Script

/-! ## Nesting -/

namespace Script

/-- What an open block of a script is in its code.  A bound block is a function of its
own. -/
inductive CodeBlock
  | branch
  | loop
  | function
  deriving DecidableEq, Repr

/-- The open blocks behind an instruction, the innermost first.  The second part of a
loop stands behind the loop, as a branch. -/
def Instruction.nest (blocks : List CodeBlock) : Instruction → List CodeBlock
  | opensChoice .. => .branch :: blocks
  | opensLoop .. => .loop :: blocks
  | opensBound .. => .function :: blocks
  | otherwise => .branch :: blocks.tail
  | closesChoice | closesLoop | closesBound => blocks.tail
  | text _ | output .. => blocks

/-- The open blocks before a script, and behind each of its instructions. -/
def nestings (blocks : List CodeBlock) : List Instruction → List (List CodeBlock)
  | [] => [blocks]
  | i :: rest => blocks :: nestings (i.nest blocks) rest

/-- How deep the code inside open blocks is indented: by one level for the script and
for every block, and by another one where a function looks at its argument. -/
def indentation : List CodeBlock → Nat
  | .function :: outer => outer.length + 3
  | blocks => blocks.length + 1

/-- The number of loops around the code inside open blocks, within one function. -/
def loopsAround (blocks : List CodeBlock) : Nat :=
  (blocks.takeWhile (· != .function)).count .loop

/-- The deepest indentation of code. -/
def indentationLimit : Nat := 99

/-- The most loops inside one another. -/
def loopLimit : Nat := 20

/-- Checks that a script is not nested too deep for its code.  Code is read before it is
compiled, so indentation goes first. -/
def checkNesting (instructions : List Instruction) : Result Unit :=
  let all := nestings [] instructions
  if all.any fun blocks => indentationLimit < indentation blocks then .error .overIndented
  else if all.any fun blocks => loopLimit < loopsAround blocks then .error .overNested
  else .ok ()

end Script

namespace Template

/-! ## Preparing and rendering -/

/-- A prepared template. -/
structure Compiled where
  tree : List Node
  texts : List (List Char)

/-- The fault of a template whose script has a malformed token. -/
def ofTokenFault (template : String) : TokenFault → Fault
  | .script cause => .template (.script cause template)
  | .oversizedNumeral digits => .oversizedNumeral digits
  | .numeral cause => .unreadableNumeral cause

/-- Prepares a template. -/
def prepare (template : String) : Result Compiled := do
  let assembly ← assemble template.toList
  let tree ← (readSource (source assembly.instructions)).mapError (ofTokenFault template)
  checkNesting assembly.instructions
  return ⟨tree, assembly.texts⟩

/-- The SQL skeleton that a prepared template gives for parameters. -/
def Compiled.render (c : Compiled) (d : Sql.Dialect) (params : List (Value × Value)) :
    Result (List Char) :=
  runAll d c.texts [(contextName 0, .map params)] c.tree

/-- The entries of the parameters, which have to be a mapping. -/
def parameterEntries : Value → Result (List (Value × Value))
  | .map params => .ok params
  | v => .error (.template (.notMapping v.typeName))

/-- The SQL skeleton of a template under parameters. -/
def compile (d : Sql.Dialect) (template : String) (params : Value) : Result String := do
  let params ← parameterEntries params
  let compiled ← prepare template
  return String.ofList (← compiled.render d params)

/-- The final SQL of a template under parameters.  Without parameters the text is
plain SQL and stays as it is. -/
def format (d : Sql.Dialect) (template : String) : Value → Result String
  | .null => .ok template
  | params => do
    let skeleton ← compile d template params
    return String.ofList (Sql.layout (← d.bind skeleton.toList params))

end Template

end SqlWeave
