import SqlWeave.Template.Directive

/-!
# Directive trees

The pieces of a template are nested by its blocks: an outline is what has been read so
far, the open blocks with what stands before each of them, and the part that is being
read.  When all pieces are read and no block is open, what has been read is the tree of
the template.
-/

namespace SqlWeave.Template

/-- A node of a directive tree. -/
inductive Tree
  | text (s : List Char)
  | output (helper : Option Helper) (a : Argument)
  /-- A block with its first part and the part behind its `else`. -/
  | block (kind : BlockKind) (a : Argument) (body other : List Tree)
  deriving Repr

/-- A block that is not closed yet. -/
structure OpenBlock where
  /-- What stands before the block. -/
  before : List Tree
  kind : BlockKind
  argument : Argument
  /-- The first part, once the block's `else` is passed. -/
  body? : Option (List Tree) := none

/-- The block closed behind the part `last`, with what stands before it. -/
def OpenBlock.close (b : OpenBlock) (last : List Tree) : List Tree :=
  match b.body? with
  | none => b.before ++ [.block b.kind b.argument last []]
  | some body => b.before ++ [.block b.kind b.argument body last]

/-- What has been read of a template. -/
structure Outline where
  /-- The open blocks, the innermost first. -/
  blocks : List OpenBlock := []
  /-- The part that is being read. -/
  current : List Tree := []

namespace Outline

/-- The outline with a node behind its last one. -/
def push (o : Outline) (t : Tree) : Outline :=
  { o with current := o.current ++ [t] }

/-- The outline behind a directive. -/
def directive (o : Outline) : Directive → Option Outline
  | .comment => some o
  | .opens kind argument => do
    let a ← (Argument.read argument).toOption
    return ⟨⟨o.current, kind, a, none⟩ :: o.blocks, []⟩
  | .closes name =>
    match o.blocks with
    | [] => none
    | b :: outer =>
      if b.kind.name = String.ofList name then some ⟨outer, b.close o.current⟩ else none
  | .otherwise =>
    match o.blocks with
    | [] => none
    | b :: outer =>
      if b.kind = .sql || b.body?.isSome then none
      else some ⟨{ b with body? := some o.current } :: outer, []⟩
  | .output helper argument => do
    let a ← (Argument.read argument).toOption
    return o.push (.output helper a)

/-- The outline behind a piece. -/
def piece (o : Outline) : Piece → Option Outline
  | .text s => some (o.push (.text s))
  | .tag t => do o.directive (← (Directive.ofTag t).toOption)

/-- The outline behind pieces. -/
def pieces (o : Outline) : List Piece → Option Outline
  | [] => some o
  | p :: rest => do (← o.piece p).pieces rest

end Outline

end SqlWeave.Template
