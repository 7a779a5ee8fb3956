import SqlWeave.Script.Instruction

/-!
# From templates to scripts

A script is assembled by going through the pieces of a template with a stack of open
blocks.  A block with a context, that is a loop or a bound block, makes its items
reachable to what stands in it, but not to a loop's `else` part.  Paths count outwards
along the reachable contexts; going out further than the outermost one stays there.

The first fault in the order of the pieces is the fault of the template.
-/

namespace SqlWeave.Script

open Template

/-- An open block. -/
structure Frame where
  kind : BlockKind
  /-- The number of a loop or a bound block. -/
  number : Nat
  /-- Has the block's `else` been passed? -/
  inElse : Bool := false
  deriving DecidableEq, Repr

namespace Frame

/-- Does the block have items of its own? -/
def hasContext (f : Frame) : Bool :=
  f.kind == .each || f.kind == .sql

/-- The context that the block makes reachable, if any. -/
def context? (f : Frame) : Option Nat :=
  if f.hasContext && !f.inElse then some f.number else none

/-- The loop whose variables the block makes reachable, if any. -/
def loop? (f : Frame) : Option Nat :=
  if f.kind == .each && !f.inElse then some f.number else none

end Frame

/-- The state between two pieces of a template. -/
structure State where
  /-- The open blocks, the innermost first. -/
  frames : List Frame := []
  /-- How many contexts have been numbered, the parameters not counted. -/
  contexts : Nat := 0
  /-- The collected literal texts, the last first. -/
  texts : List (List Char) := []
  deriving Repr

namespace State

/-- The reachable contexts, the innermost first; the parameters come last. -/
def reachable (s : State) : List Nat :=
  s.frames.filterMap Frame.context? ++ [0]

/-- The context `ups` levels out, or the outermost one. -/
def contextAt (s : State) (ups : Nat) : Nat :=
  (s.reachable.drop ups).headD 0

/-- An argument in the scope of the open blocks. -/
def expr (s : State) : Argument → Except TemplateFault Expr
  | .text t => .ok (.text t)
  | .numeral token => .ok (.numeral token)
  | .constant c => .ok (.constant c)
  | .loopVariable v =>
    match s.frames.findSome? Frame.loop? with
    | some loop => .ok (.loopVariable v loop)
    | none => .error (.outsideLoop ("@" ++ v.name))
  | .path true _ segments => .ok (.path 0 segments)
  | .path false ups segments => .ok (.path (s.contextAt ups) segments)

/-- Reads an argument in the scope of the open blocks. -/
def readExpr (s : State) (argument : List Char) : Result Expr := do
  (s.expr (← Argument.read argument)).mapError Fault.template

/-- The instruction that opens a block, and the state inside it. -/
def enter (s : State) (kind : BlockKind) (e : Expr) : State × Instruction :=
  let n := s.contexts + 1
  match kind with
  | .ifTrue => ({ s with frames := ⟨kind, 0, false⟩ :: s.frames }, .opensChoice true e)
  | .ifFalse => ({ s with frames := ⟨kind, 0, false⟩ :: s.frames }, .opensChoice false e)
  | .each =>
    ({ s with frames := ⟨kind, n, false⟩ :: s.frames, contexts := n }, .opensLoop n e)
  | .sql =>
    ({ s with frames := ⟨kind, n, false⟩ :: s.frames, contexts := n }, .opensBound n e)

/-- The instruction that closes a block. -/
def closing : BlockKind → Instruction
  | .ifTrue | .ifFalse => .closesChoice
  | .each => .closesLoop
  | .sql => .closesBound

/-- Closes the innermost block, which must have this name. -/
def close (s : State) (name : String) : Except TemplateFault (State × Instruction) :=
  match s.frames with
  | [] => .error (.closesNothing name)
  | frame :: outer =>
    if frame.kind.name = name then .ok ({ s with frames := outer }, closing frame.kind)
    else .error (.closesOther name frame.kind.name)

/-- Passes to the second part of the innermost block, which must have one. -/
def passElse (s : State) : Except TemplateFault (State × Instruction) :=
  match s.frames with
  | [] => .error .strayElse
  | frame :: outer =>
    if frame.kind == .sql || frame.inElse then .error .strayElse
    else .ok ({ s with frames := { frame with inElse := true } :: outer }, .otherwise)

/-- What a directive does. -/
def directive (s : State) : Directive → Result (State × List Instruction)
  | .comment => .ok (s, [])
  | .opens kind argument => do
    let (s, i) := s.enter kind (← s.readExpr argument)
    return (s, [i])
  | .closes name => do
    let (s, i) ← (s.close (String.ofList name)).mapError Fault.template
    return (s, [i])
  | .otherwise => do
    let (s, i) ← s.passElse.mapError Fault.template
    return (s, [i])
  | .output helper argument => do
    return (s, [.output helper (← s.readExpr argument)])

/-- What a piece of a template does; empty texts do nothing. -/
def piece (s : State) : Piece → Result (State × List Instruction)
  | .text t =>
    if t.isEmpty then .ok (s, [])
    else .ok ({ s with texts := t :: s.texts }, [.text s.texts.length])
  | .tag t => do
    s.directive (← (Directive.ofTag t).mapError Fault.template)

/-- What the pieces of a template do, one after the other. -/
def run (s : State) : List Piece → Result (State × List Instruction)
  | [] => .ok (s, [])
  | p :: rest => do
    let (s, first) ← s.piece p
    let (s, more) ← s.run rest
    return (s, first ++ more)

end State

/-- What a template is assembled to: the instructions of a script, and the literal texts
of the template in order. -/
structure Assembly where
  instructions : List Instruction
  texts : List (List Char)
  deriving Repr

/-- Assembles the script of a template. -/
def assemble (template : List Char) : Result Assembly := do
  let (s, instructions) ← ({} : State).run (pieces template)
  match s.frames with
  | frame :: _ => .error (.template (.unclosed frame.kind.name))
  | [] => return ⟨instructions, s.texts.reverse⟩

/-- The source of the script of a template. -/
def sourceOf (template : List Char) : Result (List Char) := do
  return source (← assemble template).instructions

end SqlWeave.Script
