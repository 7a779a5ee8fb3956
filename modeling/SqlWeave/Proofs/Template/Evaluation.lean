import SqlWeave.Proofs.Number.Numeral
import SqlWeave.Proofs.Template.Outline
import SqlWeave.Script.Run

/-!
# Evaluating directive trees

What a template means: its directive tree is evaluated under a stack of contexts.  A loop
and a bound block push their items; paths go out along the stack, and stay at the
parameters when they go out further.
-/

namespace SqlWeave.Template

open Number Script

/-! ## Contexts -/

/-- A context: an item, and the pass of the loop that it is an item of. -/
structure Context where
  item : Value
  pass? : Option Pass := none

/-- The context of one pass of a loop. -/
def Context.ofPass (p : Pass) : Context :=
  ⟨p.item, some p⟩

/-- The item `ups` levels out on a stack of contexts, or the outermost one. -/
def itemAt : List Context → Nat → Value
  | [], _ => .null
  | [outermost], _ => outermost.item
  | c :: _ :: _, 0 => c.item
  | _ :: c :: outer, ups + 1 => itemAt (c :: outer) ups

/-- The outermost item of a stack of contexts. -/
def outermostItem (stack : List Context) : Value :=
  (stack.getLast?.map Context.item).getD .null

/-- The value of a loop variable in a pass. -/
def LoopVariable.value (p : Pass) : LoopVariable → Value
  | .key => p.key
  | .index => .int p.index
  | .first => .bool p.isFirst
  | .last => .bool p.isLast

/-! ## Values -/

/-- The value of a constant. -/
def Constant.value : Constant → Value
  | .yes => .bool true
  | .no => .bool false
  | .nothing => .null

/-- The value of an argument under a stack of contexts.  Loop variables are those of the
innermost loop. -/
def Argument.value (stack : List Context) : Argument → Result Value
  | .text s => .ok (.ofChars s)
  | .numeral token => .ok (Numeral.read token).value
  | .constant c => .ok c.value
  | .loopVariable v =>
    match stack.findSome? Context.pass? with
    | some p => .ok (v.value p)
    | none => .error (.template (.outsideLoop ("@" ++ v.name)))
  | .path true _ segments => lookup (outermostItem stack) segments
  | .path false ups segments => lookup (itemAt stack ups) segments

/-- What a value is put out as, by a helper or as a literal. -/
def putOut (d : Sql.Dialect) (helper : Option Helper) (v : Value) : Result (List Char) :=
  match helper with
  | none => d.literal v
  | some helper => Script.Helper.apply d helper v

/-! ## Evaluation -/

mutual

/-- What a node stands for. -/
def Tree.evaluate (d : Sql.Dialect) (stack : List Context) : Tree → Result (List Char)
  | .text s => .ok s
  | .output helper a => do putOut d helper (← a.value stack)
  | .block .ifTrue a body other => do
    if (← a.value stack).isTruthy then evaluateAll d stack body else evaluateAll d stack other
  | .block .ifFalse a body other => do
    if (← a.value stack).isTruthy then evaluateAll d stack other else evaluateAll d stack body
  | .block .each a body other => do
    let ps := passes (← a.value stack)
    if ps.isEmpty then evaluateAll d stack other
    else return (← ps.mapM fun p => evaluateAll d (.ofPass p :: stack) body).flatten
  | .block .sql a body _ => do
    let items := boundItems (← a.value stack)
    let parts ← items.mapM fun item => do
      d.bindEntries (← evaluateAll d (⟨item, none⟩ :: stack) body) (itemParameters item)
    return List.intercalate ['\n'] parts

/-- What nodes stand for in a row. -/
def evaluateAll (d : Sql.Dialect) (stack : List Context) : List Tree → Result (List Char)
  | [] => .ok []
  | t :: rest => do return (← t.evaluate d stack) ++ (← evaluateAll d stack rest)

end

/-- What a directive tree stands for under parameters. -/
def evaluate (d : Sql.Dialect) (tree : List Tree) (params : List (Value × Value)) :
    Result (List Char) :=
  evaluateAll d [⟨.map params, none⟩] tree

end SqlWeave.Template
