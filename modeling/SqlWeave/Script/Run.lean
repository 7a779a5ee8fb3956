import SqlWeave.Script.Tree
import SqlWeave.Sql.Skeleton

/-!
# Running scripts

A script runs against named values: the parameters, the items of loops and bound
blocks, and the variables of loops.  What it puts out is SQL text: the literal
texts of the template as they are, values as literals or as identifiers.

Paths are strict.  A segment is a key of a mapping, or the index of an item of a
sequence when it consists of digits; anything else is a fault.
-/

namespace SqlWeave.Script

open Template Text Number

/-! ## Paths -/

/-- Could the segment be an index? -/
def isIndex (segment : List Char) : Bool :=
  !segment.isEmpty && segment.all isDigitLike

/-- The number that a segment of digits stands for.  It is read up to the first digit
without a decimal value, which makes it no numeral. -/
def readIndex (segment : List Char) : Result Nat :=
  let digits := segment.takeWhile isDecimalDigit
  if digitLimit < digits.length then .error (.oversizedNumeral digits.length)
  else if digits.length < segment.length then .error (.notNumeral (String.ofList segment))
  else .ok (ofDigitValues (digits.map fun c => (decimalValue? c).getD 0))

/-- The item of a sequence at a segment. -/
def stepItem (items : List Value) (segment : List Char) : Result (Option Value) :=
  if isIndex segment then do return items[← readIndex segment]? else .ok none

/-- What a value holds at a segment. -/
def step (v : Value) (segment : List Char) : Result (Option Value) :=
  match v with
  | .map entries => .ok (Value.find? (String.ofList segment) entries)
  | .list items => stepItem items segment
  | .tuple items => stepItem items segment
  | _ => .ok none

/-- A path as messages spell it. -/
def pathText (segments : List (List Char)) : String :=
  String.ofList (List.intercalate ['.'] segments)

/-- Follows the segments `rest` of the path `segments`. -/
def follow (segments : List (List Char)) (v : Value) : List (List Char) → Result Value
  | [] => .ok v
  | segment :: rest => do
    match ← step v segment with
    | some w => follow segments w rest
    | none => .error (.template (.undefinedPath (pathText segments) v.typeName))

/-- The value at the end of a path. -/
def lookup (v : Value) (segments : List (List Char)) : Result Value :=
  follow segments v segments

/-! ## Items -/

/-- One pass of a loop. -/
structure Pass where
  key : Value
  item : Value
  index : Nat
  isFirst : Bool
  isLast : Bool

/-- The keys and items that a loop goes through: the entries of a mapping, the
items of a sequence, and nothing for other values. -/
def keyedItems : Value → List (Value × Value)
  | .map entries => entries
  | .list items => items.mapIdx fun i v => (.int i, v)
  | .tuple items => items.mapIdx fun i v => (.int i, v)
  | _ => []

/-- The passes of a loop over a value. -/
def passes (v : Value) : List Pass :=
  let pairs := keyedItems v
  pairs.mapIdx fun i p => ⟨p.1, p.2, i, i == 0, i + 1 == pairs.length⟩

/-- The values of a pass in the order of a loop's names. -/
def Pass.values (p : Pass) : List Value :=
  [p.key, p.item, .int p.index, .bool p.isFirst, .bool p.isLast]

/-- The items that a bound block goes through; a value that is no sequence is one
item. -/
def boundItems : Value → List Value
  | .list items => items
  | .tuple items => items
  | v => [v]

/-- The parameters that an item gives to a bound block. -/
def itemParameters : Value → List (Value × Value)
  | .map entries => entries
  | _ => []

/-! ## Running -/

/-- The named values, the latest first. -/
abbrev Env := List (List Char × Value)

/-- The value of a name. -/
def Env.get (env : Env) (name : List Char) : Value :=
  (List.lookup name env).getD .null

/-- The value of a constant.  Infinity is no constant of scripts: a numeral beyond
the range of the numbers stands for the name `inf`, which is bound to nothing. -/
def constantValue : Value → Result Value
  | .float (.infinite _) => .error (.unboundName "inf")
  | v => .ok v

/-- The value of a term. -/
def Term.eval (env : Env) : Term → Result Value
  | .value v => constantValue v
  | .variable name => .ok (env.get name)
  | .lookup name segments => Script.lookup (env.get name) segments

/-- What a value is put out as. -/
def Helper.apply (d : Sql.Dialect) : Helper → Value → Result (List Char)
  | .identifier => d.path
  | .literal => d.literal

/-- What a term is put out as.  A constant that stands alone is written ahead, if it
has a literal; all else is put out as its value, a literal without a helper. -/
def Term.put (d : Sql.Dialect) (env : Env) : Option Helper → Term → Result (List Char)
  | none, .value v =>
    match d.literal v with
    | .ok s => .ok s
    | .error _ => do d.literal (← constantValue v)
  | none, t => do d.literal (← t.eval env)
  | some helper, t => do Helper.apply d helper (← t.eval env)

mutual

/-- What a node puts out. -/
def Node.run (d : Sql.Dialect) (texts : List (List Char)) (env : Env) :
    Node → Result (List Char)
  | .text index => .ok (texts[index]?.getD [])
  | .output helper t => t.put d env helper
  | .choice expected t body other => do
    if (← t.eval env).isTruthy == expected then runAll d texts env body
    else runAll d texts env other
  | .loop names t body other => do
    let ps := passes (← t.eval env)
    if ps.isEmpty then runAll d texts env other
    else
      return (← ps.mapM fun p => runAll d texts (names.zip p.values ++ env) body).flatten
  | .bound name t body => do
    let items := boundItems (← t.eval env)
    let parts ← items.mapM fun item => do
      d.bindEntries (← runAll d texts ((name, item) :: env) body) (itemParameters item)
    return List.intercalate ['\n'] parts

/-- What nodes put out in a row. -/
def runAll (d : Sql.Dialect) (texts : List (List Char)) (env : Env) :
    List Node → Result (List Char)
  | [] => .ok []
  | n :: rest => do return (← n.run d texts env) ++ (← runAll d texts env rest)

end

end SqlWeave.Script
