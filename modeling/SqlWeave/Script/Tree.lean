import SqlWeave.Script.Token
import SqlWeave.Value.Basic

/-!
# Script trees

The reader of script source turns tokens into a tree: literal texts, outputs,
choices, loops and bound blocks, with terms that refer to variables by name.  It
stops at the first token that fits nowhere.
-/

namespace SqlWeave.Script

open Template

/-- A term. -/
inductive Term
  | value (v : Value)
  | variable (name : List Char)
  | lookup (name : List Char) (segments : List (List Char))
  deriving Repr

/-- A node of a script tree. -/
inductive Node
  | text (index : Nat)
  /-- Puts a value out through a helper, or as it is. -/
  | output (helper : Option Helper) (t : Term)
  /-- Runs the body if the value counts as true, or does not; else the other part. -/
  | choice (expected : Bool) (t : Term) (body other : List Node)
  /-- Runs the body for every item; without any item the other part. -/
  | loop (names : List (List Char)) (t : Term) (body other : List Node)
  /-- Runs the body for every item and binds the result to the item. -/
  | bound (name : List Char) (t : Term) (body : List Node)
  deriving Repr

namespace Reader

/-- The fault of a token that is not the expected one. -/
def unexpected {α : Type} (expected : String) : List Token → Except TokenFault α
  | .malformed fault :: _ => .error fault
  | t :: _ => .error (.script (.unexpected expected t.describe))
  | [] => .error (.script (.unexpected expected "end of template"))

/-- Takes one token. -/
def expect (t : Token) (called : String) : List Token → Except TokenFault (List Token)
  | u :: rest => if u = t then .ok rest else unexpected called (u :: rest)
  | [] => unexpected called []

/-- Takes a symbol. -/
def symbol (c : Char) : List Token → Except TokenFault (List Token) :=
  expect (.symbol c) (String.ofList [c])

/-- Takes a name. -/
def anyName : List Token → Except TokenFault (List Char × List Token)
  | .name s :: rest => .ok (s, rest)
  | ts => unexpected "name" ts

/-- Quoted texts behind commas, up to a closing parenthesis. -/
def segments : List Token → Except TokenFault (List (List Char) × List Token)
  | .symbol ',' :: .text s :: rest => do
    let (more, rest) ← segments rest
    return (s :: more, rest)
  | .symbol ')' :: rest => .ok ([], rest)
  | ts => unexpected "," ts

/-- Names behind commas, up to the name `in`. -/
def namesUntilIn : List Token → Except TokenFault (List (List Char) × List Token)
  | .symbol ',' :: .name s :: rest => do
    let (more, rest) ← namesUntilIn rest
    return (s :: more, rest)
  | .name s :: rest =>
    if s = "in".toList then .ok ([], rest) else unexpected "in" (.name s :: rest)
  | ts => unexpected "in" ts

/-- The value of a name that is a constant. -/
def constant? (s : List Char) : Option Value :=
  if s = "True".toList then some (.bool true)
  else if s = "False".toList then some (.bool false)
  else if s = "None".toList then some .null
  else none

/-- The value of a numeral behind a minus sign. -/
def negated : Value → Value
  | .int n => .int (-n)
  | .float (.finite negative m q) => .float (.finite (!negative) m q)
  | .float (.infinite negative) => .float (.infinite !negative)
  | v => v

/-- A numeral. -/
def numeral : List Token → Except TokenFault (Value × List Token)
  | .integer n :: rest => .ok (.int n, rest)
  | .float x :: rest => .ok (.float x, rest)
  | ts => unexpected "integer" ts

/-- A term. -/
def term : List Token → Except TokenFault (Term × List Token)
  | .text s :: rest => .ok (.value (.ofChars s), rest)
  | .symbol '-' :: rest => do
    let (v, rest) ← numeral rest
    return (.value (negated v), rest)
  | .name s :: rest =>
    match constant? s with
    | some v => .ok (.value v, rest)
    | none =>
      if s = "_lookup".toList then do
        let rest ← symbol '(' rest
        let (name, rest) ← anyName rest
        let (path, rest) ← segments rest
        return (.lookup name path, rest)
      else .ok (.variable s, rest)
  | ts => do
    let (v, rest) ← numeral ts
    return (.value v, rest)

/-- A term in parentheses, as the only argument of a call. -/
def argument (ts : List Token) : Except TokenFault (Term × List Token) := do
  let ts ← symbol '(' ts
  let (t, ts) ← term ts
  let ts ← expect (.symbol ')') "," ts
  return (t, ts)

/-- The call of the function `function` on a term. -/
def call (function : String) (ts : List Token) : Except TokenFault (Term × List Token) := do
  let ts ← expect (.name function.toList) function ts
  argument ts

/-- The end of a statement. -/
def endStatement : List Token → Except TokenFault (List Token) :=
  expect .endStatement "end of statement block"

/-- An output behind its opening braces. -/
def output (ts : List Token) : Except TokenFault (Node × List Token) := do
  let (node, ts) ← match ts with
    | .name s :: rest =>
      if s = "_text".toList then do
        let rest ← symbol '[' rest
        match rest with
        | .integer n :: rest =>
          let rest ← symbol ']' rest
          pure (Node.text n, rest)
        | ts => unexpected "integer" ts
      else if s = "_sqlEscapeId".toList then do
        let (t, rest) ← argument rest
        pure (.output (some .identifier) t, rest)
      else if s = "_sqlEscape".toList then do
        let (t, rest) ← argument rest
        pure (.output (some .literal) t, rest)
      else do
        let (t, rest) ← term ts
        pure (.output none t, rest)
    | ts => do
      let (t, rest) ← term ts
      pure (.output none t, rest)
  let ts ← expect .endOutput "end of print statement" ts
  return (node, ts)

/-- The end mark of a part, with its name, if the tokens start with one. -/
def partEnd? : List Token → Option (List Char × List Token)
  | .beginStatement :: .name s :: .endStatement :: rest =>
    if s = "else".toList || s = "endif".toList || s = "endfor".toList || s = "endcall".toList then
      some (s, rest)
    else none
  | _ => none

mutual

/-- The nodes up to the end mark of a part or the end of the source. -/
def nodes (ts : List Token) : Nat → Except TokenFault (List Node × List Token)
  | 0 => unexpected "end of template" ts
  | fuel + 1 =>
    match ts with
    | [] => .ok ([], [])
    | .beginOutput :: rest => do
      let (node, rest) ← output rest
      let (more, rest) ← nodes rest fuel
      return (node :: more, rest)
    | .beginStatement :: rest =>
      if (partEnd? ts).isSome then .ok ([], ts)
      else do
        let (node, rest) ← statement rest fuel
        let (more, rest) ← nodes rest fuel
        return (node :: more, rest)
    | ts => unexpected "begin of print statement" ts

/-- A part of a block, up to the end mark that is one of `marks`. -/
def part (marks : List String) (ts : List Token) : Nat → Except TokenFault ((List Node × List Char) × List Token)
  | 0 => unexpected "end of template" ts
  | fuel + 1 => do
    let (body, ts) ← nodes ts fuel
    match partEnd? ts with
    | some (mark, rest) =>
      if marks.contains (String.ofList mark) then return ((body, mark), rest)
      else unexpected "end of statement block" ts
    | none => unexpected "end of statement block" ts

/-- The two parts of a block with an optional second one, up to its end mark. -/
def parts (mark : String) (ts : List Token) : Nat → Except TokenFault ((List Node × List Node) × List Token)
  | 0 => unexpected "end of template" ts
  | fuel + 1 => do
    let ((body, ending), ts) ← part ["else", mark] ts fuel
    if ending = "else".toList then
      let ((other, _), ts) ← part [mark] ts fuel
      return ((body, other), ts)
    else return ((body, []), ts)

/-- A statement behind its opening mark. -/
def statement (ts : List Token) : Nat → Except TokenFault (Node × List Token)
  | 0 => unexpected "end of template" ts
  | fuel + 1 => do
    let (keyword, ts) ← anyName ts
    if keyword = "if".toList then
      let (expected, ts) := match ts with
        | .name s :: rest => if s = "not".toList then (false, rest) else (true, ts)
        | _ => (true, ts)
      let (t, ts) ← call "_truthy" ts
      let ts ← endStatement ts
      let ((body, other), ts) ← parts "endif" ts fuel
      return (.choice expected t body other, ts)
    else if keyword = "for".toList then
      let (first, ts) ← anyName ts
      let (others, ts) ← namesUntilIn ts
      let (t, ts) ← call "_iterate" ts
      let ts ← endStatement ts
      let ((body, other), ts) ← parts "endfor" ts fuel
      return (.loop (first :: others) t body other, ts)
    else if keyword = "call".toList then
      let ts ← symbol '(' ts
      let (name, ts) ← anyName ts
      let ts ← symbol ')' ts
      let (t, ts) ← call "_sql" ts
      let ts ← endStatement ts
      let ((body, _), ts) ← part ["endcall"] ts fuel
      return (.bound name t body, ts)
    else unexpected "tag name" (.name keyword :: ts)

end

/-- Reads the tokens of a whole script. -/
def script (ts : List Token) : Except TokenFault (List Node) := do
  let (tree, rest) ← nodes ts (4 * ts.length + 4)
  if rest.isEmpty then return tree else unexpected "end of template" rest

end Reader

/-- Reads script source. -/
def readSource (source : List Char) : Except TokenFault (List Node) :=
  Reader.script (tokens source)

end SqlWeave.Script
