import SqlWeave.Sql.Identifier

/-!
# SQL literals

The literal of every value.  Texts stand between single quotes, with a backslash
before quotes, backslashes and the control characters that the server would not
take.  A mapping is its assignments, for a `SET` clause; a sequence is its literals
with commas, where an inner sequence is a group in parentheses, for bulk `VALUES`.
Numbers that are no finite numbers have no literal, and neither have integers that
cannot be written.
-/

namespace SqlWeave.Sql

open Number

namespace Literal

/-- A character inside a quoted text. -/
def escapedChar (c : Char) : List Char :=
  if c == '\x00' then ['\\', '0']
  else if c == '\n' then ['\\', 'n']
  else if c == '\r' then ['\\', 'r']
  else if c == '\x1a' then ['\\', 'Z']
  else if c == '\x22' || c == '\x27' || c == '\\' then ['\\', c]
  else [c]

/-- A text between single quotes. -/
def ofText (s : List Char) : List Char :=
  '\x27' :: s.flatMap escapedChar ++ ['\x27']

/-- A finite float in exponent notation, so that it is read as a float. -/
def ofFloat (x : Binary64) : Result (List Char) :=
  match x with
  | .finite .. =>
    let s := x.text
    .ok (if s.contains 'e' then s else s ++ ['e', '0'])
  | _ => .error (.noLiteral (String.ofList x.text))

/-- A finite decimal without an exponent. -/
def ofDecimal (d : Decimal) : Result (List Char) :=
  if d.isFinite then .ok d.positional
  else .error (.noLiteral (String.ofList (d.text.map Char.toLower)))

/-- The literal of a value that is neither a sequence nor a mapping. -/
def ofScalar : Value → Result (List Char)
  | .null => .ok "NULL".toList
  | .bool b => .ok [if b then '1' else '0']
  | .int n => if isWritable n then .ok (intText n) else .error .unwritableInteger
  | .float x => ofFloat x
  | .decimal d => ofDecimal d
  | .bytes octets => .ok ("_binary X'".toList ++ octets.flatMap hexByte ++ ['\x27'])
  | .date d => .ok (ofText d.text)
  | .datetime d t => .ok (ofText (d.text ++ ' ' :: t.text))
  | .time t => .ok (ofText t.text)
  | .duration d => .ok (ofText d.clockText)
  | v => do return ofText (← v.written)

mutual

/-- The literal of a value. -/
def ofValue : Value → Result (List Char)
  | .map entries => do return commaJoined (← assignments entries)
  | .list items => do return commaJoined (← ofItems items)
  | .tuple items => do return commaJoined (← ofItems items)
  | .set items => do return commaJoined (← ofItems items)
  | .frozenset items => do return commaJoined (← ofItems items)
  | v => ofScalar v

/-- The literals of the items of a sequence, inner sequences in parentheses. -/
def ofItems : List Value → Result (List (List Char))
  | [] => .ok []
  | v :: rest => do return (← ofItem v) :: (← ofItems rest)

/-- The literal of one item of a sequence. -/
def ofItem : Value → Result (List Char)
  | .list items => do return '(' :: commaJoined (← ofItems items) ++ [')']
  | .tuple items => do return '(' :: commaJoined (← ofItems items) ++ [')']
  | .map entries => do return commaJoined (← assignments entries)
  | .set items => do return commaJoined (← ofItems items)
  | .frozenset items => do return commaJoined (← ofItems items)
  | v => ofScalar v

/-- The entries of a mapping as assignments. -/
def assignments : List (Value × Value) → Result (List (List Char))
  | [] => .ok []
  | (k, v) :: rest => do
    return ((← Identifier.ofValue false k) ++ " = ".toList ++ (← ofValue v)) :: (← assignments rest)

end

end Literal

/-- How values and names become SQL text. -/
structure Dialect where
  /-- The literal of a value. -/
  literal : Value → Result (List Char)
  /-- The quoted form of one part of a path, which is already in the database's
  spelling. -/
  identifier : List Char → List Char

/-- The server's own literals and backquoted identifiers. -/
def Dialect.standard : Dialect where
  literal := Literal.ofValue
  identifier := Identifier.qualified

/-- A dotted path in the database's spelling, every part quoted: `tvShows.updatedAt`
is `tv_shows`, `updated_at`.  Sequences and mappings name nothing. -/
def Dialect.path (d : Dialect) : Value → Result (List Char)
  | v@(.null) | v@(.list _) | v@(.tuple _) | v@(.map _) => do
    throw (.template (.notIdentifier (String.ofList (← v.inspected))))
  | v => do
    return List.intercalate ['.']
      ((Identifier.parts '.' (← v.written)).map fun part => d.identifier (Casing.snake part))

end SqlWeave.Sql
