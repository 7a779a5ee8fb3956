import SqlWeave.Casing.Words
import SqlWeave.Fault

/-!
# Quoted identifiers

An identifier stands between backquotes, a backquote inside it doubled.  A
qualified name is its parts, quoted one by one and joined by points.  `ofValue`
quotes a name as it is spelled; `Dialect.path` first brings every part of a
dotted path to the database's spelling.
-/

namespace SqlWeave.Sql

/-- The quote of identifiers. -/
def backquote : Char := '\x60'

namespace Identifier

/-- A name with every backquote doubled. -/
def doubled (name : List Char) : List Char :=
  name.flatMap fun c => if c == backquote then [backquote, backquote] else [c]

/-- The parts of a text between occurrences of a separator; never empty. -/
def parts (separator : Char) : List Char → List (List Char)
  | [] => [[]]
  | c :: rest =>
    if c == separator then [] :: parts separator rest
    else match parts separator rest with
      | [] => [[c]]
      | part :: others => (c :: part) :: others

/-- A name between backquotes. -/
def quoted (name : List Char) : List Char :=
  backquote :: doubled name ++ [backquote]

/-- A name whose points separate a qualifier from what it qualifies. -/
def qualified (name : List Char) : List Char :=
  List.intercalate ['.'] ((parts '.' name).map quoted)

/-- The quoted form of a plain value; points separate parts unless `single`. -/
def ofScalar (single : Bool) (v : Value) : Result (List Char) := do
  let name ← v.written
  return if single then quoted name else qualified name

mutual

/-- The quoted form of a value: a sequence is quoted item by item. -/
def ofValue (single : Bool) : Value → Result (List Char)
  | .list items => do return commaJoined (← ofValues single items)
  | .tuple items => do return commaJoined (← ofValues single items)
  | v => ofScalar single v

/-- The quoted forms of the items of a sequence. -/
def ofValues (single : Bool) : List Value → Result (List (List Char))
  | [] => .ok []
  | v :: rest => do return (← ofValue single v) :: (← ofValues single rest)

end

end Identifier
end SqlWeave.Sql
