import SqlWeave.Casing.Words
import SqlWeave.Value.Basic

/-!
# Column names of a result

A result is a list of rows, or a list of such lists, one for each statement.
`applicationCasing` renames the text keys of every row to camel case and leaves
headers and all other values alone.  When two columns get one name, the name keeps
the first place and the last value.
-/

namespace SqlWeave.Casing

/-- A column's name in the application. -/
def columnName : Value → Value
  | .str s => .ofChars (camel s.toList)
  | key => key

/-- A row with its columns renamed. -/
def renameRow (entries : List (Value × Value)) : Value :=
  .ofEntries (entries.map fun e => (columnName e.1, e.2))

mutual

/-- A result with the columns of every row renamed. -/
def applicationCasing : Value → Value
  | .list items => .list (renameItems items)
  | v => v

/-- The items of a result list: rows are renamed, nested lists are walked. -/
def renameItems : List Value → List Value
  | [] => []
  | v :: rest => renameItem v :: renameItems rest

/-- One item of a result list. -/
def renameItem : Value → Value
  | .list items => .list (renameItems items)
  | .map entries => renameRow entries
  | v => v

end

end SqlWeave.Casing
