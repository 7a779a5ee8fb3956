import SqlWeave.Casing.Words
import SqlWeave.Settings.Coercion
import SqlWeave.Text.Json

/-!
# Where options come from

Options are given in code, in either casing, and by environment variables, whose
names are compared without regard to case.  A value given in code goes before one
of the environment, and that before the default.

A group of options is checked field by field; all complaints are collected.
-/

namespace SqlWeave.Settings

/-- Options by their database spelling. -/
abbrev Options := List (String × Value)

/-- The process environment. -/
abbrev Environment := List (String × String)

/-- Sets an option, in its place if it is there. -/
def Options.set (name : String) (v : Value) : Options → Options
  | [] => [(name, v)]
  | (n, w) :: rest => if n = name then (n, v) :: rest else (n, w) :: Options.set name v rest

/-- The options without one. -/
def Options.without (name : String) (options : Options) : Options :=
  options.filter (·.1 != name)

/-- An option's name in the database spelling. -/
def optionName (key : Value) : String :=
  String.ofList (Casing.snake key.display)

/-- Entries with their keys in the database spelling, those without a value left
out; of two entries for one option the later one counts. -/
def normalize (entries : List (Value × Value)) : Options :=
  entries.foldl (fun options e =>
    match e.2 with
    | .null => options
    | v => options.set (optionName e.1) v) []

/-- The options in a value, which has to be a mapping. -/
def normalizeValue : Value → Result Options
  | .map entries => .ok (normalize entries)
  | v => .error (.noMember v.typeName "items")

/-- The options in a value that may be left out: what does not count as true is
taken for no options. -/
def normalizeOptional (v : Value) : Result Options :=
  if v.isNonempty then normalizeValue v else .ok []

/-- A letter in lower case, as far as option names need it. -/
def foldCase (c : Char) : Char :=
  if c.toNat = 0x212A then 'k' else c.toLower

/-- A name in lower case. -/
def foldName (s : String) : String :=
  String.ofList (s.toList.map foldCase)

/-- The value of the variable with a name, given in lower case. -/
def Environment.find? (env : Environment) (name : String) : Option String :=
  (env.reverse.find? fun e => foldName e.1 = name).map Prod.snd

/-- Where the options of a group come from: code, and variables that start with
`stem`. -/
structure Source where
  options : Options
  environment : Environment
  stem : String

/-- The value of a field before coercion. -/
def Source.find? (s : Source) (field : String) : Option Value :=
  (s.options.lookup field).or ((s.environment.find? (s.stem ++ field)).map Value.str)

/-- The place of an entry; a truth value counts as a number. -/
def keyPlace : Value → String
  | .str s => s
  | .bool b => if b then "1" else "0"
  | key => String.ofList key.inspect

/-- The entries whose keys are texts, as options. -/
def textOptions (entries : List (Value × Value)) : Options :=
  entries.filterMap fun
    | (.str name, v) => some (name, v)
    | _ => none

/-- Options as the entries of a mapping. -/
def Options.entries (options : Options) : List (Value × Value) :=
  options.map fun o => (.str o.1, o.2)

/-- A check that collects complaints. -/
abbrev Check := StateM (List Complaint)

namespace Check

/-- Adds complaints. -/
def complain (complaints : List Complaint) : Check Unit :=
  modify (· ++ complaints)

/-- The coerced value of a field, or its default. -/
def field {α : Type} (name : String) (value : Option Value) (default : α) (c : Coercion α) :
    Check α := do
  match value with
  | none => return default
  | some v =>
    match c v with
    | .ok a => return a
    | .error refusal =>
      complain [⟨[name], refusal⟩]
      return default

/-- The result of a check of the group `model`. -/
def run {α : Type} (model : String) (check : Check α) : Result α :=
  let (a, complaints) := StateT.run check []
  if complaints.isEmpty then .ok a else .error (.invalid model complaints)

end Check
end SqlWeave.Settings
