import SqlWeave.Text.Escape
import SqlWeave.Value.Basic

/-!
# Texts of values

`display` is the plain text of a value: a text stands for itself.  `inspect` is
the text that shows what kind of value it is: a text is quoted, a decimal is
wrapped in its type's name.  Sequences and mappings always inspect what they hold.
`isWritable` tells whether a value has these texts: an integer with too many digits has
none, and no value has any that holds such an integer.
-/

namespace SqlWeave

open Number Text

/-- One character of a text quoted with `quote`. -/
def quotedChar (quote c : Char) : List Char :=
  if c == quote || c == '\\' then ['\\', c]
  else if c == '\t' then ['\\', 't']
  else if c == '\n' then ['\\', 'n']
  else if c == '\r' then ['\\', 'r']
  else if isPrintable c then [c]
  else codePointEscape c.toNat

/-- The quote for a text: the single one, unless the text holds single quotes and
no double ones. -/
def quoteFor (s : List Char) : Char :=
  if s.contains '\x27' && !s.contains '\x22' then '\x22' else '\x27'

/-- A quoted text. -/
def quotedText (s : List Char) : List Char :=
  let quote := quoteFor s
  quote :: s.flatMap (quotedChar quote) ++ [quote]

/-- One octet of a quoted octet string. -/
def quotedOctet (quote : Char) (n : Nat) : List Char :=
  let c := Char.ofNat n
  if c == quote || c == '\\' then ['\\', c]
  else if c == '\t' then ['\\', 't']
  else if c == '\n' then ['\\', 'n']
  else if c == '\r' then ['\\', 'r']
  else if n < 32 || 127 ≤ n then '\\' :: 'x' :: hexByte n
  else [c]

/-- A quoted octet string. -/
def quotedOctets (octets : List Nat) : List Char :=
  let quote := quoteFor (octets.map Char.ofNat)
  'b' :: quote :: octets.flatMap (quotedOctet quote) ++ [quote]

/-- Texts joined with a comma and a blank. -/
def commaJoined (parts : List (List Char)) : List Char :=
  List.intercalate [',', ' '] parts

private def callText (name : String) (args : List (List Char)) : List Char :=
  name.toList ++ '(' :: commaJoined args ++ [')']

/-- The arguments that show a time of day: seconds only when they or the
microseconds are not zero. -/
def Clock.arguments (t : Clock) : List (List Char) :=
  let fine := if t.microsecond != 0 then [natText t.second, natText t.microsecond]
    else if t.second != 0 then [natText t.second] else []
  natText t.hour :: natText t.minute :: fine

/-- The arguments that show a date. -/
def Date.arguments (d : Date) : List (List Char) :=
  [natText d.year, natText d.month, natText d.day]

/-- The arguments that show a duration: the parts that are not zero, by name. -/
def Duration.arguments (d : Duration) : List (List Char) :=
  let named (name : String) (value : List Char) := name.toList ++ '=' :: value
  let parts :=
    (if d.days != 0 then [named "days" (intText d.days)] else []) ++
    (if d.seconds != 0 then [named "seconds" (natText d.seconds)] else []) ++
    (if d.microseconds != 0 then [named "microseconds" (natText d.microseconds)] else [])
  if parts.isEmpty then [['0']] else parts

/-- A truth value's text. -/
def boolText (b : Bool) : List Char :=
  (if b then "True" else "False").toList

/-- A query configuration's flags, `separator` between them. -/
def QueryConfig.flagText (c : QueryConfig) (separator : String) : List Char :=
  "native_query=".toList ++ boolText (c.nativeQuery.getD false) ++ separator.toList ++
    "keep_original_casing=".toList ++ boolText (c.keepCasing.getD false)

namespace Value

mutual

/-- The text that shows a value and its kind. -/
def inspect : Value → List Char
  | null => "None".toList
  | bool b => boolText b
  | int n => intText n
  | str s => quotedText s.toList
  | float x => x.text
  | decimal d => callText "Decimal" ['\x27' :: d.text ++ ['\x27']]
  | bytes octets => quotedOctets octets
  | date d => callText "datetime.date" d.arguments
  | datetime d t => callText "datetime.datetime" (d.arguments ++ t.arguments)
  | time t => callText "datetime.time" t.arguments
  | duration d => callText "datetime.timedelta" d.arguments
  | list items => '[' :: commaJoined (inspectAll items) ++ [']']
  | tuple [item] => '(' :: inspect item ++ [',', ')']
  | tuple items => '(' :: commaJoined (inspectAll items) ++ [')']
  | set [] => "set()".toList
  | set items => '\x7b' :: commaJoined (inspectAll items) ++ ['\x7d']
  | frozenset [] => "frozenset()".toList
  | frozenset items =>
    "frozenset(".toList ++ '\x7b' :: commaJoined (inspectAll items) ++ ['\x7d', ')']
  | map entries => '\x7b' :: commaJoined (inspectEntries entries) ++ ['\x7d']
  | header affectedRows insertId warningCount info =>
    "ResultSetHeader(affected_rows=".toList ++ inspect affectedRows ++
      ", insert_id=".toList ++ inspect insertId ++
      ", warning_count=".toList ++ inspect warningCount ++
      ", info=".toList ++ inspect info ++ [')']
  | queryConfig c => "QueryConfig(".toList ++ c.flagText ", " ++ [')']
  | pool k => "Pool(".toList ++ natText k ++ [')']
  | connection k => "Connection(".toList ++ natText k ++ [')']
  | memoryBackend => "MockBackend()".toList

/-- The texts that show the items of a sequence. -/
def inspectAll : List Value → List (List Char)
  | [] => []
  | v :: rest => inspect v :: inspectAll rest

/-- The texts that show the entries of a mapping. -/
def inspectEntries : List (Value × Value) → List (List Char)
  | [] => []
  | (k, v) :: rest => (inspect k ++ ':' :: ' ' :: inspect v) :: inspectEntries rest

end

mutual

/-- Can all integers in a value be written? -/
def isWritable : Value → Bool
  | int n => Number.isWritable n
  | list items | tuple items | set items | frozenset items => allWritable items
  | map entries => entriesWritable entries
  | header affectedRows insertId warningCount info =>
    affectedRows.isWritable && insertId.isWritable && warningCount.isWritable && info.isWritable
  | _ => true

/-- Can all integers in the items of a sequence be written? -/
def allWritable : List Value → Bool
  | [] => true
  | v :: rest => v.isWritable && allWritable rest

/-- Can all integers in the entries of a mapping be written? -/
def entriesWritable : List (Value × Value) → Bool
  | [] => true
  | (k, v) :: rest => k.isWritable && v.isWritable && entriesWritable rest

end

/-- The plain text of a value. -/
def display : Value → List Char
  | str s => s.toList
  | decimal d => d.text
  | date d => d.text
  | datetime d t => d.text ++ ' ' :: t.text
  | time t => t.text
  | duration d => d.text
  | queryConfig c => c.flagText " "
  | v => v.inspect

end Value
end SqlWeave
