import SqlWeave.Settings.Complaint
import SqlWeave.Value.Display

/-!
# Faults

Everything that can go wrong, by cause.  `Fault.kind` puts a fault into the
taxonomy that callers catch by, and `Fault.message` words it.

Three groups are told apart by the code that handles faults: connection faults,
which pass through a query unchanged; SQL faults, which wrap whatever else a
statement met; and cancellation, which is no failure and is never wrapped.
-/

namespace SqlWeave

open Number

/-- The kinds of faults that callers can tell apart. -/
inductive FaultKind
  | runtime | value | key | index | member | type | name | malformed | indentation
  | system | refused | missingFile | directory | notDirectory | fileExists | permission
  | brokenPipe | aborted | reset | timeout | blocking | childProcess | interrupted
  | processLookup | undecodable
  | programming | operational | integrity | ssh
  | connection | tunnelTransport | template | transactionClosed | sql
  | cancelled | validation | settings
  deriving DecidableEq, Repr

namespace FaultKind

/-- The kind of a system failure with this error number. -/
def ofErrorNumber : Int → FaultKind
  | 1 | 13 => permission
  | 2 => missingFile
  | 3 => processLookup
  | 4 => interrupted
  | 10 => childProcess
  | 11 | 114 | 115 => blocking
  | 17 => fileExists
  | 20 => notDirectory
  | 21 => directory
  | 32 | 108 => brokenPipe
  | 103 => aborted
  | 104 => reset
  | 110 => timeout
  | 111 => refused
  | _ => system

/-- System failures: files, sockets, and every connection fault. -/
def isSystem : FaultKind → Bool
  | system | refused | missingFile | directory | notDirectory | fileExists | permission
  | brokenPipe | aborted | reset | timeout | blocking | childProcess | interrupted
  | processLookup | connection | tunnelTransport => true
  | _ => false

/-- Faults of a value: bad texts and refused templates. -/
def isValue : FaultKind → Bool
  | value | template | undecodable | validation | settings => true
  | _ => false

/-- Connection faults, the tunnel's transport faults included. -/
def isConnection : FaultKind → Bool
  | connection | tunnelTransport => true
  | _ => false

end FaultKind

/-- Why the script of a template is refused as malformed. -/
inductive ScriptFault
  /-- A token other than the expected one. -/
  | unexpected (expected found : String)
  /-- A name that starts with a foreign digit. -/
  | invalidName
  /-- A quoted text with a broken escape. -/
  | invalidEscape
  deriving DecidableEq, Repr

/-- The text of a script fault. -/
def ScriptFault.message : ScriptFault → String
  | unexpected expected found => "expected token '" ++ expected ++ "', got '" ++ found ++ "'"
  | invalidName => "Invalid character in identifier"
  | invalidEscape => "truncated escape"

/-- Why a numeral with a decimal point cannot be read. -/
inductive NumeralFault
  /-- The numeral starts with a foreign digit. -/
  | foreignStart (c : Char)
  /-- The digits before the point start with a zero and are not all zeros, up to a
  foreign one among them. -/
  | leadingZeros
  /-- A foreign digit anywhere else. -/
  | foreignDigit
  deriving DecidableEq, Repr

/-- The code of a character in messages: hexadecimal, at least four digits. -/
def codeText (c : Char) : List Char :=
  let digits := (Nat.toDigits 16 c.toNat).map Char.toUpper
  "U+".toList ++ zeros (4 - digits.length) ++ digits

/-- The text of a numeral fault. -/
def NumeralFault.message : NumeralFault → String
  | foreignStart c =>
    "invalid character '" ++ String.ofList [c] ++ "' (" ++ String.ofList (codeText c) ++ ")"
  | leadingZeros =>
    "leading zeros in decimal integer literals are not permitted; " ++
      "use an 0o prefix for octal integers"
  | foreignDigit => "invalid decimal literal"

/-- Why a template, its parameters or an identifier is refused. -/
inductive TemplateFault
  | emptyDirective
  | emptyBlock
  | unknownBlock (name : String)
  | unknownHelper (name : String)
  /-- A block directive without exactly one argument. -/
  | blockArity (name : String)
  /-- A helper without exactly one argument. -/
  | helperArity (name : String)
  | closesNothing (name : String)
  | closesOther (name opened : String)
  | unclosed (name : String)
  | strayElse
  | unsupported (body : String)
  /-- A loop variable outside of every loop body. -/
  | outsideLoop (variableName : String)
  | undefinedPath (path typeName : String)
  | notIdentifier (shown : String)
  | notMapping (typeName : String)
  | script (cause : ScriptFault) (template : String)
  deriving DecidableEq, Repr

/-- A template's text for a message: the first five hundred characters. -/
def templatePreview (template : String) : String :=
  let chars := template.toList
  if 500 < chars.length then String.ofList (chars.take 500) ++ "..." else template

/-- The text of a template fault. -/
def TemplateFault.message : TemplateFault → String
  | emptyDirective => "Empty directive '\x7b\x7b\x7d\x7d'"
  | emptyBlock => "Empty block directive '\x7b\x7b#\x7d\x7d'"
  | unknownBlock name => "Unknown block directive '#" ++ name ++ "'"
  | unknownHelper name => "Unknown helper '" ++ name ++ "'"
  | blockArity name => "'#" ++ name ++ "' expects exactly one argument"
  | helperArity name => "'" ++ name ++ "' expects exactly one argument"
  | closesNothing name => "'\x7b\x7b/" ++ name ++ "\x7d\x7d' closes a block that was never opened"
  | closesOther name opened =>
    "'\x7b\x7b/" ++ name ++ "\x7d\x7d' does not match the open '#" ++ opened ++ "' block"
  | unclosed name => "Unclosed '#" ++ name ++ "' block"
  | strayElse => "'\x7b\x7belse\x7d\x7d' outside of an #if, #unless or #each block"
  | unsupported body => "Unsupported directive '\x7b\x7b" ++ body ++ "\x7d\x7d'"
  | outsideLoop name => name ++ " used outside of an #each block"
  | undefinedPath path typeName => "\"" ++ path ++ "\" not defined in " ++ typeName
  | notIdentifier shown => "Cannot use " ++ shown ++ " as an identifier"
  | notMapping typeName => "Query parameters must be a mapping, got " ++ typeName
  | script cause template =>
    "SQL template error: " ++ cause.message ++ ". Template preview:\n" ++ templatePreview template

/-- Why there is no connection. -/
inductive ConnectionFault
  /-- A step of the connecting failed. -/
  | unreachable (cause : String)
  /-- An operation that needs a connection, in another phase. -/
  | notConnected (phase : String)
  | lazyConnectDisabled
  | tunnelNotOpen
  | tunnelFailed (address cause : String)
  deriving DecidableEq, Repr

/-- The text of a connection fault. -/
def ConnectionFault.message : ConnectionFault → String
  | unreachable cause => "Could not connect to the database: " ++ cause
  | notConnected phase => "Not connected (state: " ++ phase ++ ")"
  | lazyConnectDisabled => "Not connected and lazy connect is disabled; call connect() first"
  | tunnelNotOpen => "SSH tunnel is not open"
  | tunnelFailed address cause => "SSH tunnel to " ++ address ++ " failed: " ++ cause

/-- Why a key file cannot be read. -/
inductive FileFault
  | missing (path : String)
  | isDirectory (path : String)
  | nulInPath
  | unknownHome
  /-- Octets from `start` to before `stop` that are no UTF-8, the first of them
  being `octet`. -/
  | undecodable (octet start stop : Nat) (reason : String)
  deriving DecidableEq, Repr

/-- The text of a file fault. -/
def FileFault.message : FileFault → String
  | missing path => "[Errno 2] No such file or directory: " ++ String.ofList (quotedText path.toList)
  | isDirectory path => "[Errno 21] Is a directory: " ++ String.ofList (quotedText path.toList)
  | nulInPath => "embedded null byte"
  | unknownHome => "Could not determine home directory."
  | undecodable octet start stop reason =>
    let place :=
      if stop = start + 1 then
        "byte 0x" ++ String.ofList (hexByte octet) ++ " in position " ++ String.ofList (natText start)
      else
        "bytes in position " ++ String.ofList (natText start) ++ "-" ++
          String.ofList (natText (stop - 1))
    "'utf-8' codec can't decode " ++ place ++ ": " ++ reason

/-- Anything that can go wrong. -/
inductive Fault
  /-- Reported by the world outside, with its arguments. -/
  | raised (kind : FaultKind) (arguments : List Value)
  | template (cause : TemplateFault)
  | connection (cause : ConnectionFault)
  | tunnelTransport (cause : String)
  /-- A statement failed; `message` is what the caller sees and `raw` what the
  driver said. -/
  | sql (message : String) (raw : Value) (statement errorNumber : Value)
  | transactionClosed
  | cancelled
  | file (cause : FileFault)
  /-- Options that were refused. -/
  | invalid (model : String) (complaints : List Complaint)
  /-- A structured option in the environment that is no JSON. -/
  | unreadableOption (field : String)
  /-- An output directive without any text in it. -/
  | emptyOperand
  /-- A text that is no numeral, though it looks like digits. -/
  | notNumeral (text : String)
  /-- A name that stands for nothing in a script. -/
  | unboundName (name : String)
  /-- A numeral with more digits than can be read. -/
  | oversizedNumeral (digits : Nat)
  /-- An integer with more digits than can be written. -/
  | unwritableInteger
  /-- A numeral with foreign digits and a decimal point. -/
  | unreadableNumeral (cause : NumeralFault)
  /-- A script with too many loops inside one another. -/
  | overNested
  /-- A script with too many blocks inside one another. -/
  | overIndented
  /-- A number that has no SQL literal. -/
  | noLiteral (text : String)
  | noMemoryBackend
  /-- A value that lacks what is asked of it. -/
  | noMember (typeName member : String)
  | notMappingOption (typeName : String)
  | optionNameType
  /-- An option that the called function was given already. -/
  | repeatedOption (callee name : String)
  /-- An option by the name of an argument that stands before the options. -/
  | takenOption (callee name : String)
  | matcherType (typeName : String)
  | tooFewItems (count : Nat)
  | tooManyItems
  | notIterable (typeName : String)
  /-- A place beyond the end of a list. -/
  | noItem
  /-- A value that can change and so can be no key. -/
  | unusableKey (typeName : String)
  /-- Something else than a pair among the pairs that make a mapping. -/
  | notPair (index : Nat)
  /-- A sequence among the pairs that make a mapping that has another length. -/
  | pairLength (index length : Nat)

namespace Fault

/-- The text of several arguments, of one, or of none. -/
def plainMessage : List Value → List Char
  | [] => []
  | [v] => v.display
  | vs => (Value.tuple vs).inspect

/-- A system failure is reported with an error number, a text, and perhaps the names of
one or two files, the second one as the fifth argument. -/
def isNumbered (arguments : List Value) : Bool :=
  2 ≤ arguments.length && arguments.length ≤ 5

/-- The names of files behind a message. -/
def fileNames : List Value → List Char
  | [] | .null :: _ => []
  | [name, _, other] =>
    match other with
    | .null => ':' :: ' ' :: name.inspect
    | other => ':' :: ' ' :: name.inspect ++ " -> ".toList ++ other.inspect
  | name :: _ => ':' :: ' ' :: name.inspect

/-- The texts of system failures with an error number carry it in brackets. -/
def systemMessage (arguments : List Value) : List Char :=
  match arguments, isNumbered arguments with
  | number :: text :: names, true =>
    "[Errno ".toList ++ number.display ++ ']' :: ' ' :: text.display ++ fileNames names
  | _, _ => plainMessage arguments

/-- The text of a fault that was reported with arguments. -/
def argumentsMessage (kind : FaultKind) (arguments : List Value) : List Char :=
  if kind.isSystem then systemMessage arguments
  else match kind, arguments with
    | .key, [v] => v.inspect
    | _, _ => plainMessage arguments

/-- The kind of a fault. -/
def kind : Fault → FaultKind
  | raised kind _ => kind
  | template _ => .template
  | connection _ => .connection
  | tunnelTransport _ => .tunnelTransport
  | sql .. => .sql
  | transactionClosed => .transactionClosed
  | cancelled => .cancelled
  | file (.missing _) => .missingFile
  | file (.isDirectory _) => .directory
  | file .nulInPath => .value
  | file .unknownHome => .runtime
  | file (.undecodable ..) => .undecodable
  | invalid .. => .validation
  | unreadableOption _ => .settings
  | emptyOperand | noItem => .index
  | notNumeral _ | oversizedNumeral _ | unwritableInteger | tooFewItems _ | tooManyItems
  | pairLength .. => .value
  | unboundName _ => .name
  | unreadableNumeral _ | overNested => .malformed
  | overIndented => .indentation
  | noLiteral _ => .programming
  | noMemoryBackend => .runtime
  | noMember .. => .member
  | notMappingOption _ | optionNameType | repeatedOption .. | takenOption .. | matcherType _
  | notIterable _ | notPair _ | unusableKey _ => .type

/-- The text of a fault. -/
def message : Fault → String
  | raised kind arguments => String.ofList (argumentsMessage kind arguments)
  | template cause => cause.message
  | connection cause => cause.message
  | tunnelTransport cause => "SSH transport error: " ++ cause
  | sql message .. => message
  | transactionClosed => "Transaction already committed or rolled back"
  | cancelled => ""
  | file cause => cause.message
  | invalid model _ => model
  | unreadableOption field =>
    "error parsing value for field \"" ++ field ++ "\" from source \"EnvSettingsSource\""
  | emptyOperand => "string index out of range"
  | noItem => "list index out of range"
  | notNumeral text =>
    "invalid literal for int() with base 10: " ++
      String.ofList ((quotedText text.toList).take 200)
  | unboundName name => "name '" ++ name ++ "' is not defined"
  | oversizedNumeral digits =>
    "Exceeds the limit (4300 digits) for integer string conversion: value has " ++
      String.ofList (natText digits) ++
      " digits; use sys.set_int_max_str_digits() to increase the limit"
  | unwritableInteger =>
    "Exceeds the limit (4300 digits) for integer string conversion; " ++
      "use sys.set_int_max_str_digits() to increase the limit"
  | unreadableNumeral cause => cause.message ++ " (<unknown>, line 1)"
  | overNested => "too many statically nested blocks"
  | overIndented => "too many levels of indentation"
  | noLiteral text => text ++ " can not be used with MySQL"
  | noMemoryBackend => "Only available in test mode (testMode=True)"
  | noMember typeName member =>
    "'" ++ typeName ++ "' object has no attribute '" ++ member ++ "'"
  | notMappingOption typeName => "'" ++ typeName ++ "' object is not a mapping"
  | optionNameType => "keywords must be strings"
  | repeatedOption callee name =>
    callee ++ " got multiple values for keyword argument '" ++ name ++ "'"
  | takenOption callee name => callee ++ " got multiple values for argument '" ++ name ++ "'"
  | matcherType typeName => "matcher must be a str or compiled pattern, got " ++ typeName
  | tooFewItems count =>
    "not enough values to unpack (expected 2, got " ++ String.ofList (natText count) ++ ")"
  | tooManyItems => "too many values to unpack (expected 2)"
  | notIterable typeName => "'" ++ typeName ++ "' object is not iterable"
  | unusableKey typeName => "unhashable type: '" ++ typeName ++ "'"
  | notPair index =>
    "cannot convert dictionary update sequence element #" ++ String.ofList (natText index) ++
      " to a sequence"
  | pairLength index length =>
    "dictionary update sequence element #" ++ String.ofList (natText index) ++ " has length " ++
      String.ofList (natText length) ++ "; 2 is required"

/-- A system failure; one with an error number and a text is of the number's kind. -/
def ofSystem (arguments : List Value) : Fault :=
  let kind := match arguments.head?, isNumbered arguments with
    | some (.int n), true => FaultKind.ofErrorNumber n
    | some (.bool b), true => FaultKind.ofErrorNumber (if b then 1 else 0)
    | _, _ => .system
  .raised kind arguments

/-- What is not a cancellation is a failure. -/
def isFailure (f : Fault) : Bool :=
  f.kind != .cancelled

/-- A connection fault, which a query passes through unchanged. -/
def isConnection (f : Fault) : Bool :=
  f.kind.isConnection

/-- The arguments that a fault carries: those it was reported with, or its text. -/
def arguments : Fault → List Value
  | raised _ arguments => arguments
  | f => [.str f.message]

/-- The SQL fault that wraps `cause`.  A cause reported with an error number and
a text gives these; any other gives its own text.  Hardened faults show a fixed
text and keep the cause's text apart. -/
def ofStatement (cause : Fault) (statement : String) (hardened : Bool) : Fault :=
  let (errorNumber, raw) := match cause.arguments with
    | number@(.int _) :: text :: _ => (number, String.ofList text.display)
    | number@(.bool _) :: text :: _ => (number, String.ofList text.display)
    | _ => (.null, cause.message)
  .sql (if hardened then "SQL error" else raw) (.str raw) (.str statement) errorNumber

end Fault

/-- Results of operations that can fail. -/
abbrev Result (α : Type) := Except Fault α

namespace Value

/-- The plain text of a value, if it can be written. -/
def written (v : Value) : Result (List Char) :=
  if v.isWritable then .ok v.display else .error .unwritableInteger

/-- The text that shows a value and its kind, if it can be written. -/
def inspected (v : Value) : Result (List Char) :=
  if v.isWritable then .ok v.inspect else .error .unwritableInteger

end Value

end SqlWeave
