import SqlWeave.Number.Binary64
import SqlWeave.Script.Instruction
import SqlWeave.Text.Escape

/-!
# Tokens of script source

Script source is read as tokens.  Line ends are unified first.  Between the braces
of an output or a statement stand names, quoted texts, numerals and symbols, with
blanks between them.  A numeral with a point is a float; without one it is a zero
written with any number of zeros, or starts with a digit other than zero, so that
digits behind a leading zero are a token of their own.

A malformed token is kept as a token, because it is no fault until the reader gets
there.
-/

namespace SqlWeave.Script

open Text Number Template

/-- Why a token is malformed. -/
inductive TokenFault
  | script (cause : ScriptFault)
  | oversizedNumeral (digits : Nat)
  /-- A float with a digit of a foreign script. -/
  | numeral (cause : NumeralFault)
  deriving DecidableEq, Repr

/-- A token of script source. -/
inductive Token
  | beginOutput
  | endOutput
  | beginStatement
  | endStatement
  | name (s : List Char)
  | text (s : List Char)
  | integer (n : Nat)
  | float (x : Binary64)
  | symbol (c : Char)
  | malformed (fault : TokenFault)
  deriving DecidableEq, Repr

/-- What a token is called in messages. -/
def Token.describe : Token → String
  | beginOutput => "begin of print statement"
  | endOutput => "end of print statement"
  | beginStatement => "begin of statement block"
  | endStatement => "end of statement block"
  | name s => String.ofList s
  | text _ => "string"
  | integer _ => "integer"
  | float _ => "float"
  | symbol c => String.ofList [c]
  | malformed _ => "malformed token"

/-- The text with every line end written as a line feed. -/
def unifyLineEnds : List Char → List Char
  | [] => []
  | '\r' :: '\n' :: rest => '\n' :: unifyLineEnds rest
  | '\r' :: rest => '\n' :: unifyLineEnds rest
  | c :: rest => c :: unifyLineEnds rest

/-- The token of a run of digits of any script. -/
def integerToken (digits : List Char) : Token :=
  if digitLimit < digits.length then .malformed (.oversizedNumeral digits.length)
  else .integer (ofDigitValues (digits.map fun c => (decimalValue? c).getD 0))

/-- Do the digits go on with another ASCII digit behind leading zeros, and with a
foreign one behind the ASCII digits? -/
def hasLeadingZeros (whole : List Char) : Bool :=
  let native := whole.takeWhile Char.isDigit
  native.head? == some '0' && native.any (· != '0') && native.length < whole.length

/-- Why a numeral with foreign digits around or before its point cannot be read. -/
def numeralFault (whole : List Char) : NumeralFault :=
  match whole with
  | [] => .foreignDigit
  | c :: _ =>
    if !c.isDigit then .foreignStart c
    else if hasLeadingZeros whole then .leadingZeros
    else .foreignDigit

/-- The token of a numeral with a point. -/
def floatToken (whole fraction : List Char) : Token :=
  if (whole ++ fraction).all Char.isDigit then
    .float (Binary64.ofScientific false (ofAsciiDigits (whole ++ fraction)) (-fraction.length))
  else .malformed (.numeral (numeralFault whole))

/-- The numeral at the start of a text that starts with a digit. -/
def cutNumeral (s : List Char) : Token × List Char :=
  let whole := s.takeWhile isDecimalDigit
  let rest := s.dropWhile isDecimalDigit
  let fraction := match rest with
    | '.' :: tail => tail.takeWhile isDecimalDigit
    | _ => []
  if !fraction.isEmpty then
    (floatToken whole fraction, rest.drop (fraction.length + 1))
  else match s with
    | '0' :: _ =>
      let zeros := s.takeWhile (· == '0')
      (integerToken zeros, s.drop zeros.length)
    | c :: _ =>
      if c.isDigit then (integerToken whole, rest)
      else (.malformed (.script .invalidName), s.dropWhile isWordChar)
    | [] => (.malformed (.script .invalidName), [])

/-- A quoted text behind its opening quote, as written, and the text behind it. -/
def cutQuoted? (quote : Char) : List Char → Option (List Char × List Char)
  | [] => none
  | c :: rest =>
    if c == quote then some ([], rest)
    else if c == '\\' then
      match rest with
      | [] => none
      | d :: more => (cutQuoted? quote more).map fun r => (c :: d :: r.1, r.2)
    else (cutQuoted? quote rest).map fun r => (c :: r.1, r.2)

/-- The token of a quoted text, as written between its quotes. -/
def textToken (written : List Char) : Token :=
  match decode (asciiOnly written) with
  | some s => .text s
  | none => .malformed (.script .invalidEscape)

/-- The token at the start of a text inside braces, which does not start with a
blank, and the text behind it. -/
def cutToken (c : Char) (rest : List Char) : Token × List Char :=
  if isDecimalDigit c then cutNumeral (c :: rest)
  else if isWordChar c then
    let name := (c :: rest).takeWhile isWordChar
    let tail := (c :: rest).dropWhile isWordChar
    if c.isAlpha || c == '_' then (.name name, tail)
    else (.malformed (.script .invalidName), tail)
  else if c == '\x27' || c == '\x22' then
    match cutQuoted? c rest with
    | some (written, tail) => (textToken written, tail)
    | none => (.symbol c, rest)
  else (.symbol c, rest)

/-- The tokens of a text, inside of braces or not.  Every step takes a character. -/
def lex (inside : Bool) (s : List Char) : Nat → List Token
  | 0 => []
  | fuel + 1 =>
    match s with
    | [] => []
    | '\x7b' :: '\x7b' :: rest => .beginOutput :: lex true rest fuel
    | '\x7b' :: '%' :: rest => .beginStatement :: lex true rest fuel
    | '\x7d' :: '\x7d' :: rest => .endOutput :: lex false rest fuel
    | '%' :: '\x7d' :: rest => .endStatement :: lex false rest fuel
    | c :: rest =>
      if !inside then .symbol c :: lex false rest fuel
      else if isBlank c then lex true rest fuel
      else
        let (token, tail) := cutToken c rest
        token :: lex true tail fuel

/-- The tokens of script source. -/
def tokens (source : List Char) : List Token :=
  let unified := unifyLineEnds source
  lex false unified unified.length

end SqlWeave.Script
