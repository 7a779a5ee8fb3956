import SqlWeave.Text.Escape
import SqlWeave.Value.Basic

/-!
# Reading JSON

`Json.read?` reads a JSON text as a value: objects become mappings with text keys
(the last of several equal keys counts), arrays lists, numbers without a point or
exponent integers, and other numbers floats.  The names `NaN`, `Infinity` and
`-Infinity` are read as floats.  Control characters inside a text are refused.

The reader is a recursive descent; its fuel is the length of the text, of which
every step takes at least one character.
-/

namespace SqlWeave.Json

open Number Text

/-- The text without leading JSON white space. -/
def skipBlanks (s : List Char) : List Char :=
  s.dropWhile fun c => c == ' ' || c == '\n' || c == '\r' || c == '\t'

/-- Four hexadecimal digits and the text behind them. -/
def hex4? : List Char → Option (Nat × List Char)
  | a :: b :: c :: d :: rest => do
    let digits ← [a, b, c, d].mapM hexValue?
    return (digits.foldl (fun n h => 16 * n + h) 0, rest)
  | _ => none

/-- The character of a `\u` escape behind the mark; two surrogates make one
character, a lone one is replaced. -/
def unicodeEscape? (s : List Char) : Option (Char × List Char) := do
  let (n, rest) ← hex4? s
  if 0xD800 ≤ n && n ≤ 0xDBFF then
    match rest with
    | '\\' :: 'u' :: more =>
      match hex4? more with
      | some (low, tail) =>
        if 0xDC00 ≤ low && low ≤ 0xDFFF then
          return (Char.ofNat (0x10000 + (n - 0xD800) * 1024 + (low - 0xDC00)), tail)
        else return (Char.ofNat 0xFFFD, rest)
      | none => return (Char.ofNat 0xFFFD, rest)
    | _ => return (Char.ofNat 0xFFFD, rest)
  else if 0xDC00 ≤ n && n ≤ 0xDFFF then return (Char.ofNat 0xFFFD, rest)
  else return (Char.ofNat n, rest)

/-- The character of an escape behind the backslash. -/
def escape? : List Char → Option (Char × List Char)
  | '\x22' :: rest => some ('\x22', rest)
  | '\\' :: rest => some ('\\', rest)
  | '/' :: rest => some ('/', rest)
  | 'b' :: rest => some ('\x08', rest)
  | 'f' :: rest => some ('\x0c', rest)
  | 'n' :: rest => some ('\n', rest)
  | 'r' :: rest => some ('\r', rest)
  | 't' :: rest => some ('\t', rest)
  | 'u' :: rest => unicodeEscape? rest
  | _ => none

/-- A text behind its opening quote; `acc` holds what was read, last first. -/
def string? (acc : List Char) (s : List Char) : Nat → Option (String × List Char)
  | 0 => none
  | fuel + 1 =>
    match s with
    | '\x22' :: rest => some (String.ofList acc.reverse, rest)
    | '\\' :: rest =>
      match escape? rest with
      | some (c, tail) => string? (c :: acc) tail fuel
      | none => none
    | c :: rest => if c.toNat < 32 then none else string? (c :: acc) rest fuel
    | [] => none

/-- A fraction of at least one digit behind its point. -/
def fraction (s : List Char) : List Char × List Char :=
  match s with
  | '.' :: rest =>
    let digits := rest.takeWhile Char.isDigit
    if digits.isEmpty then ([], s) else ('.' :: digits, rest.dropWhile Char.isDigit)
  | _ => ([], s)

/-- An exponent of at least one digit behind its mark and sign. -/
def exponent (s : List Char) : List Char × List Char :=
  match s with
  | e :: rest =>
    if e == 'e' || e == 'E' then
      let (sign, rest') := match rest with
        | '+' :: more => (['+'], more)
        | '-' :: more => (['-'], more)
        | _ => ([], rest)
      let digits := rest'.takeWhile Char.isDigit
      if digits.isEmpty then ([], s) else ('e' :: sign ++ digits, rest'.dropWhile Char.isDigit)
    else ([], s)
  | [] => ([], s)

/-- A number. -/
def number? (s : List Char) : Option (Value × List Char) :=
  let (negative, rest) := match s with
    | '-' :: rest => (true, rest)
    | _ => (false, s)
  let digits := match rest with
    | '0' :: _ => ['0']
    | _ => rest.takeWhile Char.isDigit
  if digits.isEmpty then none
  else
    let rest := rest.drop digits.length
    let (fractionText, rest) := fraction rest
    let (exponentText, rest) := exponent rest
    if fractionText.isEmpty && exponentText.isEmpty then
      let n : Int := ofAsciiDigits digits
      some (.int (if negative then -n else n), rest)
    else
      (Binary64.readMagnitude? negative (digits ++ fractionText ++ exponentText)).map
        fun x => (.float x, rest)

/-- A word with a fixed meaning. -/
def word? (s : List Char) : Option (Value × List Char) :=
  let words : List (String × Value) :=
    [("null", .null), ("true", .bool true), ("false", .bool false), ("NaN", .float .nan),
     ("Infinity", .float (.infinite false)), ("-Infinity", .float (.infinite true))]
  (words.find? fun w => w.1.toList.isPrefixOf s).map fun w => (w.2, s.drop w.1.length)

mutual

/-- A value at the start of a text. -/
def value? (s : List Char) : Nat → Option (Value × List Char)
  | 0 => none
  | fuel + 1 =>
    match s with
    | '\x22' :: rest => (string? [] rest (rest.length + 1)).map fun r => (.str r.1, r.2)
    | '[' :: rest =>
      match skipBlanks rest with
      | ']' :: tail => some (.list [], tail)
      | more => items? [] more fuel
    | '\x7b' :: rest =>
      match skipBlanks rest with
      | '\x7d' :: tail => some (.map [], tail)
      | more => members? [] more fuel
    | _ => (word? s).or (number? s)

/-- The items of an array up to its end; `acc` holds those read, last first. -/
def items? (acc : List Value) (s : List Char) : Nat → Option (Value × List Char)
  | 0 => none
  | fuel + 1 => do
    let (v, rest) ← value? s fuel
    match skipBlanks rest with
    | ',' :: more => items? (v :: acc) (skipBlanks more) fuel
    | ']' :: tail => return (.list (v :: acc).reverse, tail)
    | _ => none

/-- The members of an object up to its end; `acc` holds those read, last first. -/
def members? (acc : List (Value × Value)) (s : List Char) : Nat → Option (Value × List Char)
  | 0 => none
  | fuel + 1 =>
    match s with
    | '\x22' :: rest => do
      let (key, rest) ← string? [] rest (rest.length + 1)
      match skipBlanks rest with
      | ':' :: more =>
        let (v, rest) ← value? (skipBlanks more) fuel
        match skipBlanks rest with
        | ',' :: more => members? ((.str key, v) :: acc) (skipBlanks more) fuel
        | '\x7d' :: tail => return (.ofEntries ((.str key, v) :: acc).reverse, tail)
        | _ => none
      | _ => none
    | _ => none

end

/-- The value of a JSON text; white space may stand around it. -/
def read? (s : String) : Option Value := do
  let chars := s.toList
  let (v, rest) ← value? (skipBlanks chars) (2 * chars.length + 2)
  if (skipBlanks rest).isEmpty then return v else none

end SqlWeave.Json
