import SqlWeave.Fault
import SqlWeave.Text.CharClass
import SqlWeave.Text.Utf8

/-!
# Coercion of option values

Options come from code, with values of any type, and from the environment, as
texts.  Each coercion takes what can be read as its type without loss and refuses
the rest:

* a text may be given as octets;
* an integer may be a numeral with blanks around it, underscores between its digits
  and zeros behind its point, or a number without a fraction;
* a truth value may be one of twelve words, or the number zero or one;
* a float may be any number or a numeral.
-/

namespace SqlWeave.Settings

open Number Text

/-- A coercion to `α`. -/
abbrev Coercion (α : Type) := Value → Except Refusal α

namespace Coercion

/-- The text of a text or of octets; `none` for other values. -/
def spelled? (broken : Refusal) : Value → Except Refusal (Option (List Char))
  | .str s => .ok (some s.toList)
  | .bytes octets =>
    match decodeUtf8 octets with
    | .ok s => .ok (some s)
    | .error _ => .error broken
  | _ => .ok none

/-- A blank around numerals: the separators among the control characters are none. -/
def isPadding (c : Char) : Bool :=
  isBlank c && !(28 ≤ c.toNat && c.toNat ≤ 31)

/-- A numeral without the blanks around it. -/
def unpadded (s : List Char) : List Char :=
  ((s.dropWhile isPadding).reverse.dropWhile isPadding).reverse

/-- The text without its underscores, which must each stand alone inside it; none
when there are no underscores to drop. -/
def withoutUnderscores? (s : List Char) : Option (List Char) :=
  let doubled := (s.zip s.tail).contains ('_', '_')
  if s.head? == some '_' || s.getLast? == some '_' || doubled || !s.contains '_' then none
  else some (s.filter (· != '_'))

/-- The length beyond which a numeral is not read, its sign included. -/
def lengthLimit : Nat := 4300

/-- A strict numeral: an optional minus sign and digits without leading zeros.  An
overlong one is refused before it is known what stands behind its digits. -/
def strictInteger? (s : List Char) : Option (Except Refusal Int) :=
  let (negative, unsigned) := match s with
    | '-' :: rest => (true, rest)
    | _ => (false, s)
  let digits := unsigned.takeWhile Char.isDigit
  if digits.isEmpty || (digits.head? == some '0' && digits.length != 1) then none
  else if lengthLimit < s.length - unsigned.length + digits.length then
    some (.error .intParsingSize)
  else if digits.length < unsigned.length then none
  else
    let n : Int := ofAsciiDigits digits
    some (.ok (if negative then -n else n))

/-- A numeral without its leading zeros, among which underscores may stand; the zero
before a point stays. -/
def withoutLeadingZeros? (s : List Char) : Option (List Char) :=
  match s with
  | '0' :: rest =>
    let tail := rest.dropWhile fun c => c == '0' || c == '_'
    let last := (('0' :: rest).take (rest.length - tail.length + 1)).getLastD '0'
    match tail with
    | [] => some [last]
    | '.' :: _ => some (last :: tail)
    | c :: _ => if '1' ≤ c && c ≤ '9' then some tail else none
  | c :: _ => if c == '-' || ('1' ≤ c && c ≤ '9') then some s else none
  | [] => none

/-- A numeral without a fraction of zeros. -/
def withoutZeroFraction (s : List Char) : List Char :=
  let whole := s.takeWhile (· != '.')
  let fraction := s.dropWhile (· != '.')
  if fraction.tail.all (· == '0') then whole else s

/-- A lenient numeral brought to the strict form, if there is anything to bring. -/
def cleanInteger? (s : List Char) : Option (List Char) := do
  let trimmed := unpadded s
  let unsigned ← match trimmed with
    | '+' :: '-' :: _ => none
    | '+' :: rest => some rest
    | rest => some rest
  let cleaned := withoutZeroFraction (← withoutLeadingZeros? unsigned)
  match withoutUnderscores? cleaned with
  | some plain => return plain
  | none => if cleaned.length = s.length then none else return cleaned

/-- An integer from a numeral. -/
def integerOfText (s : List Char) : Except Refusal Int :=
  match strictInteger? s with
  | some r => r
  | none =>
    match (cleanInteger? s).bind strictInteger? with
    | some r => r
    | none => .error .intParsing

/-- An integer from a float that is one. -/
def integerOfFloat (x : Binary64) : Except Refusal Int :=
  match x with
  | .finite .. =>
    match x.toInt? with
    | some n => .ok n
    | none => .error .intFromFloat
  | _ => .error .finiteNumber

/-- An integer from a decimal that is one. -/
def integerOfDecimal (d : Decimal) : Except Refusal Int :=
  match d with
  | .finite .. =>
    match (Value.decimal d).ratio? with
    | some (n, den) => if n % den = 0 then .ok (n / den) else .error .intFromFloat
    | none => .error .intFromFloat
  | _ => .error .finiteNumber

/-- Integers. -/
def integer : Coercion Int := fun v => do
  match v, ← spelled? .intParsing v with
  | _, some s => integerOfText s
  | .int n, _ => return n
  | .bool b, _ => return if b then 1 else 0
  | .float x, _ => integerOfFloat x
  | .decimal d, _ => integerOfDecimal d
  | _, _ => .error .intType

/-- Integers from a bound on. -/
def integerFrom (bound : Int) : Coercion Int := fun v => do
  let n ← integer v
  if n < bound then .error (.atLeast bound) else return n

/-- The truth value of a word. -/
def truthOfText (s : List Char) : Except Refusal Bool :=
  let word := String.ofList (s.map Char.toLower)
  if ["0", "f", "n", "no", "off", "false"].contains word then .ok false
  else if ["1", "t", "y", "on", "yes", "true"].contains word then .ok true
  else .error .boolParsing

/-- The truth value of an integer. -/
def truthOfInteger (n : Int) : Except Refusal Bool :=
  if n = 0 then .ok false else if n = 1 then .ok true else .error .boolParsing

/-- The float nearest to a decimal; there is none for a signal. -/
def floatOfDecimal? : Decimal → Option Binary64
  | .finite negative c e => some (Binary64.ofScientific negative c e)
  | .infinite negative => some (.infinite negative)
  | .nan _ false _ => some .nan
  | .nan _ true _ => none

/-- The truth value of a number that is close to this float, if that is an integer. -/
def truthOfFloat (x : Option Binary64) : Except Refusal Bool :=
  match x.bind Binary64.toInt? with
  | some n => truthOfInteger n
  | none => .error .boolType

/-- Truth values. -/
def truth : Coercion Bool := fun v => do
  match v, ← spelled? .boolParsing v with
  | _, some s => truthOfText s
  | .bool b, _ => return b
  | .int n, _ => truthOfFloat (some (Binary64.ofInt n))
  | .float x, _ => truthOfFloat (some x)
  | .decimal d, _ => truthOfFloat (floatOfDecimal? d)
  | _, _ => .error .boolType

/-- Floats. -/
def float : Coercion Binary64 := fun v => do
  match v, ← spelled? .floatParsing v with
  | _, some s =>
    match Binary64.read? (unpadded s) with
    | some x => return x
    | none =>
      match (withoutUnderscores? s).bind Binary64.read? with
      | some x => return x
      | none => .error .floatParsing
  | .float x, _ => return x
  | .int n, _ =>
    match Binary64.ofInt n with
    | .infinite _ => .error .floatType
    | x => return x
  | .bool b, _ => return Binary64.ofInt (if b then 1 else 0)
  | .decimal d, _ =>
    match floatOfDecimal? d with
    | some x => return x
    | none => .error .floatType
  | _, _ => .error .floatType

/-- Texts. -/
def text : Coercion String := fun v => do
  match ← spelled? .stringUnicode v with
  | some s => return String.ofList s
  | none => .error .stringType

/-- Either nothing or a value. -/
def optional {α : Type} (c : Coercion α) : Coercion (Option α)
  | .null => .ok none
  | v => do return some (← c v)

end Coercion
end SqlWeave.Settings
