/-!
# Decimal digits

Natural numbers and integers as lists of decimal digits, padding with zeros, powers,
and the value of a list of digit values.  Integers with too many digits are neither read
nor written, since that would take too long.
-/

namespace SqlWeave.Number

/-- The decimal digits of `n`, most significant first; zero is one digit. -/
def natText (n : Nat) : List Char :=
  Nat.toDigits 10 n

/-- The decimal digits of `n` behind a minus sign when `n` is negative. -/
def intText (n : Int) : List Char :=
  if n < 0 then '-' :: natText n.natAbs else natText n.natAbs

/-- The most digits of an integer that is read or written. -/
def digitLimit : Nat := 4300

/-- Can an integer be written? -/
def isWritable (n : Int) : Bool :=
  (natText n.natAbs).length ≤ digitLimit

/-- `count` zeros. -/
def zeros (count : Nat) : List Char :=
  List.replicate count '0'

/-- The digits of `n`, filled with leading zeros up to `width` digits. -/
def padded (width n : Nat) : List Char :=
  let digits := natText n
  zeros (width - digits.length) ++ digits

/-- The number `base` multiplied with itself `exponent` times. -/
def power (base exponent : Nat) : Nat :=
  Nat.pow base exponent

/-- The number that a list of digit values denotes. -/
def ofDigitValues (values : List Nat) : Nat :=
  values.foldl (fun total d => 10 * total + d) 0

/-- The number that a list of ASCII digits denotes. -/
def ofAsciiDigits (digits : List Char) : Nat :=
  ofDigitValues (digits.map fun c => c.toNat - 48)

/-- A two-digit hexadecimal byte with lower-case letters. -/
def hexByte (n : Nat) : List Char :=
  let digits := Nat.toDigits 16 n
  zeros (2 - digits.length) ++ digits

end SqlWeave.Number
