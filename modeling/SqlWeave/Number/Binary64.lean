import SqlWeave.Number.Digits

/-!
# Binary floating point with 53 bits

A finite number is a sign, a mantissa `m` and an exponent `q`, and denotes
`± m · 2^q`.  In the canonical form `m < 2^53`, `-1074 ≤ q ≤ 971`, and `m ≥ 2^52`
unless `q = -1074`.  All arithmetic is exact, on natural numbers:

* `ofRatio` rounds a quotient to the nearest number, a tie to the even mantissa;
* `shortest` finds the decimal with the fewest digits that rounds back to the
  number, and among those the nearest one;
* `text` writes that decimal.
-/

namespace SqlWeave.Number

/-- A number of the binary format with 53 bits of precision. -/
inductive Binary64
  | finite (negative : Bool) (mantissa : Nat) (exponent : Int)
  | infinite (negative : Bool)
  | nan
  deriving DecidableEq, Repr

namespace Binary64

/-- The quotient rounded to the nearest integer, a half to the even one. -/
def roundHalfEven (num den : Nat) : Nat :=
  let q := num / den
  let r := num % den
  if 2 * r < den then q
  else if den < 2 * r then q + 1
  else if q % 2 = 0 then q else q + 1

/-- Numerator and denominator of `num / den / 2^e`. -/
def scaleDown (num den : Nat) (e : Int) : Nat × Nat :=
  if 0 ≤ e then (num, den * power 2 e.toNat) else (num * power 2 (-e).toNat, den)

/-- The number nearest to `± num / den`, for a positive `den`. -/
def ofRatio (negative : Bool) (num den : Nat) : Binary64 :=
  if num = 0 then .finite negative 0 (-1074)
  else
    let guess : Int := (num.log2 : Int) - den.log2 - 53
    let (n, d) := scaleDown num den guess
    let fitted := if n < power 2 53 * d then guess else guess + 1
    let e := max fitted (-1074)
    let (n, d) := scaleDown num den e
    let m := roundHalfEven n d
    let (m, e) := if m = power 2 53 then (power 2 52, e + 1) else (m, e)
    if 971 < e then .infinite negative else .finite negative m e

/-- The number nearest to `± digits · 10^exponent`.  Exponents far outside the
range of the format are cut off first. -/
def ofScientific (negative : Bool) (digits : Nat) (exponent : Int) : Binary64 :=
  let magnitude : Int := (natText digits).length + exponent
  if digits = 0 || magnitude < -400 then .finite negative 0 (-1074)
  else if 400 < magnitude then .infinite negative
  else if 0 ≤ exponent then ofRatio negative (digits * power 10 exponent.toNat) 1
  else ofRatio negative digits (power 10 (-exponent).toNat)

/-- The number nearest to an integer. -/
def ofInt (n : Int) : Binary64 :=
  ofRatio (n < 0) n.natAbs 1

/-- Is `c · 10^g` at most `b · 2^s`? -/
def decimalLe (c : Nat) (g : Int) (b : Nat) (s : Int) : Bool :=
  decide (c * power 10 g.toNat * power 2 (-s).toNat ≤ b * power 2 s.toNat * power 10 (-g).toNat)

/-- Is `b · 2^s` at most `c · 10^g`? -/
def binaryLe (b : Nat) (s : Int) (c : Nat) (g : Int) : Bool :=
  decide (b * power 2 s.toNat * power 10 (-g).toNat ≤ c * power 10 g.toNat * power 2 (-s).toNat)

/-- Does `c · 10^g` round to `m · 2^q`?  The ends of the rounding interval belong
to it when the mantissa is even; below a power of two it is half as wide. -/
def readsBack (m : Nat) (q : Int) (c : Nat) (g : Int) : Bool :=
  let below := if m = power 2 52 && -1074 < q then 4 * m - 1 else 4 * m - 2
  let above := 4 * m + 2
  if m % 2 = 0 then binaryLe below (q - 2) c g && decimalLe c g above (q - 2)
  else !decimalLe c g below (q - 2) && !binaryLe above (q - 2) c g

/-- The position of the decimal point of `num / den`: the `p` for which the
quotient lies between `10^(p-1)` and `10^p`.  Quotients below one are looked for
among the first `fuel` decimal places. -/
def decimalPoint (num den : Nat) (fuel : Nat) : Int :=
  if den ≤ num then (natText (num / den)).length
  else
    let rec leading (k : Nat) (num : Nat) : Nat → Int
      | 0 => 1 - (k : Int)
      | fuel + 1 => if den ≤ num then 1 - (k : Int) else leading (k + 1) (num * 10) fuel
    leading 0 num fuel

/-- The decimal `c · 10^g` nearest to `m · 2^q` of the two neighbours `t · 10^g`
and `(t + 1) · 10^g` on one decimal grid, if one of them reads back. -/
def onGrid? (m : Nat) (q : Int) (g : Int) : Option Nat :=
  let num := m * power 2 q.toNat * power 10 (-g).toNat
  let den := power 2 (-q).toNat * power 10 g.toNat
  let t := num / den
  let r := num % den
  match readsBack m q t g && t != 0, readsBack m q (t + 1) g with
  | true, false => some t
  | false, true => some (t + 1)
  | false, false => none
  | true, true =>
    if 2 * r < den then some t
    else if den < 2 * r then some (t + 1)
    else if t % 2 = 0 then some t else some (t + 1)

/-- The decimal `c · 10^g` with the fewest digits that rounds to `m · 2^q`, for a
positive mantissa.  Seventeen digits always suffice. -/
def shortest (m : Nat) (q : Int) : Nat × Int :=
  let point := decimalPoint (m * power 2 q.toNat) (power 2 (-q).toNat) 400
  let rec search (digits : Nat) : Nat → Nat × Int
    | 0 => (m, q)
    | fuel + 1 =>
      let g := point - digits
      match onGrid? m q g with
      | some c => (c, g)
      | none => search (digits + 1) fuel
  search 1 17

/-- The digits of `c` without trailing zeros, and where the decimal point of
`c · 10^g` stands relative to their start. -/
def significant (c : Nat) (g : Int) : List Char × Int :=
  let digits := natText c
  ((digits.reverse.dropWhile (· == '0')).reverse, digits.length + g)

/-- A number is written positionally when its decimal point stands at most three
zeros before and at most sixteen places behind the first digit, always with a
fraction; otherwise with an exponent of a sign and at least two digits. -/
def magnitudeText (digits : List Char) (point : Int) : List Char :=
  if -4 < point && point ≤ 16 then
    if point ≤ 0 then '0' :: '.' :: zeros (-point).toNat ++ digits
    else
      let whole := point.toNat
      if digits.length ≤ whole then digits ++ zeros (whole - digits.length) ++ ['.', '0']
      else digits.take whole ++ '.' :: digits.drop whole
  else
    let e := point - 1
    let fraction := match digits with
      | [] => []
      | [d] => [d]
      | d :: rest => d :: '.' :: rest
    fraction ++ 'e' :: (if e < 0 then '-' else '+') :: padded 2 e.natAbs

/-- The number as text: the shortest decimal that reads back. -/
def text : Binary64 → List Char
  | .nan => ['n', 'a', 'n']
  | .infinite negative => (if negative then ['-'] else []) ++ ['i', 'n', 'f']
  | .finite negative m q =>
    let sign := if negative then ['-'] else []
    if m = 0 then sign ++ ['0', '.', '0']
    else
      let (c, g) := shortest m q
      let (digits, point) := significant c g
      sign ++ magnitudeText digits point

/-- Is the number zero, of either sign? -/
def isZero : Binary64 → Bool
  | .finite _ m _ => m == 0
  | _ => false

/-- The integer that the number is equal to, if it is one. -/
def toInt? : Binary64 → Option Int
  | .finite negative m q =>
    let magnitude : Option Nat :=
      if 0 ≤ q then some (m * power 2 q.toNat)
      else
        let d := power 2 (-q).toNat
        if m % d = 0 then some (m / d) else none
    magnitude.map fun n => if negative then -(n : Int) else n
  | _ => none

/-- A run of ASCII digits and the rest of the text. -/
def takeDigits (s : List Char) : List Char × List Char :=
  (s.takeWhile Char.isDigit, s.dropWhile Char.isDigit)

/-- An exponent part `e±ddd`; the empty text is the exponent zero. -/
def readExponent? (s : List Char) : Option Int :=
  match s with
  | [] => some 0
  | e :: rest =>
    if e == 'e' || e == 'E' then
      let (negative, rest) := match rest with
        | '-' :: rest => (true, rest)
        | '+' :: rest => (false, rest)
        | rest => (false, rest)
      if rest.isEmpty || !rest.all Char.isDigit then none
      else
        let n : Int := ofAsciiDigits rest
        some (if negative then -n else n)
    else none

/-- Reads an unsigned decimal: digits with an optional point, at least one digit
in all, and an optional exponent. -/
def readMagnitude? (negative : Bool) (s : List Char) : Option Binary64 :=
  let (whole, rest) := takeDigits s
  let (fraction, rest) := match rest with
    | '.' :: rest => takeDigits rest
    | rest => ([], rest)
  if whole.isEmpty && fraction.isEmpty then none
  else
    (readExponent? rest).map fun e =>
      ofScientific negative (ofAsciiDigits (whole ++ fraction)) (e - fraction.length)

/-- Reads a decimal with an optional sign, or a name of infinity or of the number
that is none, in any case. -/
def read? (s : List Char) : Option Binary64 :=
  let (negative, rest) := match s with
    | '-' :: rest => (true, rest)
    | '+' :: rest => (false, rest)
    | rest => (false, rest)
  let lower := String.ofList (rest.map Char.toLower)
  if lower == "inf" || lower == "infinity" then some (.infinite negative)
  else if lower == "nan" then some .nan
  else readMagnitude? negative rest

end Binary64
end SqlWeave.Number
