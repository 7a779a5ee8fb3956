import SqlWeave.Number.Digits

/-!
# Decimal numbers of any precision

A finite decimal is a sign, a coefficient and an exponent, so that `1.50` and
`1.5` stay different.  `text` keeps the exponent when zeros would have to be
invented; `positional` never writes an exponent.
-/

namespace SqlWeave.Number

/-- A decimal number; a not-a-number may signal and carry a payload. -/
inductive Decimal
  | finite (negative : Bool) (coefficient : Nat) (exponent : Int)
  | infinite (negative : Bool)
  | nan (negative signaling : Bool) (payload : Option Nat)
  deriving DecidableEq, Repr

namespace Decimal

private def sign (negative : Bool) : List Char :=
  if negative then ['-'] else []

/-- The digits with a decimal point `point` places behind their start. -/
def placePoint (digits : List Char) (point : Int) : List Char :=
  if point ≤ 0 then '0' :: '.' :: zeros (-point).toNat ++ digits
  else
    let whole := point.toNat
    if digits.length ≤ whole then digits ++ zeros (whole - digits.length)
    else digits.take whole ++ '.' :: digits.drop whole

/-- The texts of the values that are no finite number. -/
def specialText : Decimal → List Char
  | .finite .. => []
  | .infinite negative => sign negative ++ "Infinity".toList
  | .nan negative signaling payload =>
    sign negative ++ (if signaling then "sNaN" else "NaN").toList ++
      (payload.map natText).getD []

/-- Written without an exponent when that shows exactly the coefficient's digits
and at most five zeros behind the point, else in scientific form. -/
def text : Decimal → List Char
  | .finite negative coefficient exponent =>
    let digits := natText coefficient
    let point : Int := exponent + digits.length
    if exponent ≤ 0 && -6 < point then sign negative ++ placePoint digits point
    else
      let e := point - 1
      let mark := if e < 0 then '-' else '+'
      sign negative ++ placePoint digits 1 ++ 'E' :: mark :: natText e.natAbs
  | special => special.specialText

/-- Written without an exponent, whatever its size. -/
def positional : Decimal → List Char
  | .finite negative coefficient exponent =>
    let digits := natText coefficient
    if 0 < exponent && coefficient = 0 then sign negative ++ ['0']
    else sign negative ++ placePoint digits (exponent + digits.length)
  | special => special.specialText

/-- Neither infinite nor a not-a-number. -/
def isFinite : Decimal → Bool
  | .finite .. => true
  | _ => false

/-- Is the number zero, of either sign and any exponent? -/
def isZero : Decimal → Bool
  | .finite _ coefficient _ => coefficient == 0
  | _ => false

/-- Reads a decimal in the form that `text` writes. -/
def read? (s : List Char) : Option Decimal :=
  let (negative, rest) := match s with
    | '-' :: rest => (true, rest)
    | '+' :: rest => (false, rest)
    | rest => (false, rest)
  let payload? (digits : List Char) : Option (Option Nat) :=
    if digits.isEmpty then some none
    else if digits.all Char.isDigit then some (some (ofAsciiDigits digits)) else none
  match rest with
  | 'N' :: 'a' :: 'N' :: digits => (payload? digits).map (.nan negative false ·)
  | 's' :: 'N' :: 'a' :: 'N' :: digits => (payload? digits).map (.nan negative true ·)
  | 'I' :: 'n' :: 'f' :: _ => some (.infinite negative)
  | _ =>
    let whole := rest.takeWhile Char.isDigit
    let rest := rest.dropWhile Char.isDigit
    let (fraction, rest) := match rest with
      | '.' :: rest => (rest.takeWhile Char.isDigit, rest.dropWhile Char.isDigit)
      | rest => ([], rest)
    if whole.isEmpty && fraction.isEmpty then none
    else
      let exponent? : Option Int := match rest with
        | [] => some 0
        | e :: rest =>
          if e == 'e' || e == 'E' then
            match rest with
            | '-' :: ds => if ds.isEmpty || !ds.all Char.isDigit then none else some (-(ofAsciiDigits ds : Int))
            | '+' :: ds => if ds.isEmpty || !ds.all Char.isDigit then none else some (ofAsciiDigits ds)
            | ds => if ds.isEmpty || !ds.all Char.isDigit then none else some (ofAsciiDigits ds)
          else none
      exponent?.map fun e =>
        .finite negative (ofAsciiDigits (whole ++ fraction)) (e - fraction.length)

end Decimal
end SqlWeave.Number
