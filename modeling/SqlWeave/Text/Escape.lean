import SqlWeave.Text.Printable
import SqlWeave.Number.Digits

/-!
# Backslash escapes

`asciiOnly` writes every character beyond ASCII as a hexadecimal escape; `decode`
reads escapes: hexadecimal and octal ones, the usual one-letter ones, an escaped
line break, which stands for nothing, and escaped quotes and backslashes.  A
backslash before any other character stands for itself.
-/

namespace SqlWeave.Text

open Number

/-- A code point as `\xhh`, `\uhhhh` or `\Uhhhhhhhh`, whichever is the shortest. -/
def codePointEscape (n : Nat) : List Char :=
  let hex := Nat.toDigits 16 n
  let fill (width : Nat) := zeros (width - hex.length) ++ hex
  if n < 0x100 then '\\' :: 'x' :: fill 2
  else if n < 0x10000 then '\\' :: 'u' :: fill 4
  else '\\' :: 'U' :: fill 8

/-- The text with every character beyond ASCII escaped. -/
def asciiOnly (s : List Char) : List Char :=
  s.flatMap fun c => if c.toNat < 128 then [c] else codePointEscape c.toNat

/-- The value of a hexadecimal digit. -/
def hexValue? (c : Char) : Option Nat :=
  if c.isDigit then some (c.toNat - 48)
  else if 'a' ≤ c && c ≤ 'f' then some (c.toNat - 87)
  else if 'A' ≤ c && c ≤ 'F' then some (c.toNat - 55)
  else none

/-- The character of a list of hexadecimal digits. -/
def hexChar? (digits : List Char) : Option Char := do
  let values ← digits.mapM hexValue?
  let n := values.foldl (fun n d => 16 * n + d) 0
  if h : n.isValidChar then return Char.ofNatAux n h else none

/-- The value of an octal digit. -/
def octalValue? (c : Char) : Option Nat :=
  if '0' ≤ c && c ≤ '7' then some (c.toNat - 48) else none

/-- The character that a one-letter escape stands for; `none` for no character. -/
def letterEscape? : Char → Option (Option Char)
  | '\n' => some none
  | '\\' => some (some '\\')
  | '\x27' => some (some '\x27')
  | '\x22' => some (some '\x22')
  | 'a' => some (some '\x07')
  | 'b' => some (some '\x08')
  | 't' => some (some '\t')
  | 'n' => some (some '\n')
  | 'v' => some (some '\x0b')
  | 'f' => some (some '\x0c')
  | 'r' => some (some '\r')
  | _ => none

/-- How many hexadecimal digits an escape with this mark takes. -/
def hexWidth? : Char → Option Nat
  | 'x' => some 2
  | 'u' => some 4
  | 'U' => some 8
  | _ => none

/-- Reads the escapes of a text. -/
def decode (s : List Char) : Option (List Char) :=
  match s with
  | [] => some []
  | '\\' :: c :: rest =>
    match letterEscape? c, hexWidth? c, octalValue? c with
    | some (some d), _, _ => (decode rest).map (d :: ·)
    | some none, _, _ => decode rest
    | none, some width, _ =>
      if rest.length < width then none
      else match hexChar? (rest.take width) with
        | some d => (decode (rest.drop width)).map (d :: ·)
        | none => none
    | none, none, some _ =>
      let digits := (c :: rest).takeWhile (fun d => (octalValue? d).isSome)
      let digits := digits.take 3
      let n := (digits.filterMap octalValue?).foldl (fun n d => 8 * n + d) 0
      (decode (rest.drop (digits.length - 1))).map (Char.ofNat n :: ·)
    | none, none, none => (decode rest).map fun t => '\\' :: c :: t
  | ['\\'] => none
  | c :: rest => (decode rest).map (c :: ·)
termination_by s.length
decreasing_by
  all_goals simp only [List.length_cons, List.length_drop]
  all_goals omega

end SqlWeave.Text
