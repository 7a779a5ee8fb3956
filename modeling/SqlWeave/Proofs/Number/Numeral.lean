import Mathlib.Algebra.Group.Int.Defs
import Mathlib.Algebra.Group.Nat.Defs
import SqlWeave.Value.Basic

/-!
# Numerals

A numeral is a sign, digits without leading zeros, and perhaps a point and more digits.
Without a point it denotes an integer, with one the nearest float.

## Main results

* `Binary64.ofScientific_negative`: the sign of a number is read apart from its digits.
* `Numeral.read_chars`: a numeral is read as it is written.
-/

namespace SqlWeave.Number

/-! ## Digits of a number -/

theorem digits_natText {n : Nat} : ∀ c ∈ natText n, c.isDigit = true := by
  intro c hMem
  exact Nat.isDigit_of_mem_toDigits (by decide) (by decide) hMem

/-- A natural number is at least one digit. -/
theorem natText_eq_cons (n : Nat) :
    ∃ c rest, natText n = c :: rest ∧ ∀ e ∈ natText n, e.isDigit = true := by
  obtain ⟨c, rest, hText⟩ := List.exists_cons_of_ne_nil (Nat.toDigits_ne_nil (n := n) (b := 10))
  exact ⟨c, rest, hText, digits_natText⟩

/-- An integer can be written if it is below a power of ten. -/
theorem isWritable_iff {n : Int} : isWritable n = true ↔ n.natAbs < 10 ^ digitLimit := by
  rw [isWritable, decide_eq_true_iff, natText]
  exact Nat.length_toDigits_le_iff (by decide) (by decide)

theorem isWritable_pow_iff {k : Nat} : isWritable (10 ^ k) = true ↔ k < digitLimit := by
  have hTen : Int.natAbs 10 = 10 := rfl
  rw [isWritable_iff, Int.natAbs_pow, hTen]
  exact Nat.pow_lt_pow_iff_right (by decide)

theorem isWritable_natCast_iff {n : Nat} : isWritable n = true ↔ n < 10 ^ digitLimit :=
  isWritable_iff

theorem isWritable_neg (n : Int) : isWritable (-n) = isWritable n := by
  rw [isWritable, isWritable, Int.natAbs_neg]

/-- A number of few digits is small. -/
theorem ofDigitValues_lt {values : List Nat} (h : ∀ d ∈ values, d < 10) :
    ofDigitValues values < 10 ^ values.length := by
  suffices hFrom : ∀ total,
      values.foldl (fun total d => 10 * total + d) total < (total + 1) * 10 ^ values.length by
    simpa [ofDigitValues] using hFrom 0
  induction values with
  | nil => simp
  | cons d rest ih =>
    intro total
    obtain ⟨hDigit, hRest⟩ := List.forall_mem_cons.mp h
    calc rest.foldl (fun total d => 10 * total + d) (10 * total + d)
        < (10 * total + d + 1) * 10 ^ rest.length := ih hRest _
      _ ≤ ((total + 1) * 10) * 10 ^ rest.length := Nat.mul_le_mul_right _ (by omega)
      _ = (total + 1) * 10 ^ (d :: rest).length := by
        rw [List.length_cons, Nat.pow_succ', Nat.mul_assoc]

theorem ofAsciiDigits_natText (n : Nat) : ofAsciiDigits (natText n) = n := by
  have hRead := Nat.ofDigitChars_ten_toDigits (n := n)
  rw [Nat.ofDigitChars_eq_foldl] at hRead
  rw [ofAsciiDigits, ofDigitValues, List.foldl_map]
  exact hRead

/-! ## Signs of floats -/

namespace Binary64

/-- The number with the other sign. -/
def negate : Binary64 → Binary64
  | .finite negative m q => .finite (!negative) m q
  | .infinite negative => .infinite !negative
  | .nan => .nan

theorem ofRatio_negative (num den : Nat) :
    ofRatio true num den = (ofRatio false num den).negate := by
  unfold ofRatio
  by_cases hZero : num = 0
  · rw [if_pos hZero, if_pos hZero]
    rfl
  · rw [if_neg hZero, if_neg hZero]
    dsimp only
    rw [apply_ite negate]
    rfl

/-- The sign of a number is read apart from its digits. -/
theorem ofScientific_negative (digits : Nat) (exponent : Int) :
    ofScientific true digits exponent = (ofScientific false digits exponent).negate := by
  unfold ofScientific
  dsimp only
  split
  · rfl
  · split
    · rfl
    · split
      · exact ofRatio_negative _ _
      · exact ofRatio_negative _ _

theorem ofRatio_ne_nan (negative : Bool) (num den : Nat) : ofRatio negative num den ≠ .nan := by
  unfold ofRatio
  dsimp only
  repeat' split
  all_goals exact nofun

/-- Digits denote a number. -/
theorem ofScientific_ne_nan (negative : Bool) (digits : Nat) (exponent : Int) :
    ofScientific negative digits exponent ≠ .nan := by
  unfold ofScientific
  dsimp only
  split
  · exact nofun
  · split
    · exact nofun
    · split
      · exact ofRatio_ne_nan _ _ _
      · exact ofRatio_ne_nan _ _ _

end Binary64

/-! ## Numerals -/

/-- A numeral; without digits behind the point there is no point. -/
structure Numeral where
  negative : Bool
  whole : List Char
  fraction : List Char
  deriving DecidableEq, Repr

namespace Numeral

/-- The numeral as it is written. -/
def chars (x : Numeral) : List Char :=
  (if x.negative then ['-'] else []) ++ x.whole ++
    (if x.fraction.isEmpty then [] else '.' :: x.fraction)

/-- The parts of a numeral that stands in a text. -/
def read (token : List Char) : Numeral :=
  let negative := token.head? == some '-'
  let unsigned := if negative then token.tail else token
  ⟨negative, unsigned.takeWhile (· != '.'), (unsigned.dropWhile (· != '.')).tail⟩

/-- The float that a numeral with a point denotes. -/
def float (x : Numeral) : Binary64 :=
  .ofScientific x.negative (ofAsciiDigits (x.whole ++ x.fraction)) (-x.fraction.length)

/-- The number that a numeral denotes. -/
def value (x : Numeral) : Value :=
  if x.fraction.isEmpty then
    .int (if x.negative then -(ofAsciiDigits x.whole : Int) else ofAsciiDigits x.whole)
  else .float x.float

/-- Decimal digits, and no leading zero but the digit zero itself. -/
structure IsRegular (x : Numeral) : Prop where
  digits : ∀ c ∈ x.whole ++ x.fraction, c.isDigit = true
  leading : x.whole = ['0'] ∨ ∃ c rest, x.whole = c :: rest ∧ c ≠ '0'

/-- A regular numeral of a size that can be read: an integer within the limit of digits, or
a finite float. -/
structure IsReadable (limit : Nat) (x : Numeral) : Prop extends x.IsRegular where
  short : x.fraction = [] → x.whole.length ≤ limit
  finite : x.fraction ≠ [] → ∀ negative, x.float ≠ .infinite negative

theorem IsRegular.ne_point {x : Numeral} (h : x.IsRegular) :
    ∀ c ∈ x.whole, (c != '.') = true := by
  intro c hc
  have hDigit := h.digits c (List.mem_append_left _ hc)
  rw [bne_iff_ne]
  rintro rfl
  exact absurd hDigit (by decide)

theorem IsRegular.whole_cons {x : Numeral} (h : x.IsRegular) :
    ∃ c rest, x.whole = c :: rest ∧ c.isDigit = true := by
  obtain ⟨c, rest, hWhole⟩ : ∃ c rest, x.whole = c :: rest := by
    rcases h.leading with hZero | ⟨c, rest, hWhole, -⟩
    · exact ⟨'0', [], hZero⟩
    · exact ⟨c, rest, hWhole⟩
  have hMem : c ∈ x.whole ++ x.fraction := by
    rw [hWhole]
    exact List.mem_cons_self
  exact ⟨c, rest, hWhole, h.digits c hMem⟩

/-- A numeral is read as it is written. -/
theorem read_chars {x : Numeral} (h : x.IsRegular) : read x.chars = x := by
  obtain ⟨negative, whole, fraction⟩ := x
  obtain ⟨c, rest, hWhole, hDigit⟩ := h.whole_cons
  have hTake : ∀ tail, (∀ d, List.head? tail = some d → (d != '.') = false) →
      (whole ++ tail).takeWhile (· != '.') = whole ∧
        (whole ++ tail).dropWhile (· != '.') = tail := by
    intro tail hStop
    constructor
    · rw [List.takeWhile_append_of_pos h.ne_point]
      cases tail with
      | nil => exact List.append_nil _
      | cons d more =>
        rw [List.takeWhile_cons, hStop d rfl]
        exact List.append_nil _
    · rw [List.dropWhile_append_of_pos h.ne_point]
      cases tail with
      | nil => rfl
      | cons d more =>
        rw [List.dropWhile_cons, hStop d rfl]
        rfl
  have hMinus : c ≠ '-' := by
    rintro rfl
    exact absurd hDigit (by decide)
  have hParts : (whole ++ if fraction.isEmpty then [] else '.' :: fraction).takeWhile (· != '.') =
        whole ∧
      ((whole ++ if fraction.isEmpty then [] else '.' :: fraction).dropWhile (· != '.')).tail =
        fraction := by
    cases fraction with
    | nil =>
      obtain ⟨hFirst, hSecond⟩ := hTake [] (by simp)
      exact ⟨hFirst, by rw [List.isEmpty_nil, if_pos rfl, hSecond]; rfl⟩
    | cons d more =>
      obtain ⟨hFirst, hSecond⟩ := hTake ('.' :: d :: more) (by simp)
      exact ⟨hFirst, congrArg List.tail hSecond⟩
  obtain rfl : whole = c :: rest := hWhole
  cases negative with
  | true =>
    show Numeral.mk true _ _ = _
    exact congr (congrArg _ hParts.1) hParts.2
  | false =>
    have hHead : (some c == some '-') = false := by simpa using hMinus
    unfold read chars
    simp only [List.nil_append, List.cons_append, List.head?_cons, hHead, Bool.false_eq_true,
      if_false]
    exact congr (congrArg _ hParts.1) hParts.2

end Numeral
end SqlWeave.Number
