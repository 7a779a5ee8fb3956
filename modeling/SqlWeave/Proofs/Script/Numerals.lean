import SqlWeave.Proofs.Script.Spelling

/-!
# Numerals of any digits

What a template takes for a numeral need not be one for the lexer: its digits may be those of any
script, there may be zeros in front, or too many of them.  It is read as tokens all the same.
`Token.Provokes` and `Numeral.Provokes` say which faults a token and a numeral can be to blame for;
the tokens of a numeral are to blame for no others.

## Main results

* `exists_spells_digits`: how a run of digits is read.
* `exists_spells_numeral`: how a numeral is read, with a point or without.
-/

namespace SqlWeave.Number

open Text Script

/-- Decimal digits of any script, and some of them in front of the point. -/
structure Numeral.IsDecimal (x : Numeral) : Prop where
  digits : ∀ c ∈ x.whole ++ x.fraction, isDecimalDigit c = true
  whole : x.whole ≠ []

/-- The faults that a numeral can be to blame for. -/
inductive Numeral.Provokes (x : Numeral) : Fault → Prop
  /-- Without a point, more digits in a row than can be read. -/
  | long {run : List Char} (hPoint : x.fraction = []) (hRun : run <:+: x.whole)
      (hLong : digitLimit < run.length) : Provokes x (.oversizedNumeral run.length)
  /-- With a point, a digit of a foreign script. -/
  | foreign {c : Char} (hPoint : x.fraction ≠ []) (hMem : c ∈ x.whole ++ x.fraction)
      (hForeign : c.isDigit = false) : Provokes x (.unreadableNumeral (numeralFault x.whole))
  /-- With a point, a number beyond all finite floats. -/
  | infinite {negative : Bool} (hPoint : x.fraction ≠ [])
      (hDigits : ∀ c ∈ x.whole ++ x.fraction, c.isDigit = true)
      (hInfinite : x.float = .infinite negative) : Provokes x (.unboundName "inf")

end SqlWeave.Number

namespace SqlWeave.Script

open Text Number

/-- The faults that a token can be to blame for. -/
inductive Token.Provokes : Token → Fault → Prop
  | oversized (digits : Nat) :
      Provokes (.malformed (.oversizedNumeral digits)) (.oversizedNumeral digits)
  | unreadable (cause : NumeralFault) :
      Provokes (.malformed (.numeral cause)) (.unreadableNumeral cause)
  | infinite (negative : Bool) : Provokes (.float (.infinite negative)) (.unboundName "inf")

/-- A token that is no number, or a number that can be written. -/
def Token.isWritable : Token → Bool
  | .float .nan => false
  | .integer n => Number.isWritable n
  | _ => true

/-- A token that is a numeral or none that could be read. -/
def Token.isNumeric : Token → Bool
  | .integer _ | .float _ | .malformed _ => true
  | _ => false

/-! ## Runs of digits -/

section Digits

variable {digits : List Char} {d : Char}

/-- A run that starts with a foreign digit is malformed as a whole. -/
theorem cutNumeral_foreign {c : Char} {more : List Char}
    (hDigits : ∀ e ∈ c :: more, isDecimalDigit e = true) (hForeign : c.isDigit = false)
    (hMark : d ∈ marks) (rest : List Char) :
    cutNumeral (c :: more ++ d :: rest) = (.malformed (.script .invalidName), d :: rest) := by
  obtain ⟨hStop, -, hPoint, -⟩ := mark_facts d hMark
  obtain ⟨hTake, hDrop⟩ := digits_in_front hDigits hMark rest
  have hWords : ∀ e ∈ c :: more, isWordChar e = true := fun e hMem =>
    isWordChar_of_isDecimalDigit (hDigits e hMem)
  have hEnd : ∀ e, (d :: rest).head? = some e → isWordChar e = false := by
    intro e hHead
    obtain rfl : d = e := Option.some.inj hHead
    exact hStop
  have hBehind := dropWhile_append_of_run hWords hEnd
  have hZero : c ≠ '0' := by
    rintro rfl
    exact absurd hForeign (by decide)
  unfold cutNumeral
  rw [hTake, hDrop]
  rw [List.cons_append] at hBehind ⊢
  simp [hPoint, hForeign, hBehind]

end Digits

/-- An integer that can be read can be written. -/
theorem isWritable_integerToken (run : List Char) :
    (integerToken run).isNumeric = true ∧ (integerToken run).isWritable = true := by
  unfold integerToken
  split
  · exact ⟨rfl, rfl⟩
  · next hShort =>
    refine ⟨rfl, isWritable_natCast_iff.mpr ?_⟩
    have hDigits : ∀ d ∈ run.map (fun c => (decimalValue? c).getD 0), d < 10 := by
      simp only [List.forall_mem_map]
      intro c _
      cases hValue : decimalValue? c with
      | none => decide
      | some d => exact lt_ten_of_decimalValue? hValue
    have hBelow := ofDigitValues_lt hDigits
    rw [List.length_map] at hBelow
    exact hBelow.trans_le (Nat.pow_le_pow_right (by decide) (Nat.not_lt.mp hShort))

theorem integerToken_provokes {run : List Char} {f : Fault} (h : (integerToken run).Provokes f) :
    digitLimit < run.length ∧ f = .oversizedNumeral run.length := by
  unfold integerToken at h
  split at h
  · next hLong =>
    cases h
    exact ⟨hLong, rfl⟩
  · cases h

/-- The tokens of a run of digits are to blame for nothing but too many digits in a row. -/
theorem exists_spells_digits {digits : List Char}
    (hDigits : ∀ c ∈ digits, isDecimalDigit c = true) :
    ∃ ts, Spells digits ts ∧ ∀ t ∈ ts, (t.isNumeric = true ∧ t.isWritable = true) ∧
      ∀ f, t.Provokes f → ∃ run, run <:+: digits ∧ digitLimit < run.length ∧
        f = .oversizedNumeral run.length := by
  induction hLength : digits.length using Nat.strongRecOn generalizing digits with
  | ind n ih =>
    cases digits with
    | nil => exact ⟨[], .nil, nofun⟩
    | cons c more =>
      have hDigit := hDigits c List.mem_cons_self
      by_cases hNative : c.isDigit = true
      · by_cases hZero : c = '0'
        · subst hZero
          have hSuffix := List.dropWhile_suffix (l := '0' :: more) (· == '0')
          have hShort : (('0' :: more).dropWhile (· == '0')).length ≤ more.length :=
            (List.dropWhile_suffix (l := more) (· == '0')).length_le
          obtain ⟨ts, hSpells, hTokens⟩ := ih _ (by rw [← hLength]; exact Nat.lt_succ_of_le hShort)
            (fun e hMem => hDigits e (hSuffix.subset hMem)) rfl
          refine ⟨_, spells_of_cutNumeral hDigit (fun d hMark => cutNumeral_zeros hDigits hMark)
            hShort hSpells, fun t hMem => ?_⟩
          rcases List.mem_cons.mp hMem with rfl | hMem
          · refine ⟨isWritable_integerToken _, fun f hFault => ?_⟩
            obtain ⟨hLong, rfl⟩ := integerToken_provokes hFault
            exact ⟨_, (List.takeWhile_prefix _).isInfix, hLong, rfl⟩
          · obtain ⟨hNumeric, hProvokes⟩ := hTokens t hMem
            refine ⟨hNumeric, fun f hFault => ?_⟩
            obtain ⟨run, hRun, hLong, rfl⟩ := hProvokes f hFault
            exact ⟨run, hRun.trans hSuffix.isInfix, hLong, rfl⟩
        · refine ⟨_, spells_of_cutNumeral hDigit
            (fun d hMark => cutNumeral_native hDigits hNative hZero hMark) (Nat.zero_le _) .nil,
            fun t hMem => ?_⟩
          obtain rfl := List.mem_singleton.mp hMem
          refine ⟨isWritable_integerToken _, fun f hFault => ?_⟩
          obtain ⟨hLong, rfl⟩ := integerToken_provokes hFault
          exact ⟨_, List.infix_rfl, hLong, rfl⟩
      · refine ⟨_, spells_of_cutNumeral hDigit
          (fun d hMark => cutNumeral_foreign hDigits (Bool.not_eq_true _ ▸ hNative) hMark)
          (Nat.zero_le _) .nil, fun t hMem => ?_⟩
        obtain rfl := List.mem_singleton.mp hMem
        exact ⟨⟨rfl, rfl⟩, nofun⟩

/-! ## Numerals -/

section Numerals

variable {x : Numeral}

theorem isWritable_floatToken (whole fraction : List Char) :
    (floatToken whole fraction).isNumeric = true ∧ (floatToken whole fraction).isWritable = true := by
  unfold floatToken
  split
  · refine ⟨rfl, ?_⟩
    have hNumber := Binary64.ofScientific_ne_nan false (ofAsciiDigits (whole ++ fraction))
      (-fraction.length)
    generalize Binary64.ofScientific false (ofAsciiDigits (whole ++ fraction)) (-fraction.length) =
      y at hNumber ⊢
    cases y with
    | nan => exact absurd rfl hNumber
    | _ => rfl
  · exact ⟨rfl, rfl⟩

theorem floatToken_provokes (hPoint : x.fraction ≠ []) {f : Fault}
    (h : (floatToken x.whole x.fraction).Provokes f) : x.Provokes f := by
  unfold floatToken at h
  split at h
  · next hAll =>
    have hDigits : ∀ c ∈ x.whole ++ x.fraction, c.isDigit = true := List.all_eq_true.mp hAll
    generalize hFloat : Binary64.ofScientific false (ofAsciiDigits (x.whole ++ x.fraction))
      (-x.fraction.length) = y at h
    cases h with
    | infinite negative =>
      obtain ⟨sign, hInfinite⟩ : ∃ sign, x.float = .infinite sign := by
        rw [Numeral.float]
        cases x.negative with
        | true =>
          rw [Binary64.ofScientific_negative, hFloat]
          exact ⟨_, rfl⟩
        | false => exact ⟨_, hFloat⟩
      exact .infinite hPoint hDigits hInfinite
  · next hAll =>
    obtain ⟨c, hMem, hForeign⟩ := List.all_eq_false.mp (Bool.not_eq_true _ ▸ hAll)
    cases h
    exact .foreign hPoint hMem (Bool.not_eq_true _ ▸ hForeign)

/-- The digits of a numeral, and its point, are read as numerals. -/
theorem exists_spells_unsigned (hDecimal : x.IsDecimal) :
    ∃ ts, Spells (x.whole ++ if x.fraction.isEmpty then [] else '.' :: x.fraction) ts ∧
      ∀ t ∈ ts, (t.isNumeric = true ∧ t.isWritable = true) ∧ ∀ f, t.Provokes f → x.Provokes f := by
  by_cases hPoint : x.fraction = []
  · obtain ⟨ts, hSpells, hTokens⟩ := exists_spells_digits fun c hMem =>
      hDecimal.digits c (List.mem_append_left _ hMem)
    rw [hPoint, List.isEmpty_nil, if_pos rfl, List.append_nil]
    refine ⟨ts, hSpells, fun t hMem => ?_⟩
    obtain ⟨hNumeric, hProvokes⟩ := hTokens t hMem
    refine ⟨hNumeric, fun f hFault => ?_⟩
    obtain ⟨run, hRun, hLong, rfl⟩ := hProvokes f hFault
    exact .long hPoint hRun hLong
  · obtain ⟨c, more, hWhole⟩ := List.exists_cons_of_ne_nil hDecimal.whole
    have hDigit : isDecimalDigit c = true := by
      apply hDecimal.digits
      rw [hWhole]
      exact List.mem_cons_self
    have hCut : ∀ d ∈ marks, ∀ rest, cutNumeral (x.whole ++ '.' :: x.fraction ++ d :: rest) =
        (floatToken x.whole x.fraction, d :: rest) := by
      intro d hMark rest
      rw [List.append_assoc]
      exact cutNumeral_pointed rest hDecimal.digits hPoint hMark
    rw [List.isEmpty_eq_false_iff.mpr hPoint, if_neg Bool.false_ne_true]
    have hSpells : Spells (x.whole ++ '.' :: x.fraction) [floatToken x.whole x.fraction] := by
      generalize floatToken x.whole x.fraction = token at hCut ⊢
      rw [hWhole] at hCut ⊢
      rw [List.cons_append] at hCut ⊢
      exact spells_of_cutNumeral hDigit hCut (Nat.zero_le _) .nil
    refine ⟨_, hSpells, fun t hMem => ?_⟩
    obtain rfl := List.mem_singleton.mp hMem
    exact ⟨isWritable_floatToken _ _, fun f hFault => floatToken_provokes hPoint hFault⟩

/-- The tokens of a numeral are a sign and numerals, which are to blame for nothing but what the
numeral is to blame for. -/
theorem exists_spells_numeral (hDecimal : x.IsDecimal) :
    ∃ ts, Spells x.chars ts ∧ ∀ t ∈ ts, (t = .symbol '-' ∨ t.isNumeric = true) ∧
      t.isWritable = true ∧ ∀ f, t.Provokes f → x.Provokes f := by
  obtain ⟨ts, hSpells, hTokens⟩ := exists_spells_unsigned hDecimal
  rw [Numeral.chars, List.append_assoc]
  refine ⟨_, hSpells.signed x.negative, fun t hMem => ?_⟩
  have hCases : t = .symbol '-' ∨ t ∈ ts := by
    split at hMem
    · exact List.mem_cons.mp hMem
    · exact .inr hMem
  rcases hCases with rfl | hMem
  · exact ⟨.inl rfl, rfl, fun f hFault => (by cases hFault)⟩
  · obtain ⟨⟨hNumeric, hWritable⟩, hProvokes⟩ := hTokens t hMem
    exact ⟨.inr hNumeric, hWritable, hProvokes⟩

end Numerals

end SqlWeave.Script
