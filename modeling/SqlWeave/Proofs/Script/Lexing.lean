import SqlWeave.Proofs.Number.Numeral
import SqlWeave.Proofs.Text.Digits
import SqlWeave.Proofs.Text.Escapes
import SqlWeave.Proofs.Text.Runs
import SqlWeave.Script.Token

/-!
# Reading source as tokens

The lexer has a step for every character of a source and takes off at least one character
in each, so it never runs out of steps.  Names, quoted texts and numerals are read back as
they are written, when a mark stands behind them.

## Main results

* `Reads.lex_eq`: what is read step by step are the tokens of the source.
* `spells_name`, `spells_text`, `spells_numeral`: what is written is read back.
-/

namespace SqlWeave.Script

open Text Number

/-! ## Steps of the lexer -/

/-- The lexer reads the tokens `ts` off the text `s`, with a character for every step, and
goes on with the text `t`. -/
def Reads (inside : Bool) (s : List Char) (ts : List Token) (after : Bool) (t : List Char) :
    Prop :=
  ∃ steps, steps + t.length ≤ s.length ∧
    ∀ fuel, lex inside s (fuel + steps) = ts ++ lex after t fuel

namespace Reads

variable {inside between after : Bool} {s t u : List Char} {ts us : List Token}

theorem refl (inside : Bool) (s : List Char) : Reads inside s [] inside s :=
  ⟨0, by omega, fun _ => rfl⟩

theorem trans (hFirst : Reads inside s ts between t) (hSecond : Reads between t us after u) :
    Reads inside s (ts ++ us) after u := by
  obtain ⟨m, hShort, hRead⟩ := hFirst
  obtain ⟨n, hShort', hRead'⟩ := hSecond
  refine ⟨n + m, by omega, ?_⟩
  intro fuel
  rw [← Nat.add_assoc, hRead, hRead', List.append_assoc]

/-- What is read up to the end are all the tokens of the text. -/
theorem lex_eq (h : Reads inside s ts after []) : lex inside s s.length = ts := by
  obtain ⟨steps, hShort, hRead⟩ := h
  obtain ⟨fuel, hFuel⟩ := Nat.exists_eq_add_of_le hShort
  have hEnd : lex after [] fuel = [] := by
    cases fuel with
    | zero => rfl
    | succ n => rfl
  rw [hFuel, List.length_nil, Nat.add_zero, Nat.add_comm, hRead, hEnd, List.append_nil]

/-- One step. -/
theorem one {c : Char} (hShort : t.length ≤ s.length)
    (hStep : ∀ fuel, lex inside (c :: s) (fuel + 1) = ts ++ lex after t fuel) :
    Reads inside (c :: s) ts after t :=
  ⟨1, by rw [List.length_cons]; omega, hStep⟩

theorem openOutput (rest : List Char) :
    Reads false ('\x7b' :: '\x7b' :: rest) [.beginOutput] true rest :=
  one (by simp) fun _ => rfl

theorem openStatement (rest : List Char) :
    Reads false ('\x7b' :: '%' :: rest) [.beginStatement] true rest :=
  one (by simp) fun _ => rfl

theorem closeOutput (rest : List Char) :
    Reads true ('\x7d' :: '\x7d' :: rest) [.endOutput] false rest :=
  one (by simp) fun _ => rfl

theorem closeStatement (rest : List Char) :
    Reads true ('%' :: '\x7d' :: rest) [.endStatement] false rest :=
  one (by simp) fun _ => rfl

theorem space (rest : List Char) : Reads true (' ' :: rest) [] true rest :=
  one (Nat.le_refl _) fun fuel => by
    rw [lex]
    all_goals simp [show isBlank ' ' = true by decide]

/-- The step of a token between braces. -/
theorem token {c : Char} {rest tail : List Char} {t : Token} (hPlain : c ∉ ['\x7b', '\x7d', '%'])
    (hBlank : isBlank c = false) (hCut : cutToken c rest = (t, tail))
    (hShort : tail.length ≤ rest.length) : Reads true (c :: rest) [t] true tail := by
  simp only [List.mem_cons, List.not_mem_nil, or_false, not_or] at hPlain
  obtain ⟨hOpen, hClose, hPercent⟩ := hPlain
  apply one hShort
  intro fuel
  rw [lex]
  · rw [hBlank, hCut]
    rfl
  all_goals
    intro rest h
    first
    | exact absurd h hOpen
    | exact absurd h hClose
    | exact absurd h hPercent

end Reads

/-! ## Marks and names -/

/-- The characters that stand behind names, texts and numerals in a source. -/
def marks : List Char :=
  [' ', '(', ')', ',', '[', ']']

theorem mark_facts : ∀ c ∈ marks, isWordChar c = false ∧ isDecimalDigit c = false ∧
    c ≠ '.' ∧ c ≠ '0' := by
  intro c hMem
  simp only [marks, List.mem_cons, List.not_mem_nil, or_false] at hMem
  rcases hMem with rfl | rfl | rfl | rfl | rfl | rfl <;> decide

/-- The marks that are symbols. -/
theorem Reads.symbol {c : Char} (hMark : c ∈ ['(', ')', ',', '[', ']', '-']) (rest : List Char) :
    Reads true (c :: rest) [.symbol c] true rest := by
  have hFacts : ∀ d ∈ ['(', ')', ',', '[', ']', '-'], d ∉ ['\x7b', '\x7d', '%'] ∧
      isBlank d = false ∧ isDecimalDigit d = false ∧ isWordChar d = false ∧
        (d == '\x27' || d == '\x22') = false := by
    intro d hMem
    simp only [List.mem_cons, List.not_mem_nil, or_false] at hMem
    rcases hMem with rfl | rfl | rfl | rfl | rfl | rfl <;> decide
  obtain ⟨hPlain, hBlank, hDigit, hWord, hQuote⟩ := hFacts c hMark
  apply Reads.token hPlain hBlank _ (Nat.le_refl _)
  unfold cutToken
  rw [hDigit, hWord, hQuote]
  rfl

/-- A letter or an underscore, and word characters behind it. -/
def isName : List Char → Bool
  | [] => false
  | c :: rest => (c.isAlpha || c == '_') && rest.all isWordChar

/-- A property of the characters of ASCII can be looked up. -/
theorem of_ascii {P : Char → Prop} (h : ∀ n < 128, P (Char.ofNat n)) {c : Char}
    (hAscii : c.toNat < 128) : P c := by
  have hChar := h c.toNat hAscii
  rwa [Char.ofNat_toNat] at hChar

theorem start_facts {c : Char} (hStart : (c.isAlpha || c == '_') = true) :
    c ∉ ['\x7b', '\x7d', '%'] ∧ isBlank c = false ∧ isDecimalDigit c = false ∧
      isWordChar c = true := by
  have hAscii : c.toNat < 128 := by
    have hAlpha : c.isAlpha = (c.isUpper || c.isLower) := rfl
    have hUpper : c.isUpper = decide (c.val ≥ 65 ∧ c.val ≤ 90) := rfl
    have hLower : c.isLower = (decide (c.val ≥ 97) && decide (c.val ≤ 122)) := rfl
    simp only [hAlpha, hUpper, hLower, Bool.or_eq_true, Bool.and_eq_true, decide_eq_true_eq,
      beq_iff_eq, UInt32.le_iff_toNat_le, ge_iff_le] at hStart
    show c.val.toNat < 128
    rcases hStart with (⟨-, h⟩ | ⟨-, h⟩) | rfl
    · exact Nat.lt_of_le_of_lt h (by decide)
    · exact Nat.lt_of_le_of_lt h (by decide)
    · decide
  revert hStart
  exact of_ascii (P := fun c => (c.isAlpha || c == '_') = true →
    c ∉ ['\x7b', '\x7d', '%'] ∧ isBlank c = false ∧ isDecimalDigit c = false ∧
      isWordChar c = true) (by decide +kernel) hAscii

/-- The text `s` is read as the tokens `ts` in front of any mark. -/
def Spells (s : List Char) (ts : List Token) : Prop :=
  ∀ c ∈ marks, ∀ rest, Reads true (s ++ c :: rest) ts true (c :: rest)

theorem Spells.nil : Spells [] [] :=
  fun c _ rest => Reads.refl true (c :: rest)

theorem spells_name {s : List Char} (hName : isName s = true) : Spells s [.name s] := by
  intro d hMark rest
  cases s with
  | nil => cases hName
  | cons c more =>
    simp only [isName, Bool.and_eq_true] at hName
    obtain ⟨hStart, hMore⟩ := hName
    obtain ⟨hPlain, hBlank, hDigit, hWord⟩ := start_facts hStart
    obtain ⟨hStop, -⟩ := mark_facts d hMark
    have hRun : ∀ e ∈ c :: more, isWordChar e = true := by
      intro e hMem
      rcases List.mem_cons.mp hMem with rfl | hMem
      · exact hWord
      · exact List.all_eq_true.mp hMore e hMem
    have hEnd : ∀ e, (d :: rest).head? = some e → isWordChar e = false := by
      intro e hHead
      obtain rfl : d = e := Option.some.inj hHead
      exact hStop
    rw [List.cons_append]
    apply Reads.token hPlain hBlank
    · have hTake := takeWhile_append_of_run hRun hEnd
      have hDrop := dropWhile_append_of_run hRun hEnd
      rw [List.cons_append] at hTake hDrop
      unfold cutToken
      rw [hDigit, hWord, hTake, hDrop, hStart]
      rfl
    · rw [List.length_append]
      omega

/-! ## Quoted texts -/

theorem cutQuoted?_escapeQuoted (s rest : List Char) :
    cutQuoted? '\x27' (escapeQuoted s ++ '\x27' :: rest) = some (escapeQuoted s, rest) := by
  induction s with
  | nil =>
    show cutQuoted? '\x27' ('\x27' :: rest) = some ([], rest)
    rw [cutQuoted?.eq_def]
    rfl
  | cons c more ih =>
    have hCons : escapeQuoted (c :: more) =
        (if c == '\\' || c == '\x27' then ['\\', c] else [c]) ++ escapeQuoted more := rfl
    rw [hCons, List.append_assoc]
    by_cases hEscape : (c == '\\' || c == '\x27') = true
    · rw [if_pos hEscape]
      show cutQuoted? '\x27' ('\\' :: c :: (escapeQuoted more ++ '\x27' :: rest)) = _
      rw [cutQuoted?.eq_def]
      simp [ih]
    · rw [if_neg hEscape]
      simp only [Bool.or_eq_true, beq_iff_eq, not_or] at hEscape
      show cutQuoted? '\x27' (c :: (escapeQuoted more ++ '\x27' :: rest)) = _
      rw [cutQuoted?.eq_def]
      simp [ih, hEscape]

/-- A quoted text is read back as it is, whatever stands behind it. -/
theorem Reads.quoted (s rest : List Char) :
    Reads true (quotedSource s ++ rest) [.text s] true rest := by
  have hSource : quotedSource s ++ rest = '\x27' :: (escapeQuoted s ++ '\x27' :: rest) := by
    simp [quotedSource]
  rw [hSource]
  apply Reads.token (by decide) (by decide)
  · unfold cutToken
    rw [cutQuoted?_escapeQuoted, show isDecimalDigit '\x27' = false by decide,
      show isWordChar '\x27' = false by decide]
    simp [textToken, decode_asciiOnly]
  · simp only [List.length_append, List.length_cons]
    omega

theorem spells_text (s : List Char) : Spells (quotedSource s) [.text s] :=
  fun d _ rest => Reads.quoted s (d :: rest)

/-! ## Numerals -/

theorem digit_facts {c : Char} (hDigit : c.isDigit = true) :
    c ∉ ['\x7b', '\x7d', '%'] ∧ isBlank c = false ∧ isWordChar c = true ∧
      decimalValue? c = some (c.toNat - 48) := by
  have hAscii : c.toNat < 128 := by
    simp only [Char.isDigit, Bool.and_eq_true, decide_eq_true_eq, UInt32.le_iff_toNat_le] at hDigit
    exact Nat.lt_of_le_of_lt hDigit.2 (by decide)
  revert hDigit
  exact of_ascii (P := fun c => c.isDigit = true → c ∉ ['\x7b', '\x7d', '%'] ∧
    isBlank c = false ∧ isWordChar c = true ∧ decimalValue? c = some (c.toNat - 48))
    (by decide +kernel) hAscii

theorem isDecimalDigit_of_isDigit {c : Char} (hDigit : c.isDigit = true) :
    isDecimalDigit c = true := by
  obtain ⟨-, -, -, hValue⟩ := digit_facts hDigit
  rw [isDecimalDigit, hValue]
  rfl

/-- What a decimal digit of any script is for the lexer. -/
theorem decimal_facts {c : Char} (hDigit : isDecimalDigit c = true) :
    c ∉ ['\x7b', '\x7d', '%'] ∧ isBlank c = false ∧ isWordChar c = true := by
  refine ⟨?_, isBlank_of_isDecimalDigit hDigit, isWordChar_of_isDecimalDigit hDigit⟩
  intro hMem
  simp only [List.mem_cons, List.not_mem_nil, or_false] at hMem
  rcases hMem with rfl | rfl | rfl <;> exact absurd hDigit (by decide)

theorem integerToken_digits {digits : List Char} (hDigits : ∀ c ∈ digits, c.isDigit = true)
    (hShort : digits.length ≤ digitLimit) :
    integerToken digits = .integer (ofAsciiDigits digits) := by
  have hValues : digits.map (fun c => (decimalValue? c).getD 0) =
      digits.map fun c => c.toNat - 48 := by
    apply List.map_congr_left
    intro c hMem
    obtain ⟨-, -, -, hValue⟩ := digit_facts (hDigits c hMem)
    rw [hValue]
    rfl
  rw [integerToken, if_neg (Nat.not_lt.mpr hShort), hValues]
  rfl

/-- The token of a numeral without its sign. -/
def magnitudeToken (x : Numeral) : Token :=
  if x.fraction.isEmpty then .integer (ofAsciiDigits x.whole)
  else .float (.ofScientific false (ofAsciiDigits (x.whole ++ x.fraction)) (-x.fraction.length))

/-- The tokens of a numeral. -/
def numeralTokens (x : Numeral) : List Token :=
  if x.negative then [.symbol '-', magnitudeToken x] else [magnitudeToken x]

section Digits

variable {digits : List Char} {d : Char}

/-- What the lexer finds in front of a mark. -/
theorem digits_in_front (hDigits : ∀ c ∈ digits, isDecimalDigit c = true) (hMark : d ∈ marks)
    (rest : List Char) :
    (digits ++ d :: rest).takeWhile isDecimalDigit = digits ∧
      (digits ++ d :: rest).dropWhile isDecimalDigit = d :: rest := by
  obtain ⟨-, hStop, -, -⟩ := mark_facts d hMark
  have hEnd : ∀ e, (d :: rest).head? = some e → isDecimalDigit e = false := by
    intro e hHead
    obtain rfl : d = e := Option.some.inj hHead
    exact hStop
  exact ⟨takeWhile_append_of_run hDigits hEnd, dropWhile_append_of_run hDigits hEnd⟩

/-- Zeros in front are a token of their own. -/
theorem cutNumeral_zeros {more : List Char}
    (hDigits : ∀ c ∈ '0' :: more, isDecimalDigit c = true) (hMark : d ∈ marks)
    (rest : List Char) :
    cutNumeral ('0' :: more ++ d :: rest) =
      (integerToken (('0' :: more).takeWhile (· == '0')),
        ('0' :: more).dropWhile (· == '0') ++ d :: rest) := by
  obtain ⟨-, -, hPoint, hZero⟩ := mark_facts d hMark
  obtain ⟨hTake, hDrop⟩ := digits_in_front hDigits hMark rest
  have hEnd : ∀ e, (d :: rest).head? = some e → (e == '0') = false := by
    intro e hHead
    obtain rfl : d = e := Option.some.inj hHead
    simp [hZero]
  have hZeros := takeWhile_append_of_stop hEnd ('0' :: more)
  have hBehind := dropWhile_append_of_stop hEnd ('0' :: more)
  have hLeft := drop_length_takeWhile (· == '0') ('0' :: more ++ d :: rest)
  rw [hZeros, hBehind] at hLeft
  unfold cutNumeral
  rw [hTake, hDrop]
  rw [List.cons_append] at hZeros hLeft ⊢
  simpa [hPoint, hZeros] using hLeft

/-- Without zeros in front an integer is one token. -/
theorem cutNumeral_native {c : Char} {more : List Char}
    (hDigits : ∀ e ∈ c :: more, isDecimalDigit e = true) (hNative : c.isDigit = true)
    (hZero : c ≠ '0') (hMark : d ∈ marks) (rest : List Char) :
    cutNumeral (c :: more ++ d :: rest) = (integerToken (c :: more), d :: rest) := by
  obtain ⟨-, -, hPoint, -⟩ := mark_facts d hMark
  obtain ⟨hTake, hDrop⟩ := digits_in_front hDigits hMark rest
  unfold cutNumeral
  rw [hTake, hDrop]
  simp [hPoint, hNative]

end Digits

section Numerals

variable {x : Numeral} {d : Char} (rest : List Char)

theorem cutNumeral_integer (hRegular : x.IsRegular) (hMark : d ∈ marks) :
    cutNumeral (x.whole ++ d :: rest) = (integerToken x.whole, d :: rest) := by
  have hDigits : ∀ c ∈ x.whole, c.isDigit = true := by
    intro c hMem
    exact hRegular.digits c (List.mem_append_left _ hMem)
  have hRun : ∀ c ∈ x.whole, isDecimalDigit c = true := by
    intro c hMem
    exact isDecimalDigit_of_isDigit (hDigits c hMem)
  rcases hRegular.leading with hWhole | ⟨c, more, hWhole, hLeading⟩
  · rw [hWhole] at hRun ⊢
    exact cutNumeral_zeros hRun hMark rest
  · rw [hWhole] at hDigits hRun ⊢
    exact cutNumeral_native hRun (hDigits c List.mem_cons_self) hLeading hMark rest

/-- A numeral with a point is cut off as a whole, whatever its digits are. -/
theorem cutNumeral_pointed {whole fraction : List Char}
    (hRun : ∀ c ∈ whole ++ fraction, isDecimalDigit c = true) (hFraction : fraction ≠ [])
    (hMark : d ∈ marks) :
    cutNumeral (whole ++ '.' :: (fraction ++ d :: rest)) =
      (floatToken whole fraction, d :: rest) := by
  obtain ⟨-, hStop, -, -⟩ := mark_facts d hMark
  have hPoint : ∀ tail e, List.head? ('.' :: tail) = some e → isDecimalDigit e = false := by
    intro tail e hHead
    obtain rfl : '.' = e := Option.some.inj hHead
    decide
  have hEnd : ∀ e, (d :: rest).head? = some e → isDecimalDigit e = false := by
    intro e hHead
    obtain rfl : d = e := Option.some.inj hHead
    exact hStop
  have hWhole : ∀ c ∈ whole, isDecimalDigit c = true := by
    intro c hMem
    exact hRun c (List.mem_append_left _ hMem)
  have hBehind : ∀ c ∈ fraction, isDecimalDigit c = true := by
    intro c hMem
    exact hRun c (List.mem_append_right _ hMem)
  unfold cutNumeral
  rw [takeWhile_append_of_run hWhole (hPoint _), dropWhile_append_of_run hWhole (hPoint _)]
  have hTake := takeWhile_append_of_run hBehind hEnd
  simp [hTake, hFraction]

theorem cutNumeral_float (hRegular : x.IsRegular) (hFraction : x.fraction ≠ [])
    (hMark : d ∈ marks) :
    cutNumeral (x.whole ++ '.' :: (x.fraction ++ d :: rest)) = (magnitudeToken x, d :: rest) := by
  have hRun : ∀ c ∈ x.whole ++ x.fraction, isDecimalDigit c = true := by
    intro c hMem
    exact isDecimalDigit_of_isDigit (hRegular.digits c hMem)
  have hAll : (x.whole ++ x.fraction).all Char.isDigit = true :=
    List.all_eq_true.mpr hRegular.digits
  rw [cutNumeral_pointed rest hRun hFraction hMark, floatToken, if_pos hAll, magnitudeToken,
    List.isEmpty_eq_false_iff.mpr hFraction]
  rfl

/-- A text that starts with a digit is read as the numeral that is cut off and what stands behind
it. -/
theorem spells_of_cutNumeral {c : Char} {more tail : List Char} {t : Token} {ts : List Token}
    (hDigit : isDecimalDigit c = true)
    (hCut : ∀ d ∈ marks, ∀ rest, cutNumeral (c :: more ++ d :: rest) = (t, tail ++ d :: rest))
    (hShort : tail.length ≤ more.length) (hTail : Spells tail ts) : Spells (c :: more) (t :: ts) := by
  intro d hMark rest
  obtain ⟨hPlain, hBlank, -⟩ := decimal_facts hDigit
  have hToken := hCut d hMark rest
  rw [List.cons_append] at hToken ⊢
  have hFirst : Reads true (c :: (more ++ d :: rest)) [t] true (tail ++ d :: rest) := by
    apply Reads.token hPlain hBlank
    · unfold cutToken
      rw [hDigit]
      exact hToken
    · rw [List.length_append, List.length_append]
      omega
  exact hFirst.trans (hTail d hMark rest)

/-- Digits alone are read as an integer, if there are not too many of them. -/
theorem spells_whole (hRegular : x.IsRegular) : Spells x.whole [integerToken x.whole] := by
  obtain ⟨c, more, hWhole, hDigit⟩ := hRegular.whole_cons
  have hCut : ∀ d ∈ marks, ∀ rest,
      cutNumeral (x.whole ++ d :: rest) = (integerToken x.whole, d :: rest) := by
    intro d hMark rest
    exact cutNumeral_integer rest hRegular hMark
  rw [hWhole] at hCut ⊢
  exact spells_of_cutNumeral (isDecimalDigit_of_isDigit hDigit) hCut (Nat.zero_le _) .nil

/-- The digits of a numeral are read as its magnitude. -/
theorem spells_magnitude (hRegular : x.IsRegular)
    (hShort : x.fraction = [] → x.whole.length ≤ digitLimit) :
    Spells (x.whole ++ if x.fraction.isEmpty then [] else '.' :: x.fraction)
      [magnitudeToken x] := by
  by_cases hFraction : x.fraction = []
  · have hDigits : ∀ c ∈ x.whole, c.isDigit = true := by
      intro c hMem
      exact hRegular.digits c (List.mem_append_left _ hMem)
    have hWhole := spells_whole hRegular
    rw [integerToken_digits hDigits (hShort hFraction)] at hWhole
    rw [magnitudeToken, hFraction, List.isEmpty_nil, if_pos rfl, if_pos rfl, List.append_nil]
    exact hWhole
  · obtain ⟨c, more, hWhole, hDigit⟩ := hRegular.whole_cons
    have hCut : ∀ d ∈ marks, ∀ rest, cutNumeral (x.whole ++ '.' :: x.fraction ++ d :: rest) =
        (magnitudeToken x, d :: rest) := by
      intro d hMark rest
      rw [List.append_assoc]
      exact cutNumeral_float rest hRegular hFraction hMark
    rw [List.isEmpty_eq_false_iff.mpr hFraction, if_neg Bool.false_ne_true]
    rw [hWhole] at hCut ⊢
    rw [List.cons_append] at hCut ⊢
    exact spells_of_cutNumeral (isDecimalDigit_of_isDigit hDigit) hCut (Nat.zero_le _) .nil

/-- A sign is a token of its own. -/
theorem Spells.signed {s : List Char} {ts : List Token} (h : Spells s ts) (negative : Bool) :
    Spells ((if negative then ['-'] else []) ++ s) (if negative then .symbol '-' :: ts else ts) := by
  cases negative with
  | true =>
    intro d hMark rest
    exact (Reads.symbol (c := '-') (by decide) (s ++ d :: rest)).trans (h d hMark rest)
  | false => exact h

theorem spells_numeral (hRegular : x.IsRegular)
    (hShort : x.fraction = [] → x.whole.length ≤ digitLimit) :
    Spells x.chars (numeralTokens x) := by
  rw [Numeral.chars, List.append_assoc]
  exact (spells_magnitude hRegular hShort).signed x.negative

end Numerals

end SqlWeave.Script
