import SqlWeave.Script.Instruction
import SqlWeave.Text.Escape

/-!
# Escapes are read back

A text of a script is written twice: with a backslash before its quotes and backslashes,
and then with an escape for every character beyond ASCII.  Reading the escapes undoes
both.

## Main results

* `decode_asciiOnly`: the escapes of a quoted text are read as the text.
-/

namespace SqlWeave.Text

open Number Script

/-! ## Hexadecimal escapes -/

/-- The number that hexadecimal digit values denote. -/
def ofHexValues (values : List Nat) : Nat :=
  values.foldl (fun n d => 16 * n + d) 0

theorem hexValue?_digitChar : ∀ n < 16, hexValue? n.digitChar = some n := by
  decide

/-- The digits of a number are read as values that denote it. -/
theorem mapM_hexValue?_toDigits (n : Nat) :
    ∃ values, (Nat.toDigits 16 n).mapM hexValue? = some values ∧ ofHexValues values = n := by
  induction n using Nat.strongRecOn with
  | ind n ih =>
    by_cases hSmall : n < 16
    · refine ⟨[n], ?_, ?_⟩
      · rw [Nat.toDigits_of_lt_base hSmall]
        simp [hexValue?_digitChar n hSmall]
      · simp [ofHexValues]
    · have hBase : 16 ≤ n := by omega
      obtain ⟨values, hValues, hNumber⟩ := ih (n / 16) (by omega)
      refine ⟨values ++ [n % 16], ?_, ?_⟩
      · have hLast := hexValue?_digitChar (n % 16) (by omega)
        rw [Nat.toDigits_of_base_le (by decide) hBase]
        simp [List.mapM_append, hValues, hLast]
      · rw [ofHexValues, List.foldl_append]
        show 16 * ofHexValues values + n % 16 = n
        omega

/-- Leading zeros add nothing. -/
theorem mapM_hexValue?_zeros (k : Nat) {digits : List Char} {values : List Nat}
    (hDigits : digits.mapM hexValue? = some values) :
    ∃ more, (zeros k ++ digits).mapM hexValue? = some more ∧
      ofHexValues more = ofHexValues values := by
  induction k with
  | zero => exact ⟨values, hDigits, rfl⟩
  | succ k ih =>
    obtain ⟨more, hMore, hNumber⟩ := ih
    refine ⟨0 :: more, ?_, hNumber⟩
    have hZero : hexValue? '0' = some 0 := by decide
    show ('0' :: (zeros k ++ digits)).mapM hexValue? = _
    rw [List.mapM_cons, hZero, hMore]
    rfl

/-- The filled digits of a character's code point stand for the character. -/
theorem hexChar?_filled (k : Nat) (c : Char) :
    hexChar? (zeros k ++ Nat.toDigits 16 c.toNat) = some c := by
  obtain ⟨values, hValues, hNumber⟩ := mapM_hexValue?_toDigits c.toNat
  obtain ⟨more, hMore, hSame⟩ := mapM_hexValue?_zeros k hValues
  have hCode : ofHexValues more = c.toNat := hSame.trans hNumber
  have hValid : (ofHexValues more).isValidChar := by
    rw [hCode]
    exact c.valid
  unfold hexChar?
  rw [hMore]
  show (if h : (ofHexValues more).isValidChar then some (Char.ofNatAux _ h) else none) = some c
  rw [dif_pos hValid]
  congr 1
  apply Char.ext
  apply UInt32.toNat_inj.mp
  show ofHexValues more = c.toNat
  exact hCode

theorem length_filled {width : Nat} {digits : List Char} (h : digits.length ≤ width) :
    (zeros (width - digits.length) ++ digits).length = width := by
  simp only [zeros, List.length_append, List.length_replicate]
  omega

/-- An escape of a fixed width, and the text behind it. -/
theorem decode_hex {mark : Char} {width : Nat} (c : Char) (rest : List Char)
    (hLetter : letterEscape? mark = none) (hWidth : hexWidth? mark = some width)
    (hFits : (Nat.toDigits 16 c.toNat).length ≤ width) :
    decode ('\\' :: mark ::
        (zeros (width - (Nat.toDigits 16 c.toNat).length) ++ Nat.toDigits 16 c.toNat ++ rest)) =
      (decode rest).map (c :: ·) := by
  have hLength := length_filled hFits
  have hChar := hexChar?_filled (width - (Nat.toDigits 16 c.toNat).length) c
  generalize zeros (width - (Nat.toDigits 16 c.toNat).length) ++ Nat.toDigits 16 c.toNat = filled
    at hLength hChar
  have hLong : ¬(filled ++ rest).length < width := by
    simp only [List.length_append]
    omega
  rw [decode, hLetter, hWidth]
  simp only [hLong, if_false]
  rw [List.take_left' hLength, List.drop_left' hLength, hChar]

/-- The escape of a character beyond ASCII. -/
theorem decode_codePointEscape (c : Char) (rest : List Char) :
    decode (codePointEscape c.toNat ++ rest) = (decode rest).map (c :: ·) := by
  have hFits : ∀ width, 0 < width → c.toNat < 16 ^ width →
      (Nat.toDigits 16 c.toNat).length ≤ width := by
    intro width hPos hLt
    exact (Nat.length_toDigits_le_iff (by decide) hPos).mpr hLt
  unfold codePointEscape
  dsimp only
  split
  · next hSmall => exact decode_hex c rest rfl rfl (hFits 2 (by decide) hSmall)
  · split
    · next hSmall => exact decode_hex c rest rfl rfl (hFits 4 (by decide) hSmall)
    · have hChar : c.toNat < 16 ^ 8 := Nat.lt_of_lt_of_le c.val.toNat_lt (by decide)
      exact decode_hex c rest rfl rfl (hFits 8 (by decide) hChar)

/-! ## Quoted texts -/

theorem asciiOnly_append (s t : List Char) : asciiOnly (s ++ t) = asciiOnly s ++ asciiOnly t :=
  List.flatMap_append

theorem decode_plain {c : Char} (rest : List Char) (h : c ≠ '\\') :
    decode (c :: rest) = (decode rest).map (c :: ·) := by
  rw [decode.eq_def]
  split <;> simp_all

/-- The escapes of a quoted text are read as the text. -/
theorem decode_asciiOnly (s : List Char) : decode (asciiOnly (escapeQuoted s)) = some s := by
  induction s with
  | nil => rw [escapeQuoted, List.flatMap_nil, asciiOnly, List.flatMap_nil, decode]
  | cons c rest ih =>
    have hCons : escapeQuoted (c :: rest) =
        (if c == '\\' || c == '\x27' then ['\\', c] else [c]) ++ escapeQuoted rest := rfl
    have hFirst : decode (asciiOnly (if c == '\\' || c == '\x27' then ['\\', c] else [c]) ++
        asciiOnly (escapeQuoted rest)) = (decode (asciiOnly (escapeQuoted rest))).map (c :: ·) := by
      by_cases hSlash : c = '\\'
      · subst hSlash
        show decode ('\\' :: '\\' :: asciiOnly (escapeQuoted rest)) = _
        rw [decode]
        rfl
      by_cases hQuote : c = '\x27'
      · subst hQuote
        show decode ('\\' :: '\x27' :: asciiOnly (escapeQuoted rest)) = _
        rw [decode]
        rfl
      by_cases hAscii : c.toNat < 128
      · simp [hSlash, hQuote, hAscii, asciiOnly, decode_plain]
      · simp [hSlash, hQuote, hAscii, asciiOnly, decode_codePointEscape]
    rw [hCons, asciiOnly_append, hFirst, ih]
    rfl

end SqlWeave.Text
