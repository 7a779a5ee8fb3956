import SqlWeave.Text.CharClass

/-!
# Digits among the classes of characters

The classes of characters are tables of ranges.  In an ascending table a code point is found if
and only if one of the ranges holds it, so that what is known of the blocks of decimal digits is
known of every digit.

## Main results

* `inRanges_iff`: looking up in an ascending table.
* `isWordChar_of_isDecimalDigit`, `isBlank_of_isDecimalDigit`: a decimal digit is a word
  character and no blank.
-/

namespace SqlWeave.Text

/-! ## Ascending tables -/

/-- Do the ranges ascend, from `low` on? -/
def isAscending (low : Nat) : List (Nat × Nat) → Bool
  | [] => true
  | (lo, hi) :: rest => decide (low ≤ lo) && decide (lo ≤ hi) && isAscending hi rest

section Ranges

variable {n low : Nat} {rs : List (Nat × Nat)}

theorem le_of_mem_ascending (h : isAscending low rs = true) {r : Nat × Nat} (hMem : r ∈ rs) :
    low ≤ r.1 := by
  induction rs generalizing low with
  | nil => cases hMem
  | cons first rest ih =>
    obtain ⟨lo, hi⟩ := first
    simp only [isAscending, Bool.and_eq_true, decide_eq_true_eq] at h
    rcases List.mem_cons.mp hMem with rfl | hMem
    · exact h.1.1
    · exact Nat.le_trans h.1.1 (Nat.le_trans h.1.2 (ih h.2 hMem))

/-- A code point is found in an ascending table if and only if one of its ranges holds it. -/
theorem inRanges_iff (h : isAscending low rs = true) :
    inRanges n rs = true ↔ ∃ r ∈ rs, r.1 ≤ n ∧ n ≤ r.2 := by
  induction rs generalizing low with
  | nil => simp [inRanges]
  | cons first rest ih =>
    obtain ⟨lo, hi⟩ := first
    simp only [isAscending, Bool.and_eq_true, decide_eq_true_eq] at h
    obtain ⟨⟨-, hLe⟩, hRest⟩ := h
    rw [inRanges]
    by_cases hBefore : n < lo
    · rw [if_pos hBefore]
      refine ⟨nofun, ?_⟩
      rintro ⟨r, hMem, hLow, -⟩
      rcases List.mem_cons.mp hMem with rfl | hMem
      · exact absurd hLow (Nat.not_le.mpr hBefore)
      · have hLater := le_of_mem_ascending hRest hMem
        omega
    · rw [if_neg hBefore, Bool.or_eq_true, decide_eq_true_eq, ih hRest]
      simp [Nat.not_lt.mp hBefore]

end Ranges

/-! ## Decimal digits -/

/-- Does a block of decimal digits stand in a range of word characters and apart from the ranges
of blanks? -/
def isDigitBlock (first : Nat) : Bool :=
  (wordRanges.any fun r => Nat.ble r.1 first && Nat.ble (first + 9) r.2) &&
    blankRanges.all fun r => Nat.blt (first + 9) r.1 || Nat.blt r.2 first

theorem isAscending_wordRanges : isAscending 0 wordRanges = true := by
  decide +kernel

theorem isAscending_blankRanges : isAscending 0 blankRanges = true := by
  decide +kernel

theorem isDigitBlock_zeroPoints : zeroPoints.all isDigitBlock = true := by
  decide +kernel

section Digits

variable {c : Char}

/-- A decimal digit stands in one of the blocks. -/
theorem exists_block (h : isDecimalDigit c = true) :
    ∃ first, isDigitBlock first = true ∧ first ≤ c.toNat ∧ c.toNat ≤ first + 9 := by
  have hBlocks := List.all_eq_true.mp isDigitBlock_zeroPoints
  unfold isDecimalDigit decimalValue? at h
  split at h
  · split at h
    · next hDigit =>
      simp only [Char.isDigit, Bool.and_eq_true, decide_eq_true_eq, UInt32.le_iff_toNat_le,
        ge_iff_le] at hDigit
      exact ⟨48, hBlocks 48 List.mem_cons_self, hDigit.1, hDigit.2⟩
    · cases h
  · rw [Option.isSome_map, List.find?_isSome] at h
    obtain ⟨first, hMem, hBlock⟩ := h
    simp only [Bool.and_eq_true, decide_eq_true_eq] at hBlock
    exact ⟨first, hBlocks first hMem, hBlock⟩

theorem lt_ten_of_decimalValue? {d : Nat} (h : decimalValue? c = some d) : d < 10 := by
  unfold decimalValue? at h
  split at h
  · split at h
    · next hDigit =>
      obtain rfl := Option.some.inj h
      simp only [Char.isDigit, Bool.and_eq_true, decide_eq_true_eq, UInt32.le_iff_toNat_le] at hDigit
      have hLast : c.toNat ≤ 57 := hDigit.2
      omega
    · cases h
  · obtain ⟨first, hFind, rfl⟩ := Option.map_eq_some_iff.mp h
    have hBlock := List.find?_some hFind
    simp only [Bool.and_eq_true, decide_eq_true_eq] at hBlock
    omega

/-- A decimal digit is a word character. -/
theorem isWordChar_of_isDecimalDigit (h : isDecimalDigit c = true) : isWordChar c = true := by
  unfold isWordChar
  split
  · next hAscii =>
    rw [isDecimalDigit, decimalValue?, if_pos hAscii] at h
    split at h
    · next hDigit => simp [isAsciiWord, Char.isAlphanum, hDigit]
    · cases h
  · obtain ⟨first, hBlock, hLow, hHigh⟩ := exists_block h
    simp only [isDigitBlock, Bool.and_eq_true, List.any_eq_true, Nat.ble_eq] at hBlock
    obtain ⟨⟨r, hMem, hFirst, hLast⟩, -⟩ := hBlock
    rw [inRanges_iff isAscending_wordRanges]
    exact ⟨r, hMem, by omega, by omega⟩

/-- A decimal digit is no blank. -/
theorem isBlank_of_isDecimalDigit (h : isDecimalDigit c = true) : isBlank c = false := by
  obtain ⟨first, hBlock, hLow, hHigh⟩ := exists_block h
  simp only [isDigitBlock, Bool.and_eq_true, List.all_eq_true, Bool.or_eq_true,
    Nat.blt_eq] at hBlock
  rw [← Bool.not_eq_true, isBlank, inRanges_iff isAscending_blankRanges]
  rintro ⟨r, hRange, hFirst, hLast⟩
  have hApart := hBlock.2 r hRange
  omega

end Digits

end SqlWeave.Text
