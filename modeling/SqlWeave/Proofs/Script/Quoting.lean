import SqlWeave.Proofs.Script.LineEnds

/-!
# Quoted texts in place

The lexer has a step for every character of a source, and every token takes one character at
least, so that more steps would give the same tokens.  What stands behind a token is therefore
read as if it stood alone, and a quoted text is one token with the text as its value, wherever it
stands between braces and whatever stands around it.

A carriage return would be taken for a line end; every other character is kept.

## Main results

* `length_cutToken_le`: a token takes a character at least.
* `lex_of_length_le`: the lexer does not run out of steps.
* `quotedSource_isReadBack`: a quoted text is read back as one token.
-/

namespace SqlWeave.Script

open Text Number

/-! ## What a token takes -/

/-- What is behind a run that starts a text is shorter than the text. -/
theorem length_dropWhile_le {p : Char → Bool} {c : Char} (h : p c = true) (rest : List Char) :
    ((c :: rest).dropWhile p).length ≤ rest.length := by
  rw [List.dropWhile_cons_of_pos h]
  exact (List.dropWhile_suffix p).length_le

theorem length_cutNumeral_le {s : List Char} {c : Char} {rest : List Char} (hCons : s = c :: rest)
    (h : isDecimalDigit c = true) : (cutNumeral s).2.length ≤ rest.length := by
  have hBehind : (s.dropWhile isDecimalDigit).length ≤ rest.length := by
    rw [hCons]
    exact length_dropWhile_le h rest
  fun_cases cutNumeral s with
  | case1 whole tail fraction hFraction =>
    show (List.drop _ (s.dropWhile isDecimalDigit)).length ≤ _
    rw [List.length_drop]
    omega
  | case2 =>
    cases hCons
    simp
  | case3 => exact hBehind
  | case4 =>
    cases hCons
    exact length_dropWhile_le (isWordChar_of_isDecimalDigit h) rest
  | case5 => exact Nat.zero_le _

theorem length_cutQuoted?_le {quote : Char} {s written tail : List Char}
    (h : cutQuoted? quote s = some (written, tail)) : tail.length ≤ s.length := by
  induction s using cutQuoted?.induct quote generalizing written with
  | case1 => cases h
  | case2 c rest hQuote =>
    rw [cutQuoted?.eq_def] at h
    simp only [hQuote, if_true] at h
    cases h
    exact Nat.le_succ _
  | case3 c hQuote hSlash =>
    rw [cutQuoted?.eq_def] at h
    simp [hQuote, hSlash] at h
  | case4 c hQuote hSlash d more ih =>
    rw [cutQuoted?.eq_def] at h
    simp only [hQuote, hSlash, if_true, Bool.false_eq_true, if_false] at h
    obtain ⟨⟨behind, tail'⟩, hCut, hEq⟩ := Option.map_eq_some_iff.mp h
    cases hEq
    exact Nat.le_trans (ih hCut) (by rw [List.length_cons, List.length_cons]; omega)
  | case5 c rest hQuote hSlash ih =>
    rw [cutQuoted?.eq_def] at h
    simp only [hQuote, hSlash, Bool.false_eq_true, if_false] at h
    obtain ⟨⟨behind, tail'⟩, hCut, hEq⟩ := Option.map_eq_some_iff.mp h
    cases hEq
    exact Nat.le_trans (ih hCut) (Nat.le_succ _)

/-- A token takes a character at least. -/
theorem length_cutToken_le (c : Char) (rest : List Char) :
    (cutToken c rest).2.length ≤ rest.length := by
  unfold cutToken
  split
  · rename_i hDigit
    exact length_cutNumeral_le rfl hDigit
  · split
    · rename_i hWord
      dsimp only
      split <;> exact length_dropWhile_le hWord rest
    · split
      · split
        · rename_i hCut
          exact length_cutQuoted?_le hCut
        · exact Nat.le_refl _
      · exact Nat.le_refl _

/-! ## Steps -/

section Steps

variable {inside after : Bool} {s t : List Char} {ts : List Token} {fuel : Nat}

/-- One step more makes no difference where there are steps for all characters, since every step
takes at least one. -/
theorem lex_succ (h : s.length ≤ fuel) : lex inside s (fuel + 1) = lex inside s fuel := by
  induction inside, s, fuel using lex.induct with
  | case1 inside s =>
    rw [List.length_eq_zero_iff.mp (Nat.le_zero.mp h)]
    rfl
  | case2 inside fuel => rfl
  | case3 inside fuel rest ih =>
    exact congrArg (Token.beginOutput :: ·) (ih (Nat.le_of_succ_le (Nat.le_of_succ_le_succ h)))
  | case4 inside fuel rest ih =>
    exact congrArg (Token.beginStatement :: ·) (ih (Nat.le_of_succ_le (Nat.le_of_succ_le_succ h)))
  | case5 inside fuel rest ih =>
    exact congrArg (Token.endOutput :: ·) (ih (Nat.le_of_succ_le (Nat.le_of_succ_le_succ h)))
  | case6 inside fuel rest ih =>
    exact congrArg (Token.endStatement :: ·) (ih (Nat.le_of_succ_le (Nat.le_of_succ_le_succ h)))
  | case7 inside fuel c rest h₁ h₂ h₃ h₄ hOutside ih =>
    rw [lex, lex, if_pos hOutside, if_pos hOutside, ih (Nat.le_of_succ_le_succ h)]
    all_goals assumption
  | case8 inside fuel c rest h₁ h₂ h₃ h₄ hInside hBlank ih =>
    rw [lex, lex, if_neg hInside, if_neg hInside, if_pos hBlank, if_pos hBlank,
      ih (Nat.le_of_succ_le_succ h)]
    all_goals assumption
  | case9 inside fuel c rest h₁ h₂ h₃ h₄ hInside hBlank token tail hCut ih =>
    have hShort := length_cutToken_le c rest
    rw [hCut] at hShort
    rw [lex, lex, if_neg hInside, if_neg hInside, if_neg hBlank, if_neg hBlank, hCut]
    · exact congrArg (token :: ·) (ih (Nat.le_trans hShort (Nat.le_of_succ_le_succ h)))
    all_goals assumption

/-- The lexer does not run out of steps. -/
theorem lex_of_length_le (h : s.length ≤ fuel) : lex inside s fuel = lex inside s s.length := by
  obtain ⟨more, rfl⟩ := Nat.exists_eq_add_of_le h
  induction more with
  | zero => rfl
  | succ n ih =>
    have hLe := Nat.le_add_right s.length n
    rw [← Nat.add_assoc, lex_succ hLe, ih hLe]

/-- The tokens of a text that stands between braces. -/
def tokensInside (s : List Char) : List Token :=
  lex true s s.length

/-- What is read step by step is read in front of the tokens of the rest. -/
theorem Reads.lex_append (h : Reads inside s ts after t) :
    lex inside s s.length = ts ++ lex after t t.length := by
  obtain ⟨steps, hShort, hRead⟩ := h
  obtain ⟨more, hMore⟩ := Nat.exists_eq_add_of_le hShort
  have hSteps : s.length = t.length + more + steps := by omega
  rw [hSteps, hRead, lex_of_length_le (Nat.le_add_right t.length more)]

end Steps

/-! ## Quoted texts -/

/-- Behind this text the lexer is between braces, and has read these tokens. -/
def LeadsInside (before : List Char) (ts : List Token) : Prop :=
  ∀ t, Reads false (unifyLineEnds before ++ t) ts true t

theorem unifyLineEnds_quotedSource_append {s : List Char} (hReturn : '\r' ∉ s)
    (rest : List Char) :
    unifyLineEnds (quotedSource s ++ rest) = quotedSource s ++ unifyLineEnds rest :=
  unifyLineEnds_append_left (noReturn_quotedSource hReturn) rest

/-- A quoted text without a carriage return is read back as exactly one token, with the text as
its value: between braces, and anywhere in a source that leads between braces in front of it,
whatever stands behind it. -/
theorem quotedSource_isReadBack {s : List Char} (hReturn : '\r' ∉ s) (rest : List Char) :
    tokensInside (unifyLineEnds (quotedSource s ++ rest)) =
        .text s :: tokensInside (unifyLineEnds rest) ∧
      ∀ (before : List Char) (ts : List Token), LeadsInside before ts →
        tokens (before ++ (quotedSource s ++ rest)) =
          ts ++ .text s :: tokensInside (unifyLineEnds rest) := by
  have hQuoted := Reads.quoted s (unifyLineEnds rest)
  refine ⟨?_, fun before ts hBefore => ?_⟩
  · rw [unifyLineEnds_quotedSource_append hReturn]
    exact hQuoted.lex_append
  · have hHead : (quotedSource s ++ rest).head? ≠ some '\n' :=
      fun h => absurd (Option.some.inj h) (by decide)
    rw [tokens, unifyLineEnds_append hHead, unifyLineEnds_quotedSource_append hReturn]
    exact (hBefore _).trans hQuoted |>.lex_append.trans (List.append_assoc ..)

/-- The start of a path in a script. -/
theorem leadsInside_lookup (n : Nat) :
    LeadsInside ("\x7b\x7b _lookup(".toList ++ contextName n ++ ", ".toList)
      [.beginOutput, .name "_lookup".toList, .symbol '(', .name (contextName n), .symbol ','] := by
  intro t
  have hReturn : '\r' ∉ "\x7b\x7b _lookup(".toList ++ contextName n ++ ", ".toList := by
    simp [noReturn_name (isName_contextName n)]
  rw [unifyLineEnds_eq hReturn]
  have hContext := spells_name (isName_contextName n) ',' (by decide) (' ' :: t)
  have hFunction := spells_name (s := "_lookup".toList) (by decide) '(' (by decide)
    (contextName n ++ ',' :: ' ' :: t)
  have hLookup := (Reads.openOutput _).trans ((Reads.space _).trans (hFunction.trans
    ((Reads.symbol (c := '(') (by decide) _).trans (hContext.trans
      ((Reads.symbol (c := ',') (by decide) _).trans (Reads.space t))))))
  simpa using hLookup

/-- A name that looks like source, with quotes, backslashes, a line feed and a letter beyond
ASCII. -/
theorem quotedSource_isReadBack_braces :
    '\r' ∉ "it's \\ 'é'\n\x7d\x7d".toList ∧
      tokens ("\x7b\x7b _lookup(_ctx1, ".toList ++
          (quotedSource "it's \\ 'é'\n\x7d\x7d".toList ++ ") \x7d\x7d".toList)) =
        [.beginOutput, .name "_lookup".toList, .symbol '(', .name "_ctx1".toList, .symbol ',',
          .text "it's \\ 'é'\n\x7d\x7d".toList, .symbol ')', .endOutput] := by
  have hReturn : '\r' ∉ "it's \\ 'é'\n\x7d\x7d".toList := by decide
  refine ⟨hReturn, ?_⟩
  have hRead := (quotedSource_isReadBack hReturn ") \x7d\x7d".toList).2 _ _ (leadsInside_lookup 1)
  have hRest : tokensInside (unifyLineEnds ") \x7d\x7d".toList) = [.symbol ')', .endOutput] := by
    decide +kernel
  rw [hRest] at hRead
  exact hRead

end SqlWeave.Script
