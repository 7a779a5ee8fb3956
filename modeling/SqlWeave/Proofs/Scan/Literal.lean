import SqlWeave.Proofs.Scan.Joining

/-!
# Literals are inert

The literal of a text begins and ends with a quote, and nothing in it can close it
earlier.  Put behind a text whose scan ends outside, it is therefore one quoted region,
or a part of one where it touches quotes of its kind: no marker, no quote, no comment and
no separator is read in it, and the text around it is read as it is without the literal.

## Main results

* `bindFrom_literal_between`: binding markers commutes with putting a literal between texts.
* `statements_literal_between`: so does splitting into statements.
* `literal_is_inert`: both, for the literal of any text.
-/

namespace SqlWeave.Sql

open Text

/-! ## The inside of a literal -/

namespace Region

theorem isQuotedRest_close (quote : Char) : IsQuotedRest quote [quote] := by
  simp [IsQuotedRest, runQuoted, Mode.next]

theorem isQuotedRest_cons {quote c : Char} {s : List Char} (h : IsQuotedRest quote s)
    (hClose : c ≠ quote) (hEscape : c = '\\' → hasEscapes quote = false) :
    IsQuotedRest quote (c :: s) := by
  obtain ⟨hRun, hAfter⟩ := h
  constructor
  · rw [runQuoted_cons (by simpa using hClose) (by simpa using hEscape), hRun]
    rfl
  · by_cases hc : c = '\\'
    · simpa [Mode.next, hClose, hEscape hc] using hAfter
    · simpa [Mode.next, hClose, hc] using hAfter

/-- A doubled quote closes nothing. -/
theorem isQuotedRest_pair {quote : Char} (hq : isQuote quote = true) {s : List Char}
    (h : IsQuotedRest quote s) : IsQuotedRest quote (quote :: quote :: s) := by
  obtain ⟨hRun, hAfter⟩ := h
  constructor
  · simp [runQuoted, hRun, Cut.extend]
  · simpa [Mode.next, Mode.entry_of_isQuote hq] using hAfter

theorem isQuotedRest_escape {s : List Char} (h : IsQuotedRest '\x27' s) (c : Char) :
    IsQuotedRest '\x27' ('\\' :: c :: s) := by
  obtain ⟨hRun, hAfter⟩ := h
  constructor
  · simp [runQuoted, hasEscapes, backquote, hRun, Cut.extend]
  · simpa [Mode.next, hasEscapes, backquote] using hAfter

theorem IsQuotedRest.split {quote : Char} (hq : isQuote quote = true) {s : List Char}
    (h : IsQuotedRest quote s) : (Mode.quoted quote).split s = [s] := by
  have := (Mode.quoted_runQuoted hq s).1
  rwa [h.1] at this

end Region

namespace Literal

/-- A character in a literal is escaped, or needs no escape. -/
theorem escapedChar_cases (c : Char) :
    (∃ d, escapedChar c = ['\\', d]) ∨ (escapedChar c = [c] ∧ c ≠ '\x27' ∧ c ≠ '\\') := by
  unfold escapedChar
  repeat' split
  all_goals first | exact .inl ⟨_, rfl⟩ | skip
  rename_i hPlain
  simp only [Bool.or_eq_true, beq_iff_eq, not_or] at hPlain
  exact .inr ⟨rfl, hPlain.1.2, hPlain.2⟩

/-- What stands behind the opening quote of a literal closes at the very end. -/
theorem isQuotedRest_escaped (v : List Char) :
    Region.IsQuotedRest '\x27' (v.flatMap escapedChar ++ ['\x27']) := by
  induction v with
  | nil => exact Region.isQuotedRest_close _
  | cons c rest ih =>
    rw [List.flatMap_cons, List.append_assoc]
    rcases escapedChar_cases c with ⟨d, hEscaped⟩ | ⟨hPlain, hQuote, hBackslash⟩
    · rw [hEscaped]
      exact Region.isQuotedRest_escape ih d
    · rw [hPlain]
      exact Region.isQuotedRest_cons ih hQuote fun hc => absurd hc hBackslash

theorem ofText_append (v s : List Char) :
    ofText v ++ s = '\x27' :: ((v.flatMap escapedChar ++ ['\x27']) ++ s) := by
  simp [ofText]

end Literal

/-! ## Binding around a literal -/

section Bind

variable (d : Dialect) (params : List (Value × Value))

/-- A literal passes. -/
theorem passes_ofText (v : List Char) : d.Passes params (Literal.ofText v) :=
  d.passes_quoted params rfl (Literal.isQuotedRest_escaped v)

/-- Binding commutes with putting a literal between two texts. -/
theorem bindFrom_literal_between (previous : Option Char) (v s : List Char) {p : List Char}
    (h : endsOutside p = true) :
    d.bindFrom params previous (p ++ (Literal.ofText v ++ s)) = do
      let front ← d.bindFrom params previous p
      let back ← d.bindFrom params none s
      return front ++ (Literal.ofText v ++ back) := by
  refine (passes_ofText d params v).between previous h ?_
  rw [Literal.ofText_append]
  exact isSeam_of_quote rfl p _

end Bind

/-! ## Statements around a literal -/

/-- A literal is read as one piece, and the scan is outside behind it. -/
theorem Mode.literal {m : Mode} (h : m.isOutside = true) (v : List Char) :
    m.split (Literal.ofText v) = [Literal.ofText v] ∧ m.after (Literal.ofText v) = plain := by
  have hOpen : m.next '\x27' = quoted '\x27' := by
    cases m <;> first | rfl | cases h
  have hRest := Literal.isQuotedRest_escaped v
  have hText : Literal.ofText v = '\x27' :: (v.flatMap Literal.escapedChar ++ ['\x27']) := rfl
  constructor
  · rw [hText, split_cons_of_inside (.inl (by decide)), hOpen, hRest.split rfl]
    rfl
  · rw [hText, after_cons, hOpen, hRest.2]

/-- Splitting commutes with putting a literal between two texts: the literal goes into one
statement with what stands next to it. -/
theorem statements_literal_between (v s : List Char) {p : List Char}
    (h : endsOutside p = true) :
    statements (p ++ (Literal.ofText v ++ s)) =
      joinPieces (statements p) (extendHead (Literal.ofText v) (statements s)) := by
  obtain ⟨hSplit, hAfter⟩ := Mode.literal h v
  simp only [statements_eq_split]
  rw [Mode.split_append]
  change joinPieces _ ((modeAfter p).split _) = _
  rw [Mode.split_append_of_single hSplit, hAfter]

/-! ## The main result -/

/-- The literal of a text is inert.  Between a text whose scan ends outside and any other
text, it is put out as it is by the binding, which treats both texts as it does alone;
and it goes as it is into one statement, with the last one of the first text and the
first one of the second text. -/
theorem literal_is_inert (d : Dialect) (params : List (Value × Value)) (v : String)
    (p s : List Char) (h : endsOutside p = true) :
    ∃ literal, Literal.ofValue (.str v) = .ok literal ∧
      (d.bind (p ++ literal ++ s) (.map params) = do
        let front ← d.bind p (.map params)
        let back ← d.bind s (.map params)
        return front ++ literal ++ back) ∧
      statements (p ++ literal ++ s) =
        (statements p).dropLast ++
          ((statements p).getLastD [] ++ literal ++ (statements s).headD []) ::
            (statements s).tail := by
  refine ⟨Literal.ofText v.toList, rfl, ?_, ?_⟩
  · simpa only [Dialect.bind, Dialect.bindEntries_eq_bindFrom, List.append_assoc] using
      bindFrom_literal_between d params none v.toList s h
  · have hNe (t : List Char) : statements t ≠ [] := by
      rw [statements_eq_split]
      exact Mode.split_ne_nil _ _
    rw [List.append_assoc, statements_literal_between _ _ h,
      joinPieces_eq (hNe p) (extendHead_ne_nil _ _)]
    cases hs : statements s with
    | nil => exact absurd hs (hNe s)
    | cons first more =>
      simp [List.getLastD_eq_getLast?, List.getLast?_eq_some_getLast (hNe p)]

/-- A literal between two quoted texts that it touches, with everything in it that could
end a region or a statement. -/
theorem literal_is_inert_between_quotes :
    endsOutside "SELECT 'a'".toList = true ∧
      ∃ literal, Literal.ofValue (.str "\\'; :x -- /*") = .ok literal ∧
        (Dialect.standard.bind ("SELECT 'a'".toList ++ literal ++ "'b;', :x; ::x".toList)
            (.map [(.str "x", .int 1)]) = do
          let front ← Dialect.standard.bind "SELECT 'a'".toList (.map [(.str "x", .int 1)])
          let back ← Dialect.standard.bind "'b;', :x; ::x".toList (.map [(.str "x", .int 1)])
          return front ++ literal ++ back) ∧
        statements ("SELECT 'a'".toList ++ literal ++ "'b;', :x; ::x".toList) =
          (statements "SELECT 'a'".toList).dropLast ++
            ((statements "SELECT 'a'".toList).getLastD [] ++ literal ++
                (statements "'b;', :x; ::x".toList).headD []) ::
              (statements "'b;', :x; ::x".toList).tail :=
  ⟨by decide, literal_is_inert Dialect.standard [(.str "x", .int 1)] "\\'; :x -- /*"
    "SELECT 'a'".toList "'b;', :x; ::x".toList (by decide)⟩

end SqlWeave.Sql
