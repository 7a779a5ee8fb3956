import SqlWeave.Proofs.Number.Numeral
import SqlWeave.Proofs.Results
import SqlWeave.Proofs.Scan.Agreement
import SqlWeave.Proofs.Scan.Joining

/-!
# Numbers between texts

The literal of an integer is not protected: where it was put into a skeleton, binding reads it
once more, as plain characters.  That leaves the text around it alone, with one exception.  A
minus sign behind a dash begins a comment, and the comment takes the rest of its line with it.

## Main results

* `Dialect.bindFrom_number`: an integer is put out as it is, and what stands behind it is bound
  as it is alone.
* `Dialect.bindFrom_comment`: so is a comment up to the end of its line.
* `number_between`: binding around an integer, in either case.
-/

namespace SqlWeave.Sql

open Number Text

/-! ## The text of a number -/

/-- A digit begins no region and no marker. -/
theorem plain_of_isDigit {c : Char} (h : c.isDigit = true) (previous : Option Char)
    (rest : List Char) :
    Region.closed? (c :: rest) = none ∧ Marker.cut? previous (c :: rest) = none := by
  have hNe : ∀ e : Char, e.isDigit = false → c ≠ e := by
    rintro e he rfl
    rw [h] at he
    cases he
  have hQuote : Region.isQuote c = false := by
    simp [Region.isQuote, backquote, hNe '\x27' rfl, hNe '\x22' rfl, hNe '\x60' rfl]
  constructor
  · apply Region.closed?_eq_none_of_openEnded?
    rw [Mode.openEnded?_eq_none_iff]
    exact ⟨hQuote, fun hc => absurd hc (hNe '-' rfl), fun hc => absurd hc (hNe '/' rfl)⟩
  · simp [Marker.cut?, hNe ':' rfl]

/-- An integer begins with a minus sign if it is negative, else with a digit. -/
theorem head?_intText (n : Int) :
    ∃ c, (intText n).head? = some c ∧ if n < 0 then c = '-' else c.isDigit = true := by
  obtain ⟨c, rest, hText, hDigits⟩ := natText_eq_cons n.natAbs
  unfold intText
  split
  · exact ⟨'-', rfl, rfl⟩
  · exact ⟨c, by rw [hText]; rfl, hDigits c (by rw [hText]; exact List.mem_cons_self)⟩

namespace Dialect

variable (d : Dialect) (params : List (Value × Value))

/-- Digits are put out as they are. -/
theorem bindFrom_digits {digits s : List Char} (hDigits : ∀ c ∈ digits, c.isDigit = true)
    (hColon : s.head? ≠ some ':') (previous : Option Char) :
    d.bindFrom params previous (digits ++ s) = (digits ++ ·) <$> d.bindFrom params none s := by
  induction digits generalizing previous with
  | nil =>
    rw [List.nil_append, d.bindFrom_of_head?_ne params hColon previous none]
    exact (id_map _).symm
  | cons c rest ih =>
    obtain ⟨hRegion, hMarker⟩ := plain_of_isDigit (hDigits c (by simp)) previous (rest ++ s)
    rw [List.cons_append, d.bindFrom_of_plain params hRegion hMarker,
      ih fun e hMem => hDigits e (by simp [hMem])]
    simp

/-- An integer is put out as it is. -/
theorem bindFrom_number (n : Int) {s : List Char} (hColon : s.head? ≠ some ':')
    (previous : Option Char) :
    d.bindFrom params previous (intText n ++ s) =
      (intText n ++ ·) <$> d.bindFrom params none s := by
  obtain ⟨c, rest, hText, hDigits⟩ := natText_eq_cons n.natAbs
  unfold intText
  split
  · have hRegion : Region.closed? ('-' :: (natText n.natAbs ++ s)) = none := by
      apply Region.closed?_eq_none_of_openEnded?
      rw [Mode.openEnded?_eq_none_iff]
      refine ⟨by decide, fun _ hHead => ?_, nofun⟩
      have hDash : c = '-' := by simpa [hText] using hHead
      have hDigit := hDigits c (by rw [hText]; exact List.mem_cons_self)
      rw [hDash] at hDigit
      cases hDigit
    rw [List.cons_append, d.bindFrom_of_plain params hRegion rfl,
      d.bindFrom_digits params hDigits hColon]
    simp
  · exact d.bindFrom_digits params hDigits hColon previous

/-- A comment is put out up to the end of its line, and the next line is bound. -/
theorem bindFrom_comment (s : List Char) (previous : Option Char) :
    d.bindFrom params previous ('-' :: '-' :: s) =
      ('-' :: '-' :: s.takeWhile (· != '\n') ++ ·) <$>
        d.bindFrom params none (s.dropWhile (· != '\n')) := by
  have hColon : (s.dropWhile (· != '\n')).head? ≠ some ':' := by
    intro hHead
    have hStop := List.head?_dropWhile_not (· != '\n') s
    rw [hHead] at hStop
    cases hStop
  have hRegion : Region.closed? ('-' :: '-' :: s) =
      some ((Region.restOfLine s).extend ['-', '-']) := rfl
  rw [d.bindFrom_of_region params hRegion]
  exact congrArg _ (d.bindFrom_of_head?_ne params hColon _ none)

end Dialect

/-! ## What stands before a number -/

/-- In front of a number there is a seam, unless a dash meets its minus sign there or it goes on
with a marker. -/
theorem isSeam_intText {p : List Char}
    (hLast : ∀ c, p.getLast? = some c → c ≠ ':' ∧ isWordChar c = false) {n : Int}
    (hDash : ¬(p.getLast? = some '-' ∧ n < 0)) (s : List Char) : IsSeam p (intText n ++ s) := by
  obtain ⟨c, hHead, hFirst⟩ := head?_intText n
  have hText : (intText n ++ s).head? = some c := by
    rw [List.head?_append, hHead]
    rfl
  refine ⟨fun hp hMinus => ?_, fun _ hStar => ?_, fun e _ hp _ _ => ?_⟩
  · rw [hText, Option.some.injEq] at hMinus
    rw [hMinus, if_neg fun hNegative => hDash ⟨hp, hNegative⟩] at hFirst
    cases hFirst
  · rw [hText, Option.some.injEq] at hStar
    rw [hStar] at hFirst
    split at hFirst <;> cases hFirst
  · simpa [Marker.isBlocked] using hLast e hp

/-- What a dash does to a scan. -/
theorem Mode.next_dash {m : Mode} (h : m.IsProper) :
    (m.next '-').isOutside = (m == plain || m == slash) ∧
      m.next '-' ≠ plain ∧ m.next '-' ≠ slash := by
  cases m with
  | quoted q =>
    have hQuote : ('-' == q) = false := by
      rcases isQuote_cases h with rfl | rfl | rfl <;> rfl
    simp [next, hQuote, isOutside]
  | escaped q => simp [next, isOutside]
  | _ => decide

/-- In front of the last dash of a text whose scan ends outside, the scan is outside, and there
is no dash. -/
theorem endsOutside_of_dash {front : List Char} (h : endsOutside (front ++ ['-']) = true) :
    endsOutside front = true ∧ front.getLast? ≠ some '-' := by
  have hProper (s : List Char) : (modeAfter s).IsProper :=
    Mode.IsProper.after (m := .plain) trivial s
  have hStep (s : List Char) (c : Char) : modeAfter (s ++ [c]) = (modeAfter s).next c := by
    rw [modeAfter, Mode.after_append]
    rfl
  rw [endsOutside, hStep, (Mode.next_dash (hProper front)).1, Bool.or_eq_true, beq_iff_eq,
    beq_iff_eq] at h
  constructor
  · rcases h with hPlain | hSlash
    · rw [endsOutside, hPlain]
      rfl
    · rw [endsOutside, hSlash]
      rfl
  · intro hLast
    obtain ⟨before, rfl⟩ := List.getLast?_eq_some_iff.mp hLast
    obtain ⟨-, hPlain, hSlash⟩ := Mode.next_dash (hProper before)
    rw [hStep] at h
    exact h.elim hPlain hSlash

/-- In front of a dash there is a seam, unless another dash stands there. -/
theorem isSeam_dash {p : List Char} (h : p.getLast? ≠ some '-') (s : List Char) :
    IsSeam p ('-' :: s) where
  line := fun hLast => absurd hLast h
  block := fun _ => nofun
  marker := by
    rintro c d - ⟨⟩ hMarker
    exact absurd hMarker (by decide)

/-- Binding a text that ends with a dash. -/
theorem Dialect.bindFrom_concat_dash (d : Dialect) (params : List (Value × Value))
    (previous : Option Char) {front : List Char} (hOut : endsOutside front = true)
    (hLast : front.getLast? ≠ some '-') :
    d.bindFrom params previous (front ++ ['-']) =
      (· ++ ['-']) <$> d.bindFrom params previous front := by
  have hDash (q : Option Char) : d.bindFrom params q ['-'] = pure ['-'] := by
    rw [d.bindFrom_of_plain params rfl rfl, d.bindFrom_nil]
    rfl
  rw [d.bindFrom_append params previous hOut (isSeam_dash hLast []), hDash]
  simp

/-! ## The main result -/

/-- An integer that can be written is its own literal. -/
theorem Literal.ofValue_int_ok_iff {n : Int} {literal : List Char} :
    Literal.ofValue (.int n) = .ok literal ↔ isWritable n = true ∧ intText n = literal := by
  rw [Literal.ofValue, Literal.ofScalar]
  · split
    · next h => exact ⟨fun hText => ⟨h, Except.ok.inj hText⟩, fun hText => congrArg _ hText.2⟩
    · next h => exact ⟨nofun, fun hText => absurd hText.1 h⟩
  all_goals nofun

/-- Binding around the literal of an integer, between a text whose scan ends outside and whose
last character is neither a word character nor a colon, and a text that does not begin with a
colon.  Unless a minus sign comes behind a dash, the integer is put out as it is and both texts
are bound as they are alone.  If one does, the two begin a comment, so that the rest of the line
is put out as it is, and only the lines behind it are bound. -/
theorem number_between (d : Dialect) (params : List (Value × Value)) (n : Int) (p s : List Char)
    (hOut : endsOutside p = true)
    (hLast : ∀ c, p.getLast? = some c → c ≠ ':' ∧ isWordChar c = false)
    (hColon : s.head? ≠ some ':') :
    ∀ literal, Literal.ofValue (.int n) = .ok literal →
      (¬(p.getLast? = some '-' ∧ n < 0) →
        d.bind (p ++ literal ++ s) (.map params) = do
          let front ← d.bind p (.map params)
          let back ← d.bind s (.map params)
          return front ++ literal ++ back) ∧
      (p.getLast? = some '-' ∧ n < 0 →
        d.bind (p ++ literal ++ s) (.map params) = do
          let front ← d.bind p (.map params)
          let back ← d.bind (s.dropWhile (· != '\n')) (.map params)
          return front ++ literal ++ s.takeWhile (· != '\n') ++ back) := by
  intro literal hLiteral
  obtain ⟨-, rfl⟩ := Literal.ofValue_int_ok_iff.mp hLiteral
  refine ⟨fun hDash => ?_, ?_⟩
  · have hSeam := isSeam_intText hLast hDash s
    simp only [Dialect.bind, Dialect.bindEntries_eq_bindFrom, List.append_assoc]
    rw [d.bindFrom_append params none hOut hSeam, d.bindFrom_number params n hColon]
    simp
  · rintro ⟨hMinus, hNegative⟩
    obtain ⟨front, rfl⟩ := List.getLast?_eq_some_iff.mp hMinus
    obtain ⟨hFront, hNoDash⟩ := endsOutside_of_dash hOut
    have hLine : ∀ c ∈ natText n.natAbs, (c != '\n') = true := by
      intro c hMem
      obtain ⟨-, -, -, hDigits⟩ := natText_eq_cons n.natAbs
      rw [bne_iff_ne]
      rintro rfl
      exact absurd (hDigits '\n' hMem) (by decide)
    have hText : front ++ ['-'] ++ intText n ++ s =
        front ++ '-' :: '-' :: (natText n.natAbs ++ s) := by
      simp [intText, hNegative]
    simp only [Dialect.bind, Dialect.bindEntries_eq_bindFrom]
    rw [hText, d.bindFrom_append params none hFront (isSeam_dash hNoDash _), d.bindFrom_comment,
      d.bindFrom_concat_dash params none hFront hNoDash, List.takeWhile_append_of_pos hLine,
      List.dropWhile_append_of_pos hLine]
    simp [intText, hNegative]

/-- A negative integer behind a plus sign, in front of a marker. -/
theorem number_between_plus :
    Literal.ofValue (.int (-5)) = .ok "-5".toList ∧ endsOutside "SELECT :a +".toList = true ∧
      (∀ c, "SELECT :a +".toList.getLast? = some c → c ≠ ':' ∧ isWordChar c = false) ∧
      " - :a".toList.head? ≠ some ':' ∧
      Dialect.standard.bind "SELECT :a +-5 - :a".toList (.map [(.str "a", .int 7)]) =
        .ok "SELECT 7 +-5 - 7".toList := by
  have hLast : ∀ c, "SELECT :a +".toList.getLast? = some c → c ≠ ':' ∧ isWordChar c = false := by
    rintro c ⟨⟩
    decide
  refine ⟨rfl, by decide, hLast, by decide, ?_⟩
  obtain ⟨hBind, -⟩ := number_between Dialect.standard [(.str "a", .int 7)] (-5)
    "SELECT :a +".toList " - :a".toList (by decide) hLast (by decide) "-5".toList rfl
  refine (hBind (by decide)).trans ?_
  exact ok_of_toOption (by decide +kernel)

/-- A negative integer behind a minus sign begins a comment, and the marker behind it is not
bound. -/
theorem number_begins_comment :
    endsOutside "SELECT 5 -".toList = true ∧ "SELECT 5 -".toList.getLast? = some '-' ∧
      isWordChar '-' = false ∧ " + :a".toList.head? = some ' ' ∧ isWordChar ' ' = false ∧
      Literal.ofValue (.int (-5)) = .ok "-5".toList ∧
      Dialect.standard.bind "SELECT 5 -".toList (.map [(.str "a", .int 7)]) =
        .ok "SELECT 5 -".toList ∧
      Dialect.standard.bind " + :a".toList (.map [(.str "a", .int 7)]) = .ok " + 7".toList ∧
      Dialect.standard.bind ("SELECT 5 -".toList ++ "-5".toList ++ " + :a".toList)
          (.map [(.str "a", .int 7)]) = .ok "SELECT 5 --5 + :a".toList ∧
      "SELECT 5 --5 + :a".toList ≠ "SELECT 5 -".toList ++ "-5".toList ++ " + 7".toList :=
  ⟨by decide, by decide, by decide, by decide, by decide, rfl, ok_of_toOption (by decide +kernel),
    ok_of_toOption (by decide +kernel), ok_of_toOption (by decide +kernel), by decide⟩

end SqlWeave.Sql
