import SqlWeave.Proofs.Scan.Mode
import SqlWeave.Proofs.Text.Runs

/-!
# Closed regions

How far a closed region reaches when more text is put behind it.  A comment reaches as
far as before.  A quoted region does too, unless its own quote comes next: it may then go
on, and `Region.resume` says how far.

Where everything that is opened is closed, the two readings of a region agree
(`closed?_eq_openEnded?`).
-/

namespace SqlWeave.Sql

namespace Mode

/-- Is something open that only a closing mark can end? -/
def isOpen : Mode → Bool
  | block | star | quoted _ | escaped _ => true
  | _ => false

theorem isOpen_of_isOutside {m : Mode} (h : m.isOutside = true) : m.isOpen = false := by
  cases m <;> first | rfl | cases h

end Mode

namespace Region

open Mode

/-! ## Closing marks -/

/-- How far a region with this quote goes on behind a quote that can close it: over the
text behind it if that opens with the same quote and is closed, else not at all. -/
def resume (quote : Char) : List Char → Cut
  | [] => ([], [])
  | c :: rest =>
    if c == quote then
      match closeQuoted? quote rest with
      | some cut => cut.extend [c]
      | none => ([], c :: rest)
    else ([], c :: rest)

theorem resume_of_head?_ne {quote : Char} {s : List Char} (h : s.head? ≠ some quote) :
    resume quote s = ([], s) := by
  cases s with
  | nil => rfl
  | cons c rest => simp [resume, show c ≠ quote by simpa using h]

/-- A text that ends with the quote that closes it, read inside of a quoted region. -/
def IsQuotedRest (quote : Char) (s : List Char) : Prop :=
  runQuoted quote s = (s, []) ∧ (quoted quote).after s = plain

theorem Cut.extend_extend (s t : List Char) (cut : Cut) :
    (cut.extend t).extend s = cut.extend (s ++ t) := by
  simp [Cut.extend]

/-- A character that neither closes a region nor takes the next one with it. -/
theorem closeQuoted?_cons {quote c : Char} (hClose : ¬(c == quote) = true)
    (hEscape : ¬(c == '\\' && hasEscapes quote) = true) (rest : List Char) :
    closeQuoted? quote (c :: rest) = (closeQuoted? quote rest).map (Cut.extend [c]) := by
  rw [closeQuoted?.eq_def]
  simp [hClose, hEscape]

/-- A character that neither closes a region nor takes the next one with it. -/
theorem runQuoted_cons {quote c : Char} (hClose : ¬(c == quote) = true)
    (hEscape : ¬(c == '\\' && hasEscapes quote) = true) (rest : List Char) :
    runQuoted quote (c :: rest) = (runQuoted quote rest).extend [c] := by
  rw [runQuoted.eq_def]
  simp [hClose, hEscape]

/-- A character of a block comment that does not end it. -/
theorem closeBlock?_cons {c : Char} {rest : List Char}
    (hEnd : c = '*' → rest.head? ≠ some '/') :
    closeBlock? (c :: rest) = (closeBlock? rest).map (Cut.extend [c]) := by
  rw [closeBlock?.eq_def]
  split
  · cases ‹_ = _›
  · rename_i h
    cases h
    split
    · exact absurd rfl (hEnd rfl)
    · rfl

/-- A region goes on behind its closing quote as `resume` says. -/
theorem closeQuoted?_of_isQuotedRest {quote : Char} (hq : isQuote quote = true) {s : List Char}
    (h : IsQuotedRest quote s) (t : List Char) :
    closeQuoted? quote (s ++ t) = some ((resume quote t).extend s) := by
  obtain ⟨hRun, hAfter⟩ := h
  fun_induction runQuoted quote s with
  | case1 => cases hAfter
  | case2 c hc d more hd ih =>
    simp only [beq_iff_eq] at hc hd
    subst hc hd
    simp only [Cut.extend, List.cons_append, List.nil_append, Prod.mk.injEq, List.cons.injEq,
      true_and] at hRun
    have hTail := ih (Prod.ext hRun.1 hRun.2) (by
      simpa [next, entry_of_isQuote hq] using hAfter)
    simp [closeQuoted?, hTail, Cut.extend_extend]
  | case3 c hc d more hd => simp at hRun
  | case4 c hc =>
    simp only [beq_iff_eq] at hc
    subst hc
    cases t with
    | nil => simp [closeQuoted?, resume, Cut.extend]
    | cons d more =>
      simp only [List.cons_append, List.nil_append, closeQuoted?, beq_self_eq_true, if_true, resume]
      split
      · cases closeQuoted? c more <;> simp [Cut.extend]
      · simp [Cut.extend]
  | case5 c hc hEscape d more ih =>
    simp only [Cut.extend, List.cons_append, List.nil_append, Prod.mk.injEq, List.cons.injEq,
      true_and] at hRun
    have hTail := ih (Prod.ext hRun.1 hRun.2) (by simpa [next, hc, hEscape] using hAfter)
    simp [closeQuoted?, hc, hEscape, hTail, Cut.extend_extend]
  | case6 c hc hEscape =>
    simp [next, hc, hEscape] at hAfter
  | case7 c rest hc hEscape ih =>
    simp only [Cut.extend, List.cons_append, List.nil_append, Prod.mk.injEq, List.cons.injEq,
      true_and] at hRun
    have hTail := ih (Prod.ext hRun.1 hRun.2) (by simpa [next, hc, hEscape] using hAfter)
    rw [List.cons_append, closeQuoted?_cons hc hEscape, hTail, Option.map_some, Cut.extend_extend]
    rfl

/-- A closed region ends with its quote. -/
theorem getLast?_closeQuoted? {quote : Char} {s : List Char} {cut : Cut}
    (h : closeQuoted? quote s = some cut) : cut.1.getLast? = some quote := by
  fun_induction closeQuoted? quote s generalizing cut with
  | case1 => cases h
  | case2 c hc d more hd inner hInner ih =>
    cases h
    simp [Cut.extend, List.getLast?_cons, ih hInner]
  | case3 c hc d more hd hInner ih =>
    cases h
    simpa using hc
  | case4 c hc d more hd =>
    cases h
    simpa using hc
  | case5 c hc =>
    cases h
    simpa using hc
  | case6 c hc hEscape d more ih =>
    obtain ⟨inner, hInner, rfl⟩ := Option.map_eq_some_iff.mp h
    simp [Cut.extend, List.getLast?_cons, ih hInner]
  | case7 c hc hEscape => cases h
  | case8 c rest hc hEscape ih =>
    obtain ⟨inner, hInner, rfl⟩ := Option.map_eq_some_iff.mp h
    simp [Cut.extend, List.getLast?_cons, ih hInner]

/-- A quoted region ends with its quote. -/
theorem getLast?_quoted {quote : Char} (hq : isQuote quote = true) {inside : List Char}
    (h : IsQuotedRest quote inside) : (quote :: inside).getLast? = some quote := by
  have hEnd := getLast?_closeQuoted? (closeQuoted?_of_isQuotedRest hq h [])
  simp only [resume, Cut.extend, List.append_nil] at hEnd
  rw [List.getLast?_cons, hEnd]
  rfl

/-- The rest of a quoted region that is closed, and what stands behind it. -/
theorem isQuotedRest_runQuoted {quote : Char} (hq : isQuote quote = true) {s : List Char}
    (h : ((quoted quote).after s).isOpen = false) :
    IsQuotedRest quote (runQuoted quote s).1 ∧ (runQuoted quote s).2.head? ≠ some quote := by
  fun_induction runQuoted quote s with
  | case1 => cases h
  | case2 c hc d more hd ih =>
    simp only [beq_iff_eq] at hc hd
    subst hc hd
    obtain ⟨⟨hRun, hAfter⟩, hHead⟩ := ih (by simpa [next, entry_of_isQuote hq] using h)
    refine ⟨⟨?_, ?_⟩, hHead⟩
    · simp [Cut.extend, runQuoted, hRun]
    · simpa [Cut.extend, next, entry_of_isQuote hq] using hAfter
  | case3 c hc d more hd =>
    simp_all [IsQuotedRest, runQuoted, next]
  | case4 c hc =>
    simp_all [IsQuotedRest, runQuoted, next]
  | case5 c hc hEscape d more ih =>
    obtain ⟨⟨hRun, hAfter⟩, hHead⟩ := ih (by simpa [next, hc, hEscape] using h)
    refine ⟨⟨?_, ?_⟩, hHead⟩
    · simp [Cut.extend, runQuoted, hc, hEscape, hRun]
    · simpa [Cut.extend, next, hc, hEscape] using hAfter
  | case6 c hc hEscape =>
    simp [next, hc, hEscape, isOpen] at h
  | case7 c rest hc hEscape ih =>
    obtain ⟨⟨hRun, hAfter⟩, hHead⟩ := ih (by simpa [next, hc, hEscape] using h)
    refine ⟨⟨?_, ?_⟩, hHead⟩
    · simp [Cut.extend, runQuoted_cons hc hEscape, hRun]
    · simpa [Cut.extend, next, hc, hEscape] using hAfter

/-- A block comment that is left is closed. -/
theorem closeBlock?_of_left {m : Mode} {s : List Char} (hm : InBlock m s)
    (h : (m.after s).isOpen = false) : ∃ cut, closeBlock? s = some cut := by
  fun_induction closeBlock? s generalizing m with
  | case1 => rcases hm with rfl | ⟨rfl, -⟩ <;> cases h
  | case2 more => exact ⟨_, rfl⟩
  | case3 c rest hEnd ih =>
    have hStep := hm.next hEnd
    obtain ⟨cut, hCut⟩ := ih hStep.2 h
    exact ⟨_, by rw [hCut]; rfl⟩

theorem ne_nil_of_closeBlock? {s : List Char} {cut : Cut} (h : closeBlock? s = some cut) :
    cut.1 ≠ [] := by
  fun_cases closeBlock? s <;> grind [closeBlock?, Cut.extend, Option.map_eq_some_iff]

/-- A block comment alone reaches as far as in the text. -/
theorem closeBlock?_front {s : List Char} {cut : Cut} (h : closeBlock? s = some cut)
    (t : List Char) : closeBlock? (cut.1 ++ t) = some (cut.1, t) := by
  fun_induction closeBlock? s generalizing cut with
  | case1 => cases h
  | case2 more =>
    cases h
    rfl
  | case3 c rest hEnd ih =>
    obtain ⟨inner, hInner, rfl⟩ := Option.map_eq_some_iff.mp h
    simp only [Cut.extend, List.cons_append, List.nil_append]
    rw [closeBlock?_cons, ih hInner]
    · rfl
    · intro hStar hSlash
      obtain ⟨d, more, hFront⟩ := List.exists_cons_of_ne_nil (ne_nil_of_closeBlock? hInner)
      have hText := closeBlock?_append _ _ hInner
      rw [hFront] at hText hSlash
      obtain rfl : d = '/' := by simpa using hSlash
      exact hEnd (more ++ inner.2) hStar hText.symm

/-! ## The two readings -/

/-- Where everything that is opened is closed, the two readings of a region agree. -/
theorem closed?_eq_openEnded? {s : List Char} (h : (modeAfter s).isOpen = false) :
    closed? s = openEnded? s := by
  unfold closed? openEnded?
  split
  · rfl
  · rename_i rest
    obtain ⟨cut, hCut⟩ := closeBlock?_of_left (.inl rfl) h
    simp [hCut]
  · rename_i c rest _ _
    by_cases hQuote : isQuote c = true
    · have hInside : ((quoted c).after rest).isOpen = false := by
        simpa [modeAfter, next, entry_of_isQuote hQuote] using h
      obtain ⟨hRest, hHead⟩ := isQuotedRest_runQuoted hQuote hInside
      have hClose := closeQuoted?_of_isQuotedRest hQuote hRest (runQuoted c rest).2
      rw [runQuoted_append, resume_of_head?_ne hHead] at hClose
      simp [hQuote, hClose, Cut.extend]
    · simp [hQuote]
  · rfl

/-! ## Text behind a scan that ends outside -/

theorem closed?_of_isQuote {quote : Char} (h : isQuote quote = true) (rest : List Char) :
    closed? (quote :: rest) = (closeQuoted? quote rest).map (Cut.extend [quote]) := by
  rcases isQuote_cases h with rfl | rfl | rfl <;> simp [closed?, h]

/-- A comment on a line reaches up to the line break. -/
theorem closed?_line {inside tail : List Char} (hInside : ∀ c ∈ inside, c ≠ '\n')
    (hTail : tail.head? = some '\n') :
    closed? ('-' :: '-' :: inside ++ tail) = some ('-' :: '-' :: inside, tail) := by
  have hRun : ∀ c ∈ inside, (c != '\n') = true := by simpa using hInside
  have hStop : ∀ c, tail.head? = some c → (c != '\n') = false := by simp [hTail]
  simp only [List.cons_append, closed?, restOfLine, Text.takeWhile_append_of_run hRun hStop,
    Text.dropWhile_append_of_run hRun hStop]
  rfl

/-- A block comment reaches up to its end mark. -/
theorem closed?_block {inside tail : List Char}
    (h : closeBlock? (inside ++ tail) = some (inside, tail)) :
    closed? ('/' :: '*' :: inside ++ tail) = some ('/' :: '*' :: inside, tail) := by
  simp only [List.cons_append, closed?, h]
  rfl

/-- A quoted region reaches up to its closing quote, and may go on behind it. -/
theorem closed?_quoted {quote : Char} (hQuote : isQuote quote = true) {inside : List Char}
    (hInside : IsQuotedRest quote inside) (tail : List Char) :
    closed? (quote :: inside ++ tail) = some ((resume quote tail).extend (quote :: inside)) := by
  rw [List.cons_append, closed?_of_isQuote hQuote, closeQuoted?_of_isQuotedRest hQuote hInside,
    Option.map_some, Cut.extend_extend]
  rfl

/-- A closed region of a text whose scan ends outside, and what stands behind it. -/
inductive Closes : Cut → Prop
  | line {inside tail : List Char} (hInside : ∀ c ∈ inside, c ≠ '\n')
    (hTail : tail.head? = some '\n') : Closes ('-' :: '-' :: inside, tail)
  | block {inside tail : List Char} (hInside : ∀ t, closeBlock? (inside ++ t) = some (inside, t)) :
    Closes ('/' :: '*' :: inside, tail)
  | quoted {quote : Char} {inside tail : List Char} (hQuote : isQuote quote = true)
    (hInside : IsQuotedRest quote inside) (hTail : tail.head? ≠ some quote) :
    Closes (quote :: inside, tail)

theorem closes_of_closed? {s : List Char} {cut : Cut} (h : endsOutside s = true)
    (hCut : closed? s = some cut) : Closes cut := by
  unfold closed? at hCut
  split at hCut
  · rename_i rest
    cases hCut
    have hInside : ∀ c ∈ rest.takeWhile (· != '\n'), c ≠ '\n' := fun c hc => by
      simpa using List.all_eq_true.mp List.all_takeWhile c hc
    refine .line hInside ?_
    cases hTail : (restOfLine rest).2 with
    | nil =>
      have hAll := List.takeWhile_append_dropWhile (p := (· != '\n')) (l := rest)
      rw [show rest.dropWhile (· != '\n') = [] from hTail, List.append_nil] at hAll
      have hNone : ∀ c ∈ rest, c ≠ '\n' := hAll ▸ hInside
      have hOut : (line.after rest).isOutside = true := h
      rw [(line_of_no_break hNone).2] at hOut
      cases hOut
    | cons c more =>
      have hStop := List.head?_dropWhile_not (· != '\n') rest
      simp only [restOfLine] at hTail
      simpa [hTail] using hStop
  · obtain ⟨inner, hInner, rfl⟩ := Option.map_eq_some_iff.mp hCut
    exact .block (closeBlock?_front hInner)
  · rename_i quote rest _ _
    split at hCut
    · rename_i hQuote
      obtain ⟨inner, hInner, rfl⟩ := Option.map_eq_some_iff.mp hCut
      have hInside : ((quoted quote).after rest).isOpen = false := by
        have := isOpen_of_isOutside h
        simpa [modeAfter, next, entry_of_isQuote hQuote] using this
      obtain ⟨hRest, hHead⟩ := isQuotedRest_runQuoted hQuote hInside
      have hClose := closeQuoted?_of_isQuotedRest hQuote hRest (runQuoted quote rest).2
      rw [runQuoted_append, resume_of_head?_ne hHead, hInner, Option.some.injEq] at hClose
      rw [hClose]
      simpa [Cut.extend] using Closes.quoted hQuote hRest hHead
    · cases hCut
  · cases hCut

/-- Behind a region at the start of a text whose scan ends outside, the scan of the rest
ends outside too. -/
theorem endsOutside_of_closed? {s : List Char} {cut : Cut} (h : endsOutside s = true)
    (hCut : closed? s = some cut) : endsOutside cut.2 = true := by
  rw [closed?_eq_openEnded? (isOpen_of_isOutside h)] at hCut
  obtain ⟨-, hResumes⟩ := plain_openEnded? hCut
  by_cases hNil : cut.2 = []
  · rw [hNil]
    rfl
  · rw [← (openEnded?_append hCut).1, endsOutside, modeAfter, after_append,
      hResumes.after hNil] at h
    exact h

/-- Behind a character that begins no region the scan ends where it ended. -/
theorem endsOutside_of_no_region {c : Char} {rest : List Char}
    (h : endsOutside (c :: rest) = true) (hNone : closed? (c :: rest) = none) :
    endsOutside rest = true := by
  rw [closed?_eq_openEnded? (isOpen_of_isOutside h)] at hNone
  obtain ⟨hOut, hNext⟩ := plain_next_of_no_region hNone
  exact (isOutside_after_of_next_eq (n := plain) hOut hNext).symm.trans h

/-- A closed region at the start of a text whose scan ends outside reaches as far as
before when text is put behind it, but for a quoted region at the very end, which may go
on. -/
theorem closed?_append_of_endsOutside {s : List Char} {cut : Cut} (h : endsOutside s = true)
    (hCut : closed? s = some cut) (t : List Char) :
    closed? (s ++ t) = some (cut.1, cut.2 ++ t) ∨
      ∃ quote, isQuote quote = true ∧ cut.1.getLast? = some quote ∧ cut.2 = [] ∧
        t.head? = some quote ∧ closed? (s ++ t) = some ((resume quote t).extend cut.1) := by
  rw [← (closed?_append hCut).1, List.append_assoc]
  cases closes_of_closed? h hCut with
  | line hInside hTail => exact .inl (closed?_line hInside (by simp [List.head?_append, hTail]))
  | block hInside => exact .inl (closed?_block (hInside _))
  | @quoted quote inside tail hQuote hInside hTail =>
    rw [closed?_quoted hQuote hInside]
    by_cases hSame : (tail ++ t).head? = some quote
    · obtain rfl : tail = [] := by
        cases tail with
        | nil => rfl
        | cons d more => exact absurd hSame (by simpa using hTail)
      exact .inr ⟨quote, hQuote, getLast?_quoted hQuote hInside, rfl, hSame, rfl⟩
    · rw [resume_of_head?_ne hSame]
      simp [Cut.extend]

/-- Where not even an unclosed region starts there is no closed one. -/
theorem closed?_eq_none_of_openEnded? {s : List Char} (h : openEnded? s = none) :
    closed? s = none := by
  unfold openEnded? at h
  unfold closed?
  split at h <;> simp_all

end Region

end SqlWeave.Sql
