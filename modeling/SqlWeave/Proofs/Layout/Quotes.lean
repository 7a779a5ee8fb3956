import Mathlib.Algebra.Order.BigOperators.Group.List
import Mathlib.Algebra.Order.Ring.Nat
import SqlWeave.Proofs.Layout.Boundaries
import SqlWeave.Proofs.Scan.Quoted

/-!
# Quoted regions under layout

Layout works on physical lines.  Blank lines around a statement and indentation outside of quoted
regions are not quoted, and the separators are not either.  A line that begins in a quoted region
is a line all the same: what it loses, the region loses.

## Main results

* `Mode.AtLine.quotedFrom_shifted`, `Mode.AtLine.countQuoted_shifted`: what lines that lose
  indentation do to the quoted regions.
* `quotedRegions_layout_iff`: layout keeps the quoted regions exactly if no line that begins in one
  of them is changed.
-/

namespace SqlWeave.Sql

open Text Layout

namespace Mode

/-! ## Characters that are no quotes -/

theorem isQuoted_next_of_not_quote {m : Mode} {c : Char} (hm : m.isQuoted = false)
    (hc : Region.isQuote c = false) : (m.next c).isQuoted = false := by
  have hEntry : (entry c).isQuoted = false := by
    unfold entry
    rw [hc]
    repeat' split
    all_goals first | rfl | contradiction
  cases m <;> simp only [Mode.next] <;> (repeat' split) <;> first | rfl | exact hEntry | cases hm

/-- Only its own quote ends a quoted region. -/
theorem Proper.eq_quoted_of_closes {m : Mode} {c : Char} (h : Proper m) (hm : m.isQuoted = true)
    (hNext : (m.next c).isQuoted = false) : m = quoted c ∧ Region.isQuote c = true := by
  cases m with
  | quoted q =>
    rw [Mode.next] at hNext
    split at hNext
    · next hc =>
      obtain rfl := beq_iff_eq.mp hc
      exact ⟨rfl, h⟩
    · split at hNext <;> cases hNext
  | escaped q => cases hNext
  | _ => cases hm

/-- A line break goes into the region that it stands in. -/
theorem Proper.quotedFrom_break {m : Mode} (h : Proper m) (s : List Char) :
    m.quotedFrom ('\n' :: s) =
      if m.isQuoted then extendHead ['\n'] ((m.next '\n').quotedFrom s)
      else (m.next '\n').quotedFrom s := by
  cases hm : m.isQuoted with
  | true =>
    have hStay : (m.next '\n').isQuoted = true := by
      cases m with
      | quoted q => rw [quoted_next_of_not_quote h (by decide) (by decide)]; rfl
      | escaped q => rfl
      | _ => cases hm
    exact quotedFrom_cons_of_quoted hStay s
  | false => exact quotedFrom_cons_of_not hm (isQuoted_next_of_not_quote hm (by decide)) s

/-- Blank lines do not end a quoted region. -/
theorem Proper.isQuoted_of_blank_lines {m : Mode} (h : Proper m) {lines : List (List Char)}
    (hBlank : ∀ line ∈ lines, isBlankText line = true)
    (hEnd : (m.after (lines.flatMap ('\n' :: ·))).isQuoted = false) : m.isQuoted = false := by
  by_cases hNil : lines = []
  · rw [hNil] at hEnd
    exact hEnd
  · rw [h.after_blank_lines hNil hBlank] at hEnd
    cases m with
    | quoted q =>
      rw [quoted_next_of_not_quote h (by decide) (by decide)] at hEnd
      exact hEnd
    | escaped q => exact hEnd
    | _ => rfl

/-- Blanks outside of quoted regions hold none. -/
theorem quotedFrom_of_blank {m : Mode} (hm : m.isQuoted = false) {s : List Char}
    (h : isBlankText s = true) : m.quotedFrom s = [] := by
  induction s generalizing m with
  | nil => rw [quotedFrom, hm, if_neg Bool.false_ne_true]
  | cons c rest ih =>
    obtain ⟨hc, hRest⟩ := Bool.and_eq_true_iff.mp h
    have hNext := isQuoted_next_of_not_quote hm (plain_next_of_isBlank hc).1
    rw [quotedFrom_cons_of_not hm hNext, ih hNext hRest]

/-- Texts in a row: the first one ends outside of quoted regions, and the second one does not
begin with a quote. -/
theorem Proper.quotedFrom_append {m : Mode} (h : Proper m) {s t : List Char}
    (hEnd : (m.after s).isQuoted = false)
    (hHead : ∀ c, t.head? = some c → Region.isQuote c = false) :
    m.quotedFrom (s ++ t) = m.quotedFrom s ++ (m.after s).quotedFrom t := by
  induction s generalizing m with
  | nil =>
    have hm : m.isQuoted = false := hEnd
    rw [quotedFrom, hm, if_neg Bool.false_ne_true]
    rfl
  | cons c rest ih =>
    have hRest := ih (h.next c) hEnd
    cases hNext : (m.next c).isQuoted with
    | true =>
      rw [List.cons_append, quotedFrom_cons_of_quoted hNext, quotedFrom_cons_of_quoted hNext, hRest]
      exact extendHead_append_right _ (quotedFrom_ne_nil hNext rest) _
    | false =>
      cases hm : m.isQuoted with
      | false =>
        rw [List.cons_append, quotedFrom_cons_of_not hm hNext, quotedFrom_cons_of_not hm hNext,
          hRest]
        rfl
      | true =>
        obtain ⟨rfl, hQuote⟩ := h.eq_quoted_of_closes hm hNext
        have hPlain : (quoted c).next c = plain := by simp [Mode.next]
        rw [hPlain] at hRest
        rw [List.cons_append, quotedFrom_quote, quotedFrom_quote, after_cons, hPlain, hRest]
        cases rest with
        | nil =>
          have hStop : t.head? ≠ some c := by
            intro hAgain
            rw [hHead c hAgain] at hQuote
            cases hQuote
          rw [List.nil_append, if_neg hStop, if_neg (by simp)]
          rfl
        | cons d more =>
          rw [List.cons_append, List.head?_cons, List.head?_cons]
          split
          · next hAgain =>
            obtain rfl := Option.some.inj hAgain
            have hOpen : plain.next d = quoted d := entry_of_isQuote hQuote
            refine extendHead_append_right _ ?_ _
            rw [quotedFrom_cons_of_quoted (by rw [hOpen]; rfl)]
            exact extendHead_ne_nil _ _
          · rfl

/-! ## Lines -/

/-- The lines that begin in a quoted region, among lines that are read from a mode on. -/
def continued (m : Mode) : List (List Char) → List (List Char)
  | [] => []
  | first :: more =>
    let below := continued ((m.after first).next '\n') more
    if m.isQuoted then first :: below else below

theorem continued_cons (m : Mode) (line : List Char) (more : List (List Char)) :
    m.continued (line :: more) =
      (if m.isQuoted then [line] else []) ++ ((m.after line).next '\n').continued more := by
  rw [continued]
  cases m.isQuoted <;> rfl

theorem AtLine.next_blank {m : Mode} (h : AtLine m) {c : Char} (hc : isBlank c = true) :
    m.next c = m := by
  have hOne : isBlankText [c] = true := by
    rw [isBlankText, List.all_cons, hc]
    rfl
  exact h.after_blank hOne

/-- Blanks that begin a line outside of quoted regions are in none. -/
theorem AtLine.quotedFrom_blank {m : Mode} (h : AtLine m) (hm : m.isQuoted = false)
    {run : List Char} (hRun : isBlankText run = true) (s : List Char) :
    m.quotedFrom (run ++ s) = m.quotedFrom s := by
  induction run with
  | nil => rfl
  | cons c rest ih =>
    obtain ⟨hc, hRest⟩ := Bool.and_eq_true_iff.mp hRun
    have hStay := h.next_blank hc
    rw [List.cons_append, quotedFrom_cons_of_not hm (by rw [hStay, hm]), hStay, ih hRest]

/-- Blanks that begin a line are quoted if the line begins in a quoted region. -/
theorem AtLine.countQuoted_blank {m : Mode} (h : AtLine m) {run : List Char}
    (hRun : isBlankText run = true) :
    m.countQuoted run = if m.isQuoted then run.length else 0 := by
  induction run with
  | nil => simp [countQuoted]
  | cons c rest ih =>
    obtain ⟨hc, hRest⟩ := Bool.and_eq_true_iff.mp hRun
    rw [countQuoted, h.next_blank hc, ih hRest, List.length_cons]
    cases m.isQuoted <;> simp [Nat.add_comm]

section Shifted

variable {lines : List (List Char)} {f : List Char → List Char}
  (hLines : ∀ line ∈ lines, ∃ run, line = run ++ f line ∧ run.all isIndent = true)

include hLines

/-- A line that loses indentation is read as before, unless it begins in a quoted region. -/
theorem AtLine.quotedFrom_line {m : Mode} (h : AtLine m) {line : List Char} (hMem : line ∈ lines)
    (hKept : m.isQuoted = true → f line = line) (s : List Char) :
    m.quotedFrom (f line ++ s) = m.quotedFrom (line ++ s) := by
  cases hm : m.isQuoted with
  | true => rw [hKept hm]
  | false =>
    obtain ⟨run, hLine, hRun⟩ := hLines line hMem
    have hBlank := h.quotedFrom_blank hm (isBlankText_of_indentation hRun) (f line ++ s)
    rw [← hBlank, ← List.append_assoc, ← hLine]

/-- A line has as many quoted characters without its indentation, unless it begins in a quoted
region. -/
theorem AtLine.countQuoted_line {m : Mode} (h : AtLine m) {line : List Char} (hMem : line ∈ lines) :
    m.countQuoted (f line) ≤ m.countQuoted line ∧
      (m.countQuoted line ≤ m.countQuoted (f line) → m.isQuoted = true → f line = line) := by
  obtain ⟨run, hLine, hRun⟩ := hLines line hMem
  have hBlank := isBlankText_of_indentation hRun
  have hCount : m.countQuoted line = m.countQuoted run + m.countQuoted (f line) := by
    conv => lhs; rw [hLine]
    rw [countQuoted_append, h.after_blank hBlank]
  refine ⟨by omega, fun hLe hm => ?_⟩
  rw [h.countQuoted_blank hBlank, hm, if_pos rfl] at hCount
  have hNil : run = [] := List.length_eq_zero_iff.mp (by omega)
  rw [hNil] at hLine
  exact hLine.symm

/-- Lines keep their quoted regions if those that begin in one keep their indentation. -/
theorem AtLine.quotedFrom_shifted {m : Mode} (h : AtLine m)
    (hKept : ∀ line ∈ m.continued lines, f line = line) :
    m.quotedFrom (joined (lines.map f)) = m.quotedFrom (joined lines) := by
  induction lines generalizing m with
  | nil => rfl
  | cons line more ih =>
    rw [continued_cons, List.forall_mem_append] at hKept
    have hFirst := h.quotedFrom_line hLines List.mem_cons_self fun hm => by
      simpa [hm] using hKept.1
    by_cases hMore : more = []
    · subst hMore
      have hAlone := hFirst []
      rw [List.append_nil, List.append_nil] at hAlone
      rwa [List.map_singleton, joined_singleton, joined_singleton]
    · have hProper := h.proper.after line
      have hBelow := ih (fun other hOther => hLines other (List.mem_cons_of_mem _ hOther))
        hProper.atLine hKept.2
      rw [List.map_cons, joined_cons (f line) (by simpa using hMore), joined_cons line hMore,
        hFirst]
      refine quotedFrom_append_congr line rfl ?_
      rw [hProper.quotedFrom_break, hProper.quotedFrom_break, hBelow]

/-- Lines that lose indentation have no more quoted characters than before, and as many only if
those that begin in a quoted region keep theirs. -/
theorem AtLine.countQuoted_shifted {m : Mode} (h : AtLine m) :
    m.countQuoted (joined (lines.map f)) ≤ m.countQuoted (joined lines) ∧
      (m.countQuoted (joined lines) ≤ m.countQuoted (joined (lines.map f)) →
        ∀ line ∈ m.continued lines, f line = line) := by
  induction lines generalizing m with
  | nil => exact ⟨Nat.le_refl _, fun _ line hMem => absurd hMem List.not_mem_nil⟩
  | cons line more ih =>
    obtain ⟨hLine, hLineKept⟩ := h.countQuoted_line hLines List.mem_cons_self
    have hSame := (h.after_line hLines List.mem_cons_self).1
    have hHead (hLe : m.countQuoted line ≤ m.countQuoted (f line)) :
        ∀ other ∈ if m.isQuoted then [line] else [], f other = other := by
      cases hm : m.isQuoted with
      | true => simpa using hLineKept hLe hm
      | false => exact fun other hMem => absurd hMem List.not_mem_nil
    rw [continued_cons, List.forall_mem_append]
    by_cases hMore : more = []
    · subst hMore
      rw [List.map_singleton, joined_singleton, joined_singleton]
      exact ⟨hLine, fun hLe => ⟨hHead hLe, fun other hMem => absurd hMem List.not_mem_nil⟩⟩
    · obtain ⟨hBelow, hBelowKept⟩ := ih
        (fun other hOther => hLines other (List.mem_cons_of_mem _ hOther))
        (h.proper.after line).atLine
      rw [List.map_cons, joined_cons (f line) (by simpa using hMore), joined_cons line hMore,
        countQuoted_append, countQuoted_append, countQuoted, countQuoted, hSame]
      exact ⟨by omega, fun hLe => ⟨hHead (by omega), hBelowKept (by omega)⟩⟩

end Shifted

end Mode

open Mode

/-! ## Statements -/

namespace Layout

/-- Do the lines of a statement that begin in a quoted region keep their indentation? -/
def keepsQuoted (piece : List Char) : Bool :=
  let lines := trimLines (Identifier.parts '\n' piece)
  (Mode.plain.continued lines).all fun line => shift (margin lines).length line == line

/-- The quoted regions of a statement stand in the lines that are left when blank ones are dropped
at both ends. -/
theorem quotedFrom_frame {piece : List Char} (frame : Frame piece)
    (hClosed : (modeAfter piece).isQuoted = false) :
    plain.quotedFrom piece = plain.quotedFrom (joined frame.lines) := by
  have hAbove := AtLine.plain.after_blank frame.blank_above
  have hBelow := isBlankText_breaks frame.blank_back
  have hHead : ∀ c, (frame.back.flatMap ('\n' :: ·)).head? = some c → Region.isQuote c = false := by
    intro c hc
    exact (plain_next_of_isBlank (List.all_eq_true.mp hBelow c (List.mem_of_mem_head? hc))).1
  have hProper : Proper (plain.after (joined frame.lines)) := AtLine.plain.proper.after _
  have hEnd : (plain.after (joined frame.lines)).isQuoted = false := by
    rw [modeAfter, frame.piece_eq, after_append, after_append, hAbove] at hClosed
    exact hProper.isQuoted_of_blank_lines frame.blank_back hClosed
  conv => lhs; rw [frame.piece_eq]
  rw [AtLine.plain.quotedFrom_blank rfl frame.blank_above,
    AtLine.plain.proper.quotedFrom_append hEnd hHead, quotedFrom_of_blank hEnd hBelow,
    List.append_nil]

/-- A statement keeps its quoted regions if the lines that begin in one keep their indentation. -/
theorem quotedFrom_endent {piece : List Char} (hClosed : (modeAfter piece).isQuoted = false)
    (hKept : keepsQuoted piece = true) :
    plain.quotedFrom (endent piece) = plain.quotedFrom piece := by
  rcases blank_or_framed piece with ⟨hBlank, hLines⟩ | ⟨frame, hLines⟩
  · rw [endent_eq, hLines, quotedFrom_of_blank rfl hBlank]
    rfl
  · rw [keepsQuoted, ← hLines] at hKept
    rw [quotedFrom_frame frame hClosed, frame.endent_eq, dedent_eq]
    refine AtLine.plain.quotedFrom_shifted (fun line hLine => exists_run_of_mem hLine) ?_
    intro line hLine
    exact beq_iff_eq.mp (List.all_eq_true.mp hKept line hLine)

/-- A statement has no more quoted characters than before, and as many only if the lines that
begin in a quoted region keep their indentation. -/
theorem countQuoted_endent {piece : List Char} (hClosed : (modeAfter piece).isQuoted = false) :
    plain.countQuoted (endent piece) ≤ plain.countQuoted piece ∧
      (plain.countQuoted piece ≤ plain.countQuoted (endent piece) → keepsQuoted piece = true) := by
  rcases blank_or_framed piece with ⟨hBlank, hLines⟩ | ⟨frame, hLines⟩
  · rw [endent_eq, keepsQuoted, hLines]
    exact ⟨Nat.zero_le _, fun _ => rfl⟩
  · rw [keepsQuoted, ← hLines]
    have hCount := congrArg (fun regions => regions.flatten.length) (quotedFrom_frame frame hClosed)
    simp only [length_flatten_quotedFrom] at hCount
    rw [hCount, frame.endent_eq, dedent_eq]
    obtain ⟨hLe, hKept⟩ :=
      AtLine.plain.countQuoted_shifted fun line hLine => exists_run_of_mem hLine
    refine ⟨hLe, fun hGe => List.all_eq_true.mpr fun line hLine => ?_⟩
    exact beq_iff_eq.mpr (hKept hGe line hLine)

end Layout

/-! ## Texts -/

/-- The quoted regions of texts that are joined by a separator behind which the scan is outside. -/
theorem quotedFrom_intercalate {separator : List Char} (hHead : separator.head? = some ';')
    {texts : List (List Char)}
    (h : ∀ text ∈ texts.dropLast, (modeAfter text).isQuoted = false ∧
      ∀ s, (modeAfter text).quotedFrom (separator ++ s) = plain.quotedFrom s) :
    plain.quotedFrom (List.intercalate separator texts) = texts.flatMap plain.quotedFrom := by
  match texts with
  | [] => rfl
  | [text] => simp
  | text :: next :: more =>
    rw [List.dropLast_cons_of_ne_nil (by simp), List.forall_mem_cons] at h
    obtain ⟨⟨hEnd, hSeparator⟩, hMore⟩ := h
    have ih := quotedFrom_intercalate hHead hMore
    have hStart : ∀ s c, (separator ++ s).head? = some c → Region.isQuote c = false := by
      intro s c hc
      rw [List.head?_append, hHead] at hc
      obtain rfl := Option.some.inj hc
      decide
    rw [List.intercalate_cons_of_ne_nil (by simp), List.append_assoc,
      AtLine.plain.proper.quotedFrom_append hEnd (hStart _), List.flatMap_cons, ← ih]
    exact congrArg _ (hSeparator _)

theorem length_flatten_flatMap (texts : List (List Char)) (f : List Char → List Char) :
    (texts.flatMap fun text => plain.quotedFrom (f text)).flatten.length =
      (texts.map fun text => plain.countQuoted (f text)).sum := by
  induction texts with
  | nil => rfl
  | cons text more ih =>
    rw [List.flatMap_cons, List.flatten_append, List.length_append, ih, length_flatten_quotedFrom,
      List.map_cons, List.sum_cons]

/-- Does a text close every quoted region that it opens? -/
def closesQuotes (s : List Char) : Bool :=
  !(modeAfter s).isQuoted

/-- The statements of a text that closes every quoted region close theirs. -/
theorem isQuoted_modeAfter_statement {sql : List Char} (hClosed : closesQuotes sql = true)
    {piece : List Char} (hPiece : piece ∈ statements sql) : (modeAfter piece).isQuoted = false := by
  have hNe := Mode.split_ne_nil .plain sql
  have hPieces := Mode.arePieces_split .plain sql
  rw [statements_eq_split, ← List.dropLast_concat_getLast hNe, List.mem_append] at hPiece
  rcases hPiece with hFront | hLast
  · exact isQuoted_of_isOutside (hPieces.endsOutside piece hFront)
  · rw [List.mem_singleton.mp hLast, ← hPieces.modeAfter_intercalate hNe, Mode.intercalate_split]
    simpa [closesQuotes] using hClosed

theorem quotedRegions_eq_flatMap (sql : List Char) :
    quotedRegions sql = (statements sql).flatMap plain.quotedFrom := by
  have hPieces := Mode.arePieces_split .plain sql
  rw [quotedRegions_eq, statements_eq_split]
  conv => lhs; rw [← Mode.intercalate_split .plain sql]
  refine quotedFrom_intercalate rfl fun piece hPiece => ?_
  have hOut := hPieces.endsOutside piece hPiece
  refine ⟨isQuoted_of_isOutside hOut, fun s => ?_⟩
  have hNext := Mode.next_semicolon hOut
  rw [List.singleton_append, quotedFrom_cons_of_not (isQuoted_of_isOutside hOut) (by rw [hNext]; rfl),
    hNext]

/-- The separator that layout writes begins outside or ends a comment. -/
theorem quotedRegions_layout (sql : List Char) :
    quotedRegions (layout sql) =
      (statements sql).flatMap fun piece => plain.quotedFrom (endent piece) := by
  have hPieces := Mode.arePieces_split .plain sql
  rw [quotedRegions_eq, layout_eq, assembled, statements_eq_split, ← List.flatMap_map]
  refine quotedFrom_intercalate rfl fun text hText => ?_
  rw [← List.map_dropLast] at hText
  obtain ⟨piece, hPiece, rfl⟩ := List.mem_map.mp hText
  rcases endsOutside_endent (hPieces.endsOutside piece hPiece) with hOut | hLine
  · refine ⟨isQuoted_of_isOutside hOut, fun s => ?_⟩
    have hNext := Mode.next_semicolon hOut
    rw [List.cons_append, quotedFrom_cons_of_not (isQuoted_of_isOutside hOut) (by rw [hNext]; rfl),
      hNext]
    rfl
  · rw [hLine]
    exact ⟨rfl, fun s => rfl⟩

/-- Do all lines that begin in a quoted region keep their indentation under layout? -/
def keepsQuoted (sql : List Char) : Bool :=
  (statements sql).all Layout.keepsQuoted

/-- Layout keeps the quoted regions of a text that closes all of them exactly if the lines that
begin in one keep their indentation. -/
theorem quotedRegions_layout_iff {sql : List Char} (hClosed : closesQuotes sql = true) :
    quotedRegions (layout sql) = quotedRegions sql ↔ keepsQuoted sql = true := by
  have hPieces : ∀ piece ∈ statements sql, (modeAfter piece).isQuoted = false :=
    fun piece hPiece => isQuoted_modeAfter_statement hClosed hPiece
  rw [quotedRegions_layout, quotedRegions_eq_flatMap, keepsQuoted, List.all_eq_true]
  constructor
  · intro hSame
    have hLe : ∀ piece ∈ statements sql,
        plain.countQuoted (endent piece) ≤ plain.countQuoted piece := fun piece hPiece =>
      (countQuoted_endent (hPieces piece hPiece)).1
    have hSum : ((statements sql).map fun piece => plain.countQuoted (endent piece)).sum =
        ((statements sql).map fun piece => plain.countQuoted piece).sum := by
      rw [← length_flatten_flatMap, ← length_flatten_flatMap, hSame]
    intro piece hPiece
    refine (countQuoted_endent (hPieces piece hPiece)).2 (Nat.le_of_not_lt fun hLt => ?_)
    exact absurd hSum (List.sum_lt_sum _ _ hLe ⟨piece, hPiece, hLt⟩).ne
  · intro hKept
    refine List.flatMap_congr fun piece hPiece => ?_
    exact quotedFrom_endent (hPieces piece hPiece) (hKept piece hPiece)

/-- A region over two lines is kept in a statement that begins at the left margin. -/
theorem quotedRegions_layout_flush :
    closesQuotes "SELECT 'a\n  b';\n  SELECT 1".toList = true ∧
      quotedRegions (layout "SELECT 'a\n  b';\n  SELECT 1".toList) =
        quotedRegions "SELECT 'a\n  b';\n  SELECT 1".toList := by
  have hClosed : closesQuotes "SELECT 'a\n  b';\n  SELECT 1".toList = true := by decide
  refine ⟨hClosed, (quotedRegions_layout_iff hClosed).mpr ?_⟩
  rw [keepsQuoted, statements_eq_split]
  decide

/-- The margin of a statement that is indented comes off the lines of its quoted regions too. -/
theorem quotedRegions_layout_ne :
    closesQuotes "  SELECT '\n    a'".toList = true ∧
      layout "  SELECT '\n    a'".toList = "SELECT '\n  a'".toList ∧
        quotedRegions (layout "  SELECT '\n    a'".toList) ≠
          quotedRegions "  SELECT '\n    a'".toList := by
  have hLayout : layout "  SELECT '\n    a'".toList = "SELECT '\n  a'".toList := by
    rw [layout, statements_eq_split]
    decide
  refine ⟨by decide, hLayout, ?_⟩
  rw [hLayout, quotedRegions_eq, quotedRegions_eq]
  decide

end SqlWeave.Sql
