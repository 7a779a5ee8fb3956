import SqlWeave.Proofs.Layout.Endent
import SqlWeave.Proofs.Scan.Pieces

/-!
# Statement boundaries under layout

Layout takes away blank lines and indentation, which never decide how a scan goes on, and
puts a semicolon and two line breaks between statements.  The semicolon separates again
unless the scan of the laid-out statement ends in a comment: a statement that ends in a
line comment loses the line break that closed it, and the semicolon falls into the comment.

## Main results

* `modeAfter_endent`: where the scan of a laid-out statement ends.
* `length_statements_layout`: how many statements a laid-out text has.
* `layout_keeps_statements`: layout keeps the statements exactly if no statement but the
  last one ends in a line comment.
-/

namespace SqlWeave.Sql

open Text

namespace Mode

/-! ## The start of a line -/

/-- The modes in which a line can begin. -/
inductive AtLine : Mode → Prop
  | plain : AtLine plain
  | block : AtLine block
  | quoted {q : Char} (hq : Region.isQuote q = true) : AtLine (quoted q)

/-- A mode that a scan can be in: quoted regions have quotes. -/
def Proper : Mode → Prop
  | quoted q | escaped q => Region.isQuote q = true
  | _ => True

theorem AtLine.proper {m : Mode} (h : AtLine m) : Proper m := by
  cases h with
  | plain => exact trivial
  | block => exact trivial
  | quoted hq => exact hq

theorem Proper.next {m : Mode} (h : Proper m) (c : Char) : Proper (m.next c) := by
  have hEntry : Proper (entry c) := by
    unfold entry
    split
    · assumption
    · repeat' split
      all_goals exact trivial
  cases m <;> simp only [Mode.next] <;> (repeat' split) <;> first | exact trivial | assumption

theorem Proper.after {m : Mode} (h : Proper m) (s : List Char) : Proper (m.after s) := by
  induction s generalizing m with
  | nil => exact h
  | cons c rest ih => exact ih (h.next c)

theorem quoted_next_of_not_quote {q c : Char} (hq : Region.isQuote q = true)
    (hc : Region.isQuote c = false) (hEscape : c ≠ '\\') : (quoted q).next c = quoted q := by
  have hNe : c ≠ q := by
    rintro rfl
    exact Bool.false_ne_true (hc.symm.trans hq)
  simp [Mode.next, hNe, hEscape]

/-- Behind a line break, a line begins. -/
theorem Proper.atLine {m : Mode} (h : Proper m) : AtLine (m.next '\n') := by
  cases m with
  | plain => exact .plain
  | dash => exact .plain
  | slash => exact .plain
  | line => exact .plain
  | block => exact .block
  | star => exact .block
  | escaped q => exact .quoted h
  | quoted q =>
    rw [quoted_next_of_not_quote h (by decide) (by decide)]
    exact .quoted h

theorem plain_next_of_isBlank {c : Char} (h : isBlank c = true) :
    Region.isQuote c = false ∧ c ≠ '\\' ∧ c ≠ '*' ∧ plain.next c = plain := by
  have hNe : ∀ d, isBlank d = false → c ≠ d := by
    rintro d hd rfl
    exact Bool.false_ne_true (hd.symm.trans h)
  have hQuote : Region.isQuote c = false := by
    simp [Region.isQuote, backquote, hNe '\x27' (by decide), hNe '\x22' (by decide),
      hNe '\x60' (by decide)]
  refine ⟨hQuote, hNe '\\' (by decide), hNe '*' (by decide), ?_⟩
  simp [Mode.next, entry, hQuote, hNe '-' (by decide), hNe '/' (by decide)]

/-- Where a line begins, a blank text is read as nothing. -/
theorem AtLine.after_blank {m : Mode} (h : AtLine m) {s : List Char}
    (hBlank : isBlankText s = true) : m.after s = m := by
  induction s with
  | nil => rfl
  | cons c rest ih =>
    obtain ⟨hc, hRest⟩ := Bool.and_eq_true_iff.mp hBlank
    obtain ⟨hQuote, hEscape, hStar, hPlain⟩ := plain_next_of_isBlank hc
    have hStay : m.next c = m := by
      cases h with
      | plain => exact hPlain
      | block => simp [Mode.next, hStar]
      | quoted hq => exact quoted_next_of_not_quote hq hQuote hEscape
    rw [after_cons, hStay, ih hRest]

section Shifted

variable {lines : List (List Char)} {f : List Char → List Char}
  (hLines : ∀ line ∈ lines, ∃ run, line = run ++ f line ∧ run.all Layout.isIndent = true)

include hLines

/-- Where a line begins, its indentation is read as nothing. -/
theorem AtLine.after_line {m : Mode} (h : AtLine m) {line : List Char} (hMem : line ∈ lines) :
    m.after (f line) = m.after line ∧ (m.split line = [line] → m.split (f line) = [f line]) := by
  obtain ⟨run, hLine, hRun⟩ := hLines line hMem
  have hStay : m.after run = m := h.after_blank (Layout.isBlankText_of_indentation hRun)
  refine ⟨?_, fun hOne => ?_⟩
  · conv => rhs; rw [hLine]
    rw [after_append, hStay]
  · rw [hLine, single_append, hStay] at hOne
    exact hOne.2

/-- Lines that lose indentation are read as before. -/
theorem AtLine.after_shifted {m : Mode} (h : AtLine m) :
    m.after (Layout.joined (lines.map f)) = m.after (Layout.joined lines) ∧
      (m.split (Layout.joined lines) = [Layout.joined lines] →
        m.split (Layout.joined (lines.map f)) = [Layout.joined (lines.map f)]) := by
  induction lines generalizing m with
  | nil => exact ⟨rfl, id⟩
  | cons line more ih =>
    obtain ⟨hAfter, hPiece⟩ := h.after_line hLines (List.mem_cons_self)
    by_cases hMore : more = []
    · subst hMore
      rw [List.map_singleton, Layout.joined_singleton, Layout.joined_singleton]
      exact ⟨hAfter, hPiece⟩
    · obtain ⟨hAfterMore, hPieceMore⟩ := ih
        (fun other hOther => hLines other (List.mem_cons_of_mem _ hOther))
        (h.proper.after line).atLine
      rw [List.map_cons, Layout.joined_cons (f line) (by simpa using hMore),
        Layout.joined_cons line hMore, single_append, single_append, single_cons, single_cons,
        after_append, after_append, after_cons, after_cons, hAfter]
      exact ⟨hAfterMore, fun hOne => ⟨hPiece hOne.1, hOne.2.1, hPieceMore hOne.2.2⟩⟩

end Shifted

/-! ## Blanks -/

/-- A blank that ends no line neither begins nor ends a line comment. -/
theorem next_eq_line_iff {m : Mode} {c : Char} (hBlank : isBlank c = true) (hBreak : c ≠ '\n') :
    m.next c = line ↔ m = line := by
  have hDash : c ≠ '-' := by
    rintro rfl
    exact absurd hBlank (by decide)
  have hEntry : entry c = plain := (plain_next_of_isBlank hBlank).2.2.2
  cases m <;> simp only [Mode.next, hEntry] <;> (try split) <;> simp_all
  all_goals (try split) <;> simp

theorem after_eq_line_iff {m : Mode} {s : List Char} (hBlank : isBlankText s = true)
    (hBreak : '\n' ∉ s) : m.after s = line ↔ m = line := by
  induction s generalizing m with
  | nil => exact Iff.rfl
  | cons c rest ih =>
    obtain ⟨hc, hRest⟩ := Bool.and_eq_true_iff.mp hBlank
    rw [List.mem_cons, not_or] at hBreak
    rw [after_cons, ih hRest hBreak.2, next_eq_line_iff hc (Ne.symm hBreak.1)]

/-- Behind blank lines a scan stands as behind their first line break. -/
theorem Proper.after_blank_lines {m : Mode} (h : Proper m) {lines : List (List Char)}
    (hLines : lines ≠ []) (hBlank : ∀ line ∈ lines, isBlankText line = true) :
    m.after (lines.flatMap ('\n' :: ·)) = m.next '\n' := by
  cases lines with
  | nil => exact absurd rfl hLines
  | cons first more =>
    have hRest : isBlankText (first ++ more.flatMap ('\n' :: ·)) = true := by
      rw [← Layout.isBlankText_break]
      exact Layout.isBlankText_breaks hBlank
    rw [List.flatMap_cons, List.cons_append, after_cons, h.atLine.after_blank hRest]

/-- Blank lines at the end of a text end nothing but a line comment. -/
theorem isOutside_or_line_of_blank_lines {m : Mode} (hProper : Proper m)
    {lines : List (List Char)} (hBlank : ∀ line ∈ lines, isBlankText line = true)
    (h : (m.after (lines.flatMap ('\n' :: ·))).isOutside = true) :
    m.isOutside = true ∨ m = line := by
  by_cases hNil : lines = []
  · rw [hNil] at h
    exact .inl h
  · rw [hProper.after_blank_lines hNil hBlank] at h
    cases m with
    | plain => exact .inl rfl
    | dash => exact .inl rfl
    | slash => exact .inl rfl
    | line => exact .inr rfl
    | block => exact absurd h (by decide)
    | star => exact absurd h (by decide)
    | escaped q => exact absurd h (by simp [Mode.next, isOutside])
    | quoted q =>
      rw [quoted_next_of_not_quote hProper (by decide) (by decide)] at h
      exact absurd h (by simp [isOutside])

end Mode

/-! ## The end of a laid-out statement -/

namespace Layout

open Mode

/-- Is the last text of a statement a line comment? -/
def endsInComment (piece : List Char) : Bool :=
  modeAfter (trimEnd piece) == .line

/-- A statement that is one piece stays one. -/
theorem single_endent {piece : List Char} (h : plain.split piece = [piece]) :
    plain.split (endent piece) = [endent piece] := by
  rcases blank_or_frame piece with ⟨-, hEndent⟩ | ⟨⟨frame⟩⟩
  · rw [hEndent, split_nil]
  · have hAbove := AtLine.plain.after_blank frame.blank_above
    rw [frame.piece_eq, single_append, single_append, hAbove] at h
    rw [frame.endent_eq, dedent_eq]
    exact (AtLine.plain.after_shifted fun line hLine => exists_run_of_mem hLine).2 h.2.1

/-- The scan of a laid-out statement ends where the scan of its lines ends. -/
theorem modeAfter_endent {piece : List Char} (frame : Frame piece) :
    modeAfter (endent piece) = modeAfter (joined frame.lines) := by
  rw [frame.endent_eq, dedent_eq]
  exact (AtLine.plain.after_shifted fun line hLine => exists_run_of_mem hLine).1

/-- A laid-out statement ends in a comment if its text did: only blanks of the last line stand
between the trimmed text and the end of the lines. -/
theorem modeAfter_endent_eq_line_iff (piece : List Char) :
    modeAfter (endent piece) = .line ↔ endsInComment piece = true := by
  rw [endsInComment, beq_iff_eq]
  rcases blank_or_frame piece with ⟨hBlank, hEndent⟩ | ⟨⟨frame⟩⟩
  · have hTrim : trimEnd piece = [] := trimEnd_append_blank [] hBlank
    rw [hEndent, hTrim]
  · have hAbove := AtLine.plain.after_blank frame.blank_above
    have hBelow := isBlankText_breaks frame.blank_back
    obtain ⟨front, last, hJoined, hLast, hBreak⟩ := frame.exists_last
    obtain ⟨blanks, hSplit, hBlanks⟩ := exists_trimEnd_append last
    have hTrim := congrArg trimEnd frame.piece_eq
    rw [← List.append_assoc, trimEnd_append_blank _ hBelow, hJoined, ← List.append_assoc,
      trimEnd_append _ hLast, List.append_assoc] at hTrim
    have hMode : plain.after (front ++ last) =
        (plain.after (front ++ trimEnd last)).after blanks := by
      rw [← after_append, List.append_assoc, ← hSplit]
    have hUnbroken : '\n' ∉ blanks := by
      intro hMem
      exact hBreak (hSplit ▸ List.mem_append_right _ hMem)
    rw [modeAfter_endent frame, hTrim, modeAfter, modeAfter, after_append, hAbove, hJoined,
      hMode, after_eq_line_iff hBlanks hUnbroken]

/-- A statement that a semicolon ends is laid out to one that a semicolon ends, or to one
that ends in a line comment. -/
theorem endsOutside_endent {piece : List Char} (h : endsOutside piece = true) :
    endsOutside (endent piece) = true ∨ modeAfter (endent piece) = .line := by
  rcases blank_or_frame piece with ⟨-, hEndent⟩ | ⟨⟨frame⟩⟩
  · rw [hEndent]
    exact .inl rfl
  · have hAbove := AtLine.plain.after_blank frame.blank_above
    rw [endsOutside, modeAfter, frame.piece_eq, after_append, after_append, hAbove] at h
    rw [endsOutside, modeAfter_endent frame]
    exact isOutside_or_line_of_blank_lines (AtLine.plain.proper.after _) frame.blank_back h

theorem endsOutside_endent_of_not_endsInComment {piece : List Char}
    (h : endsOutside piece = true) (hComment : endsInComment piece = false) :
    endsOutside (endent piece) = true := by
  rcases endsOutside_endent h with hOut | hLine
  · exact hOut
  · exact absurd ((modeAfter_endent_eq_line_iff piece).mp hLine) (by simp [hComment])

end Layout

open Layout

/-! ## The statements of a laid-out text -/

/-- Statements as one text. -/
def assembled (pieces : List (List Char)) : List Char :=
  List.intercalate [';', '\n', '\n'] pieces

theorem layout_eq (sql : List Char) : layout sql = assembled ((statements sql).map endent) := rfl

theorem assembled_cons (piece : List Char) {pieces : List (List Char)} (h : pieces ≠ []) :
    assembled (piece :: pieces) = piece ++ ';' :: '\n' :: '\n' :: assembled pieces := by
  rw [assembled, List.intercalate_cons_of_ne_nil h, List.append_assoc]
  rfl

/-- Behind a statement whose scan ends outside, the semicolon separates. -/
theorem split_assembled_of_outside {piece : List Char} {pieces : List (List Char)}
    (hSingle : Mode.plain.split piece = [piece]) (hOut : endsOutside piece = true)
    (hMore : pieces ≠ []) :
    Mode.plain.split (assembled (piece :: pieces)) =
      piece :: extendHead ['\n', '\n'] (Mode.plain.split (assembled pieces)) := by
  have hMode : (Mode.plain.after piece).isOutside = true := hOut
  have hBreaks : Mode.plain.split ['\n', '\n'] = [['\n', '\n']] := rfl
  rw [assembled_cons piece hMore, Mode.split_append_of_single hSingle,
    Mode.split_semicolon hMode, extendHead_cons, List.append_nil]
  show _ :: Mode.plain.split (['\n', '\n'] ++ assembled pieces) = _
  rw [Mode.split_append_of_single hBreaks]
  rfl

/-- Behind a statement that ends in a comment, the semicolon falls into the comment. -/
theorem split_assembled_of_line {piece : List Char} {pieces : List (List Char)}
    (hSingle : Mode.plain.split piece = [piece]) (hLine : modeAfter piece = .line)
    (hMore : pieces ≠ []) :
    Mode.plain.split (assembled (piece :: pieces)) =
      extendHead piece (extendHead [';', '\n', '\n'] (Mode.plain.split (assembled pieces))) := by
  have hMode : Mode.plain.after piece = .line := hLine
  have hBreaks : Mode.line.split [';', '\n', '\n'] = [[';', '\n', '\n']] := rfl
  rw [assembled_cons piece hMore, Mode.split_append_of_single hSingle, hMode]
  show extendHead piece (Mode.line.split ([';', '\n', '\n'] ++ assembled pieces)) = _
  rw [Mode.split_append_of_single hBreaks]
  rfl

theorem length_extendHead (front : List Char) {pieces : List (List Char)} (h : pieces ≠ []) :
    (extendHead front pieces).length = pieces.length := by
  cases pieces with
  | nil => exact absurd rfl h
  | cons piece pieces => rfl

/-- How many statements are left when laid-out statements are put together: those that end
in a comment go on with the next one. -/
theorem length_split_assembled {pieces : List (List Char)} (h : Mode.plain.ArePieces pieces) :
    (Mode.plain.split (assembled (pieces.map endent))).length =
      (pieces.dropLast.filter (!endsInComment ·)).length + 1 := by
  match pieces, h with
  | [piece], h =>
    rw [List.map_singleton, assembled, List.intercalate_singleton, single_endent h]
    rfl
  | piece :: next :: more, ⟨hSingle, hOut, hMore⟩ =>
    have ih := length_split_assembled hMore
    have hNe : (next :: more).map endent ≠ [] := by simp
    have hSplit := Mode.split_ne_nil .plain (assembled ((next :: more).map endent))
    rw [List.map_cons, List.dropLast_cons_of_ne_nil (by simp)]
    cases hComment : endsInComment piece with
    | true =>
      have hLine := (modeAfter_endent_eq_line_iff piece).mpr hComment
      rw [split_assembled_of_line (single_endent hSingle) hLine hNe, length_extendHead _ (by simp),
        length_extendHead _ hSplit, ih, List.filter_cons_of_neg (by simp [hComment])]
    | false =>
      have hOutside := endsOutside_endent_of_not_endsInComment hOut hComment
      rw [split_assembled_of_outside (single_endent hSingle) hOutside hNe, List.length_cons,
        length_extendHead _ hSplit, ih, List.filter_cons_of_pos (by simp [hComment]),
        List.length_cons]

/-- Line breaks in front of the first statement do not show. -/
theorem map_endent_extendHead {pieces : List (List Char)} (h : pieces ≠ []) :
    (extendHead ['\n', '\n'] pieces).map endent = pieces.map endent := by
  cases pieces with
  | nil => exact absurd rfl h
  | cons piece pieces =>
    show endent ('\n' :: '\n' :: piece) :: _ = _
    rw [endent_break, endent_break, List.map_cons]

/-- Laid-out statements that do not end in a comment are the statements of the text that
they are put together to, up to layout. -/
theorem map_endent_split_assembled {pieces : List (List Char)} (h : Mode.plain.ArePieces pieces)
    (hComments : ∀ piece ∈ pieces.dropLast, endsInComment piece = false) :
    (Mode.plain.split (assembled (pieces.map endent))).map endent = pieces.map endent := by
  match pieces, h with
  | [piece], h =>
    rw [List.map_singleton, assembled, List.intercalate_singleton, single_endent h,
      List.map_singleton, endent_endent]
  | piece :: next :: more, ⟨hSingle, hOut, hMore⟩ =>
    rw [List.dropLast_cons_of_ne_nil (by simp)] at hComments
    have ih := map_endent_split_assembled hMore fun other hOther =>
      hComments other (List.mem_cons_of_mem _ hOther)
    have hOutside := endsOutside_endent_of_not_endsInComment hOut
      (hComments piece List.mem_cons_self)
    have hSplit := Mode.split_ne_nil .plain (assembled ((next :: more).map endent))
    rw [List.map_cons, split_assembled_of_outside (single_endent hSingle) hOutside (by simp),
      List.map_cons, endent_endent, map_endent_extendHead hSplit, ih, List.map_cons]

/-- How many statements a laid-out text has. -/
theorem length_statements_layout (sql : List Char) :
    (statements (layout sql)).length =
      ((statements sql).dropLast.filter (!endsInComment ·)).length + 1 := by
  rw [statements_eq_split, layout_eq, statements_eq_split,
    length_split_assembled (Mode.arePieces_split .plain sql)]

/-- Does no statement but the last one end in a line comment? -/
def separatesComments (sql : List Char) : Bool :=
  (statements sql).dropLast.all (!endsInComment ·)

/-- Layout keeps the number of statements, and every statement up to layout, exactly if no
statement but the last one ends in a line comment; it is idempotent then. -/
theorem layout_keeps_statements (sql : List Char) :
    ((statements (layout sql)).length = (statements sql).length ↔
        separatesComments sql = true) ∧
      ((statements (layout sql)).map endent = (statements sql).map endent ↔
        separatesComments sql = true) ∧
      (separatesComments sql = true → layout (layout sql) = layout sql) := by
  have hLength : (statements (layout sql)).length = (statements sql).length ↔
      separatesComments sql = true := by
    have hNe : statements sql ≠ [] := by
      rw [statements_eq_split]
      exact Mode.split_ne_nil .plain sql
    have hPos := List.length_pos_iff.mpr hNe
    have hFilter := List.length_filter_eq_length_iff (p := (!endsInComment ·))
      (l := (statements sql).dropLast)
    rw [length_statements_layout, separatesComments, List.all_eq_true, ← hFilter,
      List.length_dropLast]
    omega
  have hMap : separatesComments sql = true →
      (statements (layout sql)).map endent = (statements sql).map endent := by
    intro hComments
    rw [statements_eq_split, layout_eq, statements_eq_split]
    refine map_endent_split_assembled (Mode.arePieces_split .plain sql) fun piece hPiece => ?_
    rw [← statements_eq_split] at hPiece
    simpa using List.all_eq_true.mp hComments piece hPiece
  refine ⟨hLength, ⟨fun h => ?_, hMap⟩, fun hComments => ?_⟩
  · rw [← hLength, ← List.length_map endent, h, List.length_map]
  · rw [layout_eq (layout sql), hMap hComments, ← layout_eq]

/-- The line break that closes a comment is trimmed, and the semicolon behind it goes into
the comment: two statements become one, and what was laid out changes once more. -/
theorem layout_merges_statements :
    (statements (layout "SELECT 1 -- a\n; SELECT 2".toList)).length ≠
        (statements "SELECT 1 -- a\n; SELECT 2".toList).length ∧
      layout (layout "SELECT 1 -- a\n;".toList) ≠ layout "SELECT 1 -- a\n;".toList := by
  simp only [layout, statements_eq_split]
  decide

end SqlWeave.Sql
