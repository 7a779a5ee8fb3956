import SqlWeave.Sql.Statement
import SqlWeave.Proofs.Layout.Lines

/-!
# Statements at the left margin

Laying a statement out a second time changes nothing: what is trimmed stays trimmed, and
lines that were shifted to the left margin share no indentation any more.

## Main results

* `dedent_dedent`: shifting lines to the left margin is idempotent.
* `exists_run_of_mem`: a line loses nothing but indentation.
* `endent_endent`: laying a statement out is idempotent.
-/

namespace SqlWeave.Sql.Layout

open Text

/-! ## Trimmed lines -/

/-- Lines that neither begin nor end with a blank one. -/
structure Trimmed (lines : List (List Char)) : Prop where
  head : ∀ line, lines.head? = some line → isBlankText line = false
  last : ∀ line, lines.getLast? = some line → isBlankText line = false

theorem trimLines_eq (lines : List (List Char)) :
    trimLines lines = (lines.dropWhile isBlankText).rdropWhile isBlankText := rfl

theorem trimLines_of_trimmed {lines : List (List Char)} (h : Trimmed lines) :
    trimLines lines = lines := by
  have hLast : lines.rdropWhile isBlankText = lines := by
    rw [List.rdropWhile_eq_self_iff]
    intro hNe
    simp [h.last _ (List.getLast?_eq_some_getLast hNe)]
  rw [trimLines_eq, dropWhile_of_stop h.head, hLast]

theorem trimmed_trimLines (lines : List (List Char)) : Trimmed (trimLines lines) := by
  refine ⟨fun line hLine => ?_, fun line hLine => of_getLast?_rdropWhile hLine⟩
  have hPrefix : trimLines lines <+: lines.dropWhile isBlankText := List.rdropWhile_prefix _ _
  obtain ⟨rest, hRest⟩ := hPrefix
  obtain ⟨more, hMore⟩ := List.head?_eq_some_iff.mp hLine
  have hHead := List.head?_dropWhile_not isBlankText lines
  rw [← hRest, hMore] at hHead
  simpa using hHead

/-- Trimming takes blank lines off both ends. -/
theorem exists_trimLines (lines : List (List Char)) :
    ∃ front back, lines = front ++ trimLines lines ++ back ∧
      (∀ line ∈ front, isBlankText line = true) ∧ ∀ line ∈ back, isBlankText line = true := by
  refine ⟨lines.takeWhile isBlankText, (lines.dropWhile isBlankText).rtakeWhile isBlankText, ?_,
    fun line hLine => List.all_eq_true.mp List.all_takeWhile line hLine,
    fun line hLine => List.mem_rtakeWhile_imp hLine⟩
  rw [trimLines_eq, List.append_assoc, List.rdropWhile_append_rtakeWhile,
    List.takeWhile_append_dropWhile]

/-- A blank line in front is trimmed. -/
theorem trimLines_cons_nil (lines : List (List Char)) : trimLines ([] :: lines) = trimLines lines :=
  rfl

/-! ## The margin -/

theorem commonStart_starts (s t : List Char) : commonStart s t <+: s ∧ commonStart s t <+: t := by
  fun_induction commonStart s t with
  | case1 c s d t hc ih =>
    rw [beq_iff_eq.mp hc]
    exact ⟨(List.prefix_cons_inj d).mpr ih.1, (List.prefix_cons_inj d).mpr ih.2⟩
  | case2 => exact ⟨ List.nil_prefix, List.nil_prefix⟩
  | case3 => exact ⟨ List.nil_prefix, List.nil_prefix⟩

/-- The common start is a start of every text. -/
theorem commonStarts_starts {texts : List (List Char)} {s : List Char} (h : s ∈ texts) :
    commonStarts texts <+: s := by
  fun_induction commonStarts texts with
  | case1 => cases h
  | case2 t =>
    obtain rfl := List.mem_singleton.mp h
    exact List.prefix_rfl
  | case3 t rest _ ih =>
    rcases List.mem_cons.mp h with rfl | hMem
    · exact (commonStart_starts s _).1
    · exact (commonStart_starts t _).2.trans (ih hMem)

/-- Texts that lose characters they share lose them from their common start. -/
theorem commonStart_drop {n : Nat} {s t : List Char} (h : n ≤ (commonStart s t).length) :
    commonStart (s.drop n) (t.drop n) = (commonStart s t).drop n := by
  induction n generalizing s t with
  | zero => rfl
  | succ n ih =>
    fun_cases commonStart s t with
    | case1 c s d t hc =>
      have hLength : n ≤ (commonStart s t).length := by
        simp only [commonStart, if_pos hc, List.length_cons] at h
        omega
      simp only [List.drop_succ_cons]
      exact ih hLength
    | case2 c s d t hc =>
      simp [commonStart, hc] at h
    | case3 => simp_all [commonStart]

theorem commonStarts_drop {n : Nat} (texts : List (List Char))
    (h : n ≤ (commonStarts texts).length) :
    commonStarts (texts.map (List.drop n)) = (commonStarts texts).drop n := by
  fun_induction commonStarts texts with
  | case1 => simp [commonStarts]
  | case2 s => rfl
  | case3 s rest hRest ih =>
    have hTail : n ≤ (commonStarts rest).length :=
      Nat.le_trans h (commonStart_starts s _).2.length_le
    rw [List.map_cons, commonStarts, ih hTail, commonStart_drop h]
    intro hNil
    exact hRest (List.map_eq_nil_iff.mp hNil)

/-! ## Shifted lines -/

/-- A line without as many characters, nothing if it is bare. -/
def shift (width : Nat) (line : List Char) : List Char :=
  if isBare line then [] else line.drop width

theorem dedent_eq (lines : List (List Char)) :
    dedent lines = lines.map (shift (margin lines).length) := rfl

theorem indent_drop {n : Nat} {line : List Char} (h : n ≤ (indent line).length) :
    indent (line.drop n) = (indent line).drop n := by
  induction n generalizing line with
  | zero => rfl
  | succ n ih =>
    cases line with
    | nil => rfl
    | cons c rest =>
      cases hc : isIndent c with
      | false => simp [indent, hc] at h
      | true =>
        have hCons : indent (c :: rest) = c :: indent rest := by simp [indent, hc]
        rw [hCons] at h ⊢
        exact ih (Nat.le_of_succ_le_succ h)

theorem all_take_of_le_indent {n : Nat} {line : List Char} (h : n ≤ (indent line).length) :
    (line.take n).all isIndent = true := by
  have hSplit : line = indent line ++ line.dropWhile isIndent :=
    List.takeWhile_append_dropWhile.symm
  rw [hSplit, List.take_append_of_le_length h, List.all_eq_true]
  intro c hc
  exact List.all_eq_true.mp List.all_takeWhile c (List.mem_of_mem_take hc)

/-- A line gives up nothing but indentation. -/
theorem exists_run_shift {width : Nat} {line : List Char}
    (h : isBare line = false → width ≤ (indent line).length) :
    ∃ run, line = run ++ shift width line ∧ run.all isIndent = true := by
  cases hBare : isBare line with
  | true =>
    refine ⟨line, ?_, hBare⟩
    rw [shift, if_pos hBare, List.append_nil]
  | false =>
    refine ⟨line.take width, ?_, all_take_of_le_indent (h hBare)⟩
    rw [shift, hBare, if_neg Bool.false_ne_true, List.take_append_drop]

theorem isBare_shift {width : Nat} {line : List Char}
    (h : isBare line = false → width ≤ (indent line).length) :
    isBare (shift width line) = isBare line := by
  obtain ⟨run, hLine, hRun⟩ := exists_run_shift h
  conv => rhs; rw [hLine]
  rw [isBare, isBare, List.all_append, hRun, Bool.true_and]

theorem isBlank_of_isIndent {c : Char} (h : isIndent c = true) : isBlank c = true := by
  rcases (by simpa [isIndent] using h : c = ' ' ∨ c = '\t') with rfl | rfl <;> decide

theorem isBlankText_of_indentation {run : List Char} (h : run.all isIndent = true) :
    isBlankText run = true :=
  List.all_eq_true.mpr fun c hc => isBlank_of_isIndent (List.all_eq_true.mp h c hc)

theorem isBlankText_shift {width : Nat} {line : List Char}
    (h : isBare line = false → width ≤ (indent line).length) :
    isBlankText (shift width line) = isBlankText line := by
  obtain ⟨run, hLine, hRun⟩ := exists_run_shift h
  conv => rhs; rw [hLine]
  rw [isBlankText_append, isBlankText_of_indentation hRun, Bool.true_and]

/-- No line of text has less indentation than the margin. -/
theorem margin_le {lines : List (List Char)} {line : List Char} (hMem : line ∈ lines)
    (hBare : isBare line = false) : (margin lines).length ≤ (indent line).length := by
  refine (commonStarts_starts (List.mem_map_of_mem ?_)).length_le
  exact List.mem_filter.mpr ⟨hMem, by rw [hBare]; rfl⟩

/-- The lines of text lose the margin from their indentation. -/
theorem margin_dedent (lines : List (List Char)) : margin (dedent lines) = [] := by
  have hLines : (dedent lines).filter (!isBare ·) =
      (lines.filter (!isBare ·)).map (shift (margin lines).length) := by
    rw [dedent_eq, List.filter_map]
    congr 1
    refine List.filter_congr fun line hLine => ?_
    rw [Function.comp_apply, isBare_shift (margin_le hLine)]
  have hIndents : ((lines.filter (!isBare ·)).map (shift (margin lines).length)).map indent =
      ((lines.filter (!isBare ·)).map indent).map (List.drop (margin lines).length) := by
    rw [List.map_map, List.map_map]
    refine List.map_congr_left fun line hLine => ?_
    obtain ⟨hMem, hNot⟩ := List.mem_filter.mp hLine
    have hBare : isBare line = false := by simpa using hNot
    show indent (shift _ line) = (indent line).drop _
    rw [shift, hBare, if_neg Bool.false_ne_true, indent_drop (margin_le hMem hBare)]
  have hDrop := commonStarts_drop ((lines.filter (!isBare ·)).map indent)
    (Nat.le_refl (margin lines).length)
  rw [margin, hLines, hIndents, hDrop]
  exact List.drop_length

/-- Shifting lines to the left margin is idempotent. -/
theorem dedent_dedent (lines : List (List Char)) : dedent (dedent lines) = dedent lines := by
  rw [dedent_eq (dedent lines), margin_dedent]
  conv => rhs; rw [← List.map_id (dedent lines)]
  refine List.map_congr_left fun line hLine => ?_
  obtain ⟨original, hMem, rfl⟩ := List.mem_map.mp hLine
  show shift 0 (shift _ original) = shift _ original
  cases hBare : isBare original with
  | true =>
    rw [shift, shift, if_pos hBare]
    rfl
  | false =>
    rw [shift, isBare_shift (margin_le hMem), hBare, if_neg Bool.false_ne_true, List.drop_zero]

theorem trimmed_dedent {lines : List (List Char)} (h : Trimmed lines) : Trimmed (dedent lines) := by
  have hBlank : ∀ line ∈ lines,
      isBlankText (shift (margin lines).length line) = isBlankText line :=
    fun line hMem => isBlankText_shift (margin_le hMem)
  constructor
  · intro line hLine
    rw [dedent_eq, List.head?_map, Option.map_eq_some_iff] at hLine
    obtain ⟨original, hOriginal, rfl⟩ := hLine
    rw [hBlank original (List.mem_of_mem_head? hOriginal)]
    exact h.head original hOriginal
  · intro line hLine
    rw [dedent_eq, List.getLast?_map, Option.map_eq_some_iff] at hLine
    obtain ⟨original, hOriginal, rfl⟩ := hLine
    rw [hBlank original (List.mem_of_getLast? hOriginal)]
    exact h.last original hOriginal

/-- A line of the shifted text is a line of the text without some of its indentation. -/
theorem exists_run_of_mem {lines : List (List Char)} {line : List Char} (h : line ∈ lines) :
    ∃ run, line = run ++ shift (margin lines).length line ∧ run.all isIndent = true :=
  exists_run_shift (margin_le h)

/-! ## A statement at the left margin -/

theorem endent_eq (piece : List Char) :
    endent piece = joined (dedent (trimLines (Identifier.parts '\n' piece))) := rfl

theorem parts_joined_dedent {lines : List (List Char)} (hLines : lines ≠ [])
    (h : ∀ line ∈ lines, '\n' ∉ line) :
    Identifier.parts '\n' (joined (dedent lines)) = dedent lines := by
  refine Identifier.parts_intercalate ?_ ?_
  · rw [dedent_eq]
    simpa using hLines
  · intro line hLine
    obtain ⟨original, hMem, rfl⟩ := List.mem_map.mp hLine
    obtain ⟨run, hRun, -⟩ := exists_run_of_mem hMem
    intro hBreak
    exact h original hMem (hRun ▸ List.mem_append_right run hBreak)

/-- A statement with text in it: blank lines, the lines that stay, and blank lines. -/
structure Frame (piece : List Char) where
  above : List Char
  lines : List (List Char)
  back : List (List Char)
  nonempty : lines ≠ []
  trimmed : Trimmed lines
  unbroken : ∀ line ∈ lines, '\n' ∉ line
  blank_above : isBlankText above = true
  blank_back : ∀ line ∈ back, isBlankText line = true
  piece_eq : piece = above ++ (joined lines ++ back.flatMap ('\n' :: ·))
  endent_eq : endent piece = joined (dedent lines)

/-- The text of a statement ends with a line that is not blank. -/
theorem Frame.exists_last {piece : List Char} (frame : Frame piece) :
    ∃ front last, joined frame.lines = front ++ last ∧ isBlankText last = false ∧
      '\n' ∉ last := by
  have hLines := List.dropLast_concat_getLast frame.nonempty
  refine ⟨frame.lines.dropLast.flatMap (· ++ ['\n']), frame.lines.getLast frame.nonempty, ?_, ?_,
    frame.unbroken _ (List.getLast_mem frame.nonempty)⟩
  · conv => lhs; rw [← hLines]
    rw [joined_append_left _ (by simp), joined_singleton]
  · exact frame.trimmed.last _ (List.getLast?_eq_some_getLast frame.nonempty)

theorem isBlankText_flatMap {lines : List (List Char)} {f : List Char → List Char}
    (h : ∀ line ∈ lines, isBlankText (f line) = true) : isBlankText (lines.flatMap f) = true := by
  rw [isBlankText, List.all_flatMap, List.all_eq_true]
  exact h

theorem isBlankText_break (line : List Char) : isBlankText ('\n' :: line) = isBlankText line := by
  rw [isBlankText, List.all_cons, show isBlank '\n' = true by decide, Bool.true_and, isBlankText]

theorem isBlankText_breaks {lines : List (List Char)}
    (h : ∀ line ∈ lines, isBlankText line = true) :
    isBlankText (lines.flatMap ('\n' :: ·)) = true := by
  refine isBlankText_flatMap fun line hLine => ?_
  rw [isBlankText_break, h line hLine]

theorem isBlankText_joined {lines : List (List Char)}
    (h : ∀ line ∈ lines, isBlankText line = true) : isBlankText (joined lines) = true := by
  by_cases hNil : lines = []
  · rw [hNil]
    rfl
  · rw [← isBlankText_break, break_joined hNil]
    exact isBlankText_breaks h

/-- A statement is blank or has a frame of the lines that are left when blank ones are dropped at
both ends. -/
theorem blank_or_framed (piece : List Char) :
    isBlankText piece = true ∧ trimLines (Identifier.parts '\n' piece) = [] ∨
      ∃ frame : Frame piece, frame.lines = trimLines (Identifier.parts '\n' piece) := by
  obtain ⟨front, back, hLines, hFront, hBack⟩ := exists_trimLines (Identifier.parts '\n' piece)
  have hPiece := Identifier.intercalate_parts '\n' piece
  have hTrimmed := trimmed_trimLines (Identifier.parts '\n' piece)
  have hUnbroken : ∀ line ∈ Identifier.parts '\n' piece, '\n' ∉ line :=
    fun line hLine => Identifier.not_mem_of_mem_parts hLine
  have hEndent := endent_eq piece
  generalize trimLines (Identifier.parts '\n' piece) = lines at hLines hTrimmed hEndent
  rw [hLines] at hPiece hUnbroken
  by_cases hNil : lines = []
  · left
    subst hNil
    rw [List.append_nil] at hPiece
    refine ⟨?_, rfl⟩
    rw [← hPiece]
    refine isBlankText_joined fun line hLine => ?_
    exact (List.mem_append.mp hLine).elim (hFront line) (hBack line)
  · right
    refine ⟨⟨front.flatMap (· ++ ['\n']), lines, back, hNil, hTrimmed, ?_, ?_, hBack, ?_, hEndent⟩,
      rfl⟩
    · intro line hLine
      exact hUnbroken line (by simp [hLine])
    · refine isBlankText_flatMap fun line hLine => ?_
      rw [isBlankText_append, hFront line hLine]
      decide
    · rw [← hPiece]
      show joined (front ++ lines ++ back) = _
      rw [List.append_assoc, joined_append_left front (by simp [hNil]),
        joined_append_right hNil]

/-- A statement is blank or has a frame. -/
theorem blank_or_frame (piece : List Char) :
    isBlankText piece = true ∧ endent piece = [] ∨ Nonempty (Frame piece) := by
  rcases blank_or_framed piece with ⟨hBlank, hLines⟩ | ⟨frame, -⟩
  · left
    rw [endent_eq, hLines]
    exact ⟨hBlank, rfl⟩
  · exact .inr ⟨frame⟩

theorem endent_of_blank {piece : List Char} (h : isBlankText piece = true) : endent piece = [] := by
  rcases blank_or_frame piece with ⟨-, hEndent⟩ | ⟨⟨frame⟩⟩
  · exact hEndent
  · obtain ⟨front, last, hJoined, hLast, -⟩ := frame.exists_last
    rw [frame.piece_eq, hJoined] at h
    simp [isBlankText_append, hLast] at h

/-- Laying a statement out is idempotent. -/
theorem endent_endent (piece : List Char) : endent (endent piece) = endent piece := by
  rcases blank_or_frame piece with ⟨-, hEndent⟩ | ⟨⟨frame⟩⟩
  · rw [hEndent]
    rfl
  · rw [frame.endent_eq, endent_eq, parts_joined_dedent frame.nonempty frame.unbroken,
      trimLines_of_trimmed (trimmed_dedent frame.trimmed), dedent_dedent]

/-- A line break in front of a statement does not show. -/
theorem endent_break (piece : List Char) : endent ('\n' :: piece) = endent piece := by
  rw [endent_eq, Identifier.parts_cons_separator, trimLines_cons_nil, endent_eq]

end SqlWeave.Sql.Layout
