import Mathlib.Data.List.Basic
import Mathlib.Data.List.Forall2
import SqlWeave.Proofs.Layout.Boundaries

/-!
# What layout keeps of a text

Layout moves statements to the left margin and takes blank lines away.  No character but blanks
is lost or moved by this, be it quoted, in a comment or outside.  The lines of a statement that
are not blank all lose the same indentation, so that they stand to each other as before.

## Main results

* `inked_endent`: a statement keeps its characters that are no blanks.
* `exists_textLines_endent`: the lines of a statement lose one margin.
* `layout_keeps_text`: both, for all statements of a text.
-/

namespace SqlWeave.Sql

open Text

namespace Layout

/-! ## Characters that are no blanks -/

/-- The characters of a text that are no blanks. -/
def inked (s : List Char) : List Char :=
  s.filter (!isBlank ·)

@[simp] theorem inked_nil : inked [] = [] := rfl

@[simp] theorem inked_append (s t : List Char) : inked (s ++ t) = inked s ++ inked t :=
  List.filter_append s t

theorem inked_eq_nil_iff {s : List Char} : inked s = [] ↔ isBlankText s = true := by
  simp [inked, isBlankText]

theorem inked_of_blank {s : List Char} (h : isBlankText s = true) : inked s = [] :=
  inked_eq_nil_iff.mpr h

/-- Line breaks are blanks. -/
theorem inked_joined (lines : List (List Char)) : inked (joined lines) = lines.flatMap inked := by
  induction lines with
  | nil => rfl
  | cons line more ih =>
    by_cases hMore : more = []
    · simp [hMore]
    · have hBreak : inked ('\n' :: joined more) = inked (joined more) := rfl
      rw [joined_cons line hMore, inked_append, hBreak, ih, List.flatMap_cons]

/-- What texts hold when a separator is put between them. -/
theorem inked_intercalate (separator : List Char) (texts : List (List Char)) :
    inked (List.intercalate separator texts) =
      List.intercalate (inked separator) (texts.map inked) := by
  induction texts with
  | nil => rfl
  | cons text more ih =>
    by_cases hMore : more = []
    · simp [hMore]
    · rw [List.intercalate_cons_of_ne_nil hMore, List.map_cons,
        List.intercalate_cons_of_ne_nil (by simpa using hMore), inked_append, inked_append, ih]

/-- Lines that are shifted to the left margin lose blanks alone. -/
theorem inked_dedent (lines : List (List Char)) :
    inked (joined (dedent lines)) = inked (joined lines) := by
  rw [inked_joined, inked_joined, dedent_eq, List.flatMap_map]
  refine List.flatMap_congr fun line hLine => ?_
  obtain ⟨run, hRun, hIndent⟩ := exists_run_of_mem hLine
  conv => rhs; rw [hRun]
  rw [inked_append, inked_of_blank (isBlankText_of_indentation hIndent), List.nil_append]

/-- A statement keeps its characters that are no blanks. -/
theorem inked_endent (piece : List Char) : inked (endent piece) = inked piece := by
  rcases blank_or_frame piece with ⟨hBlank, hEndent⟩ | ⟨⟨frame⟩⟩
  · rw [hEndent, inked_of_blank hBlank, inked_nil]
  · conv => rhs; rw [frame.piece_eq]
    rw [inked_append, inked_append, inked_of_blank frame.blank_above,
      inked_of_blank (isBlankText_breaks frame.blank_back), frame.endent_eq, inked_dedent,
      List.nil_append, List.append_nil]

/-! ## Lines of a statement -/

/-- The lines of a text that are not blank. -/
def textLines (s : List Char) : List (List Char) :=
  (Identifier.parts '\n' s).filter (!isBlankText ·)

theorem filter_of_blank {lines : List (List Char)} (h : ∀ line ∈ lines, isBlankText line = true) :
    lines.filter (!isBlankText ·) = [] := by
  rw [List.filter_eq_nil_iff]
  intro line hLine
  simp [h line hLine]

theorem textLines_eq (piece : List Char) :
    textLines piece = (trimLines (Identifier.parts '\n' piece)).filter (!isBlankText ·) := by
  obtain ⟨front, back, hLines, hFront, hBack⟩ := exists_trimLines (Identifier.parts '\n' piece)
  conv => lhs; rw [textLines, hLines]
  rw [List.filter_append, List.filter_append, filter_of_blank hFront, filter_of_blank hBack,
    List.nil_append, List.append_nil]

theorem textLines_endent (piece : List Char) :
    textLines (endent piece) =
      (dedent (trimLines (Identifier.parts '\n' piece))).filter (!isBlankText ·) := by
  rcases blank_or_framed piece with ⟨-, hLines⟩ | ⟨frame, hLines⟩
  · rw [endent_eq, hLines]
    rfl
  · rw [textLines, endent_eq, ← hLines, parts_joined_dedent frame.nonempty frame.unbroken]

theorem all_indent (line : List Char) : (indent line).all isIndent = true :=
  List.all_takeWhile

theorem all_commonStarts {texts : List (List Char)} (h : ∀ s ∈ texts, s.all isIndent = true) :
    (commonStarts texts).all isIndent = true := by
  cases texts with
  | nil => rfl
  | cons s rest =>
    have hStart := commonStarts_starts (List.mem_cons_self (a := s) (l := rest))
    have hFirst := List.all_eq_true.mp (h s List.mem_cons_self)
    exact List.all_eq_true.mpr fun c hc => hFirst c (hStart.subset hc)

/-- The margin is indentation. -/
theorem all_margin (lines : List (List Char)) : (margin lines).all isIndent = true := by
  refine all_commonStarts fun s hs => ?_
  obtain ⟨line, -, rfl⟩ := List.mem_map.mp hs
  exact all_indent line

/-- A line of text is the margin and what is left of the line. -/
theorem margin_append_shift {lines : List (List Char)} {line : List Char} (hMem : line ∈ lines)
    (hBare : isBare line = false) : margin lines ++ shift (margin lines).length line = line := by
  have hIndent : margin lines <+: indent line :=
    commonStarts_starts (List.mem_map_of_mem (List.mem_filter.mpr ⟨hMem, by rw [hBare]; rfl⟩))
  obtain ⟨rest, hRest⟩ := hIndent.trans (List.takeWhile_prefix isIndent)
  rw [shift, hBare, if_neg Bool.false_ne_true]
  conv => lhs; rw [← hRest]
  rw [List.drop_left, hRest]

/-- The lines of a statement lose one margin. -/
theorem exists_textLines_endent (piece : List Char) :
    ∃ run : List Char, run.all isIndent = true ∧
      textLines piece = (textLines (endent piece)).map (run ++ ·) := by
  rw [textLines_eq, textLines_endent]
  generalize trimLines (Identifier.parts '\n' piece) = lines
  refine ⟨margin lines, all_margin lines, ?_⟩
  have hFilter : (dedent lines).filter (!isBlankText ·) =
      (lines.filter (!isBlankText ·)).map (shift (margin lines).length) := by
    rw [dedent_eq, List.filter_map]
    congr 1
    refine List.filter_congr fun line hLine => ?_
    rw [Function.comp_apply, isBlankText_shift (margin_le hLine)]
  rw [hFilter, List.map_map]
  conv => lhs; rw [← List.map_id (lines.filter _)]
  refine List.map_congr_left fun line hLine => ?_
  obtain ⟨hMem, hText⟩ := List.mem_filter.mp hLine
  have hBare : isBare line = false := by
    rw [← Bool.not_eq_true]
    intro hAll
    rw [isBlankText_of_indentation hAll] at hText
    cases hText
  exact (margin_append_shift hMem hBare).symm

/-! ## Indentation -/

theorem indent_append {run : List Char} (h : run.all isIndent = true) (line : List Char) :
    indent (run ++ line) = run ++ indent line :=
  List.takeWhile_append_of_pos (List.all_eq_true.mp h)

/-- The lines of two texts that are not blank are the same ones, one by one, up to their
indentation.  Where the indentation of one line goes on with that of another one, it goes on by
as much in both texts. -/
structure KeepsIndentation (before after : List Char) : Prop where
  lines : List.Forall₂ (fun line line' => line.dropWhile isIndent = line'.dropWhile isIndent)
    (textLines before) (textLines after)
  steps : ∀ (i j : Nat) (u v u' v' step : List Char),
    (textLines before)[i]? = some u → (textLines before)[j]? = some v →
    (textLines after)[i]? = some u' → (textLines after)[j]? = some v' →
    indent v = indent u ++ step → indent v' = indent u' ++ step

/-- Lines that lose the same indentation keep it up to that. -/
theorem keepsIndentation_of_run {before after run : List Char} (hRun : run.all isIndent = true)
    (h : textLines before = (textLines after).map (run ++ ·)) : KeepsIndentation before after := by
  constructor
  · rw [h, List.forall₂_map_left_iff, List.forall₂_same]
    intro line _
    exact List.dropWhile_append_of_pos (List.all_eq_true.mp hRun)
  · intro i j u v u' v' step hu hv hu' hv' hStep
    rw [h, List.getElem?_map, hu', Option.map_some, Option.some.injEq] at hu
    rw [h, List.getElem?_map, hv', Option.map_some, Option.some.injEq] at hv
    rw [← hu, ← hv, indent_append hRun, indent_append hRun, List.append_assoc] at hStep
    exact List.append_cancel_left hStep

theorem keepsIndentation_endent (piece : List Char) : KeepsIndentation piece (endent piece) := by
  obtain ⟨run, hRun, hLines⟩ := exists_textLines_endent piece
  exact keepsIndentation_of_run hRun hLines

end Layout

open Layout

/-! ## The main result -/

theorem inked_eq_intercalate (sql : List Char) :
    inked sql = List.intercalate [';'] ((statements sql).map inked) := by
  have hJoined : List.intercalate [';'] (statements sql) = sql := by
    rw [statements_eq_split, Mode.intercalate_split]
  conv => lhs; rw [← hJoined]
  exact inked_intercalate [';'] (statements sql)

theorem inked_layout (sql : List Char) : inked (layout sql) = inked sql := by
  have hPieces : ((statements sql).map endent).map inked = (statements sql).map inked := by
    rw [List.map_map]
    exact List.map_congr_left fun piece _ => inked_endent piece
  rw [layout, inked_intercalate, hPieces, inked_eq_intercalate sql]
  rfl

/-- Layout keeps every character that is no blank, in its place among the others.  It puts a
semicolon and two line breaks between statements in which the lines are those of the statements
of the text, and keep their differences in indentation. -/
theorem layout_keeps_text (sql : List Char) :
    inked (layout sql) = inked sql ∧
      ∃ laid : List (List Char), layout sql = List.intercalate [';', '\n', '\n'] laid ∧
        List.Forall₂ KeepsIndentation (statements sql) laid := by
  refine ⟨inked_layout sql, (statements sql).map endent, rfl, ?_⟩
  rw [List.forall₂_map_right_iff, List.forall₂_same]
  exact fun piece _ => keepsIndentation_endent piece

end SqlWeave.Sql
