import SqlWeave.Proofs.Text.Runs
import SqlWeave.Sql.Identifier
import SqlWeave.Text.CharClass

/-!
# Lines of a text

`Identifier.parts` cuts a text at a separator, as the standard library does, so that the
parts joined again are the text and a joined list of lines has these lines as its parts.

Joined texts are the first one, and the others behind a separator each
(`intercalate_cons_eq`).  A text that is put together from lines is looked at from both ends:
`joined_append_left` and `joined_append_right` take the lines at one end off it.
-/

namespace SqlWeave.Sql

open Text

/-! ## Parts -/

namespace Identifier

theorem parts_eq_splitOn (separator : Char) (s : List Char) :
    parts separator s = s.splitOn separator := by
  induction s with
  | nil => simp [parts]
  | cons c rest ih =>
    rw [parts, List.splitOn_cons_eq_if_modifyHead, ih]
    split
    · rfl
    · cases hRest : rest.splitOn separator with
      | nil => exact absurd hRest (List.splitOn_ne_nil separator rest)
      | cons part others => rfl

theorem parts_ne_nil (separator : Char) (s : List Char) : parts separator s ≠ [] := by
  rw [parts_eq_splitOn]
  exact List.splitOn_ne_nil separator s

theorem parts_cons_separator (separator : Char) (s : List Char) :
    parts separator (separator :: s) = [] :: parts separator s := by
  rw [parts, if_pos (beq_self_eq_true separator)]

/-- The parts joined by the separator are the text. -/
theorem intercalate_parts (separator : Char) (s : List Char) :
    List.intercalate [separator] (parts separator s) = s := by
  rw [parts_eq_splitOn, List.intercalate_splitOn]

/-- Parts that are joined are the parts of the text. -/
theorem parts_intercalate {separator : Char} {lines : List (List Char)} (hLines : lines ≠ [])
    (h : ∀ line ∈ lines, separator ∉ line) :
    parts separator (List.intercalate [separator] lines) = lines := by
  rw [parts_eq_splitOn, List.splitOn_intercalate separator h hLines]

/-- A text without the separator is its only part. -/
theorem parts_of_not_mem {separator : Char} {s : List Char} (h : separator ∉ s) :
    parts separator s = [s] := by
  have hOne : parts separator (List.intercalate [separator] [s]) = [s] :=
    parts_intercalate (List.cons_ne_nil s []) (by simpa using h)
  rwa [List.intercalate_singleton] at hOne

/-- What parts joined by a separator hold. -/
theorem mem_intercalate {separator c : Char} {parts : List (List Char)}
    (h : c ∈ List.intercalate [separator] parts) : c = separator ∨ ∃ part ∈ parts, c ∈ part := by
  induction parts with
  | nil => cases h
  | cons part more ih =>
    cases more with
    | nil =>
      rw [List.intercalate_singleton] at h
      exact .inr ⟨part, List.mem_cons_self, h⟩
    | cons next others =>
      rw [List.intercalate_cons_of_ne_nil (by simp), List.append_assoc, List.mem_append,
        List.mem_append, List.mem_singleton] at h
      rcases h with hPart | hSeparator | hMore
      · exact .inr ⟨part, List.mem_cons_self, hPart⟩
      · exact .inl hSeparator
      · exact (ih hMore).imp_right fun ⟨other, hOther, hMem⟩ =>
          ⟨other, List.mem_cons_of_mem _ hOther, hMem⟩

/-- No part holds the separator. -/
theorem not_mem_of_mem_parts {separator : Char} {s part : List Char}
    (h : part ∈ parts separator s) : separator ∉ part := by
  induction s generalizing part with
  | nil =>
    rw [parts, List.mem_singleton] at h
    simp [h]
  | cons c rest ih =>
    rw [parts] at h
    split at h
    · rcases List.mem_cons.mp h with rfl | hMem
      · simp
      · exact ih hMem
    · rename_i hc
      cases hRest : parts separator rest with
      | nil => exact absurd hRest (parts_ne_nil separator rest)
      | cons first others =>
        rw [hRest] at h ih
        have hNe : separator ≠ c := fun hEq => hc (by rw [hEq, beq_self_eq_true])
        rcases List.mem_cons.mp h with rfl | hMem
        · have hFirst : separator ∉ first := ih (by simp)
          simp [hNe, hFirst]
        · exact ih (List.mem_cons_of_mem _ hMem)

end Identifier

/-! ## Joined texts -/

/-- Texts that are joined are the first one, and the others behind a separator each. -/
theorem intercalate_cons_eq (separator text : List Char) (more : List (List Char)) :
    List.intercalate separator (text :: more) = text ++ more.flatMap (separator ++ ·) := by
  induction more generalizing text with
  | nil => rw [List.intercalate_singleton, List.flatMap_nil, List.append_nil]
  | cons next others ih =>
    rw [List.intercalate_cons_cons, ih, List.flatMap_cons, List.append_assoc, List.append_assoc]

/-- A separator in front of joined texts. -/
theorem separator_append_intercalate (separator : List Char) {texts : List (List Char)}
    (h : texts ≠ []) :
    separator ++ List.intercalate separator texts = texts.flatMap (separator ++ ·) := by
  cases texts with
  | nil => exact absurd rfl h
  | cons text more => rw [intercalate_cons_eq, List.flatMap_cons, List.append_assoc]

/-- Texts behind other texts. -/
theorem intercalate_append_right (separator : List Char) {front : List (List Char)}
    (h : front ≠ []) (back : List (List Char)) :
    List.intercalate separator (front ++ back) =
      List.intercalate separator front ++ back.flatMap (separator ++ ·) := by
  cases front with
  | nil => exact absurd rfl h
  | cons text more =>
    rw [List.cons_append, intercalate_cons_eq, intercalate_cons_eq, List.flatMap_append,
      List.append_assoc]

/-- Texts that are joined end as the last one does, unless that is empty. -/
theorem getLast?_intercalate_concat (separator : List Char) {front : List (List Char)}
    {text : List Char} (h : front = [] ∨ text ≠ []) :
    (List.intercalate separator (front ++ [text])).getLast? = text.getLast? := by
  by_cases hFront : front = []
  · rw [hFront, List.nil_append, List.intercalate_singleton]
  · have hText : text ≠ [] := h.resolve_left hFront
    rw [intercalate_append_right separator hFront, List.flatMap_singleton, ← List.append_assoc,
      List.getLast?_append, List.getLast?_eq_some_getLast hText, Option.some_or]

namespace Layout

/-! ## Joined lines -/

/-- Lines as one text. -/
def joined (lines : List (List Char)) : List Char :=
  List.intercalate ['\n'] lines

@[simp] theorem joined_nil : joined [] = [] := rfl

@[simp] theorem joined_singleton (line : List Char) : joined [line] = line :=
  List.intercalate_singleton

theorem joined_cons (line : List Char) {lines : List (List Char)} (h : lines ≠ []) :
    joined (line :: lines) = line ++ '\n' :: joined lines := by
  rw [joined, List.intercalate_cons_of_ne_nil h, List.append_assoc]
  rfl

/-- Lines in front of other lines. -/
theorem joined_append_left (front : List (List Char)) {lines : List (List Char)} (h : lines ≠ []) :
    joined (front ++ lines) = front.flatMap (· ++ ['\n']) ++ joined lines := by
  induction front with
  | nil => rfl
  | cons line more ih =>
    rw [List.cons_append, joined_cons line (by simp [h]), ih, List.flatMap_cons]
    simp

theorem break_joined {lines : List (List Char)} (h : lines ≠ []) :
    '\n' :: joined lines = lines.flatMap ('\n' :: ·) :=
  separator_append_intercalate ['\n'] h

/-- Lines behind other lines. -/
theorem joined_append_right {lines : List (List Char)} (h : lines ≠ []) (back : List (List Char)) :
    joined (lines ++ back) = joined lines ++ back.flatMap ('\n' :: ·) :=
  intercalate_append_right ['\n'] h back

/-! ## Blanks at the ends -/

theorem isBlankText_append (s t : List Char) :
    isBlankText (s ++ t) = (isBlankText s && isBlankText t) :=
  List.all_append

/-- The blanks at the end of a text come off it. -/
theorem trimEnd_append_blank (s : List Char) {t : List Char} (h : isBlankText t = true) :
    trimEnd (s ++ t) = trimEnd s := by
  have hBlank : ∀ c ∈ t.reverse, isBlank c = true := by
    intro c hc
    exact List.all_eq_true.mp h c (List.mem_reverse.mp hc)
  rw [trimEnd, List.reverse_append, List.dropWhile_append_of_pos hBlank]
  rfl

/-- Trimming stops within a text that is not blank. -/
theorem trimEnd_append (s : List Char) {t : List Char} (h : isBlankText t = false) :
    trimEnd (s ++ t) = s ++ trimEnd t := by
  have hStop : (t.reverse.dropWhile isBlank).isEmpty = false := by
    rw [List.isEmpty_eq_false_iff]
    intro hNil
    have hRun := List.takeWhile_append_dropWhile (p := isBlank) (l := t.reverse)
    rw [hNil, List.append_nil] at hRun
    have hAll : isBlankText t.reverse = true := hRun ▸ List.all_takeWhile
    rw [isBlankText, List.all_reverse] at hAll
    exact Bool.false_ne_true (h.symm.trans hAll)
  rw [trimEnd, List.reverse_append, List.dropWhile_append, hStop]
  simp [trimEnd]

theorem blank_rtakeWhile (s : List Char) : isBlankText (s.rtakeWhile isBlank) = true :=
  List.all_eq_true.mpr fun _ hc => List.mem_rtakeWhile_imp hc

/-- A text is what trimming leaves and a blank text. -/
theorem exists_trimEnd_append (s : List Char) :
    ∃ blanks, s = trimEnd s ++ blanks ∧ isBlankText blanks = true :=
  ⟨s.rtakeWhile isBlank, List.rdropWhile_append_rtakeWhile.symm, blank_rtakeWhile s⟩

end Layout

end SqlWeave.Sql
