import SqlWeave.Sql.Identifier

/-!
# Protected regions of SQL text

Quoted texts, quoted identifiers and comments are *protected*: nothing in them is a
bind marker or a statement separator.  A region is cut off the front of a text, as
the pair of the region and the text behind it.

There are two readings of a region that is never closed:

* `closed?` finds closed regions only.  A quoted region ends at its first lone
  quote; without one it ends at the first quote of the last doubled pair.
* `openEnded?` lets an unclosed region run to the end of the text.

They agree on a text in which everything that is opened is closed.
-/

namespace SqlWeave.Sql.Region

/-- A region and the text behind it. -/
abbrev Cut := List Char × List Char

/-- Puts characters in front of a region. -/
def Cut.extend (front : List Char) (cut : Cut) : Cut :=
  (front ++ cut.1, cut.2)

/-- The quotes that open a region. -/
def isQuote (c : Char) : Bool :=
  c == '\x27' || c == '\x22' || c == backquote

/-- A backslash takes the next character with it, except between backquotes. -/
def hasEscapes (quote : Char) : Bool :=
  quote != backquote

/-- The rest of a quoted region up to the closing quote, which has to be there. -/
def closeQuoted? (quote : Char) : List Char → Option Cut
  | [] => none
  | c :: rest =>
    if c == quote then
      match rest with
      | d :: more =>
        if d == quote then
          match closeQuoted? quote more with
          | some cut => some (cut.extend [c, d])
          | none => some ([c], rest)
        else some ([c], rest)
      | [] => some ([c], [])
    else if c == '\\' && hasEscapes quote then
      match rest with
      | d :: more => (closeQuoted? quote more).map (Cut.extend [c, d])
      | [] => none
    else (closeQuoted? quote rest).map (Cut.extend [c])

/-- The rest of a quoted region up to the closing quote or the end. -/
def runQuoted (quote : Char) : List Char → Cut
  | [] => ([], [])
  | c :: rest =>
    if c == quote then
      match rest with
      | d :: more => if d == quote then (runQuoted quote more).extend [c, d] else ([c], rest)
      | [] => ([c], [])
    else if c == '\\' && hasEscapes quote then
      match rest with
      | d :: more => (runQuoted quote more).extend [c, d]
      | [] => ([c], [])
    else (runQuoted quote rest).extend [c]

/-- A line up to its end, the line break excluded. -/
def restOfLine (s : List Char) : Cut :=
  (s.takeWhile (· != '\n'), s.dropWhile (· != '\n'))

/-- The rest of a block comment up to its end mark, which has to be there. -/
def closeBlock? : List Char → Option Cut
  | [] => none
  | c :: rest =>
    match c, rest with
    | '*', '/' :: more => some (['*', '/'], more)
    | _, _ => (closeBlock? rest).map (Cut.extend [c])

/-- The closed region at the start of a text. -/
def closed? : List Char → Option Cut
  | '-' :: '-' :: rest => some ((restOfLine rest).extend ['-', '-'])
  | '/' :: '*' :: rest => (closeBlock? rest).map (Cut.extend ['/', '*'])
  | c :: rest => if isQuote c then (closeQuoted? c rest).map (Cut.extend [c]) else none
  | [] => none

/-- The region at the start of a text, which ends with the text when it is not
closed. -/
def openEnded? : List Char → Option Cut
  | '-' :: '-' :: rest => some ((restOfLine rest).extend ['-', '-'])
  | '/' :: '*' :: rest =>
    some (((closeBlock? rest).getD (rest, [])).extend ['/', '*'])
  | c :: rest => if isQuote c then some ((runQuoted c rest).extend [c]) else none
  | [] => none

/-! ## A region is cut off the front -/

theorem closeQuoted?_append (quote : Char) (s : List Char) (cut : Cut)
    (h : closeQuoted? quote s = some cut) : cut.1 ++ cut.2 = s := by
  fun_induction closeQuoted? quote s generalizing cut <;> grind [Cut.extend, Option.map_eq_some_iff]

theorem runQuoted_append (quote : Char) (s : List Char) :
    (runQuoted quote s).1 ++ (runQuoted quote s).2 = s := by
  fun_induction runQuoted quote s <;> grind [Cut.extend]

theorem closeBlock?_append (s : List Char) (cut : Cut)
    (h : closeBlock? s = some cut) : cut.1 ++ cut.2 = s := by
  fun_induction closeBlock? s generalizing cut <;> grind [Cut.extend, Option.map_eq_some_iff]

/-- A closed region is a nonempty front of the text. -/
theorem closed?_append {s : List Char} {cut : Cut} (h : closed? s = some cut) :
    cut.1 ++ cut.2 = s ∧ cut.1 ≠ [] := by
  unfold closed? at h
  split at h
  · cases h; simp [Cut.extend, restOfLine]
  · simp only [Option.map_eq_some_iff] at h
    obtain ⟨inner, hi, rfl⟩ := h
    simp [Cut.extend, closeBlock?_append _ _ hi]
  · split at h
    · simp only [Option.map_eq_some_iff] at h
      obtain ⟨inner, hi, rfl⟩ := h
      simp [Cut.extend, closeQuoted?_append _ _ _ hi]
    · cases h
  · cases h

/-- An open-ended region is a nonempty front of the text. -/
theorem openEnded?_append {s : List Char} {cut : Cut} (h : openEnded? s = some cut) :
    cut.1 ++ cut.2 = s ∧ cut.1 ≠ [] := by
  unfold openEnded? at h
  split at h
  · cases h; simp [Cut.extend, restOfLine]
  · cases h
    cases hb : closeBlock? ‹_› with
    | none => simp [Cut.extend]
    | some inner => simp [Cut.extend, closeBlock?_append _ _ hb]
  · split at h
    · cases h
      simp [Cut.extend, runQuoted_append]
    · cases h
  · cases h

/-- What stands behind a region is shorter than the text. -/
theorem length_of_closed? {s : List Char} {cut : Cut} (h : closed? s = some cut) :
    cut.2.length < s.length := by
  obtain ⟨ha, hn⟩ := closed?_append h
  have := congrArg List.length ha
  have := List.length_pos_iff.mpr hn
  simp at *
  omega

/-- What stands behind a region is shorter than the text. -/
theorem length_of_openEnded? {s : List Char} {cut : Cut} (h : openEnded? s = some cut) :
    cut.2.length < s.length := by
  obtain ⟨ha, hn⟩ := openEnded?_append h
  have := congrArg List.length ha
  have := List.length_pos_iff.mpr hn
  simp at *
  omega

end SqlWeave.Sql.Region
