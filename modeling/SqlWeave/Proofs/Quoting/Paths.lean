import SqlWeave.Proofs.Casing.Columns
import SqlWeave.Proofs.Scan.Scoping

/-!
# Paths are inert

A path is any text that is put where a name belongs.  It is cut at its points, and each part is
brought to the spelling of the database, in which nothing is left but lower-case letters, digits
and the underscores between words.  So no part holds a backquote or a point, and what is put in is
one quoted region for each part.

A part without letters and digits leaves an empty region.  Its two backquotes are a doubled
backquote where another region stands next to them, and the two regions are read as one; it is
copied all the same.

## Main results

* `Casing.snake_snake`: a name in the spelling of the database keeps it.
* `path_is_inert`: what a path becomes, and how the text around it is bound.
-/

namespace SqlWeave

/-! ## The spelling of the database -/

namespace Casing

/-- The words of a name in the spelling of the database. -/
theorem plain_of_mem_lowered {name w : List Char} (h : w ∈ (words name).map lower) :
    w ≠ [] ∧ ∀ c ∈ w, (c.isLower || c.isDigit) = true := by
  obtain ⟨word, hMem, rfl⟩ := List.mem_map.mp h
  have hWord := isWord_of_mem_words hMem
  refine ⟨by simpa [lower] using hWord.nonempty, fun c hc => ?_⟩
  obtain ⟨hPart, hUpper⟩ := lower_parts hWord.parts c hc
  simpa [isWordPart_eq, Char.isAlpha, hUpper] using hPart

/-- A name in the spelling of the database keeps it. -/
theorem snake_snake (name : List Char) : snake (snake name) = snake name :=
  snake_intercalate fun _ => plain_of_mem_lowered

/-- A name without letters and digits has no words, and any other one becomes the name of a
column. -/
theorem snake_eq_nil_or_isColumn (name : List Char) : snake name = [] ∨ IsColumn (snake name) := by
  by_cases hNone : (words name).map lower = []
  · rw [snake, hNone]
    exact .inl rfl
  · exact .inr ⟨_, hNone, fun _ => plain_of_mem_lowered, rfl⟩

theorem mem_snake {name : List Char} {c : Char} (h : c ∈ snake name) :
    c = '_' ∨ isWordPart c = true := by
  rcases Sql.Identifier.mem_intercalate h with hSeparator | ⟨w, hWord, hMem⟩
  · exact .inl hSeparator
  · exact .inr (isWordPart_of_plain ((plain_of_mem_lowered hWord).2 c hMem))

/-- What is no letter, no digit and no underscore is gone. -/
theorem not_mem_snake {name : List Char} {c : Char} (hSeparator : c ≠ '_')
    (hPart : isWordPart c = false) : c ∉ snake name := by
  intro hMem
  rcases mem_snake hMem with rfl | hIs
  · exact hSeparator rfl
  · rw [hPart] at hIs
    cases hIs

end Casing

namespace Sql

/-! ## Quoted regions -/

namespace Identifier

theorem doubled_of_not_mem {name : List Char} (h : backquote ∉ name) : doubled name = name := by
  induction name with
  | nil => rfl
  | cons c rest ih =>
    rw [List.mem_cons, not_or] at h
    rw [doubled_cons, if_neg (by simpa using Ne.symm h.1), ih h.2, List.singleton_append]

/-- A name with neither points nor backquotes stands between backquotes as it is. -/
theorem qualified_of_not_mem {name : List Char} (hPoint : '.' ∉ name) (hQuote : backquote ∉ name) :
    qualified name = backquote :: name ++ [backquote] := by
  rw [qualified, parts_of_not_mem hPoint, List.map_singleton, List.intercalate_singleton, quoted,
    doubled_of_not_mem hQuote]

/-- A part of a path in the spelling of the database stands between backquotes as it is. -/
theorem qualified_snake (part : List Char) :
    qualified (Casing.snake part) = backquote :: Casing.snake part ++ [backquote] :=
  qualified_of_not_mem (Casing.not_mem_snake (by decide) rfl) (Casing.not_mem_snake (by decide) rfl)

/-- The regions of a path, with points between them: one for each part, in the spelling of the
database. -/
def regions (path : List Char) : List Char :=
  List.intercalate ['.'] ((parts '.' path).map fun part =>
    backquote :: Casing.snake part ++ [backquote])

theorem regions_eq (path : List Char) :
    regions path =
      List.intercalate ['.'] ((parts '.' path).map fun part => qualified (Casing.snake part)) := by
  simp only [regions, qualified_snake]

end Identifier

open Identifier (regions)

theorem Dialect.path_eq_regions (path : String) :
    Dialect.standard.path (.str path) = .ok (regions path.toList) := by
  rw [Identifier.regions_eq]
  rfl

theorem isSealed_regions (path : List Char) : IsSealed (regions path) := by
  rw [Identifier.regions_eq]
  refine isSealed_intercalate (by simpa using Identifier.parts_ne_nil '.' path) ?_
  simp only [List.forall_mem_map]
  exact fun part _ => isSealed_qualified _

/-! ## Between other texts -/

/-- No comment and no marker is read across the front of a sealed text. -/
theorem IsSealed.isSeam {text : List Char} (h : IsSealed text) (p s : List Char) :
    IsSeam p (text ++ s) := by
  obtain ⟨quote, hQuote, hHead⟩ := h.head
  obtain ⟨rest, rfl⟩ := List.head?_eq_some_iff.mp hHead
  exact isSeam_of_quote hQuote p (rest ++ s)

/-- Binding commutes with putting a sealed text between two texts. -/
theorem IsSealed.bind_between {text : List Char} (h : IsSealed text) (d : Dialect)
    (params : List (Value × Value)) {p : List Char} (hOut : endsOutside p = true) (s : List Char) :
    d.bind (p ++ text ++ s) (.map params) = do
      let front ← d.bind p (.map params)
      let back ← d.bind s (.map params)
      return front ++ text ++ back := by
  simpa only [Dialect.bind, Dialect.bindEntries_eq_bindFrom, List.append_assoc] using
    (h.passes d params).between none hOut (h.isSeam p s)

/-! ## The main result -/

/-- A path is inert.  It becomes one quoted region for each of its parts, with points between them,
which holds nothing or the name of a column; a second conversion of that name changes nothing.
Between a text whose scan ends outside and any other text, what the path becomes is put out as it
is by the binding, which treats both texts as it does alone. -/
theorem path_is_inert (d : Dialect) (params : List (Value × Value)) (path : String)
    (p s : List Char) (h : endsOutside p = true) :
    Dialect.standard.path (.str path) = .ok (regions path.toList) ∧
      (∀ part ∈ Identifier.parts '.' path.toList,
        Casing.snake part = [] ∨ Casing.IsColumn (Casing.snake part)) ∧
      (∀ name : List Char, Casing.snake (Casing.snake name) = Casing.snake name) ∧
      d.bind (p ++ regions path.toList ++ s) (.map params) = do
        let front ← d.bind p (.map params)
        let back ← d.bind s (.map params)
        return front ++ regions path.toList ++ back :=
  ⟨Dialect.path_eq_regions path, fun part _ => Casing.snake_eq_nil_or_isColumn part,
    Casing.snake_snake, (isSealed_regions path.toList).bind_between d params h s⟩

/-- A path with everything that could end its regions, between two regions that it touches. -/
theorem path_is_inert_between_quotes :
    let text := "\x60\x60.\x60user_id\x60.\x60x_y\x60.\x60\x60".toList
    endsOutside "SELECT \x60a\x60".toList = true ∧
      Dialect.standard.path (.str ".userID.\x60; :x -- 'y'./*") = .ok text ∧
      Dialect.standard.bind ("SELECT \x60a\x60".toList ++ text ++ "\x60b:x\x60, :x".toList)
          (.map [(.str "x", .int 1)]) = do
        let front ← Dialect.standard.bind "SELECT \x60a\x60".toList (.map [(.str "x", .int 1)])
        let back ← Dialect.standard.bind "\x60b:x\x60, :x".toList (.map [(.str "x", .int 1)])
        return front ++ text ++ back := by
  intro text
  have hOut : endsOutside "SELECT \x60a\x60".toList = true := by decide
  have hText : regions ".userID.\x60; :x -- 'y'./*".toList = text := by decide
  obtain ⟨hPath, -, -, hBind⟩ :=
    path_is_inert Dialect.standard [(.str "x", .int 1)] ".userID.\x60; :x -- 'y'./*"
      "SELECT \x60a\x60".toList "\x60b:x\x60, :x".toList hOut
  rw [hText] at hPath hBind
  exact ⟨hOut, hPath, hBind⟩

end Sql

end SqlWeave
