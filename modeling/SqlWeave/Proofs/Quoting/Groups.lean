import Mathlib.Data.List.Forall2
import SqlWeave.Proofs.Number.Numeral
import SqlWeave.Proofs.Text.Runs
import SqlWeave.Sql.Literal

/-!
# Groups of literals are read back

The literal of a sequence is its items with commas between them, where a sequence among the items
is a group in parentheses.  It is read back from left to right: the reader keeps the items of the
groups that are open, and knows whether the next thing is an item, a separator or an end.  A quoted
text is read up to its closing quote, so that no comma and no parenthesis in it is taken for a
separator or a group.

## Main results

* `cutText?_escaped`, `cutScalar?_intText`: the literals of texts and integers are read back.
* `IsItem.reads`: so is every item, as one item, whatever stands around it.
* `sequence_isReadBack`: so is every sequence, up to the difference of lists and tuples.
-/

namespace SqlWeave.Sql.Literal

open Number

/-! ## Reading literals -/

/-- The character that an escaped one stands for. -/
def unescapedChar : Char → Char
  | '0' => '\x00'
  | 'n' => '\n'
  | 'r' => '\r'
  | 'Z' => '\x1a'
  | c => c

/-- The text of a literal behind its opening quote, and what stands behind the literal. -/
def cutText? : List Char → Option (List Char × List Char)
  | [] => none
  | '\x27' :: rest => some ([], rest)
  | '\\' :: c :: rest => (cutText? rest).map fun r => (unescapedChar c :: r.1, r.2)
  | c :: rest => (cutText? rest).map fun r => (c :: r.1, r.2)

/-- A number in decimal digits, and what stands behind it. -/
def cutNatural? (s : List Char) : Option (Nat × List Char) :=
  let digits := s.takeWhile Char.isDigit
  if digits.isEmpty then none else some (ofAsciiDigits digits, s.dropWhile Char.isDigit)

/-- A literal that is no group, and what stands behind it. -/
def cutScalar? : List Char → Option (Value × List Char)
  | 'N' :: 'U' :: 'L' :: 'L' :: rest => some (.null, rest)
  | '\x27' :: rest => (cutText? rest).map fun r => (.ofChars r.1, r.2)
  | '-' :: rest => (cutNatural? rest).map fun r => (.int (-r.1), r.2)
  | s => (cutNatural? s).map fun r => (.int r.1, r.2)

theorem length_of_cutText? {s : List Char} {r : List Char × List Char} (h : cutText? s = some r) :
    r.2.length < s.length := by
  fun_induction cutText? s generalizing r with
  | case1 => cases h
  | case2 rest =>
    cases h
    exact Nat.lt_succ_self _
  | case3 c rest ih =>
    obtain ⟨inner, hInner, hEq⟩ := Option.map_eq_some_iff.mp h
    cases hEq
    have hShorter : inner.2.length < rest.length := ih hInner
    exact Nat.lt_succ_of_lt (Nat.lt_succ_of_lt hShorter)
  | case4 c rest _ _ ih =>
    obtain ⟨inner, hInner, hEq⟩ := Option.map_eq_some_iff.mp h
    cases hEq
    have hShorter : inner.2.length < rest.length := ih hInner
    exact Nat.lt_succ_of_lt hShorter

theorem length_of_cutNatural? {s : List Char} {r : Nat × List Char} (h : cutNatural? s = some r) :
    r.2.length < s.length := by
  simp only [cutNatural?, Option.ite_none_left_eq_some, Option.some.injEq] at h
  obtain ⟨hDigits, rfl⟩ := h
  have hLength := congrArg List.length (List.takeWhile_append_dropWhile (p := Char.isDigit) (l := s))
  have hPos := List.length_pos_iff.mpr fun hNone => hDigits (List.isEmpty_iff.mpr hNone)
  rw [List.length_append] at hLength
  show (s.dropWhile Char.isDigit).length < s.length
  omega

/-- What stands behind a literal is shorter than the text. -/
theorem length_of_cutScalar? {s : List Char} {v : Value} {tail : List Char}
    (h : cutScalar? s = some (v, tail)) : tail.length < s.length := by
  unfold cutScalar? at h
  split at h
  · cases h
    simp
    omega
  all_goals
    obtain ⟨r, hr, hEq⟩ := Option.map_eq_some_iff.mp h
    cases hEq
  · exact Nat.lt_succ_of_lt (length_of_cutText? hr)
  · exact Nat.lt_succ_of_lt (length_of_cutNatural? hr)
  · exact length_of_cutNatural? hr

/-! ## Reading sequences -/

/-- Where in a sequence a reader stands. -/
inductive Place
  /-- At its start, where an item or the end comes next. -/
  | start
  /-- Behind a separator, where an item comes next. -/
  | due
  /-- Behind an item, where a separator or the end comes next. -/
  | done
  deriving DecidableEq, Repr

/-- Reads a sequence to the end of the text.  `groups` are the items in front of the groups that
are open, the innermost group first, and `items` those in the innermost one; both are kept in
reverse. -/
def readFrom? (groups : List (List Value)) (items : List Value) (place : Place) (s : List Char) :
    Option (List Value) :=
  match s with
  | [] => if groups.isEmpty && place != .due then some items.reverse else none
  | '(' :: rest => if place == .done then none else readFrom? (items :: groups) [] .start rest
  | ')' :: rest =>
    match groups with
    | [] => none
    | outer :: others =>
      if place == .due then none
      else readFrom? others (.list items.reverse :: outer) .done rest
  | ',' :: ' ' :: rest => if place == .done then readFrom? groups items .due rest else none
  | c :: rest =>
    if place == .done then none
    else
      match h : cutScalar? (c :: rest) with
      | some (v, tail) =>
        have : tail.length ≤ rest.length := Nat.le_of_lt_succ (length_of_cutScalar? h)
        readFrom? groups (v :: items) .done tail
      | none => none
termination_by s.length

/-- The items of a sequence, sequences among them as lists. -/
def readSequence? (s : List Char) : Option (List Value) :=
  readFrom? [] [] .start s

section Steps

variable (groups : List (List Value)) (items : List Value) {place : Place} (rest : List Char)

theorem readFrom?_open (h : place ≠ .done) :
    readFrom? groups items place ('(' :: rest) = readFrom? (items :: groups) [] .start rest := by
  rw [readFrom?, if_neg (by simpa using h)]

theorem readFrom?_close (outer : List Value) (h : place ≠ .due) :
    readFrom? (outer :: groups) items place (')' :: rest) =
      readFrom? groups (.list items.reverse :: outer) .done rest := by
  rw [readFrom?, if_neg (by simpa using h)]

theorem readFrom?_separator :
    readFrom? groups items .done (',' :: ' ' :: rest) = readFrom? groups items .due rest := by
  rw [readFrom?, if_pos (by decide)]

theorem readFrom?_nil (h : place ≠ .due) : readFrom? [] items place [] = some items.reverse := by
  rw [readFrom?, if_pos (by simpa using h)]

variable {rest}

/-- What begins neither a group nor a separator and ends no group is a literal. -/
theorem readFrom?_scalar {v : Value} {tail : List Char} (h : place ≠ .done)
    (hScalar : cutScalar? rest = some (v, tail)) :
    readFrom? groups items place rest = readFrom? groups (v :: items) .done tail := by
  rw [readFrom?.eq_def]
  split
  · cases hScalar
  · cases hScalar
  · cases hScalar
  · cases hScalar
  · next c rest _ _ _ =>
    rw [if_neg (by simpa using h)]
    split
    · next hFound =>
      rw [hScalar] at hFound
      cases hFound
      rfl
    · next hNone =>
      rw [hScalar] at hNone
      cases hNone

end Steps

/-! ## Literals of texts and integers -/

/-- An escaped character is read back. -/
theorem cutText?_escapedChar (c : Char) (s : List Char) :
    cutText? (escapedChar c ++ s) = (cutText? s).map fun r => (c :: r.1, r.2) := by
  by_cases hZero : c = '\x00'
  · subst hZero; rfl
  by_cases hBreak : c = '\n'
  · subst hBreak; rfl
  by_cases hReturn : c = '\r'
  · subst hReturn; rfl
  by_cases hEnd : c = '\x1a'
  · subst hEnd; rfl
  by_cases hDouble : c = '\x22'
  · subst hDouble; rfl
  by_cases hSingle : c = '\x27'
  · subst hSingle; rfl
  by_cases hSlash : c = '\\'
  · subst hSlash; rfl
  have hPlain : escapedChar c = [c] := by
    simp [escapedChar, hZero, hBreak, hReturn, hEnd, hDouble, hSingle, hSlash]
  rw [hPlain, List.singleton_append, cutText?]
  · exact hSingle
  · exact fun _ _ hc => absurd hc hSlash

/-- A text is read up to the quote that closes its literal. -/
theorem cutText?_escaped (name s : List Char) :
    cutText? (name.flatMap escapedChar ++ '\x27' :: s) = some (name, s) := by
  induction name with
  | nil => rfl
  | cons c rest ih => rw [List.flatMap_cons, List.append_assoc, cutText?_escapedChar, ih]; rfl

theorem cutScalar?_ofText (name s : List Char) :
    cutScalar? (ofText name ++ s) = some (.ofChars name, s) := by
  have hText : ofText name ++ s = '\x27' :: (name.flatMap escapedChar ++ '\x27' :: s) := by
    simp [ofText]
  rw [hText, cutScalar?, cutText?_escaped]
  rfl

/-- The digits of a number are read to their end. -/
theorem cutNatural?_natText (n : Nat) {s : List Char}
    (hStop : ∀ c, s.head? = some c → c.isDigit = false) :
    cutNatural? (natText n ++ s) = some (n, s) := by
  have hDigits : ∀ c ∈ natText n, c.isDigit = true := digits_natText
  have hNonempty : (natText n).isEmpty = false := by
    obtain ⟨c, rest, hText, -⟩ := natText_eq_cons n
    rw [hText]
    rfl
  rw [cutNatural?, Text.takeWhile_append_of_run hDigits hStop,
    Text.dropWhile_append_of_run hDigits hStop, hNonempty, if_neg Bool.false_ne_true,
    ofAsciiDigits_natText]

/-- An integer is read to the end of its digits. -/
theorem cutScalar?_intText (n : Int) {s : List Char}
    (hStop : ∀ c, s.head? = some c → c.isDigit = false) :
    cutScalar? (intText n ++ s) = some (.int n, s) := by
  have hNumber := cutNatural?_natText n.natAbs hStop
  unfold intText
  split
  · next hNegative =>
    have hValue : -(n.natAbs : Int) = n := by omega
    rw [List.cons_append, cutScalar?, hNumber, Option.map_some, hValue]
  · next hNegative =>
    have hValue : (n.natAbs : Int) = n := by omega
    obtain ⟨c, rest, hText, hDigits⟩ := natText_eq_cons n.natAbs
    have hFirst : c.isDigit = true := hDigits c (by rw [hText]; exact List.mem_cons_self)
    have hNe : ∀ e : Char, e.isDigit = false → c ≠ e := by
      rintro e he rfl
      rw [hFirst] at he
      cases he
    rw [hText, List.cons_append] at hNumber ⊢
    rw [cutScalar?, hNumber, Option.map_some, hValue]
    · exact fun _ hEq => hNe 'N' rfl (List.cons.inj hEq).1
    · exact fun _ hEq => hNe '\x27' rfl (List.cons.inj hEq).1
    · exact fun _ hEq => hNe '-' rfl (List.cons.inj hEq).1

/-! ## Items -/

/-- The null value, an integer that can be written, a text, or a list or tuple of such items. -/
inductive IsItem : Value → Prop
  | null : IsItem .null
  | int {n : Int} (h : isWritable n = true) : IsItem (.int n)
  | str (s : String) : IsItem (.str s)
  | list {items : List Value} (h : ∀ v ∈ items, IsItem v) : IsItem (.list items)
  | tuple {items : List Value} (h : ∀ v ∈ items, IsItem v) : IsItem (.tuple items)

mutual

/-- The value with lists in place of its tuples. -/
def asLists : Value → Value
  | .list items => .list (asListsOf items)
  | .tuple items => .list (asListsOf items)
  | v => v

/-- The items of a sequence with lists in place of their tuples. -/
def asListsOf : List Value → List Value
  | [] => []
  | v :: rest => asLists v :: asListsOf rest

end

/-- The text is read as one item, whatever stands around it. -/
def Reads (text : List Char) (v : Value) : Prop :=
  ∀ (groups : List (List Value)) (items : List Value) (place : Place) (s : List Char),
    place ≠ .done → (∀ c, s.head? = some c → c.isDigit = false) →
      readFrom? groups items place (text ++ s) = readFrom? groups (v :: items) .done s

/-- Items with separators between them are read one by one. -/
theorem readFrom?_items {text : List Char} {v : Value} (hFirst : Reads text v)
    {texts : List (List Char)} {vs : List Value} (hRest : List.Forall₂ Reads texts vs)
    (groups : List (List Value)) (items : List Value) {place : Place} (hPlace : place ≠ .done)
    {s : List Char} (hStop : ∀ c, s.head? = some c → c.isDigit = false) :
    readFrom? groups items place (commaJoined (text :: texts) ++ s) =
      readFrom? groups (vs.reverse ++ v :: items) .done s := by
  induction hRest generalizing text v items place with
  | nil =>
    rw [commaJoined, List.intercalate_singleton]
    exact hFirst groups items place s hPlace hStop
  | @cons next v' texts vs hNext hRest ih =>
    have hJoined : commaJoined (text :: next :: texts) ++ s =
        text ++ ',' :: ' ' :: (commaJoined (next :: texts) ++ s) := by
      simp [commaJoined, List.intercalate_cons_cons]
    have hComma : ∀ c, (',' :: ' ' :: (commaJoined (next :: texts) ++ s)).head? = some c →
        c.isDigit = false := by
      rintro c ⟨⟩
      rfl
    rw [hJoined, hFirst groups items place _ hPlace hComma, readFrom?_separator,
      ih hNext (v :: items) (by decide), List.reverse_cons, List.append_assoc]
    rfl

/-- The items of a sequence are read up to its end. -/
theorem readFrom?_sequence {texts : List (List Char)} {vs : List Value}
    (h : List.Forall₂ Reads texts vs) (groups : List (List Value)) {s : List Char}
    (hStop : ∀ c, s.head? = some c → c.isDigit = false) :
    ∃ place, place ≠ .due ∧
      readFrom? groups [] .start (commaJoined texts ++ s) = readFrom? groups vs.reverse place s := by
  cases h with
  | nil => exact ⟨.start, by decide, rfl⟩
  | cons hFirst hRest =>
    refine ⟨.done, by decide, ?_⟩
    rw [readFrom?_items hFirst hRest groups [] (by decide) hStop, List.reverse_cons]

/-- A group is read as the list of its items. -/
theorem reads_group {texts : List (List Char)} {vs : List Value}
    (h : List.Forall₂ Reads texts vs) : Reads ('(' :: commaJoined texts ++ [')']) (.list vs) := by
  intro groups items place s hPlace _
  have hText : '(' :: commaJoined texts ++ [')'] ++ s = '(' :: (commaJoined texts ++ ')' :: s) := by
    simp
  have hClose : ∀ c, (')' :: s).head? = some c → c.isDigit = false := by
    rintro c ⟨⟩
    rfl
  obtain ⟨place', hPlace', hItems⟩ := readFrom?_sequence h (items :: groups) hClose
  rw [hText, readFrom?_open groups items _ hPlace, hItems, readFrom?_close groups _ _ _ hPlace',
    List.reverse_reverse]

theorem reads_scalar {text : List Char} {v : Value}
    (h : ∀ s : List Char, (∀ c, s.head? = some c → c.isDigit = false) →
      cutScalar? (text ++ s) = some (v, s)) : Reads text v :=
  fun groups items _ s hPlace hStop => readFrom?_scalar groups items hPlace (h s hStop)

/-- The literals of items are read one by one if each of them is. -/
theorem exists_ofItems {items : List Value}
    (h : ∀ v ∈ items, ∃ text, ofItem v = .ok text ∧ Reads text (asLists v)) :
    ∃ texts, ofItems items = .ok texts ∧ List.Forall₂ Reads texts (asListsOf items) := by
  induction items with
  | nil => exact ⟨[], rfl, .nil⟩
  | cons v rest ih =>
    obtain ⟨⟨text, hText, hReads⟩, hRest⟩ := List.forall_mem_cons.mp h
    obtain ⟨texts, hTexts, hAll⟩ := ih hRest
    refine ⟨text :: texts, ?_, .cons hReads hAll⟩
    rw [ofItems, hText, hTexts]
    rfl

/-- An item has a literal, and the literal is read as the item. -/
theorem IsItem.reads {v : Value} (h : IsItem v) :
    ∃ text, ofItem v = .ok text ∧ Reads text (asLists v) := by
  induction h with
  | null => exact ⟨"NULL".toList, rfl, reads_scalar fun s _ => rfl⟩
  | @int n hWritable =>
    refine ⟨intText n, ?_, reads_scalar fun s hStop => cutScalar?_intText n hStop⟩
    rw [ofItem, ofScalar, if_pos hWritable]
    all_goals nofun
  | str name =>
    refine ⟨ofText name.toList, rfl, reads_scalar fun s _ => ?_⟩
    rw [cutScalar?_ofText, Value.ofChars, String.ofList_toList]
    rfl
  | list _ ih =>
    obtain ⟨texts, hTexts, hReads⟩ := exists_ofItems ih
    exact ⟨_, by rw [ofItem, hTexts]; rfl, reads_group hReads⟩
  | tuple _ ih =>
    obtain ⟨texts, hTexts, hReads⟩ := exists_ofItems ih
    exact ⟨_, by rw [ofItem, hTexts]; rfl, reads_group hReads⟩

/-! ## The main result -/

/-- A list or tuple of items. -/
inductive IsSequence : Value → Prop
  | list {items : List Value} (h : ∀ v ∈ items, IsItem v) : IsSequence (.list items)
  | tuple {items : List Value} (h : ∀ v ∈ items, IsItem v) : IsSequence (.tuple items)

/-- The value that the literal of a sequence is read as. -/
def read? (literal : List Char) : Option Value :=
  (readSequence? literal).map .list

theorem readSequence?_commaJoined {texts : List (List Char)} {vs : List Value}
    (h : List.Forall₂ Reads texts vs) : readSequence? (commaJoined texts) = some vs := by
  obtain ⟨place, hPlace, hItems⟩ := readFrom?_sequence h [] (s := []) nofun
  rw [List.append_nil] at hItems
  rw [readSequence?, hItems, readFrom?_nil _ hPlace, List.reverse_reverse]

/-- The literals of items in a row are read as the list of these items. -/
theorem exists_read?_ofItems {items : List Value} (h : ∀ v ∈ items, IsItem v) :
    ∃ texts, ofItems items = .ok texts ∧
      read? (commaJoined texts) = some (.list (asListsOf items)) := by
  obtain ⟨texts, hTexts, hReads⟩ := exists_ofItems fun v hMem => (h v hMem).reads
  refine ⟨texts, hTexts, ?_⟩
  rw [read?, readSequence?_commaJoined hReads]
  rfl

theorem IsSequence.read?_ofValue {v : Value} (h : IsSequence v) :
    ∃ literal, ofValue v = .ok literal ∧ read? literal = some (asLists v) := by
  cases h with
  | list h =>
    obtain ⟨texts, hTexts, hRead⟩ := exists_read?_ofItems h
    exact ⟨commaJoined texts, by rw [ofValue, hTexts]; rfl, hRead⟩
  | tuple h =>
    obtain ⟨texts, hTexts, hRead⟩ := exists_read?_ofItems h
    exact ⟨commaJoined texts, by rw [ofValue, hTexts]; rfl, hRead⟩

/-- Every list or tuple that is nested to any depth and holds null values, integers that can be
written, and texts has a literal, which is read back as the value with lists in place of its
tuples.  So two such values have the same literal only if they are the same up to this. -/
theorem sequence_isReadBack :
    (∀ v : Value, IsSequence v →
      ∃ literal, ofValue v = .ok literal ∧ read? literal = some (asLists v)) ∧
    ∀ v w : Value, IsSequence v → IsSequence w → ofValue v = ofValue w → asLists v = asLists w := by
  refine ⟨fun v h => h.read?_ofValue, fun v w hv hw hSame => ?_⟩
  obtain ⟨literal, hLiteral, hRead⟩ := hv.read?_ofValue
  obtain ⟨literal', hLiteral', hRead'⟩ := hw.read?_ofValue
  obtain rfl : literal = literal' := Except.ok.inj (hLiteral.symm.trans (hSame.trans hLiteral'))
  exact Option.some.inj (hRead.symm.trans hRead')

/-- Rows with empty groups, and a text with everything in it that stands between items. -/
theorem sequence_isReadBack_rows :
    let v := Value.list [.tuple [.str "', (NULL", .int (-7), .list []], .list [.list [.null]]]
    IsSequence v ∧ ∃ literal, ofValue v = .ok literal ∧
      read? literal = some (.list [.list [.str "', (NULL", .int (-7), .list []],
        .list [.list [.null]]]) := by
  intro v
  have hText : IsItem (.str "', (NULL") := .str _
  have hRow : IsItem (.tuple [.str "', (NULL", .int (-7), .list []]) := by
    refine .tuple ?_
    simp only [List.forall_mem_cons]
    exact ⟨.str _, .int (by decide), .list nofun, nofun⟩
  have hNested : IsItem (.list [.list [.null]]) :=
    .list (by simpa using .list (by simpa using .null))
  have hSequence : IsSequence v := .list (by
    simp only [List.forall_mem_cons]
    exact ⟨hRow, hNested, nofun⟩)
  exact ⟨hSequence, sequence_isReadBack.1 v hSequence⟩

/-- The least integer that cannot be written leaves a sequence without a literal. -/
theorem sequence_unwritable :
    ofValue (.list [.int (10 ^ 4300)]) = .error .unwritableInteger := by
  have hLong : ¬ isWritable (10 ^ 4300) = true := by
    rw [isWritable_pow_iff]
    decide
  rw [ofValue, ofItems, ofItem, ofScalar, if_neg hLong]
  · rfl
  all_goals nofun

end SqlWeave.Sql.Literal
