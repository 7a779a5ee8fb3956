import SqlWeave.Sql.Statement

/-!
# The modes of a scan

A scan of SQL text goes from character to character through a few modes: it stands
outside of everything protected, inside a comment, or inside a quoted region, perhaps
behind a character that can begin or end one of these.  `Mode.next` is the step and
`Mode.after` the run, so that the mode behind a text that is put together is a matter of
its parts.

A doubled quote needs no mode of its own: it closes a region and opens one again.

## Main results

* `statements_eq_split`: the statements of a text are its pieces between the semicolons
  that are read outside.
* `Mode.split_append`: the pieces of a text that is put together are the pieces of its
  parts, with the last one and the first one joined.
* `endsOutside_iff`: a scan ends outside exactly if a semicolon put behind the text would
  separate.
-/

namespace SqlWeave.Sql

/-- Where a scan stands. -/
inductive Mode
  | plain
  /-- Outside, behind a dash that can begin a comment. -/
  | dash
  /-- Outside, behind a slash that can begin a comment. -/
  | slash
  /-- In a comment that ends with its line. -/
  | line
  /-- In a comment that ends with a star and a slash. -/
  | block
  /-- In such a comment, behind a star. -/
  | star
  | quoted (quote : Char)
  /-- In a quoted region, behind a backslash. -/
  | escaped (quote : Char)
  deriving DecidableEq, Repr

namespace Mode

/-- Is the scan outside of quoted regions and comments? -/
def isOutside : Mode → Bool
  | plain | dash | slash => true
  | _ => false

/-- The mode behind a character that is read outside and ends nothing. -/
def entry (c : Char) : Mode :=
  if Region.isQuote c then quoted c
  else if c == '-' then dash
  else if c == '/' then slash
  else plain

/-- The mode behind one more character. -/
def next : Mode → Char → Mode
  | plain, c => entry c
  | dash, c => if c == '-' then line else entry c
  | slash, c => if c == '*' then block else entry c
  | line, c => if c == '\n' then plain else line
  | block, c => if c == '*' then star else block
  | star, c => if c == '/' then plain else if c == '*' then star else block
  | quoted q, c =>
    if c == q then plain
    else if c == '\\' && Region.hasEscapes q then escaped q
    else quoted q
  | escaped q, _ => quoted q

/-- The mode behind a text. -/
def after (m : Mode) (s : List Char) : Mode :=
  s.foldl next m

@[simp] theorem after_nil (m : Mode) : m.after [] = m := rfl

@[simp] theorem after_cons (m : Mode) (c : Char) (s : List Char) :
    m.after (c :: s) = (m.next c).after s := rfl

@[simp] theorem after_append (m : Mode) (s t : List Char) :
    m.after (s ++ t) = (m.after s).after t :=
  List.foldl_append

/-! ## Splitting by modes -/

/-- The pieces of a text between the semicolons that are read outside. -/
def split (m : Mode) : List Char → List (List Char)
  | [] => [[]]
  | c :: rest =>
    if c == ';' && m.isOutside then [] :: split (m.next c) rest
    else extendHead [c] (split (m.next c) rest)

end Mode

/-- The pieces of two texts in a row: the last piece of the first one goes on with the
first piece of the second one. -/
def joinPieces : List (List Char) → List (List Char) → List (List Char)
  | [], pieces => pieces
  | [piece], pieces => extendHead piece pieces
  | piece :: more, pieces => piece :: joinPieces more pieces

@[simp] theorem extendHead_cons (front piece : List Char) (pieces : List (List Char)) :
    extendHead front (piece :: pieces) = (front ++ piece) :: pieces := rfl

@[simp] theorem extendHead_ne_nil (front : List Char) (pieces : List (List Char)) :
    extendHead front pieces ≠ [] := by
  cases pieces <;> simp [extendHead]

@[simp] theorem extendHead_append (s t : List Char) (pieces : List (List Char)) :
    extendHead (s ++ t) pieces = extendHead s (extendHead t pieces) := by
  cases pieces <;> simp [extendHead]

theorem extendHead_nil {pieces : List (List Char)} (h : pieces ≠ []) :
    extendHead [] pieces = pieces := by
  cases pieces with
  | nil => exact absurd rfl h
  | cons piece pieces => rfl

@[simp] theorem joinPieces_singleton (piece : List Char) (pieces : List (List Char)) :
    joinPieces [piece] pieces = extendHead piece pieces := rfl

theorem joinPieces_cons (piece : List Char) {more : List (List Char)} (h : more ≠ [])
    (pieces : List (List Char)) :
    joinPieces (piece :: more) pieces = piece :: joinPieces more pieces := by
  cases more with
  | nil => exact absurd rfl h
  | cons next more => rfl

theorem joinPieces_extendHead (front : List Char) {more : List (List Char)} (h : more ≠ [])
    (pieces : List (List Char)) :
    joinPieces (extendHead front more) pieces = extendHead front (joinPieces more pieces) := by
  match more with
  | [] => exact absurd rfl h
  | [piece] => simp
  | piece :: next :: more => simp [joinPieces]

/-- The joining of pieces, part by part. -/
theorem joinPieces_eq {pieces more : List (List Char)} (hPieces : pieces ≠ []) (hMore : more ≠ []) :
    joinPieces pieces more =
      pieces.dropLast ++ (pieces.getLast hPieces ++ more.head hMore) :: more.tail := by
  match pieces with
  | [] => exact absurd rfl hPieces
  | [piece] =>
    cases more with
    | nil => exact absurd rfl hMore
    | cons first more => simp
  | piece :: next :: rest =>
    have ih := joinPieces_eq (List.cons_ne_nil next rest) hMore
    simp [joinPieces_cons, ih]

namespace Mode

@[simp] theorem split_nil (m : Mode) : m.split [] = [[]] := rfl

theorem split_cons (m : Mode) (c : Char) (rest : List Char) :
    m.split (c :: rest) =
      if c == ';' && m.isOutside then [] :: (m.next c).split rest
      else extendHead [c] ((m.next c).split rest) := rfl

@[simp] theorem split_ne_nil (m : Mode) (s : List Char) : m.split s ≠ [] := by
  cases s with
  | nil => simp
  | cons c rest => rw [split_cons]; split <;> simp

/-- A character that does not separate goes in front of the first piece. -/
theorem split_cons_of_inside {m : Mode} {c : Char} (h : c ≠ ';' ∨ m.isOutside = false)
    (rest : List Char) : m.split (c :: rest) = extendHead [c] ((m.next c).split rest) := by
  rw [split_cons, if_neg]
  rcases h with h | h <;> simp [h]

/-- A semicolon that is read outside separates. -/
theorem split_semicolon {m : Mode} (h : m.isOutside = true) (rest : List Char) :
    m.split (';' :: rest) = [] :: Mode.plain.split rest := by
  have hNext : m.next ';' = .plain := by
    cases m <;> first | rfl | simp [isOutside] at h
  rw [split_cons, hNext]
  simp [h]

/-- The pieces of two texts in a row. -/
theorem split_append (m : Mode) (s t : List Char) :
    m.split (s ++ t) = joinPieces (m.split s) ((m.after s).split t) := by
  induction s generalizing m with
  | nil =>
    rw [List.nil_append, split_nil, joinPieces_singleton, after_nil,
      extendHead_nil (split_ne_nil m t)]
  | cons c rest ih =>
    rw [List.cons_append, split_cons, split_cons, ih, after_cons]
    split
    · rw [joinPieces_cons _ (split_ne_nil _ _)]
    · rw [joinPieces_extendHead _ (split_ne_nil _ _)]

/-- A text without a separator is one piece. -/
theorem split_append_of_single {m : Mode} {s : List Char} (h : m.split s = [s])
    (t : List Char) : m.split (s ++ t) = extendHead s ((m.after s).split t) := by
  rw [split_append, h, joinPieces_singleton]

/-! ## Regions are read as one piece -/

section Regions

theorem isQuote_ne_semicolon {q : Char} (h : Region.isQuote q = true) : q ≠ ';' := by
  rintro rfl
  exact absurd h (by decide)

theorem entry_of_isQuote {q : Char} (h : Region.isQuote q = true) : entry q = quoted q := by
  rw [entry, if_pos h]

theorem isQuote_cases {q : Char} (h : Region.isQuote q = true) :
    q = '\x27' ∨ q = '\x22' ∨ q = '\x60' := by
  simpa [Region.isQuote, backquote, or_assoc] using h

/-- The inside of a quoted region holds no separator, and the region is left at its end
unless the text ends there. -/
theorem quoted_runQuoted {q : Char} (hq : Region.isQuote q = true) (s : List Char) :
    (quoted q).split (Region.runQuoted q s).1 = [(Region.runQuoted q s).1] ∧
      ((quoted q).after (Region.runQuoted q s).1 = plain ∨ (Region.runQuoted q s).2 = []) := by
  have hSemi := isQuote_ne_semicolon hq
  fun_induction Region.runQuoted q s with
  | case1 => simp
  | case2 c hc d more hd ih =>
    obtain ⟨hSplit, hAfter⟩ := ih
    simp only [beq_iff_eq] at hc hd
    subst hc hd
    simp only [Region.Cut.extend, List.cons_append, List.nil_append]
    have hOpen : (quoted d).next d = plain := by simp [next]
    have hAgain : plain.next d = quoted d := by simp [next, entry_of_isQuote hq]
    constructor
    · rw [split_cons_of_inside (.inr rfl), hOpen, split_cons_of_inside (.inl hSemi), hAgain,
        hSplit]
      rfl
    · rw [after_cons, after_cons, hOpen, hAgain]
      exact hAfter
  | case3 c hc d more hd =>
    simp_all [split_cons_of_inside, isOutside, next]
  | case4 c hc =>
    simp_all [split_cons_of_inside, isOutside, next]
  | case5 c hc hEscape d more ih =>
    obtain ⟨hSplit, hAfter⟩ := ih
    have hOpen : (quoted q).next c = escaped q := by simp_all [next]
    have hAgain : (escaped q).next d = quoted q := rfl
    simp only [Region.Cut.extend, List.cons_append, List.nil_append]
    constructor
    · rw [split_cons_of_inside (.inr rfl), hOpen, split_cons_of_inside (.inr rfl), hAgain, hSplit]
      rfl
    · rw [after_cons, after_cons, hOpen, hAgain]
      exact hAfter
  | case6 c hc hEscape =>
    simp_all [split_cons_of_inside, isOutside, next]
  | case7 c rest hc hEscape ih =>
    obtain ⟨hSplit, hAfter⟩ := ih
    have hStay : (quoted q).next c = quoted q := by simp_all [next]
    simp only [Region.Cut.extend, List.cons_append, List.nil_append]
    constructor
    · rw [split_cons_of_inside (.inr rfl), hStay, hSplit]
      rfl
    · rw [after_cons, hStay]
      exact hAfter

/-- The inside of a line comment holds no separator. -/
theorem line_of_no_break {s : List Char} (h : ∀ c ∈ s, c ≠ '\n') :
    line.split s = [s] ∧ line.after s = line := by
  induction s with
  | nil => simp
  | cons c rest ih =>
    have hStay : line.next c = line := by simp [next, h c (by simp)]
    obtain ⟨hSplit, hAfter⟩ := ih fun d hd => h d (by simp [hd])
    constructor
    · rw [split_cons_of_inside (.inr rfl), hStay, hSplit]
      rfl
    · rw [after_cons, hStay, hAfter]

/-- What follows is read as it is outside: the scan is outside already, or it is in a
comment that ends at once, or nothing follows. -/
def Resumes (m : Mode) (s : List Char) : Prop :=
  m = plain ∨ s = [] ∨ m = line ∧ s.head? = some '\n'

theorem Resumes.split {m : Mode} {s : List Char} (h : m.Resumes s) : m.split s = plain.split s := by
  rcases h with rfl | rfl | ⟨rfl, hHead⟩
  · rfl
  · rfl
  · obtain ⟨rest, rfl⟩ := List.head?_eq_some_iff.mp hHead
    rw [split_cons_of_inside (.inr rfl), split_cons_of_inside (.inl (by decide))]
    rfl

theorem Resumes.after {m : Mode} {s : List Char} (h : m.Resumes s) (hs : s ≠ []) :
    m.after s = plain.after s := by
  rcases h with rfl | hNil | ⟨rfl, hHead⟩
  · rfl
  · exact absurd hNil hs
  · obtain ⟨rest, rfl⟩ := List.head?_eq_some_iff.mp hHead
    rfl

/-- The rest of a line in a comment holds no separator, and the comment ends behind it. -/
theorem line_restOfLine (s : List Char) :
    line.split (Region.restOfLine s).1 = [(Region.restOfLine s).1] ∧
      (line.after (Region.restOfLine s).1).Resumes (Region.restOfLine s).2 := by
  obtain ⟨hSplit, hAfter⟩ := line_of_no_break (s := (Region.restOfLine s).1) fun c hc => by
    simpa using List.all_eq_true.mp List.all_takeWhile c hc
  refine ⟨hSplit, ?_⟩
  rw [hAfter]
  have hHead := List.head?_dropWhile_not (· != '\n') s
  cases hRest : (s.dropWhile (· != '\n')) with
  | nil => exact .inr (.inl hRest)
  | cons c tail =>
    rw [hRest] at hHead
    exact .inr (.inr ⟨rfl, by simpa [Region.restOfLine, hRest] using hHead⟩)

/-- A scan in a block comment that does not stand between the two characters of the
comment's end. -/
def InBlock (m : Mode) (s : List Char) : Prop :=
  m = block ∨ m = star ∧ s.head? ≠ some '/'

/-- The step of a scan in a block comment that does not end there. -/
theorem InBlock.next {m : Mode} {c : Char} {rest : List Char} (h : InBlock m (c :: rest))
    (hEnd : ∀ more, c = '*' → rest = '/' :: more → False) :
    m.isOutside = false ∧ InBlock (m.next c) rest := by
  by_cases hStar : c = '*'
  · have hSlash : rest.head? ≠ some '/' := by
      intro hHead
      obtain ⟨more, hRest⟩ := List.head?_eq_some_iff.mp hHead
      exact hEnd more hStar hRest
    subst hStar
    rcases h with rfl | ⟨rfl, -⟩ <;> exact ⟨rfl, .inr ⟨rfl, hSlash⟩⟩
  · rcases h with rfl | ⟨rfl, hSlash⟩
    · exact ⟨rfl, .inl (by simp [Mode.next, hStar])⟩
    · have : c ≠ '/' := by simpa using hSlash
      exact ⟨rfl, .inl (by simp [Mode.next, hStar, this])⟩

/-- A block comment that is closed holds no separator and is left at its end. -/
theorem block_closeBlock? {m : Mode} {s : List Char} {cut : Region.Cut} (hm : InBlock m s)
    (h : Region.closeBlock? s = some cut) :
    m.split cut.1 = [cut.1] ∧ m.after cut.1 = plain := by
  fun_induction Region.closeBlock? s generalizing m cut with
  | case1 => cases h
  | case2 more =>
    cases h
    have hStar : m.isOutside = false ∧ m.next '*' = star := by
      rcases hm with rfl | ⟨rfl, -⟩ <;> exact ⟨rfl, rfl⟩
    rw [split_cons_of_inside (.inr hStar.1), hStar.2, after_cons, hStar.2]
    exact ⟨rfl, rfl⟩
  | case3 c rest hEnd ih =>
    obtain ⟨inner, hInner, rfl⟩ := Option.map_eq_some_iff.mp h
    have hStep := hm.next hEnd
    obtain ⟨hSplit, hAfter⟩ := ih hStep.2 hInner
    simp only [Region.Cut.extend, List.cons_append, List.nil_append]
    rw [split_cons_of_inside (.inr hStep.1), hSplit, after_cons, hAfter]
    exact ⟨rfl, rfl⟩

/-- A block comment that is never closed holds no separator. -/
theorem block_unclosed {m : Mode} {s : List Char} (hm : InBlock m s)
    (h : Region.closeBlock? s = none) : m.split s = [s] := by
  fun_induction Region.closeBlock? s generalizing m with
  | case1 => rfl
  | case2 more => cases h
  | case3 c rest hEnd ih =>
    have hStep := hm.next hEnd
    rw [split_cons_of_inside (.inr hStep.1), ih hStep.2 (Option.map_eq_none_iff.mp h)]
    rfl

/-- The two characters that open a comment go with what is read behind them. -/
theorem split_opener {c d : Char} {s : List Char} (hc : c ≠ ';') (hd : d ≠ ';')
    (h : ((plain.next c).next d).split s = [s]) : plain.split (c :: d :: s) = [c :: d :: s] := by
  rw [split_cons_of_inside (.inl hc), split_cons_of_inside (.inl hd), h]
  rfl

/-- A region is one piece, and what stands behind it is read as it is outside. -/
theorem plain_openEnded? {s : List Char} {cut : Region.Cut} (h : Region.openEnded? s = some cut) :
    plain.split cut.1 = [cut.1] ∧ (plain.after cut.1).Resumes cut.2 := by
  unfold Region.openEnded? at h
  split at h
  · rename_i rest
    cases h
    obtain ⟨hSplit, hTail⟩ := line_restOfLine rest
    simp only [Region.Cut.extend, List.cons_append, List.nil_append]
    exact ⟨split_opener (by decide) (by decide) hSplit, hTail⟩
  · rename_i rest
    cases h
    cases hClose : Region.closeBlock? rest with
    | none =>
      have hSplit := block_unclosed (.inl rfl) hClose
      simp only [Region.Cut.extend, List.cons_append, List.nil_append, Option.getD_none]
      exact ⟨split_opener (by decide) (by decide) hSplit, .inr (.inl rfl)⟩
    | some inner =>
      obtain ⟨hSplit, hAfter⟩ := block_closeBlock? (.inl rfl) hClose
      simp only [Region.Cut.extend, List.cons_append, List.nil_append, Option.getD_some]
      exact ⟨split_opener (by decide) (by decide) hSplit, .inl hAfter⟩
  · rename_i q rest _ _
    split at h
    · rename_i hQuote
      cases h
      obtain ⟨hSplit, hAfter⟩ := quoted_runQuoted hQuote rest
      simp only [Region.Cut.extend, List.cons_append, List.nil_append]
      have hNext : plain.next q = quoted q := entry_of_isQuote hQuote
      constructor
      · rw [split_cons_of_inside (.inl (isQuote_ne_semicolon hQuote)), hNext, hSplit]
        rfl
      · rw [after_cons, hNext]
        exact hAfter.imp_right .inl
    · cases h
  · cases h

/-- Which characters begin no region. -/
theorem openEnded?_eq_none_iff {c : Char} {rest : List Char} :
    Region.openEnded? (c :: rest) = none ↔
      Region.isQuote c = false ∧ (c = '-' → rest.head? ≠ some '-') ∧
        (c = '/' → rest.head? ≠ some '*') := by
  constructor
  · intro h
    refine ⟨?_, ?_, ?_⟩
    · unfold Region.openEnded? at h
      split at h <;> simp_all
    · rintro rfl hHead
      obtain ⟨more, rfl⟩ := List.head?_eq_some_iff.mp hHead
      simp [Region.openEnded?] at h
    · rintro rfl hHead
      obtain ⟨more, rfl⟩ := List.head?_eq_some_iff.mp hHead
      simp [Region.openEnded?] at h
  · rintro ⟨hQuote, hDash, hSlash⟩
    unfold Region.openEnded?
    split <;> simp_all

/-- A character that begins no region leaves the scan outside, and what follows it is read
as it was. -/
theorem plain_next_of_no_region {c : Char} {rest : List Char}
    (h : Region.openEnded? (c :: rest) = none) :
    (plain.next c).isOutside = true ∧
      ∀ d, rest.head? = some d → (plain.next c).next d = plain.next d := by
  obtain ⟨hQuote, hDash, hSlash⟩ := openEnded?_eq_none_iff.mp h
  simp only [next, entry, hQuote, Bool.false_eq_true, if_false]
  split
  · rename_i hc
    refine ⟨rfl, fun d hd => ?_⟩
    have hNe : d ≠ '-' := fun hEq => hDash (by simpa using hc) (hEq ▸ hd)
    simp [hNe]
  · split
    · rename_i hc
      refine ⟨rfl, fun d hd => ?_⟩
      have hNe : d ≠ '*' := fun hEq => hSlash (by simpa using hc) (hEq ▸ hd)
      simp [hNe]
    · exact ⟨rfl, fun _ _ => rfl⟩

theorem split_of_next_eq {m n : Mode} {s : List Char} (hOut : m.isOutside = n.isOutside)
    (hNext : ∀ c, s.head? = some c → m.next c = n.next c) : m.split s = n.split s := by
  cases s with
  | nil => rfl
  | cons c rest => rw [split_cons, split_cons, hOut, hNext c rfl]

theorem isOutside_after_of_next_eq {m n : Mode} {s : List Char}
    (hOut : m.isOutside = n.isOutside)
    (hNext : ∀ c, s.head? = some c → m.next c = n.next c) :
    (m.after s).isOutside = (n.after s).isOutside := by
  cases s with
  | nil => exact hOut
  | cons c rest => rw [after_cons, after_cons, hNext c rfl]

end Regions

end Mode

/-- The statements of a text are its pieces between the semicolons that are read outside
of quoted regions and comments. -/
theorem statements_eq_split (s : List Char) : statements s = Mode.plain.split s := by
  fun_induction statements s with
  | case1 => rfl
  | case2 c rest region tail hRegion _ ih =>
    obtain ⟨hSplit, hTail⟩ := Mode.plain_openEnded? hRegion
    rw [ih, ← (Region.openEnded?_append hRegion).1, Mode.split_append_of_single hSplit, hTail.split]
  | case3 c rest hRegion hSemi ih =>
    rw [ih, beq_iff_eq.mp hSemi, Mode.split_semicolon rfl]
  | case4 c rest hRegion hSemi ih =>
    obtain ⟨hOut, hNext⟩ := Mode.plain_next_of_no_region hRegion
    rw [ih, Mode.split_cons_of_inside (.inl (by simpa using hSemi)),
      Mode.split_of_next_eq (n := .plain) hOut hNext]

theorem statements_ne_nil (s : List Char) : statements s ≠ [] := by
  rw [statements_eq_split]
  exact Mode.split_ne_nil .plain s

/-- The mode behind a text, which is read from its start. -/
def modeAfter (s : List Char) : Mode :=
  Mode.plain.after s

/-- Does the scan of a text end outside of every quoted region and every comment? -/
def endsOutside (s : List Char) : Bool :=
  (modeAfter s).isOutside

/-- A scan ends outside exactly if a semicolon put behind the text separates. -/
theorem endsOutside_iff (s : List Char) :
    endsOutside s = true ↔ statements (s ++ [';']) = statements s ++ [[]] := by
  have hNe := Mode.split_ne_nil .plain s
  simp only [statements_eq_split, Mode.split_append]
  rw [joinPieces_eq hNe (Mode.split_ne_nil _ _)]
  change (modeAfter s).isOutside = true ↔ _
  cases hOut : (modeAfter s).isOutside with
  | true =>
    have hSplit : (Mode.plain.after s).split [';'] = [[], []] := Mode.split_semicolon hOut []
    have hJoin : (Mode.plain.split s).dropLast ++ [(Mode.plain.split s).getLast hNe, []] =
        Mode.plain.split s ++ [[]] := by
      conv => rhs; rw [← List.dropLast_concat_getLast hNe]
      simp
    simpa [hSplit] using hJoin
  | false =>
    have hSplit : (Mode.plain.after s).split [';'] = [[';']] :=
      Mode.split_cons_of_inside (.inr hOut) []
    refine ⟨(nomatch ·), fun h => ?_⟩
    have hLength := congrArg List.length h
    have hPos := List.length_pos_iff.mpr hNe
    simp [hSplit] at hLength
    omega

end SqlWeave.Sql
