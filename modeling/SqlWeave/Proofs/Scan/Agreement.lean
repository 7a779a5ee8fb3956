import SqlWeave.Proofs.Scan.Binding

/-!
# Two scans, one set of regions

A skeleton is bound by its `tokens`, where only a closed region is protected, and split
into statements by its `units`, where a region that is never closed runs to the end of the
text.  `places` says where the regions of such a list stand.

The two scans protect the same places of a text exactly if everything that is opened in it
is closed.

## Main results

* `statements_eq_pieces`: the statements of a text are put together from its units.
* `closesAll_iff`: everything is closed exactly if a semicolon on a line of its own, put
  behind the text, separates.
* `places_tokens_eq_iff`: the two scans agree exactly on the texts in which everything is
  closed.
-/

namespace SqlWeave.Sql

open Text Region Mode

/-! ## Units -/

/-- The units in which a text is split: a region is one, and so is any character outside
of the regions. -/
def units (s : List Char) : List Token :=
  match s with
  | [] => []
  | c :: rest =>
    match hr : openEnded? (c :: rest) with
    | some (region, tail) =>
      have : tail.length ≤ rest.length := Nat.le_of_lt_succ (length_of_openEnded? hr)
      .region region :: units tail
    | none => .plain c :: units rest
termination_by s.length

/-- The units of a text that starts with a region. -/
theorem units_of_region {s : List Char} {cut : Cut} (h : openEnded? s = some cut) :
    units s = .region cut.1 :: units cut.2 := by
  obtain ⟨region, tail⟩ := cut
  cases s with
  | nil => cases h
  | cons c rest =>
    rw [units]
    split <;> simp_all

/-- The units of a text that starts with no region. -/
theorem units_of_plain {c : Char} {rest : List Char} (h : openEnded? (c :: rest) = none) :
    units (c :: rest) = .plain c :: units rest := by
  rw [units]
  split <;> simp_all

/-- The texts between the semicolons of a list of units. -/
def pieces : List Token → List (List Char)
  | [] => [[]]
  | .plain ';' :: more => [] :: pieces more
  | t :: more => extendHead t.text (pieces more)

/-- The statements of a text are put together from its units. -/
theorem statements_eq_pieces (s : List Char) : statements s = pieces (units s) := by
  fun_induction statements s with
  | case1 => simp [units, pieces]
  | case2 c rest region tail hRegion _ ih =>
    rw [units_of_region hRegion, ih]
    rfl
  | case3 c rest hRegion hSemi ih =>
    rw [units_of_plain hRegion, ih, beq_iff_eq.mp hSemi]
    rfl
  | case4 c rest hRegion hSemi ih =>
    have hNe : c ≠ ';' := by simpa using hSemi
    rw [units_of_plain hRegion, ih, pieces]
    · rfl
    · simpa using hNe

/-! ## Places -/

/-- Where the regions of a list of tokens stand, as the offsets of their start and of what
follows them; the list itself stands at `start`. -/
def places (start : Nat) : List Token → List (Nat × Nat)
  | [] => []
  | .region text :: more =>
    (start, start + text.length) :: places (start + text.length) more
  | t :: more => places (start + t.text.length) more

theorem places_region (start : Nat) (text : List Char) (more : List Token) :
    places start (.region text :: more) =
      (start, start + text.length) :: places (start + text.length) more := rfl

theorem places_marker (start : Nat) (m : Marker) (more : List Token) :
    places start (.marker m :: more) = places (start + m.text.length) more := rfl

theorem places_plain (start : Nat) (c : Char) (more : List Token) :
    places start (.plain c :: more) = places (start + 1) more := rfl

/-- No region stands in front of the list. -/
theorem le_of_mem_places {start : Nat} {ts : List Token} {place : Nat × Nat}
    (h : place ∈ places start ts) : start ≤ place.1 := by
  induction ts generalizing start with
  | nil => cases h
  | cons t more ih =>
    have hTail : place ∈ places (start + t.text.length) more → start ≤ place.1 :=
      fun hMem => Nat.le_of_add_right_le (ih hMem)
    cases t with
    | region text =>
      rw [places_region, List.mem_cons] at h
      rcases h with rfl | hMem
      · exact Nat.le_refl start
      · exact hTail hMem
    | marker m => exact hTail h
    | plain c => exact hTail h

/-- A list of regions that starts with a region here is not one that starts behind. -/
theorem place_ne_places {start behind : Nat} (hBehind : start < behind) (stop : Nat)
    (more : List (Nat × Nat)) (ts : List Token) :
    places behind ts ≠ (start, stop) :: more := by
  intro hEq
  have hMem : (start, stop) ∈ places behind ts := by
    rw [hEq]
    exact List.mem_cons_self
  exact absurd (le_of_mem_places hMem) (Nat.not_le.mpr hBehind)

/-! ## Everything is closed -/

/-- Is every quoted region and every block comment that is opened in a text closed in it?
A comment that ends with its line needs no closing. -/
def closesAll (s : List Char) : Bool :=
  !(modeAfter s).isOpen

theorem closesAll_eq_true_iff {s : List Char} :
    closesAll s = true ↔ (modeAfter s).isOpen = false := by
  simp [closesAll]

/-- The quote of a quoted region is one. -/
def Mode.IsProper : Mode → Prop
  | quoted q | escaped q => isQuote q = true
  | _ => True

theorem Mode.IsProper.next {m : Mode} (h : m.IsProper) (c : Char) : (m.next c).IsProper := by
  cases m <;> simp only [Mode.next, Mode.entry] <;> repeat' split
  all_goals trivial

theorem Mode.IsProper.after {m : Mode} (h : m.IsProper) (s : List Char) : (m.after s).IsProper := by
  induction s generalizing m with
  | nil => exact h
  | cons c rest ih => exact ih (h.next c)

/-- A line break ends what needs no closing, and nothing else. -/
theorem isOutside_next_newline {m : Mode} (h : m.IsProper) :
    (m.next '\n').isOutside = !m.isOpen := by
  cases m with
  | quoted q =>
    have hNe : ('\n' == q) = false := by
      rcases isQuote_cases h with rfl | rfl | rfl <;> rfl
    simp [Mode.next, hNe, isOutside, isOpen]
  | _ => rfl

/-- Everything is closed exactly if a semicolon on a line of its own, put behind the text,
separates. -/
theorem closesAll_iff (s : List Char) :
    closesAll s = true ↔ statements (s ++ ['\n', ';']) = statements (s ++ ['\n']) ++ [[]] := by
  have hProper : (modeAfter s).IsProper := Mode.IsProper.after (m := .plain) trivial s
  have hNewline : endsOutside (s ++ ['\n']) = closesAll s := by
    rw [endsOutside, modeAfter, after_append, after_cons, after_nil]
    exact isOutside_next_newline hProper
  rw [← hNewline, endsOutside_iff, List.append_assoc]
  rfl

/-- Behind a closed quoted region the scan is outside. -/
theorem quoted_closeQuoted? {quote : Char} (hq : isQuote quote = true) {s : List Char} {cut : Cut}
    (h : closeQuoted? quote s = some cut) : (quoted quote).after cut.1 = plain := by
  fun_induction closeQuoted? quote s generalizing cut with
  | case1 => cases h
  | case2 c hc d more hd inner hInner ih =>
    cases h
    simp only [beq_iff_eq] at hc hd
    subst hc hd
    simpa [Cut.extend, next, entry_of_isQuote hq] using ih hInner
  | case3 c hc d more hd hInner ih =>
    cases h
    simp [next, hc]
  | case4 c hc d more hd =>
    cases h
    simp [next, hc]
  | case5 c hc =>
    cases h
    simp [next, hc]
  | case6 c hc hEscape d more ih =>
    obtain ⟨inner, hInner, rfl⟩ := Option.map_eq_some_iff.mp h
    simpa [Cut.extend, next, hc, hEscape] using ih hInner
  | case7 c hc hEscape => cases h
  | case8 c rest hc hEscape ih =>
    obtain ⟨inner, hInner, rfl⟩ := Option.map_eq_some_iff.mp h
    simpa [Cut.extend, next, hc, hEscape] using ih hInner

/-- At the end of a closed region that an unclosed one would not outrun, nothing is open. -/
theorem isOpen_after_closed? {s : List Char} {cut : Cut} (h : closed? s = some cut) :
    (modeAfter cut.1).isOpen = false := by
  unfold closed? at h
  split at h
  · rename_i rest
    cases h
    have hLine := (line_of_no_break (s := (restOfLine rest).1) fun c hc => by
      simpa using List.all_eq_true.mp List.all_takeWhile c hc).2
    have hAfter : modeAfter ((restOfLine rest).extend ['-', '-']).1 = line := hLine
    rw [hAfter]
    rfl
  · obtain ⟨inner, hInner, rfl⟩ := Option.map_eq_some_iff.mp h
    have hAfter : modeAfter (inner.extend ['/', '*']).1 = plain :=
      (block_closeBlock? (.inl rfl) hInner).2
    rw [hAfter]
    rfl
  · rename_i quote rest _ _
    split at h
    · rename_i hQuote
      obtain ⟨inner, hInner, rfl⟩ := Option.map_eq_some_iff.mp h
      have hAfter : modeAfter (inner.extend [quote]).1 = plain := by
        simpa [modeAfter, Cut.extend, next, entry_of_isQuote hQuote] using
          quoted_closeQuoted? hQuote hInner
      rw [hAfter]
      rfl
    · cases h
  · cases h

/-! ## Piece by piece -/

/-- Behind a region that both scans read, everything is closed if it is from there on. -/
theorem closesAll_of_region {s : List Char} {cut : Cut} (hClosed : closed? s = some cut)
    (hOpenEnded : openEnded? s = some cut) : closesAll s = closesAll cut.2 := by
  have hResumes := (plain_openEnded? hOpenEnded).2
  rw [closesAll, ← (openEnded?_append hOpenEnded).1]
  by_cases hNil : cut.2 = []
  · rw [hNil, List.append_nil, isOpen_after_closed? hClosed]
    rfl
  · rw [modeAfter, after_append, hResumes.after hNil]
    rfl

/-- Behind a character that begins no region, everything is closed if it is from there
on. -/
theorem closesAll_of_plain {c : Char} {rest : List Char} (h : openEnded? (c :: rest) = none) :
    closesAll (c :: rest) = closesAll rest := by
  obtain ⟨hOut, hNext⟩ := plain_next_of_no_region h
  cases rest with
  | nil =>
    rw [closesAll, modeAfter, after_cons, after_nil, isOpen_of_isOutside hOut]
    rfl
  | cons d more =>
    rw [closesAll, modeAfter, after_cons, after_cons, hNext d rfl]
    rfl

/-- Where a region starts there is no marker. -/
theorem cut?_of_openEnded? (previous : Option Char) {s : List Char} {cut : Cut}
    (h : openEnded? s = some cut) : Marker.cut? previous s = none := by
  rw [Option.eq_none_iff_forall_not_mem]
  rintro ⟨m, tail⟩ hMarker
  obtain ⟨hFront, hWord⟩ := Marker.text_of_cut? hMarker
  cases hText : m.text with
  | nil =>
    have hShorter := Marker.length_of_cut? hMarker
    rw [← hFront, hText] at hShorter
    exact Nat.lt_irrefl _ hShorter
  | cons c rest =>
    have hNone := Marker.openEnded?_of_marker (hWord c (by simp [hText])) (rest ++ tail)
    rw [← List.cons_append, ← hText, hFront, h] at hNone
    cases hNone

/-- A splitter reads the text of a marker character by character, and stays outside. -/
theorem scan_marker {front : List Char} (h : ∀ c ∈ front, c = ':' ∨ isWordChar c = true)
    (start : Nat) (tail : List Char) :
    places start (units (front ++ tail)) = places (start + front.length) (units tail) ∧
      closesAll (front ++ tail) = closesAll tail := by
  induction front generalizing start with
  | nil => exact ⟨rfl, rfl⟩
  | cons c rest ih =>
    have hNone := Marker.openEnded?_of_marker (h c (by simp)) (rest ++ tail)
    obtain ⟨hPlaces, hCloses⟩ := ih (fun d hd => h d (by simp [hd])) (start + 1)
    constructor
    · rw [List.cons_append, units_of_plain hNone, places_plain, hPlaces, List.length_cons]
      congr 1
      omega
    · rw [List.cons_append, closesAll_of_plain hNone, hCloses]

/-- A region that the two scans cut differently is not closed for both. -/
theorem closesAll_eq_false {s : List Char} (h : closed? s ≠ openEnded? s) :
    closesAll s = false := by
  rw [Bool.eq_false_iff]
  exact fun hCloses => h (closed?_eq_openEnded? (closesAll_eq_true_iff.mp hCloses))

/-- Two ways to cut a region off a text differ in its length. -/
theorem length_ne_of_cut_ne {s : List Char} {cut other : Cut} (h : cut.1 ++ cut.2 = s)
    (hOther : other.1 ++ other.2 = s) (hNe : cut ≠ other) : cut.1.length ≠ other.1.length := by
  intro hLength
  obtain ⟨hFront, hTail⟩ := List.append_inj (h.trans hOther.symm) hLength
  exact hNe (Prod.ext hFront hTail)

/-! ## The two scans -/

/-- The two scans of a text that stands behind a character agree exactly if everything in
it is closed.  The induction is on the length of the text, since the text behind a marker is read
as a whole by one scan and reached character by character by the other. -/
theorem places_eq_iff (start : Nat) (previous : Option Char) (s : List Char) :
    places start (tokens previous s) = places start (units s) ↔ closesAll s = true := by
  induction hn : s.length using Nat.strongRecOn generalizing start previous s with
  | _ n ih =>
  subst hn
  cases hEnded : openEnded? s with
  | some ended =>
    obtain ⟨hText, hNonempty⟩ := openEnded?_append hEnded
    rw [units_of_region hEnded, places_region]
    cases hClosed : closed? s with
    | some cut =>
      rw [tokens_of_region hClosed, places_region]
      by_cases hSame : cut = ended
      · subst hSame
        rw [List.cons.injEq, and_iff_right rfl, closesAll_of_region hClosed hEnded]
        exact ih _ (length_of_closed? hClosed) _ _ _ rfl
      · have hLength := length_ne_of_cut_ne (closed?_append hClosed).1 hText hSame
        have hFalse := closesAll_eq_false (s := s) (by simpa [hClosed, hEnded] using hSame)
        simp [hFalse, hLength]
    | none =>
      have hFalse := closesAll_eq_false (s := s) (by simp [hClosed, hEnded])
      rw [hFalse]
      refine ⟨fun hEq => ?_, (nomatch ·)⟩
      cases s with
      | nil => cases hEnded
      | cons c rest =>
        rw [tokens_of_plain hClosed (cut?_of_openEnded? previous hEnded), places_plain] at hEq
        exact absurd hEq (place_ne_places (Nat.lt_succ_self start) _ _ _)
  | none =>
    cases s with
    | nil => simp [tokens, units, places, closesAll, modeAfter, isOpen]
    | cons c rest =>
      have hClosed := closed?_eq_none_of_openEnded? hEnded
      cases hMarker : Marker.cut? previous (c :: rest) with
      | none =>
        rw [tokens_of_plain hClosed hMarker, units_of_plain hEnded, places_plain, places_plain,
          closesAll_of_plain hEnded]
        exact ih _ (Nat.lt_succ_self _) _ _ _ rfl
      | some found =>
        obtain ⟨m, tail⟩ := found
        obtain ⟨hFront, hWord⟩ := Marker.text_of_cut? hMarker
        obtain ⟨hPlaces, hCloses⟩ := scan_marker hWord start tail
        rw [tokens_of_marker hClosed hMarker, places_marker, ← hFront, hPlaces, hCloses]
        exact ih _ (Marker.length_of_cut? hMarker) _ _ _ rfl

/-- The regions that are protected from binding and those that are protected from being
split stand in the same places exactly if every quoted region and every block comment that
is opened is closed. -/
theorem places_tokens_eq_iff (s : List Char) :
    places 0 (tokens none s) = places 0 (units s) ↔ closesAll s = true :=
  places_eq_iff 0 none s

end SqlWeave.Sql
