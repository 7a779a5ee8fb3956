import SqlWeave.Proofs.Scan.Regions
import SqlWeave.Proofs.Text.Runs
import SqlWeave.Sql.Skeleton

/-!
# Binding, piece by piece

A skeleton is read from left to right, and what its first piece is depends on the text
and on whether the character before it blocks a marker.  `Dialect.bindFrom` binds what
stands behind a character, so that binding can be followed piece by piece, and
`Marker.cut?_append` says that text put behind a marker leaves the marker alone, unless it
goes on with its name.
-/

namespace SqlWeave.Sql

open Text

/-! ## The pieces of a text -/

/-- The pieces of a text that starts with a closed region. -/
theorem tokens_of_region {previous : Option Char} {s : List Char} {cut : Region.Cut}
    (h : Region.closed? s = some cut) :
    tokens previous s = .region cut.1 :: tokens cut.1.getLast? cut.2 := by
  obtain ⟨region, tail⟩ := cut
  cases s with
  | nil => cases h
  | cons c rest =>
    rw [tokens]
    split <;> simp_all

/-- The pieces of a text that starts with a marker. -/
theorem tokens_of_marker {previous : Option Char} {s : List Char} {m : Marker} {tail : List Char}
    (h : Region.closed? s = none) (hm : Marker.cut? previous s = some (m, tail)) :
    tokens previous s = .marker m :: tokens m.text.getLast? tail := by
  cases s with
  | nil => cases hm
  | cons c rest =>
    rw [tokens]
    split
    · simp_all
    · split <;> simp_all

/-- The pieces of a text that starts with neither. -/
theorem tokens_of_plain {previous : Option Char} {c : Char} {rest : List Char}
    (h : Region.closed? (c :: rest) = none) (hm : Marker.cut? previous (c :: rest) = none) :
    tokens previous (c :: rest) = .plain c :: tokens (some c) rest := by
  rw [tokens]
  split
  · simp_all
  · split <;> simp_all

/-- Of what stands before a text it only matters whether it blocks a marker. -/
theorem tokens_congr {p q : Option Char} (h : Marker.isBlocked p = Marker.isBlocked q)
    (s : List Char) : tokens p s = tokens q s := by
  have hCut : Marker.cut? p s = Marker.cut? q s := by
    unfold Marker.cut?
    rw [h]
  cases s with
  | nil => simp [tokens]
  | cons c rest =>
    cases hRegion : Region.closed? (c :: rest) with
    | some cut => rw [tokens_of_region hRegion, tokens_of_region hRegion]
    | none =>
      cases hMarker : Marker.cut? q (c :: rest) with
      | some found =>
        rw [tokens_of_marker hRegion (hCut.trans hMarker), tokens_of_marker hRegion hMarker]
      | none => rw [tokens_of_plain hRegion (hCut.trans hMarker), tokens_of_plain hRegion hMarker]

namespace Dialect

variable (d : Dialect) (params : List (Value × Value))

/-- A text that stands behind a character with its markers replaced. -/
def bindFrom (previous : Option Char) (s : List Char) : Result (List Char) := do
  return (← (tokens previous s).mapM (d.expand params)).flatten

theorem bindEntries_eq_bindFrom (s : List Char) :
    d.bindEntries s params = d.bindFrom params none s := rfl

@[simp] theorem bindFrom_nil (previous : Option Char) :
    d.bindFrom params previous [] = pure [] := by
  simp [bindFrom, tokens]

theorem bindFrom_of_tokens {previous next : Option Char} {s tail : List Char} {t : Token}
    (h : tokens previous s = t :: tokens next tail) :
    d.bindFrom params previous s = do
      let front ← d.expand params t
      let rest ← d.bindFrom params next tail
      return front ++ rest := by
  simp [bindFrom, h]

theorem bindFrom_congr {p q : Option Char} (h : Marker.isBlocked p = Marker.isBlocked q)
    (s : List Char) : d.bindFrom params p s = d.bindFrom params q s := by
  rw [bindFrom, tokens_congr h, bindFrom]

/-- A region is copied. -/
theorem bindFrom_of_region {previous : Option Char} {s : List Char} {cut : Region.Cut}
    (h : Region.closed? s = some cut) :
    d.bindFrom params previous s = (cut.1 ++ ·) <$> d.bindFrom params cut.1.getLast? cut.2 := by
  rw [d.bindFrom_of_tokens params (tokens_of_region h)]
  rfl

/-- A marker is replaced. -/
theorem bindFrom_of_marker {previous : Option Char} {s : List Char} {m : Marker}
    {tail : List Char} (h : Region.closed? s = none)
    (hm : Marker.cut? previous s = some (m, tail)) :
    d.bindFrom params previous s = do
      let front ← d.expand params (.marker m)
      let rest ← d.bindFrom params m.text.getLast? tail
      return front ++ rest :=
  d.bindFrom_of_tokens params (tokens_of_marker h hm)

/-- Any other character is copied. -/
theorem bindFrom_of_plain {previous : Option Char} {c : Char} {rest : List Char}
    (h : Region.closed? (c :: rest) = none) (hm : Marker.cut? previous (c :: rest) = none) :
    d.bindFrom params previous (c :: rest) = (c :: ·) <$> d.bindFrom params (some c) rest := by
  rw [d.bindFrom_of_tokens params (tokens_of_plain h hm)]
  rfl

end Dialect

/-! ## Markers -/

namespace Marker

/-- A marker is cut off the front, and consists of colons and word characters. -/
theorem text_of_cut? {previous : Option Char} {s : List Char} {m : Marker} {tail : List Char}
    (h : cut? previous s = some (m, tail)) :
    m.text ++ tail = s ∧ ∀ c ∈ m.text, c = ':' ∨ isWordChar c = true := by
  unfold cut? at h
  split at h
  · rename_i rest
    simp only [Option.ite_none_left_eq_some, Option.some.injEq, Prod.mk.injEq] at h
    obtain ⟨-, -, rfl, rfl⟩ := h
    have hName : ∀ t : List Char, ∀ c ∈ t.takeWhile isWordChar, c = ':' ∨ isWordChar c = true :=
      fun t c hc => .inr (List.all_eq_true.mp List.all_takeWhile c hc)
    rcases rest with _ | ⟨d, more⟩
    · simp [text]
    · by_cases hd : d = ':'
      · subst hd
        simpa [text] using hName more
      · simpa [text, hd] using hName (d :: more)
  · cases h

/-- What the characters of a marker are not. -/
theorem ne_of_marker {c e : Char} (h : c = ':' ∨ isWordChar c = true) (hColon : e ≠ ':')
    (hWord : isWordChar e = false) : c ≠ e := by
  rintro rfl
  rcases h with hc | hc
  · exact hColon hc
  · rw [hWord] at hc
    cases hc

/-- A character of a marker begins no region. -/
theorem openEnded?_of_marker {c : Char} (h : c = ':' ∨ isWordChar c = true) (rest : List Char) :
    Region.openEnded? (c :: rest) = none := by
  rw [Mode.openEnded?_eq_none_iff]
  refine ⟨?_, fun hc => ?_, fun hc => ?_⟩
  · simp [Region.isQuote, backquote, ne_of_marker h (e := '\x27') (by decide) (by decide),
      ne_of_marker h (e := '\x22') (by decide) (by decide),
      ne_of_marker h (e := '\x60') (by decide) (by decide)]
  · exact absurd hc (ne_of_marker h (by decide) (by decide))
  · exact absurd hc (ne_of_marker h (by decide) (by decide))

/-- The scan of a marker stays outside. -/
theorem plain_after_marker {s : List Char} (h : ∀ c ∈ s, c = ':' ∨ isWordChar c = true) :
    Mode.plain.after s = .plain := by
  induction s with
  | nil => rfl
  | cons c rest ih =>
    have hc := h c (by simp)
    have hEntry : Mode.plain.next c = .plain := by
      simp [Mode.next, Mode.entry, (Mode.openEnded?_eq_none_iff.mp (openEnded?_of_marker hc [])).1,
        ne_of_marker hc (e := '-') (by decide) (by decide),
        ne_of_marker hc (e := '/') (by decide) (by decide)]
    rw [Mode.after_cons, hEntry, ih fun e he => h e (by simp [he])]

/-- Text put behind leaves a marker alone, unless it goes on with the marker. -/
theorem cut?_append (previous : Option Char) {s t : List Char} (hs : s ≠ [])
    (hColon : t.head? ≠ some ':') (hWord : ∀ c, t.head? = some c → isWordChar c = false) :
    cut? previous (s ++ t) = (cut? previous s).map fun r => (r.1, r.2 ++ t) := by
  rcases s with _ | ⟨c, rest⟩
  · exact absurd rfl hs
  by_cases hc : c = ':'
  · subst hc
    have hHead : ((rest ++ t).head? == some ':') = (rest.head? == some ':') := by
      cases rest <;> simp_all
    have hTail : (if rest.head? == some ':' then (rest ++ t).tail else rest ++ t) =
        (if rest.head? == some ':' then rest.tail else rest) ++ t := by
      rcases rest with _ | ⟨d, more⟩
      · simp
      · by_cases hd : d = ':' <;> simp [hd]
    simp only [cut?, List.cons_append, hHead, hTail, takeWhile_append_of_stop hWord,
      dropWhile_append_of_stop hWord]
    cases isBlocked previous
    · cases rest.head? == some ':'
      · cases hName : (rest.takeWhile isWordChar).isEmpty <;> simp [hName]
      · cases hName : (rest.tail.takeWhile isWordChar).isEmpty <;> simp [hName]
    · rfl
  · simp [cut?, hc]

theorem isBlocked_quote {quote : Char} (hq : Region.isQuote quote = true) :
    Marker.isBlocked (some quote) = false := by
  rcases Mode.isQuote_cases hq with rfl | rfl | rfl <;> decide

end Marker

/-! ## Behind a quote -/

namespace Region

/-- A region that goes on goes on to its quote. -/
theorem getLast?_resume (quote : Char) (s : List Char) :
    (resume quote s).1 = [] ∨ (resume quote s).1.getLast? = some quote := by
  unfold resume
  split
  · exact .inl rfl
  · rename_i c rest
    split
    · cases hClose : closeQuoted? quote rest with
      | none => exact .inl rfl
      | some cut =>
        exact .inr (by simp [Cut.extend, List.getLast?_cons, getLast?_closeQuoted? hClose])
    · exact .inl rfl

end Region

namespace Dialect

variable (d : Dialect) (params : List (Value × Value))

/-- What stands behind a quote is bound as it is alone, also where it goes on with the
region that the quote closes. -/
theorem bindFrom_resume {quote : Char} (hq : Region.isQuote quote = true) (s : List Char) :
    d.bindFrom params none s =
      ((Region.resume quote s).1 ++ ·) <$>
        d.bindFrom params (some quote) (Region.resume quote s).2 := by
  have hStop : d.bindFrom params none s = ([] ++ ·) <$> d.bindFrom params (some quote) s := by
    rw [d.bindFrom_congr params (p := none) (q := some quote) (Marker.isBlocked_quote hq).symm]
    exact (id_map _).symm
  cases s with
  | nil => exact hStop
  | cons c rest =>
    by_cases hc : c = quote
    · subst hc
      rw [Region.resume, if_pos (beq_self_eq_true _)]
      cases hClose : Region.closeQuoted? c rest with
      | none => exact hStop
      | some cut =>
        have hRegion : Region.closed? (c :: rest) = some (cut.extend [c]) := by
          rw [Region.closed?_of_isQuote hq, hClose, Option.map_some]
        have hLast : (cut.extend [c]).1.getLast? = some c := by
          simp [Region.Cut.extend, List.getLast?_cons, Region.getLast?_closeQuoted? hClose]
        rw [d.bindFrom_of_region params hRegion, hLast]
    · rw [Region.resume_of_head?_ne (by simpa using hc)]
      exact hStop

/-- A text that is one region up to a quote, and goes on behind it. -/
theorem bindFrom_of_resuming {quote : Char} (hq : Region.isQuote quote = true)
    {previous : Option Char} {front s : List Char} (hLast : front.getLast? = some quote)
    (h : Region.closed? (front ++ s) = some ((Region.resume quote s).extend front)) :
    d.bindFrom params previous (front ++ s) = (front ++ ·) <$> d.bindFrom params none s := by
  have hBlocked : Marker.isBlocked ((Region.resume quote s).extend front).1.getLast? =
      Marker.isBlocked (some quote) := by
    simp only [Region.Cut.extend, List.getLast?_append]
    rcases Region.getLast?_resume quote s with hNil | hSame
    · simp [hNil, hLast]
    · simp [hSame]
  rw [d.bindFrom_of_region params h, d.bindFrom_congr params hBlocked,
    d.bindFrom_resume params hq s]
  simp [Region.Cut.extend]

end Dialect

end SqlWeave.Sql
