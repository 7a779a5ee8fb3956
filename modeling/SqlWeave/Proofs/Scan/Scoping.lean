import Mathlib.Data.List.Chain
import SqlWeave.Proofs.Layout.Lines
import SqlWeave.Proofs.Results
import SqlWeave.Proofs.Scan.Literal
import SqlWeave.Proofs.Value.Entries

/-!
# Binding twice

What a first binding puts in are quoted regions, which a second binding copies.  What it leaves
looks to the second one as it did in the skeleton: a neighbour that was a marker and now is a
quote completes neither a comment nor a marker.  Binding with the inner parameters and then with
the outer ones is therefore one binding, in which the inner parameters hide outer ones of the
same name.

A colon straight behind a marker is the one thing that could change its meaning, since it may
open a marker once the marker before it is gone.

## Main results

* `isSealed_expand`: what is put in for a text.
* `exists_bindFrom_twice`: the second binding of what stands behind a character.
* `bind_twice`: inner parameters hide outer ones.
-/

namespace SqlWeave.Sql

open Text

/-! ## What is put in for a text -/

/-- A text that begins with a quote and that every binding copies. -/
structure IsSealed (text : List Char) : Prop where
  head : ∃ quote, Region.isQuote quote = true ∧ text.head? = some quote
  passes : ∀ (d : Dialect) (params : List (Value × Value)), d.Passes params text

theorem isSealed_ofText (v : List Char) : IsSealed (Literal.ofText v) where
  head := ⟨'\x27', rfl, rfl⟩
  passes := fun d params => passes_ofText d params v

theorem Identifier.doubled_cons (c : Char) (name : List Char) :
    doubled (c :: name) = (if c == backquote then [backquote, backquote] else [c]) ++ doubled name :=
  List.flatMap_cons

/-- A name between backquotes closes with its last one. -/
theorem Identifier.isQuotedRest_doubled (name : List Char) :
    Region.IsQuotedRest backquote (doubled name ++ [backquote]) := by
  induction name with
  | nil => exact Region.isQuotedRest_close _
  | cons c rest ih =>
    rw [doubled_cons, List.append_assoc]
    by_cases hc : c = backquote
    · rw [if_pos (by simpa using hc)]
      exact Region.isQuotedRest_pair rfl ih
    · rw [if_neg (by simpa using hc)]
      exact Region.isQuotedRest_cons ih hc fun _ => rfl

theorem isSealed_quoted (name : List Char) : IsSealed (Identifier.quoted name) where
  head := ⟨backquote, rfl, rfl⟩
  passes := fun d params => d.passes_quoted params rfl (Identifier.isQuotedRest_doubled name)

/-- Sealed texts with points between them. -/
theorem isSealed_intercalate {texts : List (List Char)} (hTexts : texts ≠ [])
    (h : ∀ text ∈ texts, IsSealed text) : IsSealed (List.intercalate ['.'] texts) where
  head := by
    obtain ⟨first, more, rfl⟩ := List.exists_cons_of_ne_nil hTexts
    obtain ⟨quote, hQuote, hHead⟩ := (h first (by simp)).head
    refine ⟨quote, hQuote, ?_⟩
    cases more with
    | nil => simpa using hHead
    | cons next more =>
      rw [List.intercalate_cons_cons, List.append_assoc, List.head?_append, hHead]
      rfl
  passes := fun _ _ => Dialect.passes_intercalate hTexts fun text hMem => (h text hMem).passes _ _

theorem isSealed_qualified (name : List Char) : IsSealed (Identifier.qualified name) := by
  refine isSealed_intercalate (by simpa using Identifier.parts_ne_nil '.' name) ?_
  simp only [List.forall_mem_map]
  exact fun part _ => isSealed_quoted part

/-- What a marker becomes when its parameter is a text. -/
theorem isSealed_expand {params : List (Value × Value)} {m : Marker} {v : String}
    (h : Value.find? (String.ofList m.name) params = some (.str v)) :
    ∃ text, Dialect.standard.expand params (.marker m) = .ok text ∧ IsSealed text := by
  simp only [Dialect.expand, h]
  cases m.identifier with
  | false => exact ⟨_, rfl, isSealed_ofText v.toList⟩
  | true =>
    refine ⟨_, rfl, isSealed_intercalate (by simpa using Identifier.parts_ne_nil '.' _) ?_⟩
    simp only [List.forall_mem_map]
    exact fun part _ => isSealed_qualified _

/-! ## Markers that stand apart -/

/-- The piece behind a marker does not begin with a colon. -/
def Token.IsApart (t u : Token) : Prop :=
  ∀ m, t = .marker m → u.text.head? ≠ some ':'

/-- A text begins with its first piece. -/
theorem head?_tokens (previous : Option Char) (s : List Char) :
    (tokens previous s).head?.bind (·.text.head?) = s.head? := by
  cases s with
  | nil => simp [tokens]
  | cons c rest =>
    cases hRegion : Region.closed? (c :: rest) with
    | some cut =>
      obtain ⟨hText, hFront⟩ := Region.closed?_append hRegion
      rw [tokens_of_region hRegion, ← hText, List.head?_append_of_ne_nil _ hFront]
      rfl
    | none =>
      cases hMarker : Marker.cut? previous (c :: rest) with
      | some found =>
        obtain ⟨m, tail⟩ := found
        rw [tokens_of_marker hRegion hMarker, ← (Marker.text_of_cut? hMarker).1,
          List.head?_append_of_ne_nil _ m.text_ne_nil]
        rfl
      | none =>
        rw [tokens_of_plain hRegion hMarker]
        rfl

/-- What stands behind a marker that stands apart does not begin with a colon. -/
theorem head?_ne_of_isChain {m : Marker} {previous : Option Char} {tail : List Char}
    (h : (Token.marker m :: tokens previous tail).IsChain Token.IsApart) :
    tail.head? ≠ some ':' := by
  rw [← head?_tokens previous tail]
  cases hTokens : tokens previous tail with
  | nil => simp
  | cons next more =>
    rw [hTokens, List.isChain_cons_cons] at h
    exact h.1 m rfl

/-- The name of a marker ends where the word ends. -/
theorem Marker.head?_of_cut? {previous : Option Char} {s : List Char} {m : Marker}
    {tail : List Char} (h : cut? previous s = some (m, tail)) :
    ∀ c, tail.head? = some c → isWordChar c = false := by
  unfold cut? at h
  split at h
  · rename_i rest
    simp only [Option.ite_none_left_eq_some, Option.some.injEq, Prod.mk.injEq] at h
    obtain ⟨-, -, -, rfl⟩ := h
    intro c hc
    have hStop := List.head?_dropWhile_not isWordChar
      (if rest.head? == some ':' then rest.tail else rest)
    rw [hc] at hStop
    exact hStop
  · cases h

/-- Text put behind a marker leaves it alone, unless it goes on with the marker. -/
theorem Marker.cut?_text_append {previous : Option Char} {s : List Char} {m : Marker}
    {tail t : List Char} (h : cut? previous s = some (m, tail)) (hTail : tail.head? ≠ some ':')
    (hColon : t.head? ≠ some ':') (hWord : ∀ c, t.head? = some c → isWordChar c = false) :
    cut? previous (m.text ++ t) = some (m, t) := by
  have hAlone : cut? previous m.text = some (m, []) := by
    have hCut := cut?_append previous m.text_ne_nil hTail (head?_of_cut? h)
    rw [(text_of_cut? h).1, h] at hCut
    obtain ⟨⟨m', rest⟩, hFound, hEq⟩ := Option.map_eq_some_iff.mp hCut.symm
    simp only [Prod.mk.injEq, List.append_left_eq_self] at hEq
    rw [hFound, hEq.1, hEq.2]
  rw [cut?_append previous m.text_ne_nil hColon hWord, hAlone]
  rfl

theorem Marker.cut?_of_isBlocked {previous : Option Char} (h : isBlocked previous = true)
    (s : List Char) : cut? previous s = none := by
  unfold cut?
  split <;> simp [h]

/-- A colon that opens no marker stands behind a word, or no name follows. -/
theorem Marker.cut?_colon_eq_none_iff {previous : Option Char} {rest : List Char} :
    cut? previous (':' :: rest) = none ↔ isBlocked previous = true ∨
      ∀ c, (if rest.head? = some ':' then rest.tail else rest).head? = some c →
        isWordChar c = false := by
  have hEmpty : ∀ t : List Char, (t.takeWhile isWordChar).isEmpty = true ↔
      ∀ c, t.head? = some c → isWordChar c = false := by
    intro t
    cases t with
    | nil => simp
    | cons c more => cases hc : isWordChar c <;> simp [hc]
  rw [← hEmpty]
  unfold cut?
  cases isBlocked previous with
  | true => simp
  | false => simp

/-! ## What the first binding leaves -/

/-- How a bound text looks to a second reading: it begins as the skeleton does, unless that
begins with a marker, and what looked like an unfinished marker still does. -/
structure LooksLike (previous : Option Char) (s inner : List Char) : Prop where
  head : inner.head? = s.head? ∨ ((Marker.cut? previous s).isSome = true ∧
    ∃ quote, Region.isQuote quote = true ∧ inner.head? = some quote)
  colon : Marker.cut? previous s = none → s.head? = some ':' → inner.tail.head? = s.tail.head?

namespace LooksLike

variable {previous : Option Char} {s inner : List Char}

/-- A bound text begins with a character only if the skeleton does, but for quotes. -/
theorem head?_ne (h : LooksLike previous s inner) {c : Char} (hQuote : Region.isQuote c = false)
    (hHead : s.head? ≠ some c) : inner.head? ≠ some c := by
  rcases h.head with hSame | ⟨-, quote, hIs, hFirst⟩
  · rwa [hSame]
  · rw [hFirst]
    rintro ⟨⟩
    rw [hIs] at hQuote
    cases hQuote

/-- A bound text begins with the character that the skeleton does, but for a colon. -/
theorem head?_eq (h : LooksLike previous s inner) {c : Char} (hColon : c ≠ ':')
    (hHead : s.head? = some c) : inner.head? = some c := by
  rcases h.head with hSame | ⟨hMarker, -⟩
  · rw [hSame, hHead]
  · obtain ⟨rest, rfl⟩ := List.head?_eq_some_iff.mp hHead
    simp [Marker.cut?, hColon] at hMarker

/-- A bound text begins with a word character only if the skeleton does. -/
theorem not_isWordChar (h : LooksLike previous s inner)
    (hWord : ∀ c, s.head? = some c → isWordChar c = false) :
    ∀ c, inner.head? = some c → isWordChar c = false := by
  intro c hc
  rcases h.head with hSame | ⟨-, quote, hIs, hFirst⟩
  · exact hWord c (hSame ▸ hc)
  · obtain rfl : quote = c := by rwa [hFirst, Option.some.injEq] at hc
    rcases Mode.isQuote_cases hIs with rfl | rfl | rfl <;> decide

/-- A region. -/
theorem region {cut : Region.Cut} (h : Region.closed? s = some cut) (previous : Option Char)
    (inner : List Char) : LooksLike previous s (cut.1 ++ inner) := by
  obtain ⟨hText, hFront⟩ := Region.closed?_append h
  have hHead : (cut.1 ++ inner).head? = s.head? := by
    rw [← hText, List.head?_append_of_ne_nil _ hFront, List.head?_append_of_ne_nil _ hFront]
  refine ⟨.inl hHead, fun _ hColon => ?_⟩
  obtain ⟨rest, rfl⟩ := List.head?_eq_some_iff.mp hColon
  simp [Region.closed?, Region.isQuote, backquote] at h

/-- A marker that is left. -/
theorem marker {m : Marker} {tail : List Char} (h : Marker.cut? previous s = some (m, tail))
    (inner : List Char) : LooksLike previous s (m.text ++ inner) := by
  refine ⟨.inl ?_, fun hNone => absurd hNone (by simp [h])⟩
  rw [← (Marker.text_of_cut? h).1, List.head?_append_of_ne_nil _ m.text_ne_nil,
    List.head?_append_of_ne_nil _ m.text_ne_nil]

/-- A marker that is replaced. -/
theorem replaced {m : Marker} {tail text : List Char} (h : Marker.cut? previous s = some (m, tail))
    (hText : IsSealed text) (inner : List Char) : LooksLike previous s (text ++ inner) := by
  obtain ⟨quote, hQuote, hHead⟩ := hText.head
  refine ⟨.inr ⟨by simp [h], quote, hQuote, ?_⟩, fun hNone => absurd hNone (by simp [h])⟩
  rw [List.head?_append, hHead]
  rfl

/-- Any other character. -/
theorem plain {c : Char} {rest : List Char} (h : LooksLike (some c) rest inner)
    (previous : Option Char) : LooksLike previous (c :: rest) (c :: inner) := by
  refine ⟨.inl rfl, fun _ hColon => ?_⟩
  obtain rfl : c = ':' := by simpa using hColon
  rcases h.head with hSame | ⟨hMarker, -⟩
  · exact hSame
  · rw [Marker.cut?_of_isBlocked rfl] at hMarker
    cases hMarker

/-- A character that begins no region in the skeleton begins none in the bound text. -/
theorem closed?_eq_none {c : Char} {rest : List Char} (h : LooksLike (some c) rest inner)
    (hOut : endsOutside (c :: rest) = true) (hNone : Region.closed? (c :: rest) = none) :
    Region.closed? (c :: inner) = none := by
  rw [Region.closed?_eq_openEnded? (Mode.isOpen_of_isOutside hOut)] at hNone
  obtain ⟨hQuote, hLine, hBlock⟩ := Mode.openEnded?_eq_none_iff.mp hNone
  apply Region.closed?_eq_none_of_openEnded?
  exact Mode.openEnded?_eq_none_iff.mpr
    ⟨hQuote, fun hc => h.head?_ne (by decide) (hLine hc),
      fun hc => h.head?_ne (by decide) (hBlock hc)⟩

/-- A character that begins no marker in the skeleton begins none in the bound text. -/
theorem cut?_eq_none {c : Char} {rest : List Char} (h : LooksLike (some c) rest inner)
    (hNone : Marker.cut? previous (c :: rest) = none) :
    Marker.cut? previous (c :: inner) = none := by
  by_cases hc : c = ':'
  · subst hc
    rw [Marker.cut?_colon_eq_none_iff] at hNone ⊢
    refine hNone.imp_right fun hWord => ?_
    by_cases hDouble : rest.head? = some ':'
    · have hBehind : Marker.cut? (some ':') rest = none := Marker.cut?_of_isBlocked rfl rest
      have hHead : inner.head? = some ':' := by
        rcases h.head with hSame | ⟨hMarker, -⟩
        · rw [hSame, hDouble]
        · rw [hBehind] at hMarker
          cases hMarker
      rw [if_pos hHead, h.colon hBehind hDouble]
      rwa [if_pos hDouble] at hWord
    · rw [if_neg (h.head?_ne (by decide) hDouble)]
      rw [if_neg hDouble] at hWord
      exact h.not_isWordChar hWord
  · simp [Marker.cut?, hc]

end LooksLike

/-- A region at the start of a text whose scan ends outside is copied also where other text
stands behind it, which behind a comment on a line has to begin with its line break. -/
theorem Dialect.bindFrom_region_append (d : Dialect) (params : List (Value × Value))
    {s t : List Char} {cut : Region.Cut} (hOut : endsOutside s = true)
    (h : Region.closed? s = some cut) (hBreak : cut.2.head? = some '\n' → t.head? = some '\n')
    (previous : Option Char) :
    d.bindFrom params previous (cut.1 ++ t) =
      (cut.1 ++ ·) <$> d.bindFrom params cut.1.getLast? t := by
  cases Region.closes_of_closed? hOut h with
  | line hInside hTail =>
    exact d.bindFrom_of_region params (Region.closed?_line hInside (hBreak hTail))
  | block hInside => exact d.bindFrom_of_region params (Region.closed?_block (hInside t))
  | quoted hQuote hInside =>
    rw [d.passes_quoted params hQuote hInside, Region.getLast?_quoted hQuote hInside,
      d.bindFrom_congr params (q := none) (Marker.isBlocked_quote hQuote)]

/-! ## The second binding -/

/-- A marker begins no region. -/
theorem Marker.closed?_text_append (m : Marker) (t : List Char) :
    Region.closed? (m.text ++ t) = none := by
  obtain ⟨rest, hText⟩ : ∃ rest, m.text = ':' :: rest := by
    unfold text
    split <;> exact ⟨_, rfl⟩
  rw [hText, List.cons_append]
  exact Region.closed?_eq_none_of_openEnded? (openEnded?_of_marker (.inl rfl) _)

/-- What a marker becomes under two sets of parameters, one over the other. -/
theorem Dialect.expand_overlay (d : Dialect) {item : List (Value × Value)}
    (hItem : Value.HasDistinctKeys item) (params : List (Value × Value)) (m : Marker) :
    d.expand (Value.overlay params item) (.marker m) =
      if (Value.find? (String.ofList m.name) item).isSome then d.expand item (.marker m)
      else d.expand params (.marker m) := by
  simp only [expand, Value.find?_overlay hItem]
  cases Value.find? (String.ofList m.name) item <;> simp

section Twice

variable (params : List (Value × Value)) {item : List (Value × Value)}
  (hItem : Value.HasDistinctKeys item) (hTexts : ∀ e ∈ item, ∃ v, e.2 = .str v)

include hItem hTexts

/-- What the second binding makes of what the first one leaves. -/
theorem exists_bindFrom_twice (previous : Option Char) (s : List Char)
    (hOut : endsOutside s = true) (hApart : (tokens previous s).IsChain Token.IsApart) :
    ∃ inner, Dialect.standard.bindFrom item previous s = .ok inner ∧ LooksLike previous s inner ∧
      Dialect.standard.bindFrom params previous inner =
        Dialect.standard.bindFrom (Value.overlay params item) previous s := by
  fun_induction tokens previous s with
  | case1 previous => exact ⟨[], by simp [pure, Except.pure], ⟨.inl rfl, fun _ _ => rfl⟩, by simp⟩
  | case2 previous c rest region tail hRegion _ ih =>
    obtain ⟨inner, hInner, hLooks, hTwice⟩ :=
      ih (Region.endsOutside_of_closed? hOut hRegion) hApart.tail
    refine ⟨region ++ inner, ?_, .region hRegion previous inner, ?_⟩
    · rw [Dialect.bindFrom_of_region _ _ hRegion, hInner]
      rfl
    · rw [Dialect.bindFrom_region_append _ _ hOut hRegion (hLooks.head?_eq (by decide)),
        Dialect.bindFrom_of_region _ _ hRegion, hTwice]
  | case3 previous c rest hRegion m tail hMarker _ ih =>
    obtain ⟨hText, hChars⟩ := Marker.text_of_cut? hMarker
    have hTail : endsOutside tail = true := by
      rwa [← hText, endsOutside, modeAfter, Mode.after_append,
        Marker.plain_after_marker hChars] at hOut
    have hColon := head?_ne_of_isChain hApart
    obtain ⟨inner, hInner, hLooks, hTwice⟩ := ih hTail hApart.tail
    have hInnerColon : inner.head? ≠ some ':' := hLooks.head?_ne (by decide) hColon
    rw [Dialect.bindFrom_of_marker _ _ hRegion hMarker,
      Dialect.bindFrom_of_marker _ _ hRegion hMarker,
      Dialect.expand_overlay _ hItem, ← hTwice, hInner]
    cases hFind : Value.find? (String.ofList m.name) item with
    | none =>
      have hCut := Marker.cut?_text_append hMarker hColon hInnerColon
        (hLooks.not_isWordChar (Marker.head?_of_cut? hMarker))
      refine ⟨m.text ++ inner, by simp [Dialect.expand, hFind]; rfl, .marker hMarker inner, ?_⟩
      rw [Dialect.bindFrom_of_marker _ _ (m.closed?_text_append inner) hCut]
      rfl
    | some v =>
      obtain ⟨v, rfl⟩ : ∃ w, v = .str w := hTexts _ (Value.mem_of_find? hFind)
      obtain ⟨text, hExpand, hSealed⟩ := isSealed_expand hFind
      refine ⟨text ++ inner, by rw [hExpand]; rfl, .replaced hMarker hSealed inner, ?_⟩
      rw [hSealed.passes, Dialect.bindFrom_of_head?_ne _ _ hInnerColon none m.text.getLast?,
        Option.isSome_some, if_pos rfl, hExpand]
      rfl
  | case4 previous c rest hRegion hMarker ih =>
    obtain ⟨inner, hInner, hLooks, hTwice⟩ :=
      ih (Region.endsOutside_of_no_region hOut hRegion) hApart.tail
    refine ⟨c :: inner, ?_, hLooks.plain previous, ?_⟩
    · rw [Dialect.bindFrom_of_plain _ _ hRegion hMarker, hInner]
      rfl
    · rw [Dialect.bindFrom_of_plain _ _ (hLooks.closed?_eq_none hOut hRegion)
          (hLooks.cut?_eq_none hMarker),
        Dialect.bindFrom_of_plain _ _ hRegion hMarker, hTwice]

end Twice

/-- Text parameters can always be bound. -/
theorem exists_bind_of_texts {params : List (Value × Value)}
    (hTexts : ∀ e ∈ params, ∃ v, e.2 = .str v) (skeleton : List Char) :
    ∃ text, Dialect.standard.bind skeleton (.map params) = .ok text := by
  have hExpand : ∀ t,
      Yields (fun _ => True) (fun _ => False) (Dialect.standard.expand params t) := by
    intro t
    cases t with
    | marker m =>
      cases hFind : Value.find? (String.ofList m.name) params with
      | none =>
        simp only [Dialect.expand, hFind]
        trivial
      | some v =>
        obtain ⟨v, rfl⟩ : ∃ w, v = .str w := hTexts _ (Value.mem_of_find? hFind)
        obtain ⟨text, hText, -⟩ := isSealed_expand hFind
        rw [hText]
        trivial
    | _ => trivial
  obtain ⟨pieces, hPieces, -⟩ :=
    (yields_mapM fun t (_ : t ∈ tokens none skeleton) => hExpand t).exists_ok
  exact ⟨pieces.flatten, by simp only [Dialect.bind, Dialect.bindEntries, hPieces]; rfl⟩

/-- Binding with the inner parameters and then with the outer ones is one binding, in which the
inner parameters hide the outer ones of the same name. -/
theorem bind_twice (body : List Char) (item params : List (Value × Value))
    (hOut : endsOutside body = true) (hApart : (tokens none body).IsChain Token.IsApart)
    (hItem : Value.HasDistinctKeys item) (hItemTexts : ∀ e ∈ item, ∃ v, e.2 = .str v)
    (hTexts : ∀ e ∈ params, ∃ v, e.2 = .str v) :
    ∃ inner text, Dialect.standard.bind body (.map item) = .ok inner ∧
      Dialect.standard.bind inner (.map params) = .ok text ∧
      Dialect.standard.bind body (.map (Value.overlay params item)) = .ok text := by
  obtain ⟨inner, hInner, -, hTwice⟩ :=
    exists_bindFrom_twice params hItem hItemTexts none body hOut hApart
  obtain ⟨text, hText⟩ := exists_bind_of_texts hTexts inner
  exact ⟨inner, text, hInner, hText, hTwice.symm.trans hText⟩

/-- Inner values that look like markers, one that an outer parameter has the name of, and one
that is left to it. -/
theorem bind_twice_shadowing :
    let body := "-:a/::b*':a' -- :c\n:c;::d".toList
    let item := [(.str "a", .str "':c"), (.str "b", .str "x.:c")]
    let params := [(.str "c", .str ":a"), (.str "a", .str "outer")]
    endsOutside body = true ∧ (tokens none body).IsChain Token.IsApart ∧
      Value.HasDistinctKeys item ∧ (∀ e ∈ item, ∃ v, e.2 = Value.str v) ∧
      (∀ e ∈ params, ∃ v, e.2 = Value.str v) ∧
      ∃ inner text, Dialect.standard.bind body (.map item) = .ok inner ∧
        Dialect.standard.bind inner (.map params) = .ok text ∧
        Dialect.standard.bind body (.map (Value.overlay params item)) = .ok text := by
  intro body item params
  have hOut : endsOutside body = true := by decide
  have hTokens : tokens none "-:a/::b*':a' -- :c\n:c;::d".toList =
    [.plain '-', .marker ⟨false, ['a']⟩, .plain '/',
    .marker ⟨true, ['b']⟩, .plain '*', .region "':a'".toList, .plain ' ', .region "-- :c".toList,
    .plain '\n', .marker ⟨false, ['c']⟩, .plain ';', .marker ⟨true, ['d']⟩] := by
    decide +kernel
  have hApart : (tokens none body).IsChain Token.IsApart := by
    simp only [body, hTokens]
    simp [Token.IsApart, Token.text]
  have hItem : Value.HasDistinctKeys item := by
    simp [item, Value.HasDistinctKeys]
    decide
  have hItemTexts : ∀ e ∈ item, ∃ v, e.2 = Value.str v := by simp [item]
  have hTexts : ∀ e ∈ params, ∃ v, e.2 = Value.str v := by simp [params]
  exact ⟨hOut, hApart, hItem, hItemTexts, hTexts,
    bind_twice body item params hOut hApart hItem hItemTexts hTexts⟩

end SqlWeave.Sql
