import SqlWeave.Proofs.Scan.Binding

/-!
# Texts in a row

Two texts in a row are bound one after the other, unless something is read across the seam
between them: a comment whose two opening characters meet there, or a marker that goes on.
Quotes may meet at a seam.  They make one region of two, and both are copied all the same.

A text *passes* if it is put out as it is and what stands behind it is bound as it is alone.
Quoted regions pass, and so do quoted regions with points between them.

## Main results

* `Dialect.bindFrom_append`: binding goes on behind a seam as if it had begun there.
* `Dialect.passes_quoted`, `Dialect.passes_intercalate`: what passes.
-/

namespace SqlWeave.Sql

open Text

/-! ## Seams -/

/-- No comment and no marker is read across the place where two texts meet. -/
structure IsSeam (p t : List Char) : Prop where
  line : p.getLast? = some '-' → t.head? ≠ some '-'
  block : p.getLast? = some '/' → t.head? ≠ some '*'
  marker : ∀ c d, p.getLast? = some c → t.head? = some d → d = ':' ∨ isWordChar d = true →
    Marker.isBlocked (some c) = false

/-- In front of most characters there is always a seam. -/
theorem isSeam_of_head? {t : List Char} (hDash : t.head? ≠ some '-') (hStar : t.head? ≠ some '*')
    (hColon : t.head? ≠ some ':') (hWord : ∀ d, t.head? = some d → isWordChar d = false)
    (p : List Char) : IsSeam p t where
  line := fun _ => hDash
  block := fun _ => hStar
  marker := by
    intro c d _ hHead hMarker
    rcases hMarker with rfl | hMarker
    · exact absurd hHead hColon
    · rw [hWord d hHead] at hMarker
      cases hMarker

theorem isSeam_of_quote {quote : Char} (h : Region.isQuote quote = true) (p rest : List Char) :
    IsSeam p (quote :: rest) := by
  refine isSeam_of_head? ?_ ?_ ?_ ?_ p <;>
    rcases Mode.isQuote_cases h with rfl | rfl | rfl <;> simp <;> decide

/-- A seam behind a text is one behind the end of the text. -/
theorem IsSeam.of_append {front p t : List Char} (h : IsSeam (front ++ p) t) : IsSeam p t := by
  have hLast : ∀ c, p.getLast? = some c → (front ++ p).getLast? = some c := by
    intro c hc
    rw [List.getLast?_append, hc]
    rfl
  exact ⟨fun hp => h.line (hLast _ hp), fun hp => h.block (hLast _ hp),
    fun c d hc => h.marker c d (hLast c hc)⟩

/-- Where no region starts in a text whose scan ends outside, none starts when text is put
behind a seam. -/
theorem Region.closed?_append_of_isSeam {c : Char} {rest t : List Char}
    (h : endsOutside (c :: rest) = true) (hNone : closed? (c :: rest) = none)
    (hSeam : IsSeam (c :: rest) t) : closed? (c :: rest ++ t) = none := by
  rw [closed?_eq_openEnded? (Mode.isOpen_of_isOutside h)] at hNone
  obtain ⟨hQuote, hLine, hBlock⟩ := Mode.openEnded?_eq_none_iff.mp hNone
  apply closed?_eq_none_of_openEnded?
  rw [List.cons_append, Mode.openEnded?_eq_none_iff]
  cases rest with
  | nil => exact ⟨hQuote, fun hc => hSeam.line (hc ▸ rfl), fun hc => hSeam.block (hc ▸ rfl)⟩
  | cons d more => exact ⟨hQuote, hLine, hBlock⟩

theorem Marker.text_ne_nil (m : Marker) : m.text ≠ [] := by
  unfold text
  split <;> simp

/-- Text put behind a seam leaves a marker alone. -/
theorem Marker.cut?_append_of_isSeam (previous : Option Char) {s t : List Char} (hs : s ≠ [])
    (hSeam : IsSeam s t) :
    cut? previous (s ++ t) = (cut? previous s).map fun r => (r.1, r.2 ++ t) := by
  by_cases hGoes : ∃ d, t.head? = some d ∧ (d = ':' ∨ isWordChar d = true)
  · obtain ⟨d, hHead, hGoes⟩ := hGoes
    obtain ⟨front, c, rfl⟩ : ∃ front c, s = front ++ [c] :=
      ⟨_, _, (List.dropLast_concat_getLast hs).symm⟩
    have hFree : c ≠ ':' ∧ isWordChar c = false := by
      simpa [isBlocked] using hSeam.marker c d List.getLast?_concat hHead hGoes
    have hCut (more : List Char) (hNonempty : front ≠ []) :
        cut? previous (front ++ c :: more) =
          (cut? previous front).map fun r => (r.1, r.2 ++ c :: more) := by
      refine cut?_append previous hNonempty (by simpa using hFree.1) fun e he => ?_
      obtain rfl : c = e := by simpa using he
      exact hFree.2
    by_cases hNil : front = []
    · subst hNil
      simp [cut?, hFree.1]
    · rw [List.append_assoc, List.singleton_append, hCut t hNil, hCut [] hNil, Option.map_map]
      congr 1
      funext r
      simp
  · refine cut?_append previous hs ?_ ?_
    · exact fun hHead => hGoes ⟨':', hHead, .inl rfl⟩
    · intro d hHead
      rw [← Bool.not_eq_true]
      exact fun hWord => hGoes ⟨d, hHead, .inr hWord⟩

/-- The last character of a text whose end is cut off, or else of what stands before. -/
theorem getLast?_or_of_append {s front rest : List Char} (hText : front ++ rest = s)
    (hFront : front ≠ []) (previous : Option Char) :
    s.getLast?.or previous = rest.getLast?.or front.getLast? := by
  rw [← hText, List.getLast?_append]
  cases hLast : front.getLast? with
  | none => exact absurd (List.getLast?_eq_none_iff.mp hLast) hFront
  | some c => cases rest.getLast? <;> rfl

namespace Dialect

variable (d : Dialect) (params : List (Value × Value))

/-- Behind a marker or not, what does not start with a colon is bound as it is alone. -/
theorem bindFrom_of_head?_ne {s : List Char} (h : s.head? ≠ some ':') (p q : Option Char) :
    d.bindFrom params p s = d.bindFrom params q s := by
  have hCut : ∀ r, Marker.cut? r s = none := by
    intro r
    unfold Marker.cut?
    split
    · exact absurd rfl h
    · rfl
  cases s with
  | nil => simp
  | cons c rest =>
    cases hRegion : Region.closed? (c :: rest) with
    | some cut => rw [d.bindFrom_of_region params hRegion, d.bindFrom_of_region params hRegion]
    | none =>
      rw [d.bindFrom_of_plain params hRegion (hCut p), d.bindFrom_of_plain params hRegion (hCut q)]

/-- Binding goes on behind a seam as if it had begun there. -/
theorem bindFrom_append (previous : Option Char) {p t : List Char} (hOut : endsOutside p = true)
    (hSeam : IsSeam p t) :
    d.bindFrom params previous (p ++ t) = do
      let front ← d.bindFrom params previous p
      let back ← d.bindFrom params (p.getLast?.or previous) t
      return front ++ back := by
  fun_induction tokens previous p with
  | case1 previous => simp
  | case2 previous c rest region tail hRegion _ ih =>
    obtain ⟨hText, hNonempty⟩ := Region.closed?_append hRegion
    have hLast := getLast?_or_of_append hText hNonempty previous
    have hTail := ih (Region.endsOutside_of_closed? hOut hRegion) ((hText ▸ hSeam).of_append)
    rw [hLast, d.bindFrom_of_region params hRegion]
    rcases Region.closed?_append_of_endsOutside hOut hRegion t with
      hMore | ⟨quote, hQuote, hFront, hNil, -, hMore⟩
    · rw [d.bindFrom_of_region params hMore, hTail]
      simp only [map_eq_pure_bind, bind_assoc, pure_bind, List.append_assoc]
    · obtain rfl : tail = [] := hNil
      simp only [List.append_nil] at hText
      rw [← hText] at hMore ⊢
      rw [d.bindFrom_of_resuming params hQuote hFront hMore,
        d.bindFrom_congr params (p := none) (q := some quote) (Marker.isBlocked_quote hQuote).symm,
        d.bindFrom_nil]
      simp [hFront]
  | case3 previous c rest hRegion m tail hMarker _ ih =>
    obtain ⟨hText, hChars⟩ := Marker.text_of_cut? hMarker
    have hLast := getLast?_or_of_append hText (Marker.text_ne_nil m) previous
    have hTail : endsOutside tail = true := by
      rwa [← hText, endsOutside, modeAfter, Mode.after_append,
        Marker.plain_after_marker hChars] at hOut
    have hMore := Marker.cut?_append_of_isSeam previous (List.cons_ne_nil c rest) hSeam
    rw [hMarker] at hMore
    rw [d.bindFrom_of_marker params (Region.closed?_append_of_isSeam hOut hRegion hSeam) hMore,
      d.bindFrom_of_marker params hRegion hMarker, ih hTail ((hText ▸ hSeam).of_append), hLast]
    simp only [bind_assoc, pure_bind, List.append_assoc]
  | case4 previous c rest hRegion hMarker ih =>
    have hTail : endsOutside rest = true := Region.endsOutside_of_no_region hOut hRegion
    have hText : [c] ++ rest = c :: rest := rfl
    have hLast : (c :: rest).getLast?.or previous = rest.getLast?.or (some c) :=
      getLast?_or_of_append hText (List.cons_ne_nil c []) previous
    have hMore := Marker.cut?_append_of_isSeam previous (List.cons_ne_nil c rest) hSeam
    rw [hMarker] at hMore
    have hPlain := Region.closed?_append_of_isSeam hOut hRegion hSeam
    rw [List.cons_append] at hPlain hMore ⊢
    rw [d.bindFrom_of_plain params hPlain hMore, d.bindFrom_of_plain params hRegion hMarker,
      ih hTail ((hText ▸ hSeam).of_append), hLast]
    simp only [map_eq_pure_bind, bind_assoc, pure_bind, List.cons_append]

/-! ## What passes -/

/-- The text is put out as it is, whatever stands before it, and what stands behind it is bound
as it is alone. -/
def Passes (text : List Char) : Prop :=
  ∀ previous t, d.bindFrom params previous (text ++ t) = (text ++ ·) <$> d.bindFrom params none t

/-- A quoted region passes, also where it goes on in the text behind it. -/
theorem passes_quoted {quote : Char} (hq : Region.isQuote quote = true) {inside : List Char}
    (h : Region.IsQuotedRest quote inside) : d.Passes params (quote :: inside) :=
  fun _ t => d.bindFrom_of_resuming params hq (Region.getLast?_quoted hq h)
    (Region.closed?_quoted hq h t)

variable {d params}

/-- A point between two texts that pass. -/
theorem Passes.point {front back : List Char} (hFront : d.Passes params front)
    (hBack : d.Passes params back) : d.Passes params (front ++ ['.'] ++ back) := by
  intro previous t
  have hPoint : d.bindFrom params none ('.' :: (back ++ t)) =
      ('.' :: ·) <$> d.bindFrom params (some '.') (back ++ t) :=
    d.bindFrom_of_plain params (by simp [Region.closed?, Region.isQuote, backquote]) rfl
  rw [List.append_assoc, List.append_assoc, hFront, List.singleton_append, hPoint, hBack]
  simp

/-- Texts that pass, with points between them. -/
theorem passes_intercalate {texts : List (List Char)} (hTexts : texts ≠ [])
    (h : ∀ text ∈ texts, d.Passes params text) :
    d.Passes params (List.intercalate ['.'] texts) := by
  induction texts with
  | nil => exact absurd rfl hTexts
  | cons text more ih =>
    cases more with
    | nil => simpa using h text (by simp)
    | cons next more =>
      rw [List.intercalate_cons_cons]
      exact (h text (by simp)).point
        (ih (List.cons_ne_nil next more) fun other hMem => h other (by simp [hMem]))

/-- Binding around a text that passes. -/
theorem Passes.between {text : List Char} (h : d.Passes params text) (previous : Option Char)
    {p s : List Char} (hOut : endsOutside p = true) (hSeam : IsSeam p (text ++ s)) :
    d.bindFrom params previous (p ++ (text ++ s)) = do
      let front ← d.bindFrom params previous p
      let back ← d.bindFrom params none s
      return front ++ (text ++ back) := by
  rw [d.bindFrom_append params previous hOut hSeam, h]
  simp

end Dialect

end SqlWeave.Sql
