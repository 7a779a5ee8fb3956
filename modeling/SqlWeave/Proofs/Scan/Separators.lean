import SqlWeave.Proofs.Scan.Agreement
import SqlWeave.Proofs.Scan.Pieces

/-!
# Separators

Splitting a text takes some of its semicolons out.  `separators` says where they stood, from the
lengths of the pieces alone.  They are the semicolons outside of the units that are regions; in a
text in which everything is closed, the regions are those that are protected from binding.

## Main results

* `mem_separators_iff`: which semicolons a text is split at.
* `statements_lossless`: splitting loses nothing, splits no piece again, and takes out the
  semicolons outside of regions.
-/

namespace SqlWeave.Sql

open Mode

/-! ## Offsets of separators -/

/-- Where the separators between pieces stand in the text that they join the pieces to, which
itself stands at `start`. -/
def separators (start : Nat) : List (List Char) → List Nat
  | [] => []
  | [_] => []
  | piece :: next :: more =>
    (start + piece.length) :: separators (start + piece.length + 1) (next :: more)

theorem separators_cons (start : Nat) (piece : List Char) {pieces : List (List Char)}
    (h : pieces ≠ []) :
    separators start (piece :: pieces) =
      (start + piece.length) :: separators (start + piece.length + 1) pieces := by
  cases pieces with
  | nil => exact absurd rfl h
  | cons next more => rfl

/-- Characters in front of the first piece shift all separators. -/
theorem separators_extendHead (start : Nat) (front : List Char) {pieces : List (List Char)}
    (h : pieces ≠ []) :
    separators start (extendHead front pieces) = separators (start + front.length) pieces := by
  match pieces with
  | [] => exact absurd rfl h
  | [piece] => rfl
  | piece :: next :: more =>
    have hNext : next :: more ≠ [] := List.cons_ne_nil next more
    rw [extendHead_cons, separators_cons _ _ hNext, separators_cons _ _ hNext, List.length_append,
      ← Nat.add_assoc]

/-- No separator stands in front of the pieces. -/
theorem le_of_mem_separators {start i : Nat} {pieces : List (List Char)}
    (h : i ∈ separators start pieces) : start ≤ i := by
  fun_induction separators start pieces with
  | case1 => simp at h
  | case2 => simp at h
  | case3 start piece next more ih =>
    rcases List.mem_cons.mp h with rfl | hMore
    · omega
    · have := ih hMore
      omega

/-- No separator stands among characters in front of the first piece. -/
theorem not_mem_separators_extendHead {start k : Nat} {front : List Char}
    {pieces : List (List Char)} (h : pieces ≠ []) (hFront : k < front.length) :
    start + k ∉ separators start (extendHead front pieces) := by
  rw [separators_extendHead _ _ h]
  intro hMem
  have := le_of_mem_separators hMem
  omega

/-! ## Offsets in regions -/

/-- One of the places covers the offset. -/
def IsCovered (places : List (Nat × Nat)) (i : Nat) : Prop :=
  ∃ place ∈ places, place.1 ≤ i ∧ i < place.2

theorem isCovered_cons (place : Nat × Nat) (more : List (Nat × Nat)) (i : Nat) :
    IsCovered (place :: more) i ↔ (place.1 ≤ i ∧ i < place.2) ∨ IsCovered more i := by
  simp [IsCovered]

/-- What stands in front of a list of tokens is not covered by its regions. -/
theorem not_isCovered_of_lt {start i : Nat} {ts : List Token} (h : i < start) :
    ¬ IsCovered (places start ts) i := by
  rintro ⟨place, hMem, hLe, -⟩
  have := le_of_mem_places hMem
  omega

/-- A text is split at its semicolons outside of the units that are regions. -/
theorem mem_separators_iff (start k : Nat) (s : List Char) :
    start + k ∈ separators start (statements s) ↔
      s[k]? = some ';' ∧ ¬ IsCovered (places start (units s)) (start + k) := by
  fun_induction statements s generalizing start k with
  | case1 => simp [separators]
  | case2 c rest region tail hRegion _ ih =>
    obtain ⟨hText, -⟩ := Region.openEnded?_append hRegion
    dsimp only at hText
    rw [units_of_region hRegion, places_region, isCovered_cons, ← hText]
    by_cases hInside : k < region.length
    · have hNot : start + k ∉ separators start (extendHead region (statements tail)) :=
        not_mem_separators_extendHead (statements_ne_nil tail) hInside
      simp [hNot, hInside]
    · obtain ⟨j, rfl⟩ := Nat.exists_eq_add_of_le (Nat.le_of_not_lt hInside)
      have hBehind : ¬ (start ≤ start + region.length + j ∧
          start + region.length + j < start + region.length) := by omega
      rw [separators_extendHead _ _ (statements_ne_nil tail), ← Nat.add_assoc, ih,
        or_iff_right hBehind, List.getElem?_append_right (by omega), Nat.add_sub_cancel_left]
  | case3 c rest hRegion hSemi ih =>
    obtain rfl : c = ';' := beq_iff_eq.mp hSemi
    rw [separators_cons _ _ (statements_ne_nil rest), units_of_plain hRegion, places_plain]
    cases k with
    | zero => simp [not_isCovered_of_lt]
    | succ j =>
      have hShift : start + (j + 1) = start + 1 + j := by omega
      have hNe : start + 1 + j ≠ start + 0 := by omega
      rw [hShift, List.mem_cons, List.length_nil, or_iff_right hNe, Nat.add_zero, ih]
      rfl
  | case4 c rest hRegion hSemi ih =>
    rw [units_of_plain hRegion, places_plain]
    cases k with
    | zero =>
      have hNot : start + 0 ∉ separators start (extendHead [c] (statements rest)) :=
        not_mem_separators_extendHead (statements_ne_nil rest) Nat.one_pos
      have hNe : c ≠ ';' := by simpa using hSemi
      simpa [hNe] using hNot
    | succ j =>
      have hShift : start + (j + 1) = start + 1 + j := by omega
      rw [separators_extendHead _ _ (statements_ne_nil rest), hShift, List.length_singleton, ih]
      rfl

/-! ## Splitting loses nothing -/

/-- The statements of a text, joined by semicolons, are the text; each of them is one statement;
and if everything that is opened in the text is closed, the semicolons between them are those
outside of its quoted regions and comments. -/
theorem statements_lossless (s : List Char) :
    List.intercalate [';'] (statements s) = s ∧
      (∀ piece ∈ statements s, statements piece = [piece]) ∧
      (closesAll s = true → ∀ i, i ∈ separators 0 (statements s) ↔
        s[i]? = some ';' ∧ ¬ IsCovered (places 0 (tokens none s)) i) := by
  refine ⟨?_, fun piece hMem => ?_, fun hCloses i => ?_⟩
  · rw [statements_eq_split]
    exact intercalate_split plain s
  · rw [statements_eq_split] at hMem ⊢
    exact (arePieces_split plain s).single piece hMem
  · have hPlaces := (places_eq_iff 0 none s).mpr hCloses
    have hUnits := mem_separators_iff 0 i s
    rw [Nat.zero_add] at hUnits
    rw [hPlaces, hUnits]

/-- Of four semicolons, two of them quoted and one in a comment, one separates. -/
theorem statements_lossless_quoted :
    let s := "a ';''' ; `;` /* ; */".toList
    " `;` /* ; */".toList ∈ statements s ∧ closesAll s = true ∧
      List.intercalate [';'] (statements s) = s ∧
      statements " `;` /* ; */".toList = [" `;` /* ; */".toList] ∧
      ∀ i, i ∈ separators 0 (statements s) ↔
        s[i]? = some ';' ∧ ¬ IsCovered (places 0 (tokens none s)) i := by
  intro s
  have hMem : " `;` /* ; */".toList ∈ statements s := by
    rw [statements_eq_split]
    decide
  have hCloses : closesAll s = true := by decide
  obtain ⟨hJoined, hSingle, hSeparators⟩ := statements_lossless s
  exact ⟨hMem, hCloses, hJoined, hSingle _ hMem, hSeparators hCloses⟩

end SqlWeave.Sql
