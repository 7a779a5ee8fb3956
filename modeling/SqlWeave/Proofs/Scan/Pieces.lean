import SqlWeave.Proofs.Scan.Mode

/-!
# Pieces of a text

A text in which no semicolon is read outside is one piece.  The pieces that a scan cuts a
text into are such texts, and the scan of all but the last one ends outside.

## Main results

* `single_append`: two texts in a row are one piece exactly if each of them is.
* `arePieces_split`: the pieces of a text are one piece each.
* `intercalate_split`: the pieces of a text are the text, joined by semicolons.
-/

namespace SqlWeave.Sql.Mode

/-! ## Texts that are one piece -/

theorem single_cons {m : Mode} {c : Char} {rest : List Char} :
    m.split (c :: rest) = [c :: rest] ↔
      (c == ';' && m.isOutside) = false ∧ (m.next c).split rest = [rest] := by
  rw [split_cons]
  cases hSep : c == ';' && m.isOutside with
  | true => simp
  | false =>
    have hNe := split_ne_nil (m.next c) rest
    generalize (m.next c).split rest = pieces at hNe
    cases pieces with
    | nil => exact absurd rfl hNe
    | cons piece pieces => simp

/-- Two texts in a row are one piece exactly if each of them is. -/
theorem single_append {m : Mode} {s t : List Char} :
    m.split (s ++ t) = [s ++ t] ↔ m.split s = [s] ∧ (m.after s).split t = [t] := by
  induction s generalizing m with
  | nil => simp
  | cons c rest ih => rw [List.cons_append, single_cons, single_cons, ih, after_cons, and_assoc]

/-- Pieces of a text, the first one read in a mode: each one is a piece of its own, and the
scan of all but the last one ends outside. -/
def ArePieces (m : Mode) : List (List Char) → Prop
  | [] => False
  | [piece] => m.split piece = [piece]
  | piece :: next :: more =>
    m.split piece = [piece] ∧ (m.after piece).isOutside = true ∧ ArePieces plain (next :: more)

theorem arePieces_extendHead {m : Mode} {c : Char} {pieces : List (List Char)}
    (hSep : (c == ';' && m.isOutside) = false) (h : ArePieces (m.next c) pieces) :
    ArePieces m (extendHead [c] pieces) := by
  match pieces, h with
  | [piece], h => exact single_cons.mpr ⟨hSep, h⟩
  | piece :: next :: more, h => exact ⟨single_cons.mpr ⟨hSep, h.1⟩, h.2⟩

/-- The pieces that a scan cuts a text into. -/
theorem arePieces_split (m : Mode) (s : List Char) : ArePieces m (m.split s) := by
  induction s generalizing m with
  | nil => exact split_nil m
  | cons c rest ih =>
    cases hSep : c == ';' && m.isOutside with
    | true =>
      obtain ⟨hc, hOut⟩ := Bool.and_eq_true_iff.mp hSep
      rw [beq_iff_eq.mp hc, split_semicolon hOut]
      have hRest := ih plain
      cases hPieces : plain.split rest with
      | nil => exact absurd hPieces (split_ne_nil plain rest)
      | cons piece more =>
        rw [hPieces] at hRest
        exact ⟨split_nil m, hOut, hRest⟩
    | false =>
      rw [split_cons, hSep, if_neg Bool.false_ne_true]
      exact arePieces_extendHead hSep (ih (m.next c))

theorem intercalate_extendHead (separator front : List Char) {pieces : List (List Char)}
    (h : pieces ≠ []) :
    List.intercalate separator (extendHead front pieces) =
      front ++ List.intercalate separator pieces := by
  match pieces, h with
  | [piece], _ => simp
  | piece :: next :: more, _ =>
    rw [extendHead_cons, List.intercalate_cons_cons, List.intercalate_cons_cons, List.append_assoc,
      List.append_assoc, List.append_assoc]

/-- The pieces joined by semicolons are the text. -/
theorem intercalate_split (m : Mode) (s : List Char) : List.intercalate [';'] (m.split s) = s := by
  induction s generalizing m with
  | nil => rfl
  | cons c rest ih =>
    have hNe := split_ne_nil (m.next c) rest
    rw [split_cons]
    split
    · next hSep =>
      rw [List.intercalate_cons_of_ne_nil hNe, ih, beq_iff_eq.mp (Bool.and_eq_true_iff.mp hSep).1]
      rfl
    · rw [intercalate_extendHead _ _ hNe, ih]
      rfl

/-- Behind a semicolon that separates, the scan is at its start. -/
theorem next_semicolon {m : Mode} (h : m.isOutside = true) : m.next ';' = plain := by
  cases m <;> first | rfl | cases h

/-- Each of the pieces is one piece when it is split again. -/
theorem ArePieces.single {pieces : List (List Char)} (h : ArePieces plain pieces) :
    ∀ piece ∈ pieces, plain.split piece = [piece] := by
  match pieces, h with
  | [piece], h => exact List.forall_mem_singleton.mpr h
  | piece :: next :: more, ⟨hSingle, _, hMore⟩ =>
    exact List.forall_mem_cons.mpr ⟨hSingle, hMore.single⟩

theorem ArePieces.endsOutside {pieces : List (List Char)} (h : ArePieces plain pieces) :
    ∀ piece ∈ pieces.dropLast, (modeAfter piece).isOutside = true := by
  match pieces, h with
  | [piece], _ => exact fun other hMem => absurd hMem List.not_mem_nil
  | piece :: next :: more, ⟨_, hOut, hMore⟩ =>
    rw [List.dropLast_cons_of_ne_nil (by simp), List.forall_mem_cons]
    exact ⟨hOut, hMore.endsOutside⟩

/-- The scan of the text ends as the scan of its last piece does. -/
theorem ArePieces.modeAfter_intercalate {pieces : List (List Char)} (h : ArePieces plain pieces)
    (hNe : pieces ≠ []) :
    modeAfter (List.intercalate [';'] pieces) = modeAfter (pieces.getLast hNe) := by
  match pieces, h with
  | [piece], _ => simp
  | piece :: next :: more, ⟨_, hOut, hMore⟩ =>
    rw [List.intercalate_cons_of_ne_nil (by simp), List.append_assoc, modeAfter, after_append,
      List.singleton_append, after_cons, next_semicolon hOut, List.getLast_cons (by simp)]
    exact hMore.modeAfter_intercalate (by simp)

end SqlWeave.Sql.Mode
