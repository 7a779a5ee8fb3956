import Mathlib.Data.List.DropRight

/-!
# Runs of characters

A run of characters of one class is the same when text is put behind it that does not go
on with the class.  A run at the end of a text is the same when text is put in front of a
character that stops it.
-/

namespace SqlWeave.Text

variable {α : Type} {p : α → Bool}

theorem takeWhile_of_stop {t : List α} (h : ∀ c, t.head? = some c → p c = false) :
    t.takeWhile p = [] := by
  cases t with
  | nil => rfl
  | cons c rest => simp [h c rfl]

theorem dropWhile_of_stop {t : List α} (h : ∀ c, t.head? = some c → p c = false) :
    t.dropWhile p = t := by
  cases t with
  | nil => rfl
  | cons c rest => simp [h c rfl]

/-- What is left when a run is taken off. -/
theorem drop_length_takeWhile (p : α → Bool) (s : List α) :
    s.drop (s.takeWhile p).length = s.dropWhile p := by
  induction s with
  | nil => rfl
  | cons c rest ih => cases hc : p c <;> simp [hc, ih]

/-- A run ends where it ended. -/
theorem takeWhile_append_of_stop {t : List α} (h : ∀ c, t.head? = some c → p c = false)
    (s : List α) : (s ++ t).takeWhile p = s.takeWhile p := by
  induction s with
  | nil => exact takeWhile_of_stop h
  | cons c rest ih => cases hc : p c <;> simp [hc, ih]

/-- What stands behind a run goes on with the text that is put behind. -/
theorem dropWhile_append_of_stop {t : List α} (h : ∀ c, t.head? = some c → p c = false)
    (s : List α) : (s ++ t).dropWhile p = s.dropWhile p ++ t := by
  induction s with
  | nil => exact dropWhile_of_stop h
  | cons c rest ih => cases hc : p c <;> simp [hc, ih]

/-- A whole text of one class is a run. -/
theorem takeWhile_append_of_run {s t : List α} (hs : ∀ c ∈ s, p c = true)
    (h : ∀ c, t.head? = some c → p c = false) : (s ++ t).takeWhile p = s := by
  rw [List.takeWhile_append_of_pos hs, takeWhile_of_stop h, List.append_nil]

theorem dropWhile_append_of_run {s t : List α} (hs : ∀ c ∈ s, p c = true)
    (h : ∀ c, t.head? = some c → p c = false) : (s ++ t).dropWhile p = t := by
  rw [List.dropWhile_append_of_pos hs, dropWhile_of_stop h]

/-! ## Runs at the end -/

theorem of_getLast?_rdropWhile {s : List α} {c : α} (h : (s.rdropWhile p).getLast? = some c) :
    p c = false := by
  have hStop := List.head?_dropWhile_not p s.reverse
  rw [List.rdropWhile, List.getLast?_reverse] at h
  rw [h] at hStop
  simpa using hStop

/-- What stands in front of a character that stays is left. -/
theorem rdropWhile_append_cons (s : List α) {c : α} (t : List α) (h : p c = false) :
    (s ++ c :: t).rdropWhile p = s ++ c :: t.rdropWhile p := by
  induction t using List.reverseRecOn with
  | nil => exact List.rdropWhile_concat_neg p s c (by simp [h])
  | append_singleton t d ih =>
    rw [← List.cons_append, ← List.append_assoc, List.rdropWhile_concat, List.rdropWhile_concat, ih]
    split
    · rfl
    · rw [List.append_assoc, List.cons_append]

end SqlWeave.Text
