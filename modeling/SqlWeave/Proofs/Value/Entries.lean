import SqlWeave.Value.Basic

/-!
# Entries of mappings

A mapping is its entries, and a text key is the same key as no other value than that text.  What
is found under a text is therefore a matter of the entries with that text alone, and mappings can
be put on top of each other entry by entry.

## Main results

* `sameKey_str_iff`, `str_sameKey_iff`: which keys are the same as a text.
* `find?_insertEntry`: what is found once an entry was set.
* `find?_overlay`: what is found in a mapping with another one on top.
* `overlay_nil_map_iff`: when a mapping whose keys are renamed is still the same mapping.
-/

namespace SqlWeave.Value

/-! ## Text keys -/

theorem beq_str_iff {key : Value} {name : String} :
    (key == .str name) = true ↔ key = .str name := by
  show equals key (.str name) = true ↔ _
  cases key <;> simp [equals]

theorem str_beq_iff {key : Value} {name : String} :
    (Value.str name == key) = true ↔ key = .str name := by
  show equals (.str name) key = true ↔ _
  cases key with
  | str other =>
    simp only [equals, beq_iff_eq, str.injEq]
    exact eq_comm
  | _ => simp [equals]

/-- Values that are one key, but not both as numbers, are equal. -/
theorem beq_of_sameScalar {x y : Value} (hRatio : x.ratio? = none ∨ y.ratio? = none)
    (hInfinity : x.infinity? = none ∨ y.infinity? = none) (h : sameScalar x y = true) :
    (x == y) = true := by
  rw [sameScalar] at h
  split at h
  · next hx hy => simp [hx, hy] at hRatio
  · split at h
    · next hx hy => simp [hx, hy] at hInfinity
    · exact (Bool.and_eq_true_iff.mp h).2
    · cases h
  · cases h

theorem sameScalar_str_self (name : String) : sameScalar (.str name) (.str name) = true := by
  have hSelf : (Value.str name == .str name) = true := beq_str_iff.mpr rfl
  simp [sameScalar, ratio?, infinity?, isNaN, hSelf]

/-- A text is the same key as no other value. -/
theorem sameKey_str_iff {key : Value} {name : String} :
    sameKey key (.str name) = true ↔ key = .str name := by
  have hScalar : sameKey key (.str name) = sameScalar key (.str name) := by
    cases key <;> rfl
  rw [hScalar]
  constructor
  · exact fun h => beq_str_iff.mp (beq_of_sameScalar (.inr rfl) (.inr rfl) h)
  · rintro rfl
    exact sameScalar_str_self name

/-- A text is the same key as no other value. -/
theorem str_sameKey_iff {key : Value} {name : String} :
    sameKey (.str name) key = true ↔ key = .str name := by
  have hScalar : sameKey (.str name) key = sameScalar (.str name) key := by
    cases key <;> rfl
  rw [hScalar]
  constructor
  · exact fun h => str_beq_iff.mp (beq_of_sameScalar (.inl rfl) (.inl rfl) h)
  · rintro rfl
    exact sameScalar_str_self name

/-! ## What is found -/

theorem find?_cons (name : String) (key v : Value) (rest : List (Value × Value)) :
    find? name ((key, v) :: rest) = if key == .str name then some v else find? name rest := by
  cases key with
  | str k =>
    have hKey : (Value.str k == .str name) = (k == name) := by
      rw [Bool.eq_iff_iff, beq_str_iff, str.injEq, beq_iff_eq]
    rw [find?, hKey]
  | _ =>
    rw [find?, if_neg (by simp [beq_str_iff])]
    simp

/-- What is found once an entry was set. -/
theorem find?_insertEntry (name : String) (key v : Value) (entries : List (Value × Value)) :
    find? name (insertEntry key v entries) =
      if key == .str name then some v else find? name entries := by
  induction entries with
  | nil => rw [insertEntry, find?_cons]
  | cons e rest ih =>
    obtain ⟨k, w⟩ := e
    rw [insertEntry]
    by_cases hSame : sameKey k key = true
    · rw [if_pos hSame, find?_cons, find?_cons]
      by_cases hKey : key = .str name
      · subst hKey
        rw [sameKey_str_iff.mp hSame]
        simp [beq_str_iff]
      · have hOther : k ≠ .str name := by
          rintro rfl
          exact hKey (str_sameKey_iff.mp hSame)
        simp [beq_str_iff, hKey, hOther]
    · rw [if_neg hSame, find?_cons, find?_cons, ih]
      by_cases hKey : key = .str name
      · subst hKey
        simp [beq_str_iff, mt sameKey_str_iff.mpr hSame]
      · simp [beq_str_iff, hKey]

/-- No key occurs twice, as in every mapping. -/
def HasDistinctKeys (entries : List (Value × Value)) : Prop :=
  entries.Pairwise fun e e' => sameKey e.1 e'.1 = false

/-- A mapping with another one on top: entries of the upper one go before those with the same
key of the lower one. -/
def overlay (lower upper : List (Value × Value)) : List (Value × Value) :=
  upper.foldl (fun entries e => insertEntry e.1 e.2 entries) lower

theorem find?_eq_none {name : String} {entries : List (Value × Value)}
    (h : ∀ e ∈ entries, e.1 ≠ .str name) : find? name entries = none := by
  induction entries with
  | nil => rfl
  | cons e rest ih =>
    obtain ⟨hFirst, hRest⟩ := List.forall_mem_cons.mp h
    rw [find?_cons, ih hRest]
    simp [beq_str_iff, hFirst]

theorem mem_of_find? {name : String} {entries : List (Value × Value)} {v : Value}
    (h : find? name entries = some v) : (.str name, v) ∈ entries := by
  induction entries with
  | nil => cases h
  | cons e rest ih =>
    obtain ⟨key, w⟩ := e
    rw [find?_cons] at h
    by_cases hKey : key = .str name
    · rw [if_pos (beq_str_iff.mpr hKey)] at h
      cases h
      rw [hKey]
      exact List.mem_cons_self
    · rw [if_neg (mt beq_str_iff.mp hKey)] at h
      exact List.mem_cons_of_mem _ (ih h)

/-- What is found in a mapping with another one on top. -/
theorem find?_overlay {upper : List (Value × Value)} (h : HasDistinctKeys upper) (name : String)
    (lower : List (Value × Value)) :
    find? name (overlay lower upper) = (find? name upper).or (find? name lower) := by
  induction upper generalizing lower with
  | nil => rfl
  | cons e rest ih =>
    obtain ⟨key, v⟩ := e
    obtain ⟨hFirst, hRest⟩ := List.pairwise_cons.mp h
    have hTail : overlay lower ((key, v) :: rest) = overlay (insertEntry key v lower) rest := rfl
    rw [hTail, ih hRest, find?_insertEntry, find?_cons]
    by_cases hKey : key = .str name
    · subst hKey
      have hNone : find? name rest = none := by
        refine find?_eq_none fun e he hSame => ?_
        have hDistinct := hFirst e he
        rw [hSame, sameKey_str_iff.mpr rfl] at hDistinct
        cases hDistinct
      simp [beq_str_iff, hNone]
    · simp [beq_str_iff, hKey]

/-! ## Entries in a row -/

/-- An entry is set in place or put behind the others. -/
theorem insertEntry_cases (key v : Value) (entries : List (Value × Value)) :
    insertEntry key v entries = entries ++ [(key, v)] ∨
      (insertEntry key v entries).map Prod.fst = entries.map Prod.fst := by
  induction entries with
  | nil => exact .inl rfl
  | cons e rest ih =>
    obtain ⟨k, w⟩ := e
    rw [insertEntry]
    by_cases hSame : sameKey k key = true
    · rw [if_pos hSame]
      exact .inr rfl
    · rw [if_neg hSame]
      rcases ih with hBehind | hInPlace
      · exact .inl (by rw [hBehind]; rfl)
      · exact .inr (by rw [List.map_cons, List.map_cons, hInPlace])

/-- An entry with a new key is put behind the others. -/
theorem insertEntry_of_new {key : Value} {entries : List (Value × Value)}
    (h : ∀ e ∈ entries, sameKey e.1 key = false) (v : Value) :
    insertEntry key v entries = entries ++ [(key, v)] := by
  induction entries with
  | nil => rfl
  | cons e rest ih =>
    obtain ⟨hFirst, hRest⟩ := List.forall_mem_cons.mp h
    rw [insertEntry, hFirst, if_neg Bool.false_ne_true, ih hRest, List.cons_append]

theorem HasDistinctKeys.insertEntry {entries : List (Value × Value)} (h : HasDistinctKeys entries)
    (key v : Value) : HasDistinctKeys (insertEntry key v entries) := by
  induction entries with
  | nil => exact List.pairwise_singleton _ _
  | cons e rest ih =>
    obtain ⟨k, w⟩ := e
    obtain ⟨hFirst, hRest⟩ := List.pairwise_cons.mp h
    rw [Value.insertEntry]
    by_cases hSame : sameKey k key = true
    · rw [if_pos hSame]
      exact List.pairwise_cons.mpr ⟨hFirst, hRest⟩
    · rw [if_neg hSame]
      refine List.pairwise_cons.mpr ⟨fun e he => ?_, ih hRest⟩
      have hKey : e.1 ∈ (Value.insertEntry key v rest).map Prod.fst := List.mem_map_of_mem he
      rcases insertEntry_cases key v rest with hBehind | hInPlace
      · rw [hBehind] at he
        rcases List.mem_append.mp he with hMem | hMem
        · exact hFirst e hMem
        · rw [List.mem_singleton.mp hMem]
          simpa using hSame
      · rw [hInPlace] at hKey
        obtain ⟨other, hMem, hEq⟩ := List.mem_map.mp hKey
        rw [← hEq]
        exact hFirst other hMem

theorem HasDistinctKeys.overlay {lower : List (Value × Value)} (h : HasDistinctKeys lower)
    (upper : List (Value × Value)) : HasDistinctKeys (overlay lower upper) := by
  induction upper generalizing lower with
  | nil => exact h
  | cons e rest ih => exact ih (h.insertEntry e.1 e.2)

/-- Entries with keys of their own are put behind the others. -/
theorem overlay_of_distinct {lower upper : List (Value × Value)}
    (h : HasDistinctKeys (lower ++ upper)) : overlay lower upper = lower ++ upper := by
  induction upper generalizing lower with
  | nil => rw [List.append_nil, overlay, List.foldl_nil]
  | cons e rest ih =>
    have hNew : ∀ other ∈ lower, sameKey other.1 e.1 = false := fun other hMem =>
      (List.pairwise_append.mp h).2.2 other hMem e List.mem_cons_self
    have hTail : overlay lower (e :: rest) = overlay (insertEntry e.1 e.2 lower) rest := rfl
    rw [List.append_cons] at h ⊢
    rw [hTail, insertEntry_of_new hNew, ih h]

theorem length_overlay_le (lower upper : List (Value × Value)) :
    (overlay lower upper).length ≤ lower.length + upper.length := by
  induction upper generalizing lower with
  | nil => exact Nat.le_refl _
  | cons e rest ih =>
    have hTail := ih (insertEntry e.1 e.2 lower)
    have hInsert : (insertEntry e.1 e.2 lower).length ≤ lower.length + 1 := by
      rcases insertEntry_cases e.1 e.2 lower with hBehind | hInPlace
      · exact Nat.le_of_eq (by rw [hBehind, List.length_append, List.length_singleton])
      · have hLength := congrArg List.length hInPlace
        rw [List.length_map, List.length_map] at hLength
        omega
    show (overlay (insertEntry e.1 e.2 lower) rest).length ≤ _
    rw [List.length_cons]
    omega

/-- If nothing is lost, everything is put behind the others. -/
theorem overlay_of_length {lower upper : List (Value × Value)}
    (h : (overlay lower upper).length = lower.length + upper.length) :
    overlay lower upper = lower ++ upper := by
  induction upper generalizing lower with
  | nil => rw [List.append_nil, overlay, List.foldl_nil]
  | cons e rest ih =>
    have hTail : overlay lower (e :: rest) = overlay (insertEntry e.1 e.2 lower) rest := rfl
    have hLe := length_overlay_le (insertEntry e.1 e.2 lower) rest
    rw [hTail] at h ⊢
    rw [List.length_cons] at h
    rcases insertEntry_cases e.1 e.2 lower with hBehind | hInPlace
    · rw [hBehind] at h ⊢
      rw [ih (by rw [h, List.length_append, List.length_singleton]; omega), List.append_assoc]
      rfl
    · have hLength := congrArg List.length hInPlace
      rw [List.length_map, List.length_map] at hLength
      omega

/-- A mapping whose entries are renamed is the same mapping only if every entry is the same. -/
theorem overlay_nil_map_iff {entries : List (Value × Value)} (h : HasDistinctKeys entries)
    (f : Value × Value → Value × Value) :
    overlay [] (entries.map f) = entries ↔ ∀ e ∈ entries, f e = e := by
  have hMap : entries.map f = entries ↔ ∀ e ∈ entries, f e = e := by
    conv => lhs; rhs; rw [← List.map_id entries]
    exact List.map_inj_left
  rw [← hMap]
  constructor
  · intro hSame
    have hLength := congrArg List.length hSame
    have hAll : overlay [] (entries.map f) = entries.map f :=
      overlay_of_length (by rw [hLength, List.length_map, List.length_nil, Nat.zero_add])
    rw [← hAll, hSame]
  · intro hSame
    rw [hSame]
    exact overlay_of_distinct h

/-- Which texts are keys once an entry was set. -/
theorem str_mem_keys_insertEntry {name : String} {key v : Value} {entries : List (Value × Value)} :
    Value.str name ∈ (insertEntry key v entries).map Prod.fst ↔
      key = .str name ∨ Value.str name ∈ entries.map Prod.fst := by
  induction entries with
  | nil => simp [insertEntry, eq_comm]
  | cons e rest ih =>
    obtain ⟨k, w⟩ := e
    rw [insertEntry]
    by_cases hSame : sameKey k key = true
    · rw [if_pos hSame, List.map_cons, List.map_cons]
      refine ⟨.inr, fun h => h.elim ?_ id⟩
      rintro rfl
      rw [sameKey_str_iff.mp hSame]
      exact List.mem_cons_self
    · rw [if_neg hSame, List.map_cons, List.map_cons, List.mem_cons, List.mem_cons, ih]
      exact or_left_comm

/-- Which texts are keys of a mapping with another one on top. -/
theorem str_mem_keys_overlay (lower upper : List (Value × Value)) (name : String) :
    Value.str name ∈ (overlay lower upper).map Prod.fst ↔
      Value.str name ∈ lower.map Prod.fst ∨ Value.str name ∈ upper.map Prod.fst := by
  induction upper generalizing lower with
  | nil => simp [overlay]
  | cons e rest ih =>
    show _ ∈ (overlay (insertEntry e.1 e.2 lower) rest).map Prod.fst ↔ _
    rw [ih, str_mem_keys_insertEntry, List.map_cons, List.mem_cons, eq_comm (a := e.1), or_assoc,
      or_left_comm]

end SqlWeave.Value
