import Mathlib
import SqlWeave.Casing.Words

/-!
# Words of camel-case names

A camel-case name is its words, lower-cased and put together with a capital or an
underscore in front of every word but the first.  When its words are read again, a capital
begins a word unless it stands behind another capital and before no lower-case letter.  So
two words that are put together are read as one exactly if the first one is a single letter
and the second one shows no lower-case letter behind its capital: they *fuse*.

## Main results

* `words_humps`: the words of humped words in a row, up to fusing.
* `words_camelOf`: the words of a camel-case name.
-/

namespace SqlWeave.Casing

/-! ## Letters and digits -/

theorem isAlpha_of_isDigit {c : Char} (h : c.isDigit = true) : c.isAlpha = false := by
  simp only [Char.isAlpha, Char.isUpper, Char.isLower, Char.isDigit, Bool.and_eq_true,
    Bool.or_eq_false_iff, Bool.and_eq_false_iff, decide_eq_true_eq, decide_eq_false_iff_not,
    ge_iff_le, UInt32.le_iff_toNat_le] at h ⊢
  change 48 ≤ c.toNat ∧ c.toNat ≤ 57 at h
  change ¬(65 ≤ c.toNat ∧ c.toNat ≤ 90) ∧ (¬97 ≤ c.toNat ∨ ¬c.toNat ≤ 122)
  omega

theorem isUpper_of_isDigit {c : Char} (h : c.isDigit = true) : c.isUpper = false := by
  have hAlpha := isAlpha_of_isDigit h
  rw [Char.isAlpha, Bool.or_eq_false_iff] at hAlpha
  exact hAlpha.1

theorem isDigit_toLower (c : Char) : c.toLower.isDigit = c.isDigit := by
  by_cases hUpper : c.isUpper = true
  · have hAlpha : c.isAlpha = true := by simp [Char.isAlpha, hUpper]
    have hLower : c.toLower.isAlpha = true := by simpa using hAlpha
    have hNot : ∀ d : Char, d.isAlpha = true → d.isDigit = false := by
      intro d hd
      by_contra hDigit
      rw [isAlpha_of_isDigit (by simpa using hDigit)] at hd
      cases hd
    rw [hNot _ hAlpha, hNot _ hLower]
  · rw [Char.toLower_eq_of_not_isUpper hUpper]

theorem toUpper_of_isDigit {c : Char} (h : c.isDigit = true) : c.toUpper = c := by
  have hAlpha := isAlpha_of_isDigit h
  rw [Char.isAlpha, Bool.or_eq_false_iff] at hAlpha
  exact Char.toUpper_eq_of_not_isLower (by simp [hAlpha.2])

theorem isWordPart_eq (c : Char) : isWordPart c = (c.isAlpha || c.isDigit) := rfl

theorem isWordPart_toLower (c : Char) : isWordPart c.toLower = isWordPart c := by
  rw [isWordPart_eq, isWordPart_eq, Char.isAlpha_toLower_eq_isAlpha, isDigit_toLower]

theorem isWordPart_toUpper {c : Char} (h : isWordPart c = true) : isWordPart c.toUpper = true := by
  rw [isWordPart_eq, Bool.or_eq_true] at h
  rcases h with hAlpha | hDigit
  · rw [isWordPart_eq, Char.isAlpha_toUpper_eq_isAlpha, hAlpha, Bool.true_or]
  · rw [toUpper_of_isDigit hDigit, isWordPart_eq, hDigit, Bool.or_true]

/-! ## Words -/

/-- A word of a name: some letters and digits. -/
structure IsWord (word : List Char) : Prop where
  nonempty : word ≠ []
  parts : ∀ c ∈ word, isWordPart c = true

theorem isWord_cons {c : Char} {rest : List Char} (hc : isWordPart c = true)
    (hRest : ∀ d ∈ rest, isWordPart d = true) : IsWord (c :: rest) :=
  ⟨List.cons_ne_nil c rest, List.forall_mem_cons.mpr ⟨hc, hRest⟩⟩

/-- What is put in front of words goes with the first one. -/
theorem isWord_of_mem_extendFirst {c : Char} {ws : List (List Char)} (hc : isWordPart c = true)
    (h : ∀ w ∈ ws, IsWord w) {word : List Char} (hMem : word ∈ extendFirst c ws) : IsWord word := by
  cases ws with
  | nil =>
    obtain rfl := List.mem_singleton.mp hMem
    exact isWord_cons hc nofun
  | cons first others =>
    rcases List.mem_cons.mp hMem with rfl | hOther
    · exact isWord_cons hc (h first List.mem_cons_self).parts
    · exact h word (List.mem_cons_of_mem _ hOther)

theorem isWord_of_mem_words {name word : List Char} (h : word ∈ words name) : IsWord word := by
  induction name generalizing word with
  | nil => cases h
  | cons c rest ih =>
    rw [words] at h
    split at h
    · next hc =>
      split at h
      · exact isWord_of_mem_extendFirst hc (fun w => ih) h
      · rcases List.mem_cons.mp h with rfl | hRest
        · exact isWord_cons hc nofun
        · exact ih hRest
    · exact ih h

/-- What ends a word that does not end with a capital: the end of the text, a separator or a
capital. -/
def Ends (s : List Char) : Prop :=
  ∀ d, s.head? = some d → d.isUpper = true ∨ isWordPart d = false

theorem continues_of_ends {c : Char} {s : List Char} (hc : isWordPart c = true)
    (hUpper : c.isUpper = false) (h : Ends s) : continues c s = false := by
  cases s with
  | nil => rfl
  | cons d rest =>
    rcases h d rfl with hCapital | hSeparator
    · have hLow : (c.isLower || c.isDigit) = true := by
        simpa [isWordPart_eq, Char.isAlpha, hUpper] using hc
      simp [continues, isHump, hLow, hCapital]
    · simp [continues, hSeparator]

/-- A text without capitals behind its first character is read as a word if nothing goes on
with its last character. -/
theorem words_append_of_stop {c : Char} {rest t : List Char} (hc : isWordPart c = true)
    (hRest : ∀ d ∈ rest, isWordPart d = true ∧ d.isUpper = false)
    (hStop : continues ((c :: rest).getLast (List.cons_ne_nil c rest)) t = false) :
    words (c :: rest ++ t) = (c :: rest) :: words t := by
  induction rest generalizing c with
  | nil =>
    have hEnd : continues c t = false := hStop
    rw [List.cons_append, List.nil_append, words, if_pos hc, if_neg (by simp [hEnd])]
  | cons d more ih =>
    obtain ⟨⟨hPart, hUpper⟩, hMore⟩ := List.forall_mem_cons.mp hRest
    have hGo : continues c (d :: more ++ t) = true := by
      simp [continues, isHump, hPart, hUpper]
    have hTail := ih hPart hMore (by simpa using hStop)
    rw [List.cons_append, words, if_pos hc, if_pos hGo, hTail]
    rfl

/-! ## Humped words -/

/-- A word with a capital in front, unless it starts with a digit. -/
def capital : List Char → List Char
  | [] => []
  | c :: rest => c.toUpper :: lower rest

/-- Words behind the first one of a camel-case name. -/
def humps (ws : List (List Char)) : List Char :=
  (ws.map humped).flatten

theorem humps_cons (w : List Char) (ws : List (List Char)) :
    humps (w :: ws) = humped w ++ humps ws := by
  rw [humps, List.map_cons, List.flatten_cons, humps]

theorem humped_of_isDigit {c : Char} (h : c.isDigit = true) (rest : List Char) :
    humped (c :: rest) = '_' :: capital (c :: rest) := by
  have hLower : c.toLower = c := Char.toLower_eq_of_not_isUpper (by simp [isUpper_of_isDigit h])
  rw [humped, if_pos h, capital, toUpper_of_isDigit h, lower, List.map_cons, hLower, lower]

theorem humped_of_isAlpha {c : Char} (h : c.isDigit = false) (rest : List Char) :
    humped (c :: rest) = capital (c :: rest) := by
  rw [humped, if_neg (by simp [h]), capital]

theorem lower_parts {w : List Char} (h : ∀ c ∈ w, isWordPart c = true) :
    ∀ d ∈ lower w, isWordPart d = true ∧ d.isUpper = false := by
  intro d hd
  obtain ⟨c, hc, rfl⟩ := List.mem_map.mp hd
  exact ⟨(isWordPart_toLower c).trans (h c hc), Char.isUpper_toLower_eq_false c⟩

/-- Words behind the first one begin with a capital or a separator. -/
theorem ends_humps {ws : List (List Char)} (h : ∀ w ∈ ws, IsWord w) : Ends (humps ws) := by
  intro d hd
  cases ws with
  | nil => cases hd
  | cons w more =>
    have hWord := h w List.mem_cons_self
    cases w with
    | nil => exact absurd rfl hWord.nonempty
    | cons c rest =>
      rw [humps_cons] at hd
      cases hDigit : c.isDigit with
      | true =>
        rw [humped_of_isDigit hDigit] at hd
        obtain rfl := Option.some.inj hd
        exact .inr rfl
      | false =>
        rw [humped_of_isAlpha hDigit] at hd
        obtain rfl := Option.some.inj hd
        have hPart := hWord.parts c List.mem_cons_self
        rw [isWordPart_eq, hDigit, Bool.or_false] at hPart
        exact .inl ((Char.isUpper_toUpper_eq_isAlpha c).trans hPart)

/-- A word is read back from its humped form, if nothing goes on with its last character. -/
theorem words_humped_append {w t : List Char} (h : IsWord w)
    (hStop : ∀ hNe, continues ((capital w).getLast hNe) t = false) :
    words (humped w ++ t) = capital w :: words t := by
  cases w with
  | nil => exact absurd rfl h.nonempty
  | cons c rest =>
    obtain ⟨hc, hRest⟩ := List.forall_mem_cons.mp h.parts
    have hCapital : words (capital (c :: rest) ++ t) = capital (c :: rest) :: words t :=
      words_append_of_stop (isWordPart_toUpper hc) (lower_parts hRest) (hStop _)
    cases hDigit : c.isDigit with
    | true =>
      have hSkip : isWordPart '_' = false := rfl
      rw [humped_of_isDigit hDigit, List.cons_append, words, hSkip,
        if_neg Bool.false_ne_true, hCapital]
    | false => rw [humped_of_isAlpha hDigit, hCapital]

/-! ## Fusing words -/

/-- Are two humped words in a row read as one?  The first one is a single letter, and the
second one starts with a letter but not with two. -/
def fuses : List Char → List Char → Bool
  | [c], d :: rest => c.isAlpha && d.isAlpha && !rest.head?.any Char.isAlpha
  | _, _ => false

theorem fuses_cases {u v : List Char} (h : fuses u v = true) :
    ∃ c d rest, u = [c] ∧ v = d :: rest ∧ c.isAlpha = true ∧ d.isAlpha = true := by
  unfold fuses at h
  split at h
  · next c d rest =>
    simp only [Bool.and_eq_true] at h
    exact ⟨c, d, rest, rfl, rfl, h.1.1, h.1.2⟩
  · cases h

/-- What a lower-case letter behind the capital of a word comes from. -/
theorem isLower_head_append (rest : List Char) {t : List Char} (hEnds : Ends t) :
    (((lower rest ++ t).head?.map Char.isLower).getD false) = rest.head?.any Char.isAlpha := by
  cases rest with
  | cons e more => simp [lower]
  | nil =>
    cases t with
    | nil => rfl
    | cons d more =>
      have hNot : d.isLower = false := by
        rcases hEnds d rfl with hCapital | hSeparator
        · by_contra hLower
          exact Char.not_isLower_of_isUpper hCapital (by simpa using hLower)
        · rw [isWordPart_eq, Bool.or_eq_false_iff, Char.isAlpha, Bool.or_eq_false_iff] at hSeparator
          exact hSeparator.1.2
      simp [lower, hNot]

/-- A humped word goes on with the next one exactly if the two fuse. -/
theorem continues_capital {u v : List Char} {ws : List (List Char)} (hu : IsWord u)
    (hWords : ∀ w ∈ v :: ws, IsWord w) (hNe : capital u ≠ []) :
    continues ((capital u).getLast hNe) (humps (v :: ws)) = fuses u v := by
  have hEnds := ends_humps hWords
  obtain ⟨hv, hMore⟩ := List.forall_mem_cons.mp hWords
  match u, v with
  | [], _ => exact absurd rfl hu.nonempty
  | _, [] => exact absurd rfl hv.nonempty
  | c :: e :: more, d :: rest =>
    have hMem : (lower (e :: more)).getLast (by simp [lower]) ∈ lower (e :: more) :=
      List.getLast_mem _
    obtain ⟨hPart, hUpper⟩ := lower_parts (List.forall_mem_cons.mp hu.parts).2 _ hMem
    have hLast : (capital (c :: e :: more)).getLast hNe =
        (lower (e :: more)).getLast (by simp [lower]) := by
      simp [capital, lower]
    rw [hLast, continues_of_ends hPart hUpper hEnds]
    rfl
  | [c], d :: rest =>
    show continues c.toUpper (humps ((d :: rest) :: ws)) = fuses [c] (d :: rest)
    have hc := hu.parts c List.mem_cons_self
    have hd := hv.parts d List.mem_cons_self
    cases hDigit : c.isDigit with
    | true =>
      rw [toUpper_of_isDigit hDigit, continues_of_ends hc (isUpper_of_isDigit hDigit) hEnds]
      simp [fuses, isAlpha_of_isDigit hDigit]
    | false =>
      have hAlpha : c.isAlpha = true := by simpa [isWordPart_eq, hDigit] using hc
      have hUpper : c.toUpper.isUpper = true := by simpa using hAlpha
      rw [humps_cons]
      cases hSecond : d.isDigit with
      | true =>
        rw [humped_of_isDigit hSecond]
        simp [continues, isWordPart, fuses, isAlpha_of_isDigit hSecond]
      | false =>
        have hLetter : d.isAlpha = true := by simpa [isWordPart_eq, hSecond] using hd
        have hCapital : d.toUpper.isUpper = true := by simpa using hLetter
        have hPart : isWordPart d.toUpper = true := isWordPart_toUpper hd
        have hBehind := isLower_head_append rest (ends_humps hMore)
        rw [humped_of_isAlpha hSecond]
        have hNot : c.toUpper.isDigit = false := by
          by_contra h
          rw [isUpper_of_isDigit (by simpa using h)] at hUpper
          cases hUpper
        simpa [capital, continues, isHump, fuses, hUpper, hCapital, hPart, hAlpha, hLetter, hNot]
          using hBehind

/-- The words that humped words in a row are read as: those that fuse are one. -/
def regroup : List (List Char) → List (List Char)
  | [] => []
  | [w] => [capital w]
  | u :: v :: rest =>
    if fuses u v then (capital u).foldr extendFirst (regroup (v :: rest))
    else capital u :: regroup (v :: rest)

/-- The words of humped words in a row. -/
theorem words_humps {ws : List (List Char)} (h : ∀ w ∈ ws, IsWord w) :
    words (humps ws) = regroup ws := by
  fun_induction regroup ws with
  | case1 => rfl
  | case2 w =>
    rw [humps_cons, words_humped_append (h w List.mem_cons_self) fun _ => rfl]
    rfl
  | case3 u v rest hFuse ih =>
    obtain ⟨hu, hMore⟩ := List.forall_mem_cons.mp h
    have hGo := continues_capital hu hMore
    obtain ⟨c, d, more, rfl, rfl, hc, -⟩ := fuses_cases hFuse
    have hDigit : c.isDigit = false := by
      by_contra hc'
      rw [isAlpha_of_isDigit (by simpa using hc')] at hc
      cases hc
    have hPart : isWordPart c.toUpper = true := isWordPart_toUpper (hu.parts c List.mem_cons_self)
    have hContinues : continues c.toUpper (humps ((d :: more) :: rest)) = true :=
      (hGo (by simp [capital])).trans hFuse
    rw [humps_cons, humped_of_isAlpha hDigit]
    show words (c.toUpper :: humps ((d :: more) :: rest)) = _
    rw [words, if_pos hPart, if_pos hContinues, ih hMore]
    rfl
  | case4 u v rest hFuse ih =>
    obtain ⟨hu, hMore⟩ := List.forall_mem_cons.mp h
    rw [humps_cons, words_humped_append hu, ih hMore]
    intro hNe
    rw [continues_capital hu hMore]
    simpa using hFuse

/-! ## Camel-case names -/

/-- The camel-case name of words. -/
def camelOf : List (List Char) → List Char
  | [] => []
  | first :: others => lower first ++ humps others

theorem camel_eq (name : List Char) : camel name = camelOf (words name) := by
  unfold camel
  split <;> simp_all [camelOf, humps]

/-- The words of a camel-case name: the first one, and the others up to fusing. -/
theorem words_camelOf {first : List Char} {others : List (List Char)} (hFirst : IsWord first)
    (hOthers : ∀ w ∈ others, IsWord w) :
    words (camelOf (first :: others)) = lower first :: regroup others := by
  have hParts := lower_parts hFirst.parts
  have hNe : lower first ≠ [] := by
    rw [lower, Ne, List.map_eq_nil_iff]
    exact hFirst.nonempty
  have hEnds := ends_humps hOthers
  rw [camelOf]
  generalize lower first = start at hParts hNe
  cases start with
  | nil => exact absurd rfl hNe
  | cons c rest =>
    have hLast := hParts _ (List.getLast_mem hNe)
    rw [words_append_of_stop (hParts c List.mem_cons_self).1
      (fun d hd => hParts d (List.mem_cons_of_mem _ hd)) (continues_of_ends hLast.1 hLast.2 hEnds),
      words_humps hOthers]

end SqlWeave.Casing
