import SqlWeave.Casing.Rows
import SqlWeave.Proofs.Casing.Words
import SqlWeave.Proofs.Layout.Lines
import SqlWeave.Proofs.Value.Entries
import SqlWeave.Sql.Literal

/-!
# Names between the database and the application

A name in camel case is stable if the words behind the first one are told apart: if they
fuse, the next reading finds fewer words and gives another name.  The capitals of a name
show how many words it was made of, so this is the only way in which a second conversion
can change anything.  Names in snake case that are stable survive the way to camel case and
back.

## Main results

* `applicationCasing_twice_iff`: converting a name or a result twice changes nothing exactly
  if no two words of a name fuse.
* `snake_camel`: a column's name is found again, and quoted as before, if no two words of it
  fuse.
-/

namespace SqlWeave.Casing

/-! ## Stable names -/

/-- Are the words behind the first one told apart in camel case? -/
def IsStable (name : List Char) : Prop :=
  (words name).tail.IsChain fun u v => fuses u v = false

instance (name : List Char) : Decidable (IsStable name) :=
  inferInstanceAs (Decidable (List.IsChain _ _))

/-- Does a word start with a letter, so that a capital marks it? -/
def startsWithLetter (word : List Char) : Bool :=
  word.head?.any Char.isAlpha

theorem countP_isUpper_lower (w : List Char) : (lower w).countP Char.isUpper = 0 := by
  rw [List.countP_eq_zero]
  intro d hd
  obtain ⟨c, -, rfl⟩ := List.mem_map.mp hd
  simp

theorem countP_isUpper_humped {w : List Char} (h : IsWord w) :
    (humped w).countP Char.isUpper = if startsWithLetter w then 1 else 0 := by
  cases w with
  | nil => exact absurd rfl h.nonempty
  | cons c rest =>
    have hPart := h.parts c List.mem_cons_self
    cases hDigit : c.isDigit with
    | true =>
      have hAlpha := isAlpha_of_isDigit hDigit
      have hUpper : c.toUpper.isUpper = false := by simpa using hAlpha
      rw [humped_of_isDigit hDigit, capital, List.countP_cons_of_neg (by decide),
        List.countP_cons_of_neg (by simp [hUpper]), countP_isUpper_lower]
      simp [startsWithLetter, hAlpha]
    | false =>
      have hAlpha : c.isAlpha = true := by simpa [isWordPart_eq, hDigit] using hPart
      rw [humped_of_isAlpha hDigit, capital, List.countP_cons_of_pos (by simpa using hAlpha),
        countP_isUpper_lower]
      simp [startsWithLetter, hAlpha]

/-- The capitals of a camel-case name mark its words behind the first one. -/
theorem countP_isUpper_humps {ws : List (List Char)} (h : ∀ w ∈ ws, IsWord w) :
    (humps ws).countP Char.isUpper = ws.countP startsWithLetter := by
  induction ws with
  | nil => rfl
  | cons w more ih =>
    obtain ⟨hWord, hMore⟩ := List.forall_mem_cons.mp h
    rw [humps_cons, List.countP_append, countP_isUpper_humped hWord, ih hMore, List.countP_cons,
      Nat.add_comm]

/-! ## Regrouped words -/

theorem isWord_of_mem_regroup {ws : List (List Char)} (h : ∀ w ∈ ws, IsWord w) {w : List Char}
    (hMem : w ∈ regroup ws) : IsWord w := by
  rw [← words_humps h] at hMem
  exact isWord_of_mem_words hMem

theorem startsWithLetter_capital (w : List Char) :
    startsWithLetter (capital w) = startsWithLetter w := by
  cases w with
  | nil => rfl
  | cons c rest => simp [startsWithLetter, capital]

/-- The first word starts as before. -/
theorem head?_regroup {v : List Char} (hNe : v ≠ []) (rest : List (List Char)) :
    ∃ x xs, regroup (v :: rest) = x :: xs ∧ startsWithLetter x = startsWithLetter v := by
  cases rest with
  | nil => exact ⟨_, _, rfl, startsWithLetter_capital v⟩
  | cons w more =>
    rw [regroup]
    split
    · next hFuse =>
      obtain ⟨c, d, tail, rfl, rfl, -, -⟩ := fuses_cases hFuse
      show ∃ x xs, extendFirst c.toUpper (regroup _) = x :: xs ∧ _
      cases regroup ((d :: tail) :: more) with
      | nil => exact ⟨_, _, rfl, by simp [startsWithLetter]⟩
      | cons first others => exact ⟨_, _, rfl, by simp [startsWithLetter]⟩
    · exact ⟨_, _, rfl, startsWithLetter_capital v⟩

/-- Words that are told apart are read back one by one. -/
theorem regroup_of_isChain {ws : List (List Char)}
    (h : ws.IsChain fun u v => fuses u v = false) : regroup ws = ws.map capital := by
  fun_induction regroup ws with
  | case1 => rfl
  | case2 w => rfl
  | case3 u v rest hFuse ih =>
    rw [(List.isChain_cons_cons.mp h).1] at hFuse
    cases hFuse
  | case4 u v rest hFuse ih => rw [ih (List.isChain_cons_cons.mp h).2, ← List.map_cons]

/-- Fusing leaves fewer words that start with a letter. -/
theorem countP_regroup (ws : List (List Char)) :
    (regroup ws).countP startsWithLetter ≤ ws.countP startsWithLetter ∧
      ((regroup ws).countP startsWithLetter = ws.countP startsWithLetter →
        ws.IsChain fun u v => fuses u v = false) := by
  fun_induction regroup ws with
  | case1 => exact ⟨Nat.le_refl _, fun _ => List.IsChain.nil⟩
  | case2 w =>
    rw [List.countP_singleton, List.countP_singleton, startsWithLetter_capital]
    exact ⟨Nat.le_refl _, fun _ => List.IsChain.singleton w⟩
  | case3 u v rest hFuse ih =>
    obtain ⟨c, d, tail, rfl, rfl, hc, hd⟩ := fuses_cases hFuse
    obtain ⟨x, xs, hFirst, hLetter⟩ := head?_regroup (List.cons_ne_nil d tail) rest
    have hx : startsWithLetter x = true := by
      rw [hLetter]
      simpa [startsWithLetter] using hd
    have hExtended : startsWithLetter (c.toUpper :: x) = true := by
      simpa [startsWithLetter] using hc
    have hCount : [[c]].countP startsWithLetter = 1 := by
      simp [startsWithLetter, hc]
    have hSplit : ([c] :: (d :: tail) :: rest).countP startsWithLetter =
        1 + ((d :: tail) :: rest).countP startsWithLetter := by
      rw [← hCount, ← List.countP_append]
      rfl
    have hSame : ((capital [c]).foldr extendFirst (regroup ((d :: tail) :: rest))).countP
        startsWithLetter = (regroup ((d :: tail) :: rest)).countP startsWithLetter := by
      rw [hFirst]
      show ((c.toUpper :: x) :: xs).countP startsWithLetter = _
      rw [List.countP_cons_of_pos hExtended, List.countP_cons_of_pos hx]
    rw [hSame, hSplit]
    exact ⟨by omega, fun hEq => by omega⟩
  | case4 u v rest hFuse ih =>
    have hLeft := List.countP_cons (p := startsWithLetter) (a := capital u)
      (l := regroup (v :: rest))
    have hRight := List.countP_cons (p := startsWithLetter) (a := u) (l := v :: rest)
    rw [startsWithLetter_capital] at hLeft
    obtain ⟨hLe, hChain⟩ := ih
    refine ⟨by omega, fun hEq => ?_⟩
    exact List.isChain_cons_cons.mpr ⟨by simpa using hFuse, hChain (by omega)⟩

/-! ## Converting a name twice -/

theorem lower_lower (w : List Char) : lower (lower w) = lower w := by
  rw [lower, lower, List.map_map]
  exact List.map_congr_left fun c _ => Char.toLower_toLower_eq_toLower c

theorem lower_capital (w : List Char) : lower (capital w) = lower w := by
  cases w with
  | nil => rfl
  | cons c rest =>
    rw [capital, lower, List.map_cons, Char.toLower_toUpper_eq_toLower]
    show _ :: lower (lower rest) = _
    rw [lower_lower]
    rfl

theorem isDigit_toUpper (c : Char) : c.toUpper.isDigit = c.isDigit := by
  rw [← isDigit_toLower c.toUpper, Char.toLower_toUpper_eq_toLower, isDigit_toLower]

theorem humped_capital (w : List Char) : humped (capital w) = humped w := by
  cases w with
  | nil => rfl
  | cons c rest =>
    have hCapital : capital (c.toUpper :: lower rest) = capital (c :: rest) := by
      rw [capital, capital, Char.toUpper_toUpper_eq_toUpper, lower_lower]
    show humped (c.toUpper :: lower rest) = _
    cases hDigit : c.isDigit with
    | true =>
      have hUpper : c.toUpper.isDigit = true := (isDigit_toUpper c).trans hDigit
      rw [humped_of_isDigit hUpper, hCapital, humped_of_isDigit hDigit]
    | false =>
      have hUpper : c.toUpper.isDigit = false := (isDigit_toUpper c).trans hDigit
      rw [humped_of_isAlpha hUpper, hCapital, humped_of_isAlpha hDigit]

/-- A name is the same in camel case after a second conversion exactly if it is stable. -/
theorem camel_camel_eq_iff (name : List Char) :
    camel (camel name) = camel name ↔ IsStable name := by
  have hWords : ∀ w ∈ words name, IsWord w := fun w => isWord_of_mem_words
  rw [IsStable, camel_eq (camel name), camel_eq name]
  generalize words name = ws at hWords
  cases ws with
  | nil => simp [camelOf, words]
  | cons first others =>
    obtain ⟨hFirst, hOthers⟩ := List.forall_mem_cons.mp hWords
    rw [words_camelOf hFirst hOthers, camelOf, camelOf, lower_lower, List.tail_cons,
      List.append_cancel_left_eq]
    constructor
    · intro hSame
      have hCount := congrArg (List.countP Char.isUpper) hSame
      rw [countP_isUpper_humps hOthers,
        countP_isUpper_humps fun w => isWord_of_mem_regroup hOthers] at hCount
      exact (countP_regroup others).2 hCount
    · intro hChain
      rw [regroup_of_isChain hChain, humps, humps, List.map_map]
      congr 1
      exact List.map_congr_left fun w _ => humped_capital w

/-! ## Converting a result twice -/

/-- The text that a key is. -/
def text? : Value → Option String
  | .str s => some s
  | _ => none

theorem text?_eq_some_iff {key : Value} {name : String} :
    text? key = some name ↔ key = .str name := by
  cases key <;> simp [text?]

mutual

/-- The names of the columns of a result: the text keys of all its rows. -/
def columns : Value → List String
  | .list items => columnsOfItems items
  | _ => []

/-- The names of the columns of the items of a result list. -/
def columnsOfItems : List Value → List String
  | [] => []
  | v :: rest => columnsOfItem v ++ columnsOfItems rest

/-- The names of the columns of one item of a result list. -/
def columnsOfItem : Value → List String
  | .list items => columnsOfItems items
  | .map entries => entries.filterMap fun e => text? e.1
  | _ => []

end

theorem columnName_twice_iff (key : Value) :
    columnName (columnName key) = columnName key ↔
      ∀ name, text? key = some name → IsStable name.toList := by
  cases key with
  | str s =>
    have hTwice : columnName (columnName (.str s)) = .ofChars (camel (camel s.toList)) := by
      simp [columnName, Value.ofChars]
    rw [hTwice, columnName, Value.ofChars, Value.ofChars, Value.str.injEq, String.ofList_inj,
      camel_camel_eq_iff]
    simp [text?]
  | _ => simp [columnName, text?]

/-- The entries of a row with their renamed keys. -/
def renamed (entries : List (Value × Value)) : List (Value × Value) :=
  Value.overlay [] (entries.map fun e => (columnName e.1, e.2))

/-- The texts among the renamed keys. -/
theorem str_mem_keys_renamed {entries : List (Value × Value)} {name : String} :
    Value.str name ∈ (renamed entries).map Prod.fst ↔
      ∃ e ∈ entries, columnName e.1 = .str name := by
  rw [renamed, Value.str_mem_keys_overlay, List.map_map, List.mem_map]
  simp

/-- A row is the same after a second renaming exactly if its names are stable. -/
theorem renameRow_twice_iff (entries : List (Value × Value)) :
    renameItem (renameRow entries) = renameRow entries ↔
      ∀ name ∈ columnsOfItem (.map entries), IsStable name.toList := by
  have hDistinct : Value.HasDistinctKeys (renamed entries) :=
    Value.HasDistinctKeys.overlay List.Pairwise.nil _
  show Value.map (Value.overlay [] (List.map _ (renamed entries))) = Value.map (renamed entries) ↔ _
  rw [Value.map.injEq, Value.overlay_nil_map_iff hDistinct]
  constructor
  · intro hFixed name hName
    rw [columnsOfItem, List.mem_filterMap] at hName
    obtain ⟨e, hMem, hText⟩ := hName
    have hThere : columnName e.1 ∈ (renamed entries).map Prod.fst := by
      have hName : columnName e.1 = .ofChars (camel name.toList) := by
        rw [text?_eq_some_iff.mp hText, columnName]
      rw [hName, Value.ofChars, str_mem_keys_renamed]
      exact ⟨e, hMem, hName⟩
    obtain ⟨e', hMem', hKey⟩ := List.mem_map.mp hThere
    have hSame := congrArg Prod.fst (hFixed e' hMem')
    rw [hKey] at hSame
    exact (columnName_twice_iff e.1).mp hSame name hText
  · intro hStable e' hMem'
    refine Prod.ext ?_ rfl
    show columnName e'.1 = e'.1
    cases hText : text? e'.1 with
    | none =>
      generalize e'.1 = key at hText
      cases key with
      | str s => cases hText
      | _ => rfl
    | some name =>
      have hThere : e'.1 ∈ (renamed entries).map Prod.fst := List.mem_map_of_mem hMem'
      rw [text?_eq_some_iff.mp hText, str_mem_keys_renamed] at hThere
      obtain ⟨e, hMem, hName⟩ := hThere
      have hTwice := (columnName_twice_iff e.1).mpr fun other hOther =>
        hStable other (List.mem_filterMap.mpr ⟨e, hMem, hOther⟩)
      rw [text?_eq_some_iff.mp hText, ← hName]
      exact hTwice

mutual

theorem renameItems_twice_iff (items : List Value) :
    renameItems (renameItems items) = renameItems items ↔
      ∀ name ∈ columnsOfItems items, IsStable name.toList := by
  cases items with
  | nil => simp [renameItems, columnsOfItems]
  | cons v rest =>
    rw [renameItems, renameItems, List.cons.injEq, renameItem_twice_iff v,
      renameItems_twice_iff rest, columnsOfItems, List.forall_mem_append]

theorem renameItem_twice_iff (v : Value) :
    renameItem (renameItem v) = renameItem v ↔
      ∀ name ∈ columnsOfItem v, IsStable name.toList := by
  cases v with
  | list items =>
    rw [renameItem, renameItem, Value.list.injEq, renameItems_twice_iff items, columnsOfItem]
  | map entries => exact renameRow_twice_iff entries
  | _ => simp [renameItem, columnsOfItem]

end

/-- Converting a name or a result to camel case twice changes nothing exactly if the names
are stable: no single letter stands behind the first word and before a word that starts with
a letter but not with two. -/
theorem applicationCasing_twice_iff (name : List Char) (result : Value) :
    (camel (camel name) = camel name ↔ IsStable name) ∧
      (applicationCasing (applicationCasing result) = applicationCasing result ↔
        ∀ column ∈ columns result, IsStable column.toList) := by
  refine ⟨camel_camel_eq_iff name, ?_⟩
  cases result with
  | list items =>
    rw [applicationCasing, applicationCasing, Value.list.injEq, renameItems_twice_iff, columns]
  | _ => simp [applicationCasing, columns]

/-- The capitals of `aBC` are read as one word the next time. -/
theorem applicationCasing_twice_ne :
    camel (camel "a_b_c".toList) ≠ camel "a_b_c".toList ∧
      applicationCasing (applicationCasing (.list [.map [(.str "a_b_c", .int 1)]])) ≠
        applicationCasing (.list [.map [(.str "a_b_c", .int 1)]]) := by
  have hCamel : camel (camel "a_b_c".toList) ≠ camel "a_b_c".toList := by decide
  refine ⟨hCamel, fun hSame => hCamel ?_⟩
  simpa [applicationCasing, renameItems, renameItem, renameRow, columnName, Value.ofEntries,
    Value.insertEntry, Value.ofChars, String.ofList_inj] using hSame

/-! ## There and back -/

theorem lower_of_plain {w : List Char} (h : ∀ c ∈ w, (c.isLower || c.isDigit) = true) :
    lower w = w := by
  conv => rhs; rw [← List.map_id w]
  refine List.map_congr_left fun c hc => Char.toLower_eq_of_not_isUpper ?_
  rcases Bool.or_eq_true_iff.mp (h c hc) with hLower | hDigit
  · exact Char.not_isUpper_of_isLower hLower
  · simp [isUpper_of_isDigit hDigit]

theorem isWordPart_of_plain {c : Char} (h : (c.isLower || c.isDigit) = true) :
    isWordPart c = true := by
  rw [isWordPart_eq, Char.isAlpha, Bool.or_assoc, h, Bool.or_true]

/-- The words of a column's name stand between its underscores. -/
theorem words_intercalate {ws : List (List Char)}
    (h : ∀ w ∈ ws, w ≠ [] ∧ ∀ c ∈ w, (c.isLower || c.isDigit) = true) :
    words (List.intercalate ['_'] ws) = ws := by
  have hWord : ∀ w ∈ ws, ∀ t, Ends t → words (w ++ t) = w :: words t := by
    intro w hMem t hEnds
    obtain ⟨hNe, hPlain⟩ := h w hMem
    have hParts := lower_parts fun c hc => isWordPart_of_plain (hPlain c hc)
    rw [lower_of_plain hPlain] at hParts
    have hLast := hParts _ (List.getLast_mem hNe)
    cases w with
    | nil => exact absurd rfl hNe
    | cons c rest =>
      exact words_append_of_stop (hParts c List.mem_cons_self).1
        (fun d hd => hParts d (List.mem_cons_of_mem _ hd)) (continues_of_ends hLast.1 hLast.2 hEnds)
  induction ws with
  | nil => rfl
  | cons w more ih =>
    have hMore := ih (fun u hMem => h u (List.mem_cons_of_mem _ hMem))
      fun u hMem => hWord u (List.mem_cons_of_mem _ hMem)
    cases more with
    | nil =>
      have hOne := hWord w List.mem_cons_self [] fun d hd => nomatch hd
      rw [List.append_nil] at hOne
      rw [List.intercalate_singleton, hOne]
      rfl
    | cons next others =>
      have hSeparator : Ends ('_' :: List.intercalate ['_'] (next :: others)) := by
        intro d hd
        obtain rfl := Option.some.inj hd
        exact .inr rfl
      rw [List.intercalate_cons_of_ne_nil (by simp), List.append_assoc]
      show words (w ++ '_' :: List.intercalate ['_'] (next :: others)) = _
      rw [hWord w List.mem_cons_self _ hSeparator, words, show isWordPart '_' = false from rfl,
        if_neg Bool.false_ne_true, hMore]

/-- A camel-case name holds letters, digits and underscores. -/
theorem mem_camel {name : List Char} {c : Char} (h : c ∈ camel name) :
    isWordPart c = true ∨ c = '_' := by
  have hWords : ∀ w ∈ words name, IsWord w := fun w => isWord_of_mem_words
  rw [camel_eq] at h
  generalize words name = ws at h hWords
  cases ws with
  | nil => cases h
  | cons first others =>
    rcases List.mem_append.mp h with hFirst | hOther
    · exact .inl (lower_parts (hWords first List.mem_cons_self).parts c hFirst).1
    · obtain ⟨part, hPart, hMem⟩ := List.mem_flatten.mp hOther
      obtain ⟨w, hw, rfl⟩ := List.mem_map.mp hPart
      have hWord := hWords w (List.mem_cons_of_mem _ hw)
      cases w with
      | nil => cases hMem
      | cons d rest =>
        obtain ⟨hd, hRest⟩ := List.forall_mem_cons.mp hWord.parts
        have hCapital : c ∈ capital (d :: rest) → isWordPart c = true := by
          intro hIn
          rcases List.mem_cons.mp hIn with rfl | hTail
          · exact isWordPart_toUpper hd
          · exact (lower_parts hRest c hTail).1
        cases hDigit : d.isDigit with
        | true =>
          rw [humped_of_isDigit hDigit] at hMem
          rcases List.mem_cons.mp hMem with rfl | hIn
          · exact .inr rfl
          · exact .inl (hCapital hIn)
        | false =>
          rw [humped_of_isAlpha hDigit] at hMem
          exact .inl (hCapital hMem)

/-- The path of a name without points is one identifier, in the database's spelling. -/
theorem path_of_unqualified (d : Sql.Dialect) {name : List Char} (h : '.' ∉ name) :
    d.path (.ofChars name) = .ok (d.identifier (snake name)) := by
  have hDisplay : (Value.ofChars name).display = name := by
    simp [Value.ofChars, Value.display]
  show Except.ok (List.intercalate ['.']
    ((Sql.Identifier.parts '.' (Value.ofChars name).display).map _)) = _
  rw [hDisplay, Sql.Identifier.parts_of_not_mem h, List.map_singleton, List.intercalate_singleton]

section Columns

variable {ws : List (List Char)}
  (hWords : ∀ w ∈ ws, w ≠ [] ∧ ∀ c ∈ w, (c.isLower || c.isDigit) = true)

include hWords

theorem snake_intercalate : snake (List.intercalate ['_'] ws) = List.intercalate ['_'] ws := by
  have hLower : ws.map lower = ws := by
    conv => rhs; rw [← List.map_id ws]
    exact List.map_congr_left fun w hw => lower_of_plain (hWords w hw).2
  rw [snake, words_intercalate hWords, hLower]

/-- Humped words that do not fuse are read one by one. -/
theorem lower_words_camel (hApart : ws.tail.IsChain fun u v => fuses u v = false) :
    (words (camel (List.intercalate ['_'] ws))).map lower = ws.map lower := by
  rw [camel_eq, words_intercalate hWords]
  cases ws with
  | nil => rfl
  | cons first others =>
    have hParts : ∀ w ∈ first :: others, IsWord w := fun w hw =>
      ⟨(hWords w hw).1, fun c hc => isWordPart_of_plain ((hWords w hw).2 c hc)⟩
    obtain ⟨hFirst, hOthers⟩ := List.forall_mem_cons.mp hParts
    have hEach : regroup others = others.map capital := regroup_of_isChain hApart
    rw [words_camelOf hFirst hOthers, hEach, List.map_cons, List.map_cons, lower_lower,
      List.map_map]
    congr 1
    exact List.map_congr_left fun w _ => lower_capital w

/-- A column's name has no points. -/
theorem point_not_mem_intercalate : '.' ∉ List.intercalate ['_'] ws := by
  intro hMem
  rcases Sql.Identifier.mem_intercalate hMem with hSeparator | ⟨part, hPart, hIn⟩
  · cases hSeparator
  · cases isWordPart_of_plain ((hWords part hPart).2 _ hIn)

end Columns

theorem point_not_mem_camel (name : List Char) : '.' ∉ camel name := by
  intro hMem
  rcases mem_camel hMem with hPart | hSeparator
  · cases hPart
  · cases hSeparator

/-- A column's name is found again behind its camel-case form, and both are quoted as the same
identifier, unless a single letter behind the first word fuses with the next word. -/
theorem snake_camel (ws : List (List Char))
    (hWords : ∀ w ∈ ws, w ≠ [] ∧ ∀ c ∈ w, (c.isLower || c.isDigit) = true)
    (hApart : ws.tail.IsChain fun u v => fuses u v = false) (d : Sql.Dialect) :
    snake (camel (List.intercalate ['_'] ws)) = List.intercalate ['_'] ws ∧
      d.path (.ofChars (camel (List.intercalate ['_'] ws))) =
        .ok (d.identifier (List.intercalate ['_'] ws)) ∧
      d.path (.ofChars (List.intercalate ['_'] ws)) =
        .ok (d.identifier (List.intercalate ['_'] ws)) := by
  have hSnake := snake_intercalate hWords
  have hBack : snake (camel (List.intercalate ['_'] ws)) = List.intercalate ['_'] ws := by
    rw [snake, words_intercalate hWords] at hSnake
    rw [snake, lower_words_camel hWords hApart]
    exact hSnake
  refine ⟨hBack, ?_, ?_⟩
  · rw [path_of_unqualified d (point_not_mem_camel _), hBack]
  · rw [path_of_unqualified d (point_not_mem_intercalate hWords), hSnake]

/-- A digit keeps its underscore, and a single letter does not fuse with a longer word. -/
theorem snake_camel_mixed :
    snake (camel "tv_2_a_show".toList) = "tv_2_a_show".toList ∧
      Sql.Dialect.standard.path (.ofChars (camel "tv_2_a_show".toList)) =
        .ok (Sql.Dialect.standard.identifier "tv_2_a_show".toList) ∧
      Sql.Dialect.standard.path (.ofChars "tv_2_a_show".toList) =
        .ok (Sql.Dialect.standard.identifier "tv_2_a_show".toList) :=
  snake_camel [['t', 'v'], ['2'], ['a'], ['s', 'h', 'o', 'w']] (by simp) (by decide)
    Sql.Dialect.standard

end SqlWeave.Casing
