import SqlWeave.Proofs.Scan.Pieces
import SqlWeave.Proofs.Scan.Scoping

/-!
# Quoted identifiers are read back

A quoted identifier is read as segments between backquotes, one point between two segments; a
doubled backquote in a segment stands for one.  Behind the backquote that ends a segment there is
a point or nothing, never another backquote, and so a text can be read in one way at most.  What
is written for a name is read as its parts, or as the one name that it is.

## Main results

* `ReadsAs.unique`: a text is read as segments in one way.
* `qualified_eq_replaced`: where the points of a name stand in its quoted form.
* `quoting_isReversible`: what the quoted forms of names, and of names in nested sequences, are
  read as.
-/

namespace SqlWeave.Sql.Identifier

/-! ## Segments -/

/-- What stands between the backquotes of a segment, and the name that it spells. -/
inductive Spells : List Char → List Char → Prop
  | nil : Spells [] []
  | pair {s name : List Char} (h : Spells s name) :
    Spells (backquote :: backquote :: s) (backquote :: name)
  | plain {c : Char} {s name : List Char} (hc : c ≠ backquote) (h : Spells s name) :
    Spells (c :: s) (c :: name)

/-- A text that is read as segments with points between them, and the names in the segments. -/
inductive ReadsAs : List Char → List (List Char) → Prop
  | last {s name : List Char} (h : Spells s name) : ReadsAs (backquote :: s ++ [backquote]) [name]
  | more {s name t : List Char} {names : List (List Char)} (h : Spells s name)
    (hMore : ReadsAs t names) :
    ReadsAs (backquote :: s ++ backquote :: '.' :: t) (name :: names)

theorem spells_doubled (name : List Char) : Spells (doubled name) name := by
  induction name with
  | nil => exact .nil
  | cons c rest ih =>
    rw [doubled_cons]
    by_cases hc : c = backquote
    · rw [hc, if_pos (beq_self_eq_true _)]
      exact .pair ih
    · rw [if_neg (by simpa using hc)]
      exact .plain hc ih

theorem Spells.eq_doubled {s name : List Char} (h : Spells s name) : s = doubled name := by
  induction h with
  | nil => rfl
  | pair _ ih => rw [ih, doubled_cons, if_pos (beq_self_eq_true _)]; rfl
  | plain hc _ ih => rw [ih, doubled_cons, if_neg (by simpa using hc)]; rfl

/-- A segment spells one name. -/
theorem Spells.unique {s name name' : List Char} (h : Spells s name) (h' : Spells s name') :
    name = name' := by
  induction h generalizing name' with
  | nil =>
    cases h'
    rfl
  | pair _ ih =>
    cases h' with
    | pair h' => rw [ih h']
    | plain hc => exact absurd rfl hc
  | plain hc _ ih =>
    cases h' with
    | pair => exact absurd rfl hc
    | plain _ h' => rw [ih h']

/-- A segment ends at its first backquote that no other one follows. -/
theorem Spells.closeQuoted? {s name : List Char} (h : Spells s name) {t : List Char}
    (ht : t.head? ≠ some backquote) :
    Region.closeQuoted? backquote (s ++ backquote :: t) = some (s ++ [backquote], t) := by
  have hRest : Region.IsQuotedRest backquote (s ++ [backquote]) := by
    rw [h.eq_doubled]
    exact isQuotedRest_doubled name
  have hClose := Region.closeQuoted?_of_isQuotedRest rfl hRest t
  rw [Region.resume_of_head?_ne ht, List.append_assoc, List.singleton_append] at hClose
  rw [hClose, Region.Cut.extend, List.append_nil]

/-- Two segments that begin one text are the same, and so is what stands behind them. -/
theorem Spells.cut_unique {s s' name name' t t' : List Char} (h : Spells s name)
    (h' : Spells s' name') (ht : t.head? ≠ some backquote) (ht' : t'.head? ≠ some backquote)
    (hText : s ++ backquote :: t = s' ++ backquote :: t') : name = name' ∧ t = t' := by
  have hClose := h.closeQuoted? ht
  rw [hText, h'.closeQuoted? ht', Option.some.injEq, Prod.mk.injEq] at hClose
  obtain rfl : s' = s := List.append_cancel_right hClose.1
  exact ⟨h.unique h', hClose.2.symm⟩

/-- A text is read as segments in one way. -/
theorem ReadsAs.unique {t : List Char} {names names' : List (List Char)} (h : ReadsAs t names)
    (h' : ReadsAs t names') : names = names' := by
  have hNil : ([] : List Char).head? ≠ some backquote := nofun
  have hPoint (u : List Char) : ('.' :: u).head? ≠ some backquote := by simp [backquote]
  induction h generalizing names' with
  | @last s name h =>
    generalize hText : backquote :: s ++ [backquote] = text at h'
    cases h' with
    | last h' => rw [(h.cut_unique h' hNil hNil (List.cons.inj hText).2).1]
    | more h' => cases (h.cut_unique h' hNil (hPoint _) (List.cons.inj hText).2).2
  | @more s name t names h _ ih =>
    generalize hText : backquote :: s ++ backquote :: '.' :: t = text at h'
    cases h' with
    | last h' => cases (h.cut_unique h' (hPoint _) hNil (List.cons.inj hText).2).2
    | more h' hMore' =>
      obtain ⟨hName, hRest⟩ := h.cut_unique h' (hPoint _) (hPoint _) (List.cons.inj hText).2
      obtain rfl := (List.cons.inj hRest).2
      rw [hName, ih hMore']

/-! ## Names and their parts -/

/-- Quoted names with points between them are read as these names. -/
theorem readsAs_intercalate {names : List (List Char)} (h : names ≠ []) :
    ReadsAs (List.intercalate ['.'] (names.map quoted)) names := by
  induction names with
  | nil => exact absurd rfl h
  | cons name more ih =>
    by_cases hMore : more = []
    · subst hMore
      rw [List.map_singleton, List.intercalate_singleton]
      exact .last (spells_doubled name)
    · rw [List.map_cons, List.intercalate_cons_of_ne_nil (by simpa using hMore), quoted,
        List.append_assoc, List.append_assoc]
      exact .more (spells_doubled name) (ih hMore)

theorem readsAs_qualified_iff {name : List Char} {names : List (List Char)} :
    ReadsAs (qualified name) names ↔ names = parts '.' name := by
  have hParts : ReadsAs (qualified name) (parts '.' name) :=
    readsAs_intercalate (parts_ne_nil '.' name)
  exact ⟨fun h => h.unique hParts, fun h => h ▸ hParts⟩

theorem readsAs_quoted_iff {name : List Char} {names : List (List Char)} :
    ReadsAs (quoted name) names ↔ names = [name] := by
  have hOne : ReadsAs (quoted name) [name] := .last (spells_doubled name)
  exact ⟨fun h => h.unique hOne, fun h => h ▸ hOne⟩

/-- A point with the backquotes that end a segment before it and begin one behind it. -/
def pointed (c : Char) : List Char :=
  if c == '.' then [backquote, '.', backquote] else [c]

/-- Quoting the parts of a name and joining them by points comes to doubling the backquotes of the
whole name first, and putting backquotes around each point then.  A character in front that is no
point goes to the first part, so that both texts grow behind their first backquote. -/
theorem qualified_eq_replaced (name : List Char) :
    qualified name = backquote :: (doubled name).flatMap pointed ++ [backquote] := by
  induction name with
  | nil => rfl
  | cons c rest ih =>
    by_cases hc : c = '.'
    · subst hc
      have hSegment : qualified ('.' :: rest) = quoted [] ++ ['.'] ++ qualified rest := by
        rw [qualified, parts_cons_separator, List.map_cons,
          List.intercalate_cons_of_ne_nil (by simpa using parts_ne_nil '.' rest), qualified]
      rw [hSegment, ih]
      rfl
    · obtain ⟨part, others, hParts⟩ := List.exists_cons_of_ne_nil (parts_ne_nil '.' rest)
      have hMore : parts '.' (c :: rest) = (c :: part) :: others := by
        rw [parts, if_neg (by simpa using hc), hParts]
      have hFront (s : List Char) (texts : List (List Char)) :
          List.intercalate ['.'] ((backquote :: s) :: texts) =
            backquote :: List.intercalate ['.'] (s :: texts) :=
        Mode.intercalate_extendHead ['.'] [backquote] (List.cons_ne_nil s texts)
      have hRest : List.intercalate ['.'] ((doubled part ++ [backquote]) :: others.map quoted) =
          (doubled rest).flatMap pointed ++ [backquote] := by
        rw [qualified, hParts, List.map_cons, quoted, List.cons_append, hFront] at ih
        exact (List.cons.inj ih).2
      have hKept : (if c == backquote then [backquote, backquote] else [c]).flatMap pointed =
          if c == backquote then [backquote, backquote] else [c] := by
        split
        · rfl
        · simp [pointed, hc]
      rw [qualified, hMore, List.map_cons, quoted, List.cons_append, hFront, doubled_cons,
        doubled_cons, List.append_assoc, ← extendHead_cons, Mode.intercalate_extendHead _ _ (by simp),
        hRest, List.flatMap_append, hKept, List.cons_append, List.append_assoc]

/-! ## Sequences of names -/

/-- Names in sequences, none of which is empty. -/
inductive IsNames : Value → Prop
  | name (s : String) : IsNames (.str s)
  | list {items : List Value} (hItems : items ≠ []) (h : ∀ v ∈ items, IsNames v) :
    IsNames (.list items)
  | tuple {items : List Value} (hItems : items ≠ []) (h : ∀ v ∈ items, IsNames v) :
    IsNames (.tuple items)

mutual

/-- The names in nested sequences, in order. -/
def leaves : Value → List String
  | .str s => [s]
  | .list items => leavesOf items
  | .tuple items => leavesOf items
  | _ => []

/-- The names in the items of a sequence. -/
def leavesOf : List Value → List String
  | [] => []
  | v :: rest => leaves v ++ leavesOf rest

end

/-- A name between backquotes, as one or part by part. -/
def quotedAs (single : Bool) (name : String) : List Char :=
  if single then quoted name.toList else qualified name.toList

theorem ofValue_str (single : Bool) (s : String) :
    ofValue single (.str s) = .ok (quotedAs single s) := rfl

theorem ofValues_of_ok {single : Bool} {items : List Value} {text : Value → List Char}
    (h : ∀ v ∈ items, ofValue single v = .ok (text v)) :
    ofValues single items = .ok (items.map text) := by
  induction items with
  | nil => rfl
  | cons v rest ih =>
    obtain ⟨hFirst, hRest⟩ := List.forall_mem_cons.mp h
    rw [ofValues, hFirst, ih hRest]
    rfl

theorem leavesOf_eq (items : List Value) : leavesOf items = items.flatMap leaves := by
  induction items with
  | nil => rfl
  | cons v rest ih => rw [leavesOf, ih, List.flatMap_cons]

theorem commaJoined_append {front back : List (List Char)} (hFront : front ≠ [])
    (hBack : back ≠ []) :
    commaJoined (front ++ back) = commaJoined front ++ [',', ' '] ++ commaJoined back := by
  rw [commaJoined, intercalate_append_right _ hFront, ← separator_append_intercalate _ hBack,
    ← List.append_assoc]
  rfl

/-- Joined texts that are joined. -/
theorem commaJoined_flatMap {α : Type} {f : α → List (List Char)} {items : List α}
    (h : ∀ a ∈ items, f a ≠ []) :
    commaJoined (items.map fun a => commaJoined (f a)) = commaJoined (items.flatMap f) := by
  induction items with
  | nil => rfl
  | cons a more ih =>
    obtain ⟨hFirst, hMore⟩ := List.forall_mem_cons.mp h
    rw [List.map_cons, List.flatMap_cons]
    by_cases hNil : more = []
    · subst hNil
      rw [List.map_nil, List.flatMap_nil, List.append_nil, commaJoined, List.intercalate_singleton]
    · obtain ⟨b, others, rfl⟩ := List.exists_cons_of_ne_nil hNil
      have hBack : (b :: others).flatMap f ≠ [] := by
        rw [List.flatMap_cons]
        exact List.append_ne_nil_of_left_ne_nil (hMore b List.mem_cons_self) _
      have hJoined : commaJoined (commaJoined (f a) :: (b :: others).map fun a => commaJoined (f a)) =
          commaJoined (f a) ++ [',', ' '] ++
            commaJoined ((b :: others).map fun a => commaJoined (f a)) :=
        List.intercalate_cons_of_ne_nil (List.cons_ne_nil _ _)
      rw [hJoined, ih hMore, commaJoined_append hFirst hBack]

theorem leavesOf_ne_nil {items : List Value} (hItems : items ≠ [])
    (h : ∀ v ∈ items, leaves v ≠ []) : leavesOf items ≠ [] := by
  obtain ⟨v, rest, rfl⟩ := List.exists_cons_of_ne_nil hItems
  rw [leavesOf]
  exact List.append_ne_nil_of_left_ne_nil (h v List.mem_cons_self) _

theorem IsNames.leaves_ne_nil {v : Value} (h : IsNames v) : leaves v ≠ [] := by
  induction h with
  | name s => exact List.cons_ne_nil s []
  | list hItems _ ih => exact leavesOf_ne_nil hItems ih
  | tuple hItems _ ih => exact leavesOf_ne_nil hItems ih

theorem ofValues_of_leaves {single : Bool} {items : List Value}
    (hLeaves : ∀ v ∈ items, leaves v ≠ [])
    (h : ∀ v ∈ items, ofValue single v = .ok (commaJoined ((leaves v).map (quotedAs single)))) :
    (do return commaJoined (← ofValues single items) : Result (List Char)) =
      .ok (commaJoined ((leavesOf items).map (quotedAs single))) := by
  have hJoined := commaJoined_flatMap (f := fun v => (leaves v).map (quotedAs single))
    fun v hMem => by simpa using hLeaves v hMem
  rw [ofValues_of_ok h, leavesOf_eq, List.map_flatMap, ← hJoined]
  rfl

/-- Nested sequences of names are quoted as their names in a row. -/
theorem IsNames.ofValue_eq {v : Value} (h : IsNames v) (single : Bool) :
    ofValue single v = .ok (commaJoined ((leaves v).map (quotedAs single))) := by
  induction h with
  | name s =>
    rw [leaves, List.map_singleton, commaJoined, List.intercalate_singleton, ofValue_str]
  | list _ h ih =>
    rw [ofValue, leaves]
    exact ofValues_of_leaves (fun v hMem => (h v hMem).leaves_ne_nil) ih
  | tuple _ h ih =>
    rw [ofValue, leaves]
    exact ofValues_of_leaves (fun v hMem => (h v hMem).leaves_ne_nil) ih

/-! ## The main result -/

/-- A name between backquotes is read back, in one way: as its parts, or as itself if its points
do not count.  So no two names have one quoted form, and a nested sequence of names is written as
the quoted forms of its names in a row. -/
theorem quoting_isReversible :
    (∀ s : String, ∃ text, ofValue false (.str s) = .ok text ∧
      ∀ names : List (List Char), ReadsAs text names ↔ names = parts '.' s.toList) ∧
    (∀ s : String, ∃ text, ofValue true (.str s) = .ok text ∧
      ∀ names : List (List Char), ReadsAs text names ↔ names = [s.toList]) ∧
    (∀ single : Bool, Function.Injective fun s : String => ofValue single (.str s)) ∧
    ∀ (single : Bool) (v : Value), IsNames v →
      ∃ texts, (leaves v).mapM (fun s => ofValue single (.str s)) = .ok texts ∧
        ofValue single v = .ok (commaJoined texts) := by
  have hParts (s : String) (names : List (List Char)) :
      ReadsAs (quotedAs false s) names ↔ names = parts '.' s.toList := readsAs_qualified_iff
  have hOne (s : String) (names : List (List Char)) :
      ReadsAs (quotedAs true s) names ↔ names = [s.toList] := readsAs_quoted_iff
  refine ⟨fun s => ⟨_, ofValue_str false s, hParts s⟩, fun s => ⟨_, ofValue_str true s, hOne s⟩,
    fun single s t hSame => ?_,
    fun single v h => ⟨(leaves v).map (quotedAs single), List.mapM_pure, h.ofValue_eq single⟩⟩
  replace hSame : quotedAs single s = quotedAs single t := Except.ok.inj hSame
  rw [← String.toList_inj]
  cases single with
  | true =>
    have hRead := (hOne s [s.toList]).mpr rfl
    rw [hSame, hOne] at hRead
    exact (List.cons.inj hRead).1
  | false =>
    have hRead := (hParts s (parts '.' s.toList)).mpr rfl
    rw [hSame, hParts] at hRead
    rw [← intercalate_parts '.' s.toList, hRead, intercalate_parts]

/-- A name with a backquote before a point, an empty name, and a name with empty parts. -/
theorem quoting_isReversible_nested :
    let v := Value.tuple [.list [.str "a\x60.b", .str ""], .str ".."]
    IsNames v ∧ leaves v = ["a\x60.b", "", ".."] ∧
      (∃ texts, ["a\x60.b", "", ".."].mapM (fun s => ofValue false (.str s)) = .ok texts ∧
        ofValue false v = .ok (commaJoined texts)) ∧
      ∃ text, ofValue false (.str "a\x60.b") = .ok text ∧
        ReadsAs text ["a\x60".toList, "b".toList] := by
  intro v
  have hNames : IsNames v := by
    refine .tuple (by simp) ?_
    simp only [List.forall_mem_cons]
    refine ⟨.list (by simp) ?_, .name "..", nofun⟩
    simp only [List.forall_mem_cons]
    exact ⟨.name _, .name _, nofun⟩
  obtain ⟨hParts, -, -, hNested⟩ := quoting_isReversible
  obtain ⟨text, hText, hRead⟩ := hParts "a\x60.b"
  exact ⟨hNames, rfl, hNested false v hNames, text, hText, (hRead _).mpr (by decide)⟩

end SqlWeave.Sql.Identifier
