import Mathlib.Data.List.Forall2
import SqlWeave.Proofs.Script.References
import SqlWeave.Proofs.Template.Provocation

/-!
# What a script tells of its template's texts

The literal texts of a template are kept outside of its script.  Of a text the assembler asks
only whether it is empty, and it numbers those that are not; so templates with the same tags,
whose texts are empty at the same places, have the same script.  The script refers to every text
that is kept once, in order.

## Main results

* `run_congr`: alike pieces are assembled alike.
* `texts_of_run`: which texts are kept, and which indices the instructions have.
* `sourceOf_alike`: the source depends on the tags and on which texts are empty, and refers to
  every text that is kept, once and in order.
* `sourceOf_quotes_mark`: between quotes the source may spell such a reference once more.
-/

namespace SqlWeave.Template

open Script Number Text

/-! ## Tags and texts -/

/-- The tags of a template, in order. -/
def allTags (template : List Char) : List Tag :=
  (scan template).2.map Prod.fst

/-- The text of a piece that is one. -/
def Piece.text? : Piece → Option (List Char)
  | .text s => some s
  | .tag _ => none

/-- The texts before, between and behind the tags, as the tags have stripped them. -/
def literals (template : List Char) : List (List Char) :=
  (pieces template).filterMap Piece.text?

/-- The same tag, or texts that are both empty or both not. -/
inductive Piece.IsLike : Piece → Piece → Prop
  | text {s t : List Char} (hEmpty : s.isEmpty = t.isEmpty) : IsLike (.text s) (.text t)
  | tag (t : Tag) : IsLike (.tag t) (.tag t)

theorem isLike_stripPieces {atStart : Bool} {lead lead' : List Char}
    {more more' : List (Tag × List Char)} (hTags : more.map Prod.fst = more'.map Prod.fst)
    (hTexts : ((stripPieces atStart lead more).filterMap Piece.text?).map List.isEmpty =
      ((stripPieces atStart lead' more').filterMap Piece.text?).map List.isEmpty) :
    List.Forall₂ Piece.IsLike (stripPieces atStart lead more)
      (stripPieces atStart lead' more') := by
  induction more generalizing atStart lead lead' more' with
  | nil =>
    obtain rfl := List.map_eq_nil_iff.mp hTags.symm
    obtain ⟨hLead, -⟩ := List.cons.inj hTexts
    exact .cons (.text hLead) .nil
  | cons entry more ih =>
    obtain ⟨tag, text⟩ := entry
    obtain ⟨⟨tag', text'⟩, rest, rfl, rfl, hRest⟩ := List.map_eq_cons_iff.mp hTags.symm
    obtain ⟨hLead, hMore⟩ := List.cons.inj hTexts
    exact .cons (.text hLead) (.cons (.tag tag') (ih hRest.symm hMore))

/-- Templates with the same tags, and texts that are empty at the same places, have alike
pieces. -/
theorem isLike_pieces {a b : List Char} (hTags : allTags a = allTags b)
    (hTexts : (literals a).map List.isEmpty = (literals b).map List.isEmpty) :
    List.Forall₂ Piece.IsLike (pieces a) (pieces b) :=
  isLike_stripPieces hTags hTexts

/-! ## Alike pieces -/

/-- What is left of a state without the texts that are kept: their number. -/
def viewOf (s : State) : List Frame × Nat × Nat :=
  (s.frames, s.contexts, s.texts.length)

/-- What is left of a step without the texts that are kept. -/
def seen (r : State × List Instruction) : (List Frame × Nat × Nat) × List Instruction :=
  (viewOf r.1, r.2)

/-- Two results that agree as far as is seen of them. -/
theorem cases_of_map_eq {ε α β : Type} {f : α → β} {r r' : Except ε α} (h : r.map f = r'.map f) :
    (∃ e, r = .error e ∧ r' = .error e) ∨ ∃ a b, r = .ok a ∧ r' = .ok b ∧ f a = f b := by
  cases r with
  | error e =>
    cases r' with
    | error e' =>
      obtain rfl := Except.error.inj h
      exact .inl ⟨e, rfl, rfl⟩
    | ok b => cases h
  | ok a =>
    cases r' with
    | error e' => cases h
    | ok b => exact .inr ⟨a, b, rfl, rfl, Except.ok.inj h⟩

section Alike

variable {s t : State} {p q : Piece} {ps qs : List Piece}

/-- A directive does not look at the texts. -/
theorem directive_congr (hView : viewOf s = viewOf t) (d : Directive) :
    (s.directive d).map seen = (t.directive d).map seen := by
  obtain ⟨frames, contexts, texts⟩ := s
  obtain ⟨frames', contexts', texts'⟩ := t
  simp only [viewOf, Prod.mk.injEq] at hView
  obtain ⟨rfl, rfl, hTexts⟩ := hView
  have hExpr : ∀ argument, State.readExpr ⟨frames, contexts, texts⟩ argument =
      State.readExpr ⟨frames, contexts, texts'⟩ argument := fun _ => rfl
  have hSeen : ∀ frames contexts is, seen (⟨frames, contexts, texts⟩, is) =
      seen (⟨frames, contexts, texts'⟩, is) := by simp [seen, viewOf, hTexts]
  cases d with
  | comment => exact congrArg Except.ok (hSeen _ _ _)
  | opens kind argument =>
    rw [State.directive, State.directive, hExpr]
    cases State.readExpr ⟨frames, contexts, texts'⟩ argument with
    | error e => rfl
    | ok e => cases kind <;> exact congrArg Except.ok (hSeen _ _ _)
  | closes name =>
    rw [State.directive, State.directive, State.close, State.close]
    cases frames with
    | nil => rfl
    | cons frame outer =>
      dsimp only
      split
      · exact congrArg Except.ok (hSeen _ _ _)
      · rfl
  | otherwise =>
    rw [State.directive, State.directive, State.passElse, State.passElse]
    cases frames with
    | nil => rfl
    | cons frame outer =>
      dsimp only
      split
      · rfl
      · exact congrArg Except.ok (hSeen _ _ _)
  | output helper argument =>
    rw [State.directive, State.directive, hExpr]
    cases State.readExpr ⟨frames, contexts, texts'⟩ argument with
    | error e => rfl
    | ok e => exact congrArg Except.ok (hSeen _ _ _)

theorem piece_congr (hView : viewOf s = viewOf t) (h : p.IsLike q) :
    (s.piece p).map seen = (t.piece q).map seen := by
  cases h with
  | tag tag =>
    cases hTag : Directive.ofTag tag with
    | error cause =>
      rw [State.piece, State.piece, hTag]
      rfl
    | ok d =>
      rw [State.piece, State.piece, hTag]
      exact directive_congr hView d
  | text hEmpty =>
    simp only [viewOf, Prod.mk.injEq] at hView
    obtain ⟨hFrames, hContexts, hLength⟩ := hView
    rw [State.piece, State.piece, hEmpty]
    split <;> simp [Except.map, seen, viewOf, hFrames, hContexts, hLength]

/-- Alike pieces are assembled alike. -/
theorem run_congr (hView : viewOf s = viewOf t) (h : List.Forall₂ Piece.IsLike ps qs) :
    (s.run ps).map seen = (t.run qs).map seen := by
  induction h generalizing s t with
  | nil => exact congrArg (fun view => Except.ok (view, [])) hView
  | @cons p q ps qs hPiece hRest ih =>
    rw [State.run, State.run]
    rcases cases_of_map_eq (piece_congr hView hPiece) with
      ⟨e, hFirst, hFirst'⟩ | ⟨⟨s₁, is⟩, ⟨t₁, is'⟩, hFirst, hFirst', hSeen⟩
    · rw [hFirst, hFirst']
      rfl
    · obtain ⟨hNext, hSame⟩ := Prod.mk.inj hSeen
      rw [hFirst, hFirst', ok_bind, ok_bind]
      dsimp only at hSame ⊢
      rcases cases_of_map_eq (ih hNext) with
        ⟨e, hMore, hMore'⟩ | ⟨⟨s₂, more⟩, ⟨t₂, more'⟩, hMore, hMore', hSeen⟩
      · rw [hMore, hMore']
        rfl
      · obtain ⟨hLast, hSame'⟩ := Prod.mk.inj hSeen
        rw [hMore, hMore', ok_bind, ok_bind]
        dsimp only at hSame' ⊢
        rw [hSame, hSame']
        exact congrArg (fun view => Except.ok (view, is' ++ more')) hLast

end Alike

/-- Alike templates have the same source, or the same fault. -/
theorem sourceOf_congr {a b : List Char} (h : List.Forall₂ Piece.IsLike (pieces a) (pieces b)) :
    sourceOf a = sourceOf b := by
  rw [sourceOf, sourceOf, assemble, assemble]
  have hStart : viewOf {} = viewOf {} := rfl
  rcases cases_of_map_eq (run_congr hStart h) with
    ⟨e, hRun, hRun'⟩ | ⟨⟨s, is⟩, ⟨t, is'⟩, hRun, hRun', hSeen⟩
  · rw [hRun, hRun']
  · obtain ⟨hView, hSame⟩ := Prod.mk.inj hSeen
    have hFrames : s.frames = t.frames := congrArg Prod.fst hView
    rw [hRun, hRun', ok_bind, ok_bind]
    dsimp only at hSame ⊢
    rw [hFrames, hSame]
    cases t.frames <;> rfl

/-! ## The texts that are kept -/

/-- The text of a piece, if it is one that is not empty. -/
def Piece.kept : Piece → List (List Char)
  | .text s => if s.isEmpty then [] else [s]
  | .tag _ => []

theorem kept_pieces (ps : List Piece) :
    ps.flatMap Piece.kept = (ps.filterMap Piece.text?).filter fun s => !s.isEmpty := by
  induction ps with
  | nil => rfl
  | cons p rest ih =>
    rw [List.flatMap_cons, ih]
    cases p with
    | tag t => rfl
    | text s => cases s <;> rfl

section Kept

variable {s s' : State} {is : List Instruction}

/-- A directive keeps no text, and gives no instruction that puts one out. -/
theorem texts_of_directive {d : Directive} (h : s.directive d = .ok (s', is)) :
    s'.texts = s.texts ∧ is.filterMap Instruction.index? = [] := by
  cases d with
  | comment =>
    obtain ⟨rfl, rfl⟩ := Prod.mk.inj (Except.ok.inj h)
    exact ⟨rfl, rfl⟩
  | opens kind argument =>
    obtain ⟨e, -, hEnter⟩ := ok_of_bind h
    obtain ⟨rfl, rfl⟩ := Prod.mk.inj (Except.ok.inj hEnter)
    exact ⟨s.texts_enter kind e, by cases kind <;> rfl⟩
  | closes name =>
    obtain ⟨⟨s₁, i⟩, hClose, hResult⟩ := ok_of_bind h
    obtain ⟨rfl, rfl⟩ := Prod.mk.inj (Except.ok.inj hResult)
    obtain ⟨frame, outer, -, -, rfl, rfl⟩ := State.of_close (ok_of_mapError hClose)
    exact ⟨rfl, by cases frame.kind <;> rfl⟩
  | otherwise =>
    obtain ⟨⟨s₁, i⟩, hPass, hResult⟩ := ok_of_bind h
    obtain ⟨rfl, rfl⟩ := Prod.mk.inj (Except.ok.inj hResult)
    obtain ⟨frame, outer, -, -, -, rfl, rfl⟩ := State.of_passElse (ok_of_mapError hPass)
    exact ⟨rfl, rfl⟩
  | output helper argument =>
    obtain ⟨e, -, hResult⟩ := ok_of_bind h
    obtain ⟨rfl, rfl⟩ := Prod.mk.inj (Except.ok.inj hResult)
    exact ⟨rfl, rfl⟩

theorem texts_of_piece {p : Piece} (h : s.piece p = .ok (s', is)) :
    s'.texts = p.kept ++ s.texts ∧
      is.filterMap Instruction.index? = List.range' s.texts.length p.kept.length := by
  cases p with
  | text text =>
    rw [State.piece] at h
    rw [Piece.kept]
    split at h
    · next hEmpty =>
      obtain ⟨rfl, rfl⟩ := Prod.mk.inj (Except.ok.inj h)
      rw [if_pos hEmpty]
      exact ⟨rfl, rfl⟩
    · next hFull =>
      obtain ⟨rfl, rfl⟩ := Prod.mk.inj (Except.ok.inj h)
      rw [if_neg hFull]
      exact ⟨rfl, rfl⟩
  | tag t =>
    obtain ⟨d, -, hDirective⟩ := ok_of_bind h
    exact texts_of_directive hDirective

/-- The texts that are not empty are kept, and put out in order. -/
theorem texts_of_run {ps : List Piece} (h : s.run ps = .ok (s', is)) :
    s'.texts = (ps.flatMap Piece.kept).reverse ++ s.texts ∧
      is.filterMap Instruction.index? =
        List.range' s.texts.length (ps.flatMap Piece.kept).length := by
  induction ps generalizing s is with
  | nil =>
    obtain ⟨rfl, rfl⟩ := Prod.mk.inj (Except.ok.inj h)
    exact ⟨rfl, rfl⟩
  | cons p rest ih =>
    obtain ⟨⟨s₁, first⟩, hPiece, h⟩ := ok_of_bind h
    obtain ⟨⟨s₂, more⟩, hRest, h⟩ := ok_of_bind h
    obtain ⟨rfl, rfl⟩ := Prod.mk.inj (Except.ok.inj h)
    obtain ⟨hTexts, hFirst⟩ := texts_of_piece hPiece
    obtain ⟨hTexts', hMore⟩ := ih hRest
    have hReverse : p.kept.reverse = p.kept := by
      cases p with
      | tag t => rfl
      | text text => cases text <;> rfl
    constructor
    · rw [hTexts', hTexts, List.flatMap_cons, List.reverse_append, hReverse, List.append_assoc]
    · rw [List.filterMap_append, hFirst, hMore, hTexts, List.flatMap_cons, List.length_append,
        List.length_append, Nat.add_comm p.kept.length s.texts.length, List.range'_append_1]

end Kept

/-! ## Scripts -/

/-- The characters of a numeral. -/
theorem mem_chars_of_isDecimal {x : Numeral} (h : x.IsDecimal) {c : Char} (hMem : c ∈ x.chars) :
    isDecimalDigit c = true ∨ c = '-' ∨ c = '.' := by
  simp only [Numeral.chars, List.mem_append] at hMem
  rcases hMem with (hSign | hWhole) | hPoint
  · split at hSign
    · exact .inr (.inl (List.mem_singleton.mp hSign))
    · cases hSign
  · exact .inl (h.digits c (List.mem_append_left _ hWhole))
  · split at hPoint
    · cases hPoint
    · rcases List.mem_cons.mp hPoint with hChar | hFraction
      · exact .inr (.inr hChar)
      · exact .inl (h.digits c (List.mem_append_right _ hFraction))

/-- The arguments of tags are ordinary. -/
theorem isOrdinary_of_has {t : Tag} {e : Expr} (h : t.Has e) : e.IsOrdinary := by
  obtain ⟨d, token, a, -, -, hRead, hSays⟩ := h
  cases hSays with
  | numeral digits =>
    obtain ⟨rfl, hNumeral⟩ := Argument.numeral_of_read hRead
    obtain ⟨x, hDecimal, rfl⟩ := Argument.exists_numeral hNumeral
    exact fun c hMem => mem_chars_of_isDecimal hDecimal hMem
  | _ => exact trivial

/-- A template keeps the texts that are not empty, and its script refers to each of them once,
in order. -/
theorem references_of_assemble {template : List Char} {assembly : Assembly}
    (h : assemble template = .ok assembly) :
    assembly.texts = (literals template).filter (fun s => !s.isEmpty) ∧
      references .outside (source assembly.instructions) =
        (List.range assembly.texts.length).map natText := by
  have hOrdinary : ∀ i ∈ assembly.instructions, ∀ e, i.expr? = some e → e.IsOrdinary := by
    intro i hMem e hExpr
    obtain ⟨t, -, hHas⟩ := ((yields_assemble template).of_ok h i hMem).expr e hExpr
    exact isOrdinary_of_has hHas
  obtain ⟨⟨s, is⟩, hRun, h⟩ := ok_of_bind h
  obtain ⟨hTexts, hIndices⟩ := texts_of_run hRun
  rw [kept_pieces] at hTexts hIndices
  dsimp only at h
  split at h
  · cases h
  · obtain rfl := Except.ok.inj h
    have hKept : s.texts.reverse = (literals template).filter fun s => !s.isEmpty := by
      rw [hTexts]
      simp [literals]
    refine ⟨hKept, ?_⟩
    rw [references_source hOrdinary, hIndices, hKept, List.range_eq_range']
    rfl

/-- Templates with the same tags, and texts that are empty at the same places, have the same
source or the same fault; and the source refers to the texts that are not empty, to each of them
once and in order. -/
theorem sourceOf_alike {a b : List Char} (hTags : allTags a = allTags b)
    (hTexts : (literals a).map List.isEmpty = (literals b).map List.isEmpty) :
    sourceOf a = sourceOf b ∧
      ∀ assembly, assemble a = .ok assembly →
        assembly.texts = (literals a).filter (fun s => !s.isEmpty) ∧
          references .outside (source assembly.instructions) =
            (List.range assembly.texts.length).map natText :=
  ⟨sourceOf_congr (isLike_pieces hTags hTexts), fun _ hAssemble => references_of_assemble hAssemble⟩

/-- Texts that are marks of the script's own language, and plain ones, in both parts of a block
and around it. -/
theorem sourceOf_alike_foreign :
    let a :=
      "\x7b% raw %\x7d \x7b\x7b~#if x\x7d\x7d_text[7]\x7b\x7belse\x7d\x7d\x7b\x7b/if\x7d\x7d'".toList
    let b := "1\x7b\x7b~#if x\x7d\x7d 2\x7b\x7belse\x7d\x7d\x7b\x7b/if\x7d\x7d3".toList
    allTags a = allTags b ∧ (literals a).map List.isEmpty = (literals b).map List.isEmpty ∧
      ∃ script, sourceOf a = .ok script ∧ sourceOf b = .ok script ∧
        references .outside script = [['0'], ['1'], ['2']] := by
  intro a b
  have hTags : allTags a = allTags b := by decide +kernel
  have hTexts : (literals a).map List.isEmpty = (literals b).map List.isEmpty := by
    decide +kernel
  obtain ⟨hSource, hReferences⟩ := sourceOf_alike hTags hTexts
  have hScript : sourceOf a = .ok ("\x7b\x7b _text[0] \x7d\x7d".toList ++
      "\x7b% if _truthy(_lookup(_ctx0, 'x')) %\x7d\x7b\x7b _text[1] \x7d\x7d".toList ++
        "\x7b% else %\x7d\x7b% endif %\x7d\x7b\x7b _text[2] \x7d\x7d".toList) :=
    ok_of_toOption (by decide +kernel)
  obtain ⟨assembly, hAssemble, hResult⟩ := ok_of_bind hScript
  obtain ⟨hKept, hIndices⟩ := hReferences assembly hAssemble
  have hCount : assembly.texts.length = 3 := by
    rw [hKept]
    decide +kernel
  refine ⟨hTags, hTexts, _, hScript, hSource ▸ hScript, ?_⟩
  rw [← Except.ok.inj hResult, hIndices, hCount]
  decide

/-- A quoted argument may spell a reference to a text, which then stands twice in the source. -/
theorem sourceOf_quotes_mark :
    let script := "\x7b\x7b _text[0] \x7d\x7d\x7b\x7b '_text[0]' \x7d\x7d".toList
    sourceOf "a\x7b\x7b\"_text[0]\"\x7d\x7d".toList = .ok script ∧
      script.tails.countP ("_text[0]".toList.isPrefixOf ·) = 2 := by
  intro script
  have hScript : sourceOf "a\x7b\x7b\"_text[0]\"\x7d\x7d".toList = .ok script :=
    ok_of_toOption (by decide +kernel)
  exact ⟨hScript, by decide +kernel⟩

end SqlWeave.Template
