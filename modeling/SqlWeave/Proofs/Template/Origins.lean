import SqlWeave.Proofs.Script.Emission
import SqlWeave.Proofs.Script.Spelling
import SqlWeave.Proofs.Template.Words

/-!
# Where instructions come from

An instruction of a script puts out a text of the template, or its expression is the argument of
a tag.  A template that cannot be assembled is at fault itself, or the argument of one of its tags
cannot be read.

## Main results

* `yields_run`: what comes of assembling pieces.
* `yields_assemble`: what comes of assembling a template.
-/

namespace SqlWeave

open Template Script

/-! ## Tags -/

/-- The expression says what the argument says; only the contexts are numbered. -/
inductive Script.Expr.Says : Expr → Argument → Prop
  | text (s : List Char) : Says (.text s) (.text s)
  | numeral (token : List Char) : Says (.numeral token) (.numeral token)
  | constant (c : Constant) : Says (.constant c) (.constant c)
  | loopVariable (v : LoopVariable) (n : Nat) : Says (.loopVariable v n) (.loopVariable v)
  | path (n : Nat) (fromRoot : Bool) (ups : Nat) (segments : List (List Char)) :
      Says (.path n segments) (.path fromRoot ups segments)

theorem Script.State.says_of_expr {s : State} {a : Argument} {e : Expr} (h : s.expr a = .ok e) :
    e.Says a := by
  cases a with
  | text text =>
    obtain rfl := Except.ok.inj h
    exact .text text
  | numeral token =>
    obtain rfl := Except.ok.inj h
    exact .numeral token
  | constant c =>
    obtain rfl := Except.ok.inj h
    exact .constant c
  | loopVariable v =>
    rw [State.expr] at h
    split at h
    · obtain rfl := Except.ok.inj h
      exact .loopVariable v _
    · cases h
  | path fromRoot ups segments =>
    cases fromRoot with
    | true =>
      obtain rfl := Except.ok.inj h
      exact .path _ true ups segments
    | false =>
      obtain rfl := Except.ok.inj h
      exact .path _ false ups segments

namespace Template.Tag

/-- The expression says what the argument of the tag says. -/
def Has (t : Tag) (e : Expr) : Prop :=
  ∃ d token a, Directive.ofTag t = .ok d ∧ d.argument? = some token ∧
    Argument.read token = .ok a ∧ e.Says a

/-- The argument of the tag cannot be read. -/
def Lacks (t : Tag) (f : Fault) : Prop :=
  ∃ d token, Directive.ofTag t = .ok d ∧ d.argument? = some token ∧ Argument.read token = .error f

end Template.Tag

/-- The instruction puts out one of the first texts, or its expression is an argument. -/
structure Script.Instruction.IsFrom (ps : List Piece) (size : Nat) (i : Instruction) : Prop where
  index : ∀ n, i = .text n → n < size
  expr : ∀ e, i.expr? = some e → ∃ t, .tag t ∈ ps ∧ t.Has e

/-- The fault of a template, or of an argument that cannot be read. -/
def Fault.IsFrom (ps : List Piece) (f : Fault) : Prop :=
  f.kind = .template ∨ ∃ t, .tag t ∈ ps ∧ t.Lacks f

namespace Template

/-! ## Pieces -/

section Steps

variable {ps : List Piece} {size : Nat} {s : State} {t : Tag} {d : Directive}

/-- An instruction without a text and without an expression. -/
theorem isFrom_plain {i : Instruction} (hText : ∀ n, i ≠ .text n) (hExpr : i.expr? = none) :
    i.IsFrom ps size where
  index := fun n hIndex => absurd hIndex (hText n)
  expr := fun _ hSome => absurd (hExpr.symm.trans hSome) nofun

theorem yields_readExpr {token : List Char} (hTag : .tag t ∈ ps)
    (hDirective : Directive.ofTag t = .ok d) (hArgument : d.argument? = some token) :
    Yields t.Has (Fault.IsFrom ps) (s.readExpr token) := by
  cases hRead : Argument.read token with
  | error f =>
    rw [State.readExpr, hRead]
    exact .inr ⟨t, hTag, d, token, hDirective, hArgument, hRead⟩
  | ok a =>
    rw [State.readExpr, hRead]
    show Yields t.Has (Fault.IsFrom ps) ((s.expr a).mapError Fault.template)
    cases hExpr : s.expr a with
    | error cause => exact .inl rfl
    | ok e => exact ⟨d, token, a, hDirective, hArgument, hRead, State.says_of_expr hExpr⟩

theorem yields_directive (hTag : .tag t ∈ ps) (hDirective : Directive.ofTag t = .ok d) :
    Yields (fun r => r.1.texts = s.texts ∧ ∀ i ∈ r.2, i.IsFrom ps size) (Fault.IsFrom ps)
      (s.directive d) := by
  have hOne : ∀ {i : Instruction}, i.IsFrom ps size → ∀ j ∈ [i], j.IsFrom ps size := by
    intro i hFrom j hMem
    obtain rfl := List.mem_singleton.mp hMem
    exact hFrom
  cases d with
  | comment => exact ⟨rfl, fun i hMem => absurd hMem List.not_mem_nil⟩
  | opens kind argument =>
    refine (yields_readExpr hTag hDirective rfl).bind fun e hHas => ?_
    refine ⟨s.texts_enter kind e, hOne ⟨?_, ?_⟩⟩
    · intro n hText
      cases kind <;> cases hText
    · intro e' hSome
      cases kind <;> cases hSome <;> exact ⟨t, hTag, hHas⟩
  | closes name =>
    refine Yields.bind (?_ : Yields (fun r => r.1.texts = s.texts ∧ r.2.IsFrom ps size) _ _)
      fun r hr => ⟨hr.1, hOne hr.2⟩
    unfold State.close
    split
    · exact .inl rfl
    · next frame outer _ =>
      split
      · exact ⟨rfl, isFrom_plain (fun n => by cases frame.kind <;> exact nofun)
          (by cases frame.kind <;> rfl)⟩
      · exact .inl rfl
  | otherwise =>
    refine Yields.bind (?_ : Yields (fun r => r.1.texts = s.texts ∧ r.2.IsFrom ps size) _ _)
      fun r hr => ⟨hr.1, hOne hr.2⟩
    unfold State.passElse
    split
    · exact .inl rfl
    · split
      · exact .inl rfl
      · exact ⟨rfl, isFrom_plain nofun rfl⟩
  | output helper argument =>
    refine (yields_readExpr hTag hDirective rfl).bind fun e hHas => ⟨rfl, hOne ⟨nofun, ?_⟩⟩
    intro e' hSome
    cases hSome
    exact ⟨t, hTag, hHas⟩

theorem yields_piece {p : Piece} (hPiece : p ∈ ps) (hSize : s.texts.length < size) :
    Yields (fun r => r.1.texts.length ≤ s.texts.length + 1 ∧ ∀ i ∈ r.2, i.IsFrom ps size)
      (Fault.IsFrom ps) (s.piece p) := by
  cases p with
  | text text =>
    rw [State.piece]
    split
    · exact ⟨Nat.le_succ _, fun i hMem => absurd hMem List.not_mem_nil⟩
    · refine ⟨Nat.le_refl _, fun i hMem => ?_⟩
      obtain rfl := List.mem_singleton.mp hMem
      refine ⟨fun n hText => ?_, fun _ hEq => (by cases hEq)⟩
      cases hText
      exact hSize
  | tag t =>
    cases hDirective : Directive.ofTag t with
    | error cause =>
      rw [State.piece, hDirective]
      exact .inl rfl
    | ok d =>
      rw [State.piece, hDirective]
      refine (yields_directive hPiece hDirective).mono (fun r hr => ⟨?_, hr.2⟩) fun f hf => hf
      rw [hr.1]
      exact Nat.le_succ _

end Steps

/-- The instructions of a part of the pieces come from them. -/
theorem yields_run {ps part : List Piece} {size : Nat} {s : State} (hPart : part ⊆ ps)
    (hSize : s.texts.length + part.length ≤ size) :
    Yields (fun r => ∀ i ∈ r.2, i.IsFrom ps size) (Fault.IsFrom ps) (s.run part) := by
  induction part generalizing s with
  | nil => exact fun i hMem => absurd hMem List.not_mem_nil
  | cons p rest ih =>
    rw [List.length_cons] at hSize
    obtain ⟨hPiece, hRest⟩ := List.cons_subset.mp hPart
    have hIndex : s.texts.length < size := by omega
    refine (yields_piece hPiece hIndex).bind fun r ⟨hTexts, hFirst⟩ => ?_
    refine (ih hRest (by omega)).bind fun q hMore => ?_
    intro i hMem
    rcases List.mem_append.mp hMem with hMem | hMem
    · exact hFirst i hMem
    · exact hMore i hMem

/-- The instructions of a template come from its pieces. -/
theorem yields_assemble (template : List Char) :
    Yields (fun a => ∀ i ∈ a.instructions, i.IsFrom (pieces template) (template.length + 1))
      (Fault.IsFrom (pieces template)) (assemble template) := by
  have hSize : ({} : State).texts.length + (pieces template).length ≤ template.length + 1 := by
    simpa using length_pieces_le template
  refine (yields_run (List.Subset.refl _) hSize).bind fun r hr => ?_
  dsimp only
  split
  · exact .inl rfl
  · exact hr

end Template

end SqlWeave
