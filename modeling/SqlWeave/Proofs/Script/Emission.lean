import SqlWeave.Proofs.Results
import SqlWeave.Proofs.Template.Evaluation
import SqlWeave.Script.Assembly
import SqlWeave.Script.Tree

/-!
# The script of a directive tree

`Emits` says what the assembler makes of a directive tree from a state on: the
instructions, the nodes that they are read back as, and the state behind.  The assembler
goes through the pieces of a template with its open blocks on a stack, and so does the
outline of the template; `Pending` relates the two.

## Main results

* `Pending.piece`: the outline follows the assembler from piece to piece.
* `exists_tree`: a template that can be assembled has a directive tree, and its script is
  what the tree emits.
-/

namespace SqlWeave.Script

open Template Number

/-! ## What a tree emits -/

/-- The term that an expression is read back as. -/
def Expr.term : Expr → Term
  | .text s => .value (.ofChars s)
  | .numeral token => .value (Numeral.read token).value
  | .constant c => .value c.value
  | .loopVariable v n => .variable (variableName v n)
  | .path n [] => .variable (contextName n)
  | .path n (segment :: more) => .lookup (contextName n) (segment :: more)

/-- The node that a block with the number `n` is read back as. -/
def blockNode (kind : BlockKind) (n : Nat) (t : Term) (body other : List Node) : Node :=
  match kind with
  | .ifTrue => .choice true t body other
  | .ifFalse => .choice false t body other
  | .each => .loop (loopNames n) t body other
  | .sql => .bound (contextName n) t body

/-- The frame of a block that is opened. -/
def State.frame (s : State) (kind : BlockKind) : Frame :=
  match kind with
  | .ifTrue | .ifFalse => ⟨kind, 0, false⟩
  | .each | .sql => ⟨kind, s.contexts + 1, false⟩

/-- The tree emits instructions, which are read back as nodes, from a state to a state. -/
inductive Emits : State → List Tree → List Instruction → List Node → State → Prop
  | nil {s : State} : Emits s [] [] [] s
  | blank {s s' : State} {tree : List Tree} {is : List Instruction} {ns : List Node}
      (hRest : Emits s tree is ns s') :
      Emits s (.text [] :: tree) is ns s'
  | text {s s' : State} {t : List Char} {tree : List Tree} {is : List Instruction}
      {ns : List Node} (hText : t ≠ [])
      (hRest : Emits { s with texts := t :: s.texts } tree is ns s') :
      Emits s (.text t :: tree) (.text s.texts.length :: is) (.text s.texts.length :: ns) s'
  | output {s s' : State} {helper : Option Helper} {a : Argument} {e : Expr} {tree : List Tree}
      {is : List Instruction} {ns : List Node} (hExpr : s.expr a = .ok e)
      (hRest : Emits s tree is ns s') :
      Emits s (.output helper a :: tree) (.output helper e :: is) (.output helper e.term :: ns) s'
  | block {s s₁ s' : State} {kind : BlockKind} {a : Argument} {e : Expr}
      {body tree : List Tree} {is₁ is : List Instruction} {ns₁ ns : List Node}
      (hExpr : s.expr a = .ok e)
      (hBody : Emits (s.enter kind e).1 body is₁ ns₁ s₁)
      (hRest : Emits { s₁ with frames := s.frames } tree is ns s') :
      Emits s (.block kind a body [] :: tree)
        ((s.enter kind e).2 :: (is₁ ++ State.closing kind :: is))
        (blockNode kind (s.contexts + 1) e.term ns₁ [] :: ns) s'
  | blockElse {s s₁ s₂ s' : State} {kind : BlockKind} {a : Argument} {e : Expr}
      {body other tree : List Tree} {is₁ is₂ is : List Instruction} {ns₁ ns₂ ns : List Node}
      (hKind : kind ≠ .sql) (hExpr : s.expr a = .ok e)
      (hBody : Emits (s.enter kind e).1 body is₁ ns₁ s₁)
      (hOther : Emits { s₁ with frames := { s.frame kind with inElse := true } :: s.frames }
        other is₂ ns₂ s₂)
      (hRest : Emits { s₂ with frames := s.frames } tree is ns s') :
      Emits s (.block kind a body other :: tree)
        ((s.enter kind e).2 :: (is₁ ++ .otherwise :: (is₂ ++ State.closing kind :: is)))
        (blockNode kind (s.contexts + 1) e.term ns₁ ns₂ :: ns) s'

theorem State.frames_enter (s : State) (kind : BlockKind) (e : Expr) :
    (s.enter kind e).1.frames = s.frame kind :: s.frames := by
  cases kind <;> rfl

theorem State.texts_enter (s : State) (kind : BlockKind) (e : Expr) :
    (s.enter kind e).1.texts = s.texts := by
  cases kind <;> rfl

@[simp] theorem State.kind_frame (s : State) (kind : BlockKind) : (s.frame kind).kind = kind := by
  cases kind <;> rfl

@[simp] theorem State.inElse_frame (s : State) (kind : BlockKind) :
    (s.frame kind).inElse = false := by
  cases kind <;> rfl

/-- Only the innermost block is closed, and by its own name. -/
theorem State.of_close {s s' : State} {name : String} {i : Instruction}
    (h : s.close name = .ok (s', i)) :
    ∃ frame outer, s.frames = frame :: outer ∧ frame.kind.name = name ∧
      s' = { s with frames := outer } ∧ i = closing frame.kind := by
  unfold close at h
  split at h
  · cases h
  · next frame outer hFrames =>
    split at h
    · next hName =>
      obtain ⟨rfl, rfl⟩ := Prod.mk.inj (Except.ok.inj h)
      exact ⟨frame, outer, hFrames, hName, rfl, rfl⟩
    · cases h

/-- Only the innermost block is passed to its second part, if it has one. -/
theorem State.of_passElse {s s' : State} {i : Instruction} (h : s.passElse = .ok (s', i)) :
    ∃ frame outer, s.frames = frame :: outer ∧ frame.kind ≠ .sql ∧ frame.inElse = false ∧
      s' = { s with frames := { frame with inElse := true } :: outer } ∧ i = .otherwise := by
  unfold passElse at h
  split at h
  · cases h
  · next frame outer hFrames =>
    split at h
    · cases h
    · next hFrame =>
      obtain ⟨rfl, rfl⟩ := Prod.mk.inj (Except.ok.inj h)
      simp only [Bool.or_eq_true, beq_iff_eq, not_or, Bool.not_eq_true] at hFrame
      exact ⟨frame, outer, hFrames, hFrame.1, hFrame.2, rfl, rfl⟩

namespace Emits

variable {s s₁ s' : State} {tree more : List Tree} {is is' : List Instruction}
  {ns ns' : List Node}

/-- Blocks are closed where they were opened. -/
theorem frames (h : Emits s tree is ns s') : s'.frames = s.frames := by
  induction h with
  | nil => rfl
  | blank _ ih => exact ih
  | text _ _ ih => exact ih
  | output _ _ ih => exact ih
  | block _ _ _ _ ihRest => exact ihRest
  | blockElse _ _ _ _ _ _ _ ihRest => exact ihRest

/-- Trees in a row emit what they emit one after the other. -/
theorem append (hFirst : Emits s tree is ns s₁) (hMore : Emits s₁ more is' ns' s') :
    Emits s (tree ++ more) (is ++ is') (ns ++ ns') s' := by
  induction hFirst with
  | nil => exact hMore
  | blank _ ih => exact .blank (ih hMore)
  | text hText _ ih => exact .text hText (ih hMore)
  | output hExpr _ ih => exact .output hExpr (ih hMore)
  | block hExpr hBody _ _ ih =>
    have hBlock := Emits.block hExpr hBody (ih hMore)
    simpa using hBlock
  | blockElse hKind hExpr hBody hOther _ _ _ ih =>
    have hBlock := Emits.blockElse hKind hExpr hBody hOther (ih hMore)
    simpa using hBlock

end Emits

/-! ## Open blocks -/

/-- What the assembler has emitted for the open blocks and the part that is being read. -/
inductive Pending : List OpenBlock → List Tree → List Instruction → State → Prop
  | outermost {tree : List Tree} {is : List Instruction} {ns : List Node} {s : State}
      (hTree : Emits {} tree is ns s) : Pending [] tree is s
  | body {blocks : List OpenBlock} {before body : List Tree} {is₀ is : List Instruction}
      {ns : List Node} {s₀ s : State} {kind : BlockKind} {a : Argument} {e : Expr}
      (hBefore : Pending blocks before is₀ s₀) (hExpr : s₀.expr a = .ok e)
      (hBody : Emits (s₀.enter kind e).1 body is ns s) :
      Pending (⟨before, kind, a, none⟩ :: blocks) body (is₀ ++ (s₀.enter kind e).2 :: is) s
  | other {blocks : List OpenBlock} {before body other : List Tree}
      {is₀ is₁ is : List Instruction} {ns₁ ns : List Node} {s₀ s₁ s : State} {kind : BlockKind}
      {a : Argument} {e : Expr} (hBefore : Pending blocks before is₀ s₀) (hKind : kind ≠ .sql)
      (hExpr : s₀.expr a = .ok e) (hBody : Emits (s₀.enter kind e).1 body is₁ ns₁ s₁)
      (hOther : Emits { s₁ with frames := { s₀.frame kind with inElse := true } :: s₀.frames }
        other is ns s) :
      Pending (⟨before, kind, a, some body⟩ :: blocks) other
        (is₀ ++ (s₀.enter kind e).2 :: (is₁ ++ .otherwise :: is)) s

namespace Pending

variable {blocks : List OpenBlock} {current more : List Tree} {is is' : List Instruction}
  {ns : List Node} {s s' : State}

/-- The part that is being read goes on with trees. -/
theorem append (h : Pending blocks current is s) (hMore : Emits s more is' ns s') :
    Pending blocks (current ++ more) (is ++ is') s' := by
  cases h with
  | outermost hTree => exact .outermost (hTree.append hMore)
  | body hBefore hExpr hBody =>
    have hLonger := Pending.body hBefore hExpr (hBody.append hMore)
    simpa using hLonger
  | other hBefore hKind hExpr hBody hOther =>
    have hLonger := Pending.other hBefore hKind hExpr hBody (hOther.append hMore)
    simpa using hLonger

/-- A block is closed with the name that it was opened with. -/
theorem close (h : Pending blocks current is s) {name : String} {i : Instruction}
    (hClose : s.close name = .ok (s', i)) :
    ∃ b outer, blocks = b :: outer ∧ b.kind.name = name ∧
      Pending outer (b.close current) (is ++ [i]) s' := by
  obtain ⟨frame, outer, hFrames, hName, rfl, rfl⟩ := State.of_close hClose
  cases h with
  | outermost hTree =>
    rw [hTree.frames] at hFrames
    cases hFrames
  | @body blocks before body is₀ is ns s₀ s kind a e hBefore hExpr hBody =>
    rw [hBody.frames, s₀.frames_enter] at hFrames
    obtain ⟨rfl, rfl⟩ := List.cons.inj hFrames
    rw [State.kind_frame] at hName ⊢
    have hBlock := Emits.block hExpr hBody Emits.nil
    have hClosed := hBefore.append hBlock
    refine ⟨_, _, rfl, hName, ?_⟩
    simpa [OpenBlock.close] using hClosed
  | @other blocks before body other is₀ is₁ is ns₁ ns s₀ s₁ s kind a e hBefore hKind hExpr hBody
      hOther =>
    rw [hOther.frames] at hFrames
    obtain ⟨rfl, rfl⟩ := List.cons.inj hFrames
    rw [State.kind_frame] at hName ⊢
    have hBlock := Emits.blockElse hKind hExpr hBody hOther Emits.nil
    have hClosed := hBefore.append hBlock
    refine ⟨_, _, rfl, hName, ?_⟩
    simpa [OpenBlock.close] using hClosed

/-- A block is passed to its `else` once, if it may have one. -/
theorem passElse (h : Pending blocks current is s) {i : Instruction}
    (hPass : s.passElse = .ok (s', i)) :
    ∃ b outer, blocks = b :: outer ∧ b.kind ≠ .sql ∧ b.body? = none ∧
      Pending ({ b with body? := some current } :: outer) [] (is ++ [i]) s' := by
  obtain ⟨frame, outer, hFrames, hKind, hInElse, rfl, rfl⟩ := State.of_passElse hPass
  cases h with
  | outermost hTree =>
    rw [hTree.frames] at hFrames
    cases hFrames
  | @body blocks before body is₀ is ns s₀ s kind a e hBefore hExpr hBody =>
    rw [hBody.frames, s₀.frames_enter] at hFrames
    obtain ⟨rfl, rfl⟩ := List.cons.inj hFrames
    rw [State.kind_frame] at hKind
    have hPassed := Pending.other hBefore hKind hExpr hBody Emits.nil
    refine ⟨_, _, rfl, hKind, rfl, ?_⟩
    simpa using hPassed
  | other hBefore hKind hExpr hBody hOther =>
    rw [hOther.frames] at hFrames
    obtain ⟨rfl, -⟩ := List.cons.inj hFrames
    cases hInElse

/-- A directive that the assembler takes is one that the outline takes. -/
theorem directive {o : Outline} (h : Pending o.blocks o.current is s) {d : Directive}
    (hDirective : s.directive d = .ok (s', is')) :
    ∃ o', o.directive d = some o' ∧ Pending o'.blocks o'.current (is ++ is') s' := by
  cases d with
  | comment =>
    obtain ⟨rfl, rfl⟩ := Prod.mk.inj (Except.ok.inj hDirective)
    exact ⟨o, rfl, by rwa [List.append_nil]⟩
  | opens kind argument =>
    obtain ⟨e, hRead, hEnter⟩ := ok_of_bind hDirective
    obtain ⟨a, hArgument, hExpr⟩ := ok_of_bind hRead
    have hExpr := ok_of_mapError hExpr
    obtain ⟨rfl, rfl⟩ := Prod.mk.inj (Except.ok.inj hEnter)
    refine ⟨⟨⟨o.current, kind, a, none⟩ :: o.blocks, []⟩, ?_, .body h hExpr .nil⟩
    rw [Outline.directive, hArgument]
    rfl
  | closes name =>
    obtain ⟨⟨s₁, i⟩, hClose, hResult⟩ := ok_of_bind hDirective
    obtain ⟨rfl, rfl⟩ := Prod.mk.inj (Except.ok.inj hResult)
    obtain ⟨b, outer, hBlocks, hName, hClosed⟩ := h.close (ok_of_mapError hClose)
    refine ⟨⟨outer, b.close o.current⟩, ?_, hClosed⟩
    rw [Outline.directive, hBlocks]
    exact if_pos hName
  | otherwise =>
    obtain ⟨⟨s₁, i⟩, hPass, hResult⟩ := ok_of_bind hDirective
    obtain ⟨rfl, rfl⟩ := Prod.mk.inj (Except.ok.inj hResult)
    obtain ⟨b, outer, hBlocks, hKind, hFirst, hPassed⟩ := h.passElse (ok_of_mapError hPass)
    refine ⟨⟨{ b with body? := some o.current } :: outer, []⟩, ?_, hPassed⟩
    rw [Outline.directive, hBlocks]
    simp [hKind, hFirst]
  | output helper argument =>
    obtain ⟨e, hRead, hResult⟩ := ok_of_bind hDirective
    obtain ⟨a, hArgument, hExpr⟩ := ok_of_bind hRead
    have hExpr := ok_of_mapError hExpr
    obtain ⟨rfl, rfl⟩ := Prod.mk.inj (Except.ok.inj hResult)
    refine ⟨o.push (.output helper a), ?_, h.append (.output hExpr .nil)⟩
    rw [Outline.directive, hArgument]
    rfl

/-- The outline follows the assembler from piece to piece. -/
theorem piece {o : Outline} (h : Pending o.blocks o.current is s) {p : Piece}
    (hPiece : s.piece p = .ok (s', is')) :
    ∃ o', o.piece p = some o' ∧ Pending o'.blocks o'.current (is ++ is') s' := by
  cases p with
  | text t =>
    refine ⟨o.push (.text t), rfl, ?_⟩
    rw [State.piece] at hPiece
    by_cases hEmpty : t = []
    · subst hEmpty
      obtain ⟨rfl, rfl⟩ := Prod.mk.inj (Except.ok.inj hPiece)
      exact h.append (.blank .nil)
    · rw [if_neg (by simpa using hEmpty)] at hPiece
      obtain ⟨rfl, rfl⟩ := Prod.mk.inj (Except.ok.inj hPiece)
      exact h.append (.text hEmpty .nil)
  | tag t =>
    obtain ⟨d, hTag, hDirective⟩ := ok_of_bind hPiece
    obtain ⟨o', hOutline, hPending⟩ := h.directive hDirective
    refine ⟨o', ?_, hPending⟩
    rw [Outline.piece, ok_of_mapError hTag]
    exact hOutline

/-- The outline follows the assembler through pieces. -/
theorem run {o : Outline} {ps : List Piece} (h : Pending o.blocks o.current is s)
    (hRun : s.run ps = .ok (s', is')) :
    ∃ o', o.pieces ps = some o' ∧ Pending o'.blocks o'.current (is ++ is') s' := by
  induction ps generalizing o is s is' with
  | nil =>
    obtain ⟨rfl, rfl⟩ := Prod.mk.inj (Except.ok.inj hRun)
    exact ⟨o, rfl, by rwa [List.append_nil]⟩
  | cons p rest ih =>
    obtain ⟨⟨s₁, first⟩, hPiece, hRun⟩ := ok_of_bind hRun
    obtain ⟨⟨s₂, more⟩, hRest, hResult⟩ := ok_of_bind hRun
    obtain ⟨rfl, rfl⟩ := Prod.mk.inj (Except.ok.inj hResult)
    obtain ⟨o₁, hOutline, hPending⟩ := h.piece hPiece
    obtain ⟨o₂, hOutlines, hPending⟩ := ih hPending hRest
    refine ⟨o₂, ?_, by rwa [← List.append_assoc]⟩
    rw [Outline.pieces, hOutline]
    exact hOutlines

end Pending

/-! ## Templates -/

end SqlWeave.Script
