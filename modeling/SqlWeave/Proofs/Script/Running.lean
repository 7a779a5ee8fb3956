import SqlWeave.Proofs.Script.Emission
import SqlWeave.Proofs.Script.Spelling

/-!
# Running the script of a tree

A script finds the items of its contexts under numbered names, and a directive tree finds
them on its stack.  `Agrees` says that the names of the blocks that are open hold the items
on the stack.  A new block has a number that no open block has, so binding its names
changes nothing for the others.

## Main results

* `Agrees.eval`: an expression has the value of the argument that it was made from.
* `Emits.runAll`: the nodes that a tree emits run as the tree is evaluated.
-/

namespace SqlWeave.Script

open Template Number

/-! ## Names -/

theorem natText_inj {m n : Nat} (h : natText m = natText n) : m = n := by
  have hNumbers := congrArg ofAsciiDigits h
  rwa [ofAsciiDigits_natText, ofAsciiDigits_natText] at hNumbers

theorem contextName_ne {m n : Nat} (h : m ≠ n) : contextName m ≠ contextName n := by
  intro hName
  apply h
  apply natText_inj
  simpa [contextName, numbered] using hName

theorem variableName_ne {v w : LoopVariable} {m n : Nat} (h : v ≠ w ∨ m ≠ n) :
    variableName v m ≠ variableName w n := by
  intro hName
  have hNumber : v = w → m = n := by
    rintro rfl
    apply natText_inj
    simpa [variableName, numbered] using hName
  have hSame : v = w := by
    cases v <;> cases w <;>
      first
      | rfl
      | simp [variableName, numbered, LoopVariable.name] at hName
  rcases h with hVariable | hOther
  · exact hVariable hSame
  · exact hOther (hNumber hSame)

theorem contextName_ne_variableName (v : LoopVariable) (m n : Nat) :
    contextName m ≠ variableName v n := by
  cases v <;> simp [contextName, variableName, numbered, LoopVariable.name]

theorem get_cons_self (name : List Char) (v : Value) (env : Env) :
    Env.get ((name, v) :: env) name = v := by
  simp [Env.get]

theorem get_cons_ne {name other : List Char} (h : name ≠ other) (v : Value) (env : Env) :
    Env.get ((other, v) :: env) name = Env.get env name := by
  have hFalse : (name == other) = false := by simpa using h
  simp [Env.get, List.lookup_cons, hFalse]

/-- The names of a number but `n` are bound to the same values. -/
structure SameBut (n : Nat) (env env' : Env) : Prop where
  contexts : ∀ m, m ≠ n → Env.get env' (contextName m) = Env.get env (contextName m)
  loopVariables : ∀ v m, m ≠ n → Env.get env' (variableName v m) = Env.get env (variableName v m)

/-- The environment of a bound block. -/
theorem sameBut_item (n : Nat) (v : Value) (env : Env) :
    SameBut n env ((contextName n, v) :: env) where
  contexts _ hNumber := get_cons_ne (contextName_ne hNumber) v env
  loopVariables w _ _ := get_cons_ne (contextName_ne_variableName w _ _).symm v env

/-- The environment of a pass of a loop. -/
def passEnv (n : Nat) (p : Pass) (env : Env) : Env :=
  (loopNames n).zip p.values ++ env

theorem passEnv_eq (n : Nat) (p : Pass) (env : Env) :
    passEnv n p env = (variableName .key n, p.key) :: (contextName n, p.item) ::
      (variableName .index n, .int p.index) :: (variableName .first n, .bool p.isFirst) ::
        (variableName .last n, .bool p.isLast) :: env :=
  rfl

theorem sameBut_pass (n : Nat) (p : Pass) (env : Env) : SameBut n env (passEnv n p env) where
  contexts m hNumber := by
    have hVariable := fun v => contextName_ne_variableName v m n
    rw [passEnv_eq, get_cons_ne (hVariable .key), get_cons_ne (contextName_ne hNumber),
      get_cons_ne (hVariable .index), get_cons_ne (hVariable .first), get_cons_ne (hVariable .last)]
  loopVariables v m hNumber := by
    have hVariable := fun w => variableName_ne (v := v) (w := w) (.inr hNumber)
    have hContext := (contextName_ne_variableName v n m).symm
    rw [passEnv_eq, get_cons_ne (hVariable .key), get_cons_ne hContext,
      get_cons_ne (hVariable .index), get_cons_ne (hVariable .first), get_cons_ne (hVariable .last)]

theorem get_passEnv_context (n : Nat) (p : Pass) (env : Env) :
    Env.get (passEnv n p env) (contextName n) = p.item := by
  rw [passEnv_eq, get_cons_ne (contextName_ne_variableName .key n n), get_cons_self]

theorem get_passEnv_variable (n : Nat) (p : Pass) (env : Env) (v : LoopVariable) :
    Env.get (passEnv n p env) (variableName v n) = v.value p := by
  have hContext := (contextName_ne_variableName v n n).symm
  have hVariable : ∀ w, v ≠ w → variableName v n ≠ variableName w n :=
    fun w h => variableName_ne (.inl h)
  rw [passEnv_eq]
  cases v with
  | key => exact get_cons_self _ _ _
  | index =>
    rw [get_cons_ne (hVariable .key (by decide)), get_cons_ne hContext, get_cons_self]
    rfl
  | first =>
    rw [get_cons_ne (hVariable .key (by decide)), get_cons_ne hContext,
      get_cons_ne (hVariable .index (by decide)), get_cons_self]
    rfl
  | last =>
    rw [get_cons_ne (hVariable .key (by decide)), get_cons_ne hContext,
      get_cons_ne (hVariable .index (by decide)), get_cons_ne (hVariable .first (by decide)),
      get_cons_self]
    rfl

/-! ## Agreement -/

/-- The names of open blocks hold the items of a stack of contexts. -/
inductive Agrees (env : Env) : List Frame → List Context → Prop
  | root {v : Value} (hItem : Env.get env (contextName 0) = v) : Agrees env [] [⟨v, none⟩]
  /-- A choice, or the second part of a loop. -/
  | skip {f : Frame} {frames : List Frame} {stack : List Context} (hContext : f.context? = none)
      (hOuter : Agrees env frames stack) : Agrees env (f :: frames) stack
  | pass {n : Nat} {p : Pass} {frames : List Frame} {stack : List Context}
      (hItem : Env.get env (contextName n) = p.item)
      (hVariables : ∀ v, Env.get env (variableName v n) = v.value p)
      (hOuter : Agrees env frames stack) :
      Agrees env (⟨.each, n, false⟩ :: frames) (.ofPass p :: stack)
  | item {n : Nat} {v : Value} {frames : List Frame} {stack : List Context}
      (hItem : Env.get env (contextName n) = v) (hOuter : Agrees env frames stack) :
      Agrees env (⟨.sql, n, false⟩ :: frames) (⟨v, none⟩ :: stack)

theorem itemAt_zero (c : Context) (stack : List Context) : itemAt (c :: stack) 0 = c.item := by
  cases stack <;> rfl

theorem itemAt_succ (c : Context) {stack : List Context} (hOuter : stack ≠ []) (ups : Nat) :
    itemAt (c :: stack) (ups + 1) = itemAt stack ups := by
  cases stack with
  | nil => exact absurd rfl hOuter
  | cons outer more => rfl

theorem outermostItem_cons (c : Context) {stack : List Context} (hOuter : stack ≠ []) :
    outermostItem (c :: stack) = outermostItem stack := by
  cases stack with
  | nil => exact absurd rfl hOuter
  | cons outer more => rw [outermostItem, List.getLast?_cons_cons]; rfl

namespace Agrees

variable {env env' : Env} {frames : List Frame} {stack : List Context} {n : Nat}

theorem ne_nil (h : Agrees env frames stack) : stack ≠ [] := by
  induction h with
  | root _ => exact List.cons_ne_nil _ _
  | skip _ _ ih => exact ih
  | pass _ _ _ _ => exact List.cons_ne_nil _ _
  | item _ _ _ => exact List.cons_ne_nil _ _

/-- Names of a new number may be bound. -/
theorem extend (h : Agrees env frames stack) (hSame : SameBut n env env') (hPos : n ≠ 0)
    (hFresh : ∀ f ∈ frames, f.number ≠ n) : Agrees env' frames stack := by
  induction h with
  | root hItem => exact .root ((hSame.contexts 0 hPos.symm).trans hItem)
  | skip hContext _ ih =>
    exact .skip hContext (ih fun f hMem => hFresh f (List.mem_cons_of_mem _ hMem))
  | @pass m p frames stack hItem hVariables _ ih =>
    have hNumber : m ≠ n := hFresh ⟨.each, m, false⟩ List.mem_cons_self
    refine .pass ((hSame.contexts m hNumber).trans hItem) ?_
      (ih fun f hMem => hFresh f (List.mem_cons_of_mem _ hMem))
    intro v
    exact (hSame.loopVariables v m hNumber).trans (hVariables v)
  | @item m v frames stack hItem _ ih =>
    have hNumber : m ≠ n := hFresh ⟨.sql, m, false⟩ List.mem_cons_self
    exact .item ((hSame.contexts m hNumber).trans hItem)
      (ih fun f hMem => hFresh f (List.mem_cons_of_mem _ hMem))

/-- The numbered context `ups` levels out holds the item `ups` levels out. -/
theorem get_contextAt {s : State} (h : Agrees env s.frames stack) (ups : Nat) :
    Env.get env (contextName (s.contextAt ups)) = itemAt stack ups := by
  obtain ⟨frames, contexts, texts⟩ := s
  dsimp only at h
  show Env.get env (contextName (((frames.filterMap Frame.context? ++ [0]).drop ups).headD 0)) = _
  induction h generalizing ups with
  | root hItem => cases ups <;> simpa [itemAt] using hItem
  | @skip f frames stack hContext _ ih =>
    rw [List.filterMap_cons_none hContext]
    exact ih ups
  | @pass m p frames stack hItem hVariables hOuter ih =>
    have hReachable : (⟨.each, m, false⟩ :: frames).filterMap Frame.context? ++ [0] =
        m :: (frames.filterMap Frame.context? ++ [0]) := rfl
    rw [hReachable]
    cases ups with
    | zero => rw [itemAt_zero]; exact hItem
    | succ ups => rw [itemAt_succ _ hOuter.ne_nil]; exact ih ups
  | @item m v frames stack hItem hOuter ih =>
    have hReachable : (⟨.sql, m, false⟩ :: frames).filterMap Frame.context? ++ [0] =
        m :: (frames.filterMap Frame.context? ++ [0]) := rfl
    rw [hReachable]
    cases ups with
    | zero => rw [itemAt_zero]; exact hItem
    | succ ups => rw [itemAt_succ _ hOuter.ne_nil]; exact ih ups

theorem get_root (h : Agrees env frames stack) :
    Env.get env (contextName 0) = outermostItem stack := by
  induction h with
  | root hItem => exact hItem
  | skip _ _ ih => exact ih
  | pass _ _ hOuter ih => rw [outermostItem_cons _ hOuter.ne_nil]; exact ih
  | item _ hOuter ih => rw [outermostItem_cons _ hOuter.ne_nil]; exact ih

/-- The innermost open loop is the innermost loop of the stack. -/
theorem get_loop (h : Agrees env frames stack) (hLoop : frames.findSome? Frame.loop? = some n) :
    ∃ p, stack.findSome? Context.pass? = some p ∧
      ∀ v, Env.get env (variableName v n) = v.value p := by
  induction h with
  | root _ => cases hLoop
  | @skip f frames stack hContext _ ih =>
    have hNone : f.loop? = none := by
      obtain ⟨kind, number, inElse⟩ := f
      cases kind <;> cases inElse <;> first | rfl | cases hContext
    rw [List.findSome?_cons, hNone] at hLoop
    exact ih hLoop
  | @pass m p frames stack _ hVariables _ _ =>
    obtain rfl : m = n := Option.some.inj hLoop
    exact ⟨p, rfl, hVariables⟩
  | item _ _ ih => exact ih hLoop

theorem eval_path (env : Env) (n : Nat) (segs : List (List Char)) :
    (Expr.path n segs).term.eval env = lookup (Env.get env (contextName n)) segs := by
  cases segs <;> rfl

/-- A numeral that is read is a constant. -/
theorem constantValue_numeral {x : Numeral} (h : x.IsReadable digitLimit) :
    constantValue x.value = .ok x.value := by
  rw [Numeral.value]
  cases hFraction : x.fraction with
  | nil => rfl
  | cons c more =>
    have hFinite := h.finite (by rw [hFraction]; exact List.cons_ne_nil c more)
    show constantValue (.float x.float) = .ok (.float x.float)
    cases hFloat : x.float with
    | finite negative m q => rfl
    | infinite negative => exact absurd hFloat (hFinite negative)
    | nan => rfl

/-- An expression has the value of the argument that it was made from. -/
theorem eval {s : State} (h : Agrees env s.frames stack) {a : Argument} {e : Expr}
    (hExpr : s.expr a = .ok e) (hPlain : e.IsPlain) : e.term.eval env = a.value stack := by
  cases a with
  | text t =>
    obtain rfl := Except.ok.inj hExpr
    rfl
  | numeral token =>
    obtain rfl := Except.ok.inj hExpr
    obtain ⟨x, rfl, hReadable⟩ := hPlain
    show constantValue (Numeral.read x.chars).value = .ok (Numeral.read x.chars).value
    rw [Numeral.read_chars hReadable.toIsRegular]
    exact constantValue_numeral hReadable
  | constant c =>
    obtain rfl := Except.ok.inj hExpr
    cases c <;> rfl
  | loopVariable v =>
    rw [State.expr] at hExpr
    split at hExpr
    · next loop hLoop =>
      obtain rfl := Except.ok.inj hExpr
      obtain ⟨p, hPass, hVariables⟩ := h.get_loop hLoop
      show Except.ok (Env.get env (variableName v loop)) = _
      rw [hVariables v, Argument.value, hPass]
    · cases hExpr
  | path fromRoot ups segs =>
    cases fromRoot with
    | true =>
      obtain rfl := Except.ok.inj hExpr
      rw [eval_path, h.get_root]
      rfl
    | false =>
      obtain rfl := Except.ok.inj hExpr
      rw [eval_path, h.get_contextAt]
      rfl

/-- The constants of expressions are values. -/
theorem constantValue_term {e : Expr} (hPlain : e.IsPlain) {v : Value} (hTerm : e.term = .value v) :
    constantValue v = .ok v := by
  cases e with
  | text s =>
    obtain rfl := Term.value.inj hTerm
    rfl
  | numeral token =>
    obtain ⟨x, rfl, hReadable⟩ := hPlain
    obtain rfl := Term.value.inj hTerm
    rw [Numeral.read_chars hReadable.toIsRegular]
    exact constantValue_numeral hReadable
  | constant c =>
    obtain rfl := Term.value.inj hTerm
    cases c <;> rfl
  | loopVariable v n => cases hTerm
  | path n segs => cases segs <;> cases hTerm

/-- An expression is put out as the value of its argument. -/
theorem put (d : Sql.Dialect) {s : State} (h : Agrees env s.frames stack) {a : Argument}
    {e : Expr} (hExpr : s.expr a = .ok e) (hPlain : e.IsPlain) (helper : Option Helper) :
    e.term.put d env helper = a.value stack >>= putOut d helper := by
  have hEval := h.eval hExpr hPlain
  cases helper with
  | some helper =>
    rw [← hEval]
    rfl
  | none =>
    cases hTerm : e.term with
    | value v =>
      have hConstant := constantValue_term hPlain hTerm
      rw [hTerm] at hEval
      rw [← hEval, Term.eval, hConstant, Term.put, hConstant]
      show _ = d.literal v
      cases hLiteral : d.literal v with
      | ok text => rfl
      | error fault => exact hLiteral
    | «variable» name =>
      rw [← hEval, hTerm]
      rfl
    | lookup name segs =>
      rw [← hEval, hTerm]
      rfl

end Agrees

/-! ## Blocks -/

theorem State.contexts_le_enter (s : State) (kind : BlockKind) (e : Expr) :
    s.contexts ≤ (s.enter kind e).1.contexts := by
  cases kind with
  | ifTrue => exact Nat.le_refl _
  | ifFalse => exact Nat.le_refl _
  | each => exact Nat.le_succ _
  | sql => exact Nat.le_succ _

/-- The numbers of open blocks are in use. -/
def Fresh (s : State) : Prop :=
  ∀ f ∈ s.frames, f.number ≤ s.contexts

theorem Fresh.ne {s : State} (h : Fresh s) : ∀ f ∈ s.frames, f.number ≠ s.contexts + 1 := by
  intro f hMem
  have hUsed := h f hMem
  omega

theorem Fresh.enter {s : State} (h : Fresh s) (kind : BlockKind) (e : Expr) :
    Fresh (s.enter kind e).1 := by
  intro f hMem
  rw [s.frames_enter] at hMem
  rcases List.mem_cons.mp hMem with rfl | hMem
  · cases kind with
    | ifTrue => exact Nat.zero_le _
    | ifFalse => exact Nat.zero_le _
    | each => exact Nat.le_refl _
    | sql => exact Nat.le_refl _
  · exact Nat.le_trans (h f hMem) (s.contexts_le_enter kind e)

theorem Fresh.later {s : State} (h : Fresh s) {t : State} (hLater : s.contexts ≤ t.contexts) :
    Fresh { t with frames := s.frames } :=
  fun f hMem => Nat.le_trans (h f hMem) hLater

theorem Fresh.cons {s : State} (h : Fresh s) {f : Frame} (hNumber : f.number ≤ s.contexts) :
    Fresh { s with frames := f :: s.frames } := by
  intro g hMem
  rcases List.mem_cons.mp hMem with rfl | hMem
  · exact hNumber
  · exact h g hMem

theorem isPlain_of_enter {s : State} {kind : BlockKind} {e : Expr}
    (h : (s.enter kind e).2.IsPlain) : e.IsPlain := by
  cases kind <;> exact h

/-- A block runs as it is evaluated, when its parts do. -/
theorem blockNode_run (d : Sql.Dialect) (texts : List (List Char)) {env : Env} {s : State}
    {stack : List Context} (h : Agrees env s.frames stack) (hFresh : Fresh s) {kind : BlockKind}
    {a : Argument} {e : Expr} (hExpr : s.expr a = .ok e) (hPlain : e.IsPlain)
    {body other : List Tree} {ns₁ ns₂ : List Node}
    (hBody : ∀ env' stack', Agrees env' (s.frame kind :: s.frames) stack' →
      runAll d texts env' ns₁ = evaluateAll d stack' body)
    (hOther : runAll d texts env ns₂ = evaluateAll d stack other) :
    (blockNode kind (s.contexts + 1) e.term ns₁ ns₂).run d texts env =
      (Tree.block kind a body other).evaluate d stack := by
  have hEval := h.eval hExpr hPlain
  cases kind with
  | ifTrue =>
    have hFirst := hBody env stack (.skip rfl h)
    rw [blockNode, Node.run, Tree.evaluate, hEval, hFirst, hOther]
    cases a.value stack with
    | error fault => rfl
    | ok v =>
      show (if (v.isTruthy == true) = true then _ else _) = if v.isTruthy = true then _ else _
      cases v.isTruthy <;> rfl
  | ifFalse =>
    have hFirst := hBody env stack (.skip rfl h)
    rw [blockNode, Node.run, Tree.evaluate, hEval, hFirst, hOther]
    cases a.value stack with
    | error fault => rfl
    | ok v =>
      show (if (v.isTruthy == false) = true then _ else _) = if v.isTruthy = true then _ else _
      cases v.isTruthy <;> rfl
  | each =>
    have hPass : ∀ p, runAll d texts ((loopNames (s.contexts + 1)).zip p.values ++ env) ns₁ =
        evaluateAll d (.ofPass p :: stack) body := by
      intro p
      apply hBody
      have hOuter := h.extend (sameBut_pass (s.contexts + 1) p env) (by omega) hFresh.ne
      exact .pass (get_passEnv_context _ p env) (get_passEnv_variable _ p env) hOuter
    rw [blockNode, Node.run, Tree.evaluate, hEval, hOther]
    simp only [hPass]
  | sql =>
    have hItem : ∀ v, runAll d texts ((contextName (s.contexts + 1), v) :: env) ns₁ =
        evaluateAll d (⟨v, none⟩ :: stack) body := by
      intro v
      apply hBody
      have hOuter := h.extend (sameBut_item (s.contexts + 1) v env) (by omega) hFresh.ne
      exact .item (get_cons_self _ v env) hOuter
    rw [blockNode, Node.run, Tree.evaluate, hEval]
    simp only [hItem]

namespace Emits

variable {s s' : State} {tree : List Tree} {is : List Instruction} {ns : List Node}

theorem contexts_le (h : Emits s tree is ns s') : s.contexts ≤ s'.contexts := by
  induction h with
  | nil => exact Nat.le_refl _
  | blank _ ih => exact ih
  | text _ _ ih => exact ih
  | output _ _ ih => exact ih
  | @block s s₁ s' kind a e body tree is₁ is ns₁ ns _ _ _ ihBody ihRest =>
    exact Nat.le_trans (s.contexts_le_enter kind e) (Nat.le_trans ihBody ihRest)
  | @blockElse s s₁ s₂ s' kind a e body other tree is₁ is₂ is ns₁ ns₂ ns _ _ _ _ _ ihBody ihOther
      ihRest =>
    exact Nat.le_trans (s.contexts_le_enter kind e)
      (Nat.le_trans ihBody (Nat.le_trans ihOther ihRest))

/-- Texts are only added. -/
theorem texts_suffix (h : Emits s tree is ns s') : s.texts <:+ s'.texts := by
  induction h with
  | nil => exact List.suffix_refl _
  | blank _ ih => exact ih
  | text _ _ ih => exact (List.suffix_cons _ _).trans ih
  | output _ _ ih => exact ih
  | @block s s₁ s' kind a e body tree is₁ is ns₁ ns _ _ _ ihBody ihRest =>
    rw [s.texts_enter] at ihBody
    exact ihBody.trans ihRest
  | @blockElse s s₁ s₂ s' kind a e body other tree is₁ is₂ is ns₁ ns₂ ns _ _ _ _ _ ihBody ihOther
      ihRest =>
    rw [s.texts_enter] at ihBody
    exact ihBody.trans (ihOther.trans ihRest)

/-- A collected text stands at its index. -/
theorem getElem?_of_suffix {t : List Char} {before texts : List (List Char)}
    (h : t :: before <:+ texts.reverse) : texts[before.length]? = some t := by
  obtain ⟨later, hTexts⟩ := h
  have hReverse : texts = before.reverse ++ t :: later.reverse := by
    rw [← List.reverse_reverse texts, ← hTexts]
    simp
  rw [hReverse]
  simp

/-- The nodes that a tree emits run as the tree is evaluated. -/
theorem runAll (d : Sql.Dialect) {texts : List (List Char)} (h : Emits s tree is ns s')
    (hPlain : ∀ i ∈ is, i.IsPlain) (hFresh : Fresh s) (hTexts : s'.texts <:+ texts.reverse)
    {env : Env} {stack : List Context} (hAgrees : Agrees env s.frames stack) :
    Script.runAll d texts env ns = evaluateAll d stack tree := by
  induction h generalizing env stack with
  | nil => rfl
  | @blank s s' tree is ns hRest ih =>
    have hMore := ih hPlain hFresh hTexts hAgrees
    rw [evaluateAll, Tree.evaluate, hMore]
    cases evaluateAll d stack tree <;> rfl
  | @text s s' t tree is ns hText hRest ih =>
    have hMore := ih (fun i hMem => hPlain i (List.mem_cons_of_mem _ hMem)) hFresh hTexts hAgrees
    have hIndex := getElem?_of_suffix (hRest.texts_suffix.trans hTexts)
    rw [Script.runAll, evaluateAll, Node.run, Tree.evaluate, hIndex, hMore]
    rfl
  | @output s s' helper a e tree is ns hExpr hRest ih =>
    have hMore := ih (fun i hMem => hPlain i (List.mem_cons_of_mem _ hMem)) hFresh hTexts hAgrees
    have hPut := hAgrees.put d hExpr (hPlain _ List.mem_cons_self) helper
    rw [Script.runAll, evaluateAll, Node.run, Tree.evaluate, hPut, hMore]
  | @block s s₁ s' kind a e body tree is₁ is ns₁ ns hExpr hBody hRest ihBody ihRest =>
    simp only [List.mem_cons, List.mem_append] at hPlain
    have hLater : s.contexts ≤ s₁.contexts :=
      Nat.le_trans (s.contexts_le_enter kind e) hBody.contexts_le
    have hFirst : ∀ env' stack', Agrees env' (s.frame kind :: s.frames) stack' →
        Script.runAll d texts env' ns₁ = evaluateAll d stack' body := by
      intro env' stack' hInside
      rw [← s.frames_enter kind e] at hInside
      exact ihBody (fun i hMem => hPlain i (.inr (.inl hMem))) (hFresh.enter kind e)
        (hRest.texts_suffix.trans hTexts) hInside
    have hBlock : (blockNode kind (s.contexts + 1) e.term ns₁ []).run d texts env =
        (Tree.block kind a body []).evaluate d stack :=
      blockNode_run d texts hAgrees hFresh hExpr (isPlain_of_enter (hPlain _ (.inl rfl))) hFirst rfl
    have hMore := ihRest (fun i hMem => hPlain i (.inr (.inr (.inr hMem)))) (hFresh.later hLater)
      hTexts hAgrees
    rw [Script.runAll, evaluateAll, hBlock, hMore]
  | @blockElse s s₁ s₂ s' kind a e body other tree is₁ is₂ is ns₁ ns₂ ns hKind hExpr hBody hOther
      hRest ihBody ihOther ihRest =>
    simp only [List.mem_cons, List.mem_append] at hPlain
    have hLater : s.contexts ≤ s₁.contexts :=
      Nat.le_trans (s.contexts_le_enter kind e) hBody.contexts_le
    have hLast : s.contexts ≤ s₂.contexts := Nat.le_trans hLater hOther.contexts_le
    have hTextsOther : s₂.texts <:+ texts.reverse := hRest.texts_suffix.trans hTexts
    have hFirst : ∀ env' stack', Agrees env' (s.frame kind :: s.frames) stack' →
        Script.runAll d texts env' ns₁ = evaluateAll d stack' body := by
      intro env' stack' hInside
      rw [← s.frames_enter kind e] at hInside
      exact ihBody (fun i hMem => hPlain i (.inr (.inl hMem))) (hFresh.enter kind e)
        (hOther.texts_suffix.trans hTextsOther) hInside
    have hNumber : (s.frame kind).number ≤ s₁.contexts := by
      have hEntered := hFresh.enter kind e (s.frame kind)
      rw [s.frames_enter] at hEntered
      exact Nat.le_trans (hEntered List.mem_cons_self) hBody.contexts_le
    have hSecond : Script.runAll d texts env ns₂ = evaluateAll d stack other := by
      have hPassed : Frame.context? { s.frame kind with inElse := true } = none := by
        simp [Frame.context?]
      exact ihOther (fun i hMem => hPlain i (.inr (.inr (.inr (.inl hMem)))))
        ((hFresh.later hLater).cons hNumber) hTextsOther (.skip hPassed hAgrees)
    have hBlock := blockNode_run d texts hAgrees hFresh hExpr
      (isPlain_of_enter (hPlain _ (.inl rfl))) hFirst hSecond
    have hMore := ihRest (fun i hMem => hPlain i (.inr (.inr (.inr (.inr (.inr hMem))))))
      (hFresh.later hLast) hTexts hAgrees
    rw [Script.runAll, evaluateAll, hBlock, hMore]

end Emits
end SqlWeave.Script
