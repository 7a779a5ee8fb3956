import SqlWeave.Proofs.Template.Words

/-!
# The grammar of templates

Which tags may stand in a row.  `WellNested` is the grammar: outputs and blocks, the blocks with
one part or two, each closed with its own name.  What a tag stands for is read off its text by
`Tag.Denotes`, and whether it is inside a loop's body goes down with the grammar.

The same rows are those that a machine passes from no open block to no open block, where it
keeps on a stack which part of which block is being read (`Passes`).

## Main results

* `Tag.denotes_iff`: the texts that stand for a directive are those that are read as one.
* `passes_iff`: the machine passes just the rows of the grammar.
-/

namespace SqlWeave.Template

open Text

/-! ## What a tag stands for -/

theorem BlockKind.ofName?_eq_iff {name : String} {kind : BlockKind} :
    ofName? name = some kind ↔ name = kind.name := by
  constructor
  · intro hName
    unfold ofName? at hName
    split at hName <;> cases hName <;> rfl
  · rintro rfl
    cases kind <;> rfl

/-- A text without the mark of a block, of an `else` or of a directive that is not supported. -/
structure IsUnmarked (body : List Char) : Prop where
  mark : ∀ c, body.head? = some c → c ∉ ['#', '/', '>', '^', '&']
  word : body ≠ "else".toList

/-- What the text of a tag stands for.  Comments stand for nothing. -/
inductive Tag.Denotes (t : Tag) : Directive → Prop
  | opens {kind : BlockKind} {rest argument : List Char} (hKind : t.kind = .directive)
      (hMark : trim t.body = '#' :: rest)
      (hWords : wordsOf (trim rest) = [kind.name.toList, argument]) :
      Denotes t (.opens kind argument)
  | closes {rest : List Char} (hKind : t.kind = .directive) (hMark : trim t.body = '/' :: rest) :
      Denotes t (.closes (trim rest))
  | otherwise (hKind : t.kind = .directive)
      (hWord : trim t.body = "else".toList ∨ trim t.body = ['^']) :
      Denotes t .otherwise
  /-- The text between three pairs of braces, as it is. -/
  | whole (hKind : t.kind = .output) (hText : trim t.body ≠ []) :
      Denotes t (.output none (trim t.body))
  | single {argument : List Char} (hKind : t.kind = .directive)
      (hUnmarked : IsUnmarked (trim t.body)) (hWords : wordsOf (trim t.body) = [argument])
      (hHelper : Helper.ofName? (String.ofList argument) = none) :
      Denotes t (.output none argument)
  | helper {helper : Helper} {name argument : List Char} (hKind : t.kind = .directive)
      (hUnmarked : IsUnmarked (trim t.body)) (hWords : wordsOf (trim t.body) = [name, argument])
      (hHelper : Helper.ofName? (String.ofList name) = some helper) :
      Denotes t (.output (some helper) argument)

namespace Directive

variable {body : List Char} {d : Directive}

theorem readOpening_eq_iff :
    readOpening body = .ok d ↔
      ∃ (kind : BlockKind) (argument : List Char),
        wordsOf body = [kind.name.toList, argument] ∧ d = .opens kind argument := by
  constructor
  · intro hRead
    unfold readOpening at hRead
    split at hRead
    · cases hRead
    · next name arguments hWords =>
      dsimp only at hRead
      split at hRead
      · cases hRead
      · next kind argument hName =>
        obtain rfl := Except.ok.inj hRead
        refine ⟨kind, argument, ?_, rfl⟩
        rw [hWords, ← BlockKind.ofName?_eq_iff.mp hName, String.toList_ofList]
      · cases hRead
  · rintro ⟨kind, argument, hWords, rfl⟩
    have hName : BlockKind.ofName? (String.ofList kind.name.toList) = some kind := by
      rw [String.ofList_toList, BlockKind.ofName?_eq_iff]
    rw [readOpening, hWords]
    dsimp only
    rw [hName]

theorem readOutput_eq_iff :
    readOutput body = .ok d ↔
      (∃ argument, wordsOf body = [argument] ∧ Helper.ofName? (String.ofList argument) = none ∧
        d = .output none argument) ∨
      ∃ name helper argument, wordsOf body = [name, argument] ∧
        Helper.ofName? (String.ofList name) = some helper ∧ d = .output (some helper) argument := by
  constructor
  · intro hRead
    unfold readOutput at hRead
    split at hRead
    · cases hRead
    · next word arguments hWords =>
      dsimp only at hRead
      split at hRead
      · next hName =>
        exact .inl ⟨word, hWords, hName, (Except.ok.inj hRead).symm⟩
      · cases hRead
      · next helper argument hName =>
        exact .inr ⟨word, helper, argument, hWords, hName, (Except.ok.inj hRead).symm⟩
      · cases hRead
  · rintro (⟨argument, hWords, hName, rfl⟩ | ⟨name, helper, argument, hWords, hName, rfl⟩)
    · rw [readOutput, hWords]
      dsimp only
      rw [hName]
    · rw [readOutput, hWords]
      dsimp only
      rw [hName]

/-- A body without the mark of a block that is no `else` is refused or puts out a value. -/
theorem readBody_cons {c : Char} {rest : List Char} (hOpens : c ≠ '#') (hCloses : c ≠ '/')
    (hElse : ¬(c :: rest = "else".toList ∨ c :: rest = ['^'])) :
    readBody (c :: rest) =
      if c == '>' || c == '^' || c == '&' then .error (.unsupported (String.ofList (c :: rest)))
      else readOutput (c :: rest) := by
  rw [not_or] at hElse
  have hPass : (c :: rest == "else".toList || c :: rest == ['^']) = false := by
    rw [Bool.or_eq_false_iff, beq_eq_false_iff_ne, beq_eq_false_iff_ne]
    exact hElse
  unfold readBody
  split
  · next h => cases h
  · next h => exact absurd (List.cons.inj h).1 hOpens
  · next h => exact absurd (List.cons.inj h).1 hCloses
  · next h =>
    obtain ⟨rfl, rfl⟩ := List.cons.inj h
    rw [hPass]
    rfl

/-- An unmarked body puts out a value. -/
theorem readBody_unmarked (hUnmarked : IsUnmarked body) : readBody body = readOutput body := by
  cases body with
  | nil => rw [readBody, readOutput, wordsOf]
  | cons c rest =>
    have hMark := hUnmarked.mark c rfl
    simp only [List.mem_cons, List.not_mem_nil, or_false, not_or] at hMark
    obtain ⟨hOpens, hCloses, hPartial, hCaret, hRaw⟩ := hMark
    have hElse : ¬(c :: rest = "else".toList ∨ c :: rest = ['^']) := by
      rintro (hWord | hWord)
      · exact hUnmarked.word hWord
      · exact hCaret (List.cons.inj hWord).1
    rw [readBody_cons hOpens hCloses hElse, if_neg (by simp [hPartial, hCaret, hRaw])]

/-- A body is unmarked, has the mark of a block or an `else`, or is refused. -/
theorem isUnmarked_of_readBody {c : Char} {rest : List Char}
    (hOpens : c ≠ '#') (hCloses : c ≠ '/')
    (hElse : ¬(c :: rest = "else".toList ∨ c :: rest = ['^']))
    (hRead : readBody (c :: rest) = .ok d) : IsUnmarked (c :: rest) := by
  rw [readBody_cons hOpens hCloses hElse] at hRead
  split at hRead
  · cases hRead
  · next hMark =>
    simp only [Bool.or_eq_true, beq_iff_eq, not_or] at hMark
    refine ⟨fun d hHead => ?_, (not_or.mp hElse).1⟩
    obtain rfl := Option.some.inj hHead
    simp [hOpens, hCloses, hMark]

end Directive

theorem Tag.denotes_of_readBody {t : Tag} {d : Directive} (hKind : t.kind = .directive)
    (hRead : Directive.readBody (trim t.body) = .ok d) : t.Denotes d := by
  cases hBody : trim t.body with
  | nil =>
    rw [hBody] at hRead
    cases hRead
  | cons c rest =>
    by_cases hOpens : c = '#'
    · subst hOpens
      rw [hBody] at hRead
      obtain ⟨kind, argument, hWords, rfl⟩ := Directive.readOpening_eq_iff.mp hRead
      exact .opens hKind hBody hWords
    by_cases hCloses : c = '/'
    · subst hCloses
      rw [hBody] at hRead
      obtain rfl := Except.ok.inj hRead
      exact .closes hKind hBody
    by_cases hElse : c :: rest = "else".toList ∨ c :: rest = ['^']
    · have hPass : d = .otherwise := by
        rw [hBody] at hRead
        rcases hElse with hWord | hWord <;> rw [hWord] at hRead <;> exact (Except.ok.inj hRead).symm
      subst hPass
      exact .otherwise hKind (hBody ▸ hElse)
    · have hUnmarked : IsUnmarked (trim t.body) := by
        rw [hBody] at hRead ⊢
        exact Directive.isUnmarked_of_readBody hOpens hCloses hElse hRead
      rw [Directive.readBody_unmarked hUnmarked] at hRead
      rcases Directive.readOutput_eq_iff.mp hRead with
        ⟨argument, hWords, hHelper, rfl⟩ | ⟨name, helper, argument, hWords, hHelper, rfl⟩
      · exact .single hKind hUnmarked hWords hHelper
      · exact .helper hKind hUnmarked hWords hHelper

/-- The texts that stand for a directive are those that are read as one. -/
theorem Tag.denotes_iff {t : Tag} {d : Directive} :
    t.Denotes d ↔ Directive.ofTag t = .ok d ∧ t.kind ≠ .comment ∧ d.argument? ≠ some [] := by
  constructor
  · intro h
    have hArgument : ∀ {part argument : List Char} {words : List (List Char)},
        wordsOf part = words → argument ∈ words → some argument ≠ some [] := by
      rintro part argument words rfl hWord hEmpty
      exact ne_nil_of_mem_wordsOf hWord (Option.some.inj hEmpty)
    unfold Directive.ofTag
    cases h with
    | opens hKind hMark hWords =>
      rw [hKind, hMark]
      refine ⟨?_, nofun, hArgument hWords (by simp)⟩
      exact Directive.readOpening_eq_iff.mpr ⟨_, _, hWords, rfl⟩
    | closes hKind hMark =>
      rw [hKind, hMark]
      exact ⟨rfl, nofun, nofun⟩
    | otherwise hKind hWord =>
      rw [hKind]
      refine ⟨?_, nofun, nofun⟩
      rcases hWord with hWord | hWord <;> rw [hWord] <;> rfl
    | whole hKind hText =>
      rw [hKind]
      exact ⟨rfl, nofun, fun hEmpty => hText (Option.some.inj hEmpty)⟩
    | single hKind hUnmarked hWords hHelper =>
      rw [hKind]
      refine ⟨?_, nofun, hArgument hWords (by simp)⟩
      exact (Directive.readBody_unmarked hUnmarked).trans
        (Directive.readOutput_eq_iff.mpr (.inl ⟨_, hWords, hHelper, rfl⟩))
    | helper hKind hUnmarked hWords hHelper =>
      rw [hKind]
      refine ⟨?_, nofun, hArgument hWords (by simp)⟩
      exact (Directive.readBody_unmarked hUnmarked).trans
        (Directive.readOutput_eq_iff.mpr (.inr ⟨_, _, _, hWords, hHelper, rfl⟩))
  · rintro ⟨hTag, hComment, hArgument⟩
    unfold Directive.ofTag at hTag
    split at hTag
    · next hKind => exact absurd hKind hComment
    · next hKind =>
      obtain rfl := Except.ok.inj hTag
      exact .whole hKind fun hEmpty => hArgument (congrArg some hEmpty)
    · next hKind => exact denotes_of_readBody hKind hTag

/-! ## Rows of tags -/

/-- A loop's variables are used in loops only. -/
def InScope (inLoop : Bool) (argument : List Char) : Prop :=
  ∀ v, LoopVariable.ofName? (String.ofList argument) = some v → inLoop = true

/-- The rows of tags that make sense, inside a loop's body or not.  The second part of a block is
outside of the loop that the block may be, and a bound block has no second part. -/
inductive WellNested : Bool → List Tag → Prop
  | nil {inLoop : Bool} : WellNested inLoop []
  | output {inLoop : Bool} {t : Tag} {helper : Option Helper} {argument : List Char}
      {rest : List Tag} (hTag : t.Denotes (.output helper argument))
      (hScope : InScope inLoop argument) (hRest : WellNested inLoop rest) :
      WellNested inLoop (t :: rest)
  | block {inLoop : Bool} {opening closing : Tag} {kind : BlockKind} {argument : List Char}
      {body rest : List Tag} (hOpening : opening.Denotes (.opens kind argument))
      (hScope : InScope inLoop argument) (hBody : WellNested (inLoop || kind == .each) body)
      (hClosing : closing.Denotes (.closes kind.name.toList)) (hRest : WellNested inLoop rest) :
      WellNested inLoop (opening :: (body ++ closing :: rest))
  | blockElse {inLoop : Bool} {opening middle closing : Tag} {kind : BlockKind}
      {argument : List Char} {body other rest : List Tag}
      (hOpening : opening.Denotes (.opens kind argument)) (hKind : kind ≠ .sql)
      (hScope : InScope inLoop argument) (hBody : WellNested (inLoop || kind == .each) body)
      (hMiddle : middle.Denotes .otherwise) (hOther : WellNested inLoop other)
      (hClosing : closing.Denotes (.closes kind.name.toList)) (hRest : WellNested inLoop rest) :
      WellNested inLoop (opening :: (body ++ middle :: (other ++ closing :: rest)))

/-- Rows one behind the other. -/
theorem WellNested.append {inLoop : Bool} {front back : List Tag} (hFront : WellNested inLoop front)
    (hBack : WellNested inLoop back) : WellNested inLoop (front ++ back) := by
  induction hFront with
  | nil => exact hBack
  | output hTag hScope _ ih => exact .output hTag hScope (ih hBack)
  | block hOpening hScope hBody hClosing _ _ ih =>
    have hBlock := WellNested.block hOpening hScope hBody hClosing (ih hBack)
    simpa using hBlock
  | blockElse hOpening hKind hScope hBody hMiddle hOther hClosing _ _ _ ih =>
    have hBlock := WellNested.blockElse hOpening hKind hScope hBody hMiddle hOther hClosing
      (ih hBack)
    simpa using hBlock

/-! ## The machine -/

/-- The part that is being read of an open block. -/
structure Part where
  kind : BlockKind
  inElse : Bool

/-- Is it a loop's body? -/
def Part.isLoop (p : Part) : Bool :=
  p.kind == .each && !p.inElse

/-- Is one of the parts a loop's body? -/
def anyLoop (parts : List Part) : Bool :=
  parts.any Part.isLoop

/-- What a directive does to the open parts, the innermost first. -/
inductive Turns : List Part → Directive → List Part → Prop
  | comment {parts : List Part} : Turns parts .comment parts
  | opens {parts : List Part} {kind : BlockKind} {argument : List Char}
      (hScope : InScope (anyLoop parts) argument) :
      Turns parts (.opens kind argument) (⟨kind, false⟩ :: parts)
  | closes {p : Part} {parts : List Part} :
      Turns (p :: parts) (.closes p.kind.name.toList) parts
  | otherwise {kind : BlockKind} {parts : List Part} (hKind : kind ≠ .sql) :
      Turns (⟨kind, false⟩ :: parts) .otherwise (⟨kind, true⟩ :: parts)
  | output {parts : List Part} {helper : Option Helper} {argument : List Char}
      (hScope : InScope (anyLoop parts) argument) :
      Turns parts (.output helper argument) parts

/-- What a row of tags does to the open parts. -/
inductive Passes : List Part → List Tag → List Part → Prop
  | nil {parts : List Part} : Passes parts [] parts
  | cons {parts parts' parts'' : List Part} {t : Tag} {d : Directive} {rest : List Tag}
      (hTag : t.Denotes d) (hTurn : Turns parts d parts') (hRest : Passes parts' rest parts'') :
      Passes parts (t :: rest) parts''

theorem Passes.append {parts parts' parts'' : List Part} {front back : List Tag}
    (hFront : Passes parts front parts') (hBack : Passes parts' back parts'') :
    Passes parts (front ++ back) parts'' := by
  induction hFront with
  | nil => exact hBack
  | cons hTag hTurn _ ih => exact .cons hTag hTurn (ih hBack)

theorem anyLoop_body (kind : BlockKind) (parts : List Part) :
    anyLoop (⟨kind, false⟩ :: parts) = (anyLoop parts || kind == .each) := by
  simp [anyLoop, Part.isLoop, Bool.or_comm]

theorem anyLoop_else (kind : BlockKind) (parts : List Part) :
    anyLoop (⟨kind, true⟩ :: parts) = anyLoop parts := by
  simp [anyLoop, Part.isLoop]

/-- A row of the grammar leaves the open parts as they are. -/
theorem WellNested.passes {b : Bool} {tags : List Tag} (h : WellNested b tags) {parts : List Part}
    (hLoop : anyLoop parts = b) : Passes parts tags parts := by
  induction h generalizing parts with
  | nil => exact .nil
  | output hTag hScope _ ih => exact .cons hTag (.output (hLoop ▸ hScope)) (ih hLoop)
  | @block _ _ closing kind _ body rest hOpening hScope _ hClosing _ ihBody ihRest =>
    have hBody : Passes (⟨kind, false⟩ :: parts) body (⟨kind, false⟩ :: parts) :=
      ihBody (by rw [anyLoop_body, hLoop])
    have hRest : Passes (⟨kind, false⟩ :: parts) (closing :: rest) parts :=
      .cons hClosing .closes (ihRest hLoop)
    exact .cons hOpening (.opens (hLoop ▸ hScope)) (hBody.append hRest)
  | @blockElse _ _ _ closing kind _ body other rest hOpening hKind hScope _ hMiddle _ hClosing _
      ihBody ihOther ihRest =>
    have hBody : Passes (⟨kind, false⟩ :: parts) body (⟨kind, false⟩ :: parts) :=
      ihBody (by rw [anyLoop_body, hLoop])
    have hOther : Passes (⟨kind, true⟩ :: parts) other (⟨kind, true⟩ :: parts) :=
      ihOther (by rw [anyLoop_else, hLoop])
    have hRest : Passes (⟨kind, true⟩ :: parts) (closing :: rest) parts :=
      .cons hClosing .closes (ihRest hLoop)
    have hSecond := Passes.cons hMiddle (.otherwise hKind) (hOther.append hRest)
    exact .cons hOpening (.opens (hLoop ▸ hScope)) (hBody.append hSecond)

/-! ## What the machine has still to read -/

/-- The rows that close the open parts and may go on behind them. -/
inductive Completes : List Part → List Tag → Prop
  | outermost {tags : List Tag} (hTags : WellNested false tags) : Completes [] tags
  | closing {p : Part} {parts : List Part} {inner more : List Tag} {t : Tag}
      (hInner : WellNested (anyLoop (p :: parts)) inner)
      (hTag : t.Denotes (.closes p.kind.name.toList)) (hMore : Completes parts more) :
      Completes (p :: parts) (inner ++ t :: more)
  | passing {kind : BlockKind} {parts : List Part} {inner more : List Tag} {t : Tag}
      (hInner : WellNested (anyLoop (⟨kind, false⟩ :: parts)) inner) (hKind : kind ≠ .sql)
      (hTag : t.Denotes .otherwise) (hMore : Completes (⟨kind, true⟩ :: parts) more) :
      Completes (⟨kind, false⟩ :: parts) (inner ++ t :: more)

namespace Completes

variable {parts parts' : List Part} {tags more : List Tag}

/-- A row of the grammar may stand in front. -/
theorem prepend (hFront : WellNested (anyLoop parts) tags) (h : Completes parts more) :
    Completes parts (tags ++ more) := by
  cases h with
  | outermost hTags => exact .outermost (hFront.append hTags)
  | closing hInner hTag hMore =>
    have hLonger := closing (hFront.append hInner) hTag hMore
    simpa using hLonger
  | passing hInner hKind hTag hMore =>
    have hLonger := passing (hFront.append hInner) hKind hTag hMore
    simpa using hLonger

/-- A block in front of what closes the parts around it. -/
theorem block {kind : BlockKind} {argument : List Char} {opening : Tag}
    (hOpening : opening.Denotes (.opens kind argument)) (hScope : InScope (anyLoop parts) argument)
    (h : Completes (⟨kind, false⟩ :: parts) tags) : Completes parts (opening :: tags) := by
  cases h with
  | @closing _ _ inner more closing hInner hTag hMore =>
    rw [anyLoop_body] at hInner
    have hBlock := WellNested.block hOpening hScope hInner hTag .nil
    simpa using hMore.prepend hBlock
  | @passing _ _ inner _ middle hInner hKind hMiddle hRest =>
    cases hRest with
    | @closing _ _ other more closing hOther hTag hMore =>
      rw [anyLoop_body] at hInner
      rw [anyLoop_else] at hOther
      have hBlock := WellNested.blockElse hOpening hKind hScope hInner hMiddle hOther hTag .nil
      simpa using hMore.prepend hBlock

/-- One tag before what closes the parts that it leaves. -/
theorem cons {t : Tag} {d : Directive} (hTag : t.Denotes d) (hTurn : Turns parts d parts')
    (h : Completes parts' tags) : Completes parts (t :: tags) := by
  cases hTurn with
  | comment => cases hTag
  | opens hScope => exact h.block hTag hScope
  | closes => exact .closing .nil hTag h
  | otherwise hKind => exact .passing .nil hKind hTag h
  | output hScope => exact h.prepend (.output hTag hScope .nil)

end Completes

theorem Passes.completes {parts : List Part} {tags : List Tag} (h : Passes parts tags []) :
    Completes parts tags := by
  generalize hEnd : ([] : List Part) = last at h
  induction h with
  | nil =>
    subst hEnd
    exact .outermost .nil
  | cons hTag hTurn _ ih => exact .cons hTag hTurn (ih hEnd)

/-- The machine passes just the rows of the grammar. -/
theorem passes_iff {tags : List Tag} : Passes [] tags [] ↔ WellNested false tags := by
  constructor
  · intro h
    cases h.completes with
    | outermost hTags => exact hTags
  · intro h
    exact h.passes rfl

end SqlWeave.Template
