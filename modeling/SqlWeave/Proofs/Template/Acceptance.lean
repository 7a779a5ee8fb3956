import SqlWeave.Proofs.Template.Grammar
import SqlWeave.Proofs.Template.Provocation

/-!
# Which templates can be assembled

A template can be assembled if its tags are a row of the grammar, and only then.  The assembler
keeps more on its stack than the machine of the grammar does, the numbers of its contexts, but
whether it goes on depends on the open parts alone: a directive that it takes turns the open
parts as the machine turns them, and it takes every directive that the machine takes.

## Main results

* `turns_of_directive`, `exists_directive`: the assembler and the machine, at one directive.
* `exists_source_iff`: a template has a source if its tags are a row of the grammar.
* `translation_outcome`: every other template is refused with the fault of a template.
-/

namespace SqlWeave.Template

open Script Text

/-- The part that is being read of an open block. -/
def openPart (f : Frame) : Part :=
  ⟨f.kind, f.inElse⟩

/-- The parts that are being read of the open blocks, the innermost first. -/
def openParts (s : State) : List Part :=
  s.frames.map openPart

/-- The tags that are not comments. -/
def tagsOf (template : List Char) : List Tag :=
  ((scan template).2.map Prod.fst).filter fun t => t.kind != .comment

/-! ## Arguments -/

/-- A loop variable is nothing else. -/
theorem Argument.read_loopVariable {token : List Char} {v : LoopVariable}
    (hName : LoopVariable.ofName? (String.ofList token) = some v) :
    read token = .ok (.loopVariable v) := by
  have hToken : ∀ name : String, String.ofList token = name → token = name.toList := by
    rintro name rfl
    rw [String.toList_ofList]
  unfold LoopVariable.ofName? at hName
  split at hName
  · next h => cases hName; rw [hToken _ h]; rfl
  · next h => cases hName; rw [hToken _ h]; rfl
  · next h => cases hName; rw [hToken _ h]; rfl
  · next h => cases hName; rw [hToken _ h]; rfl
  · cases hName

theorem Argument.name_of_read {token : List Char} {v : LoopVariable}
    (hRead : read token = .ok (.loopVariable v)) :
    LoopVariable.ofName? (String.ofList token) = some v := by
  cases takes_of_read hRead with
  | loopVariable _ hVariable => exact hVariable

theorem isSome_loop (frames : List Frame) :
    (frames.findSome? Frame.loop?).isSome = anyLoop (frames.map openPart) := by
  induction frames with
  | nil => rfl
  | cons f rest ih =>
    have hLoop : f.loop?.isSome = (openPart f).isLoop := by
      unfold Frame.loop? Part.isLoop openPart
      split <;> simp_all
    rw [List.findSome?_cons]
    simp only [List.map_cons, anyLoop, List.any_cons] at ih ⊢
    rw [← ih, ← hLoop]
    cases f.loop? <;> rfl

section Steps

variable {s s' : State} {d : Directive} {argument : List Char} {is : List Instruction}

/-- An argument is resolved if there is one and its scope is kept. -/
theorem exists_readExpr_iff :
    (∃ e, s.readExpr argument = .ok e) ↔
      argument ≠ [] ∧ InScope (anyLoop (openParts s)) argument := by
  constructor
  · rintro ⟨e, hExpr⟩
    obtain ⟨a, hRead, hExpr⟩ := ok_of_bind hExpr
    refine ⟨?_, fun v hName => ?_⟩
    · rintro rfl
      cases hRead
    · obtain rfl := Except.ok.inj (hRead.symm.trans (Argument.read_loopVariable hName))
      have hExpr := ok_of_mapError hExpr
      rw [State.expr] at hExpr
      rw [openParts, ← isSome_loop]
      split at hExpr
      · next hLoop => rw [hLoop]; rfl
      · cases hExpr
  · rintro ⟨hArgument, hScope⟩
    cases hRead : Argument.read argument with
    | error f => exact absurd (Argument.empty_of_read_error hRead).1 hArgument
    | ok a =>
      rw [State.readExpr, hRead]
      cases a with
      | loopVariable v =>
        have hLoop := hScope v (Argument.name_of_read hRead)
        rw [openParts, ← isSome_loop, Option.isSome_iff_exists] at hLoop
        obtain ⟨n, hLoop⟩ := hLoop
        refine ⟨.loopVariable v n, ?_⟩
        rw [ok_bind, State.expr, hLoop]
        rfl
      | path fromRoot ups segments => cases fromRoot <;> exact ⟨_, rfl⟩
      | _ => exact ⟨_, rfl⟩

theorem openParts_enter (kind : BlockKind) (e : Expr) :
    openParts (s.enter kind e).1 = ⟨kind, false⟩ :: openParts s := by
  rw [openParts, State.frames_enter, List.map_cons, openPart, State.kind_frame, State.inElse_frame]
  rfl

/-! ## Directives -/

/-- A directive that the assembler takes turns the open parts as the machine turns them, and its
argument is not empty. -/
theorem turns_of_directive (h : s.directive d = .ok (s', is)) :
    Turns (openParts s) d (openParts s') ∧ d.argument? ≠ some [] := by
  cases d with
  | comment =>
    obtain ⟨rfl, rfl⟩ := Prod.mk.inj (Except.ok.inj h)
    exact ⟨.comment, nofun⟩
  | opens kind argument =>
    obtain ⟨e, hExpr, hEnter⟩ := ok_of_bind h
    obtain ⟨rfl, rfl⟩ := Prod.mk.inj (Except.ok.inj hEnter)
    obtain ⟨hArgument, hScope⟩ := exists_readExpr_iff.mp ⟨e, hExpr⟩
    have hOpens : Turns (openParts s) (.opens kind argument) (openParts (s.enter kind e).1) := by
      rw [openParts_enter]
      exact .opens hScope
    exact ⟨hOpens, fun hEmpty => hArgument (Option.some.inj hEmpty)⟩
  | closes name =>
    obtain ⟨⟨s₁, i⟩, hClose, hResult⟩ := ok_of_bind h
    obtain ⟨rfl, rfl⟩ := Prod.mk.inj (Except.ok.inj hResult)
    obtain ⟨frame, outer, hFrames, hName, rfl, rfl⟩ := State.of_close (ok_of_mapError hClose)
    have hText : name = (openPart frame).kind.name.toList := by
      rw [show (openPart frame).kind.name = String.ofList name from hName, String.toList_ofList]
    rw [hText, openParts, hFrames]
    exact ⟨.closes, nofun⟩
  | otherwise =>
    obtain ⟨⟨s₁, i⟩, hPass, hResult⟩ := ok_of_bind h
    obtain ⟨rfl, rfl⟩ := Prod.mk.inj (Except.ok.inj hResult)
    obtain ⟨frame, outer, hFrames, hKind, hInElse, rfl, rfl⟩ :=
      State.of_passElse (ok_of_mapError hPass)
    rw [openParts, hFrames, List.map_cons, openPart, hInElse]
    exact ⟨.otherwise hKind, nofun⟩
  | output helper argument =>
    obtain ⟨e, hExpr, hResult⟩ := ok_of_bind h
    obtain ⟨rfl, rfl⟩ := Prod.mk.inj (Except.ok.inj hResult)
    obtain ⟨hArgument, hScope⟩ := exists_readExpr_iff.mp ⟨e, hExpr⟩
    exact ⟨.output hScope, fun hEmpty => hArgument (Option.some.inj hEmpty)⟩

/-- The assembler takes every directive that the machine takes. -/
theorem exists_directive {ps : List Part} (h : Turns (openParts s) d ps)
    (hArgument : d.argument? ≠ some []) :
    ∃ s' is, s.directive d = .ok (s', is) ∧ openParts s' = ps := by
  generalize hParts : openParts s = before at h
  cases h with
  | comment => exact ⟨s, [], rfl, hParts⟩
  | @opens _ kind _ hScope =>
    obtain ⟨e, hExpr⟩ := exists_readExpr_iff.mpr
      ⟨fun hEmpty => hArgument (congrArg some hEmpty), hParts ▸ hScope⟩
    refine ⟨(s.enter kind e).1, [(s.enter kind e).2], ?_, ?_⟩
    · rw [State.directive, hExpr]
      rfl
    · rw [openParts_enter, hParts]
  | closes =>
    obtain ⟨frame, outer, hFrames, rfl, rfl⟩ := List.map_eq_cons_iff.mp hParts
    have hName : frame.kind.name = String.ofList (openPart frame).kind.name.toList :=
      String.ofList_toList.symm
    refine ⟨{ s with frames := outer }, [State.closing frame.kind], ?_, rfl⟩
    rw [State.directive, State.close, hFrames]
    dsimp only
    rw [if_pos hName]
    rfl
  | otherwise hKind =>
    obtain ⟨frame, outer, hFrames, hFrame, rfl⟩ := List.map_eq_cons_iff.mp hParts
    obtain ⟨rfl, hElse⟩ := Part.mk.inj hFrame
    have hPass : (frame.kind == .sql || frame.inElse) = false := by
      rw [hElse, Bool.or_false, beq_eq_false_iff_ne]
      exact hKind
    refine ⟨{ s with frames := { frame with inElse := true } :: outer }, [.otherwise], ?_, rfl⟩
    rw [State.directive, State.passElse, hFrames]
    dsimp only
    rw [hPass]
    rfl
  | @output _ helper _ hScope =>
    obtain ⟨e, hExpr⟩ := exists_readExpr_iff.mpr
      ⟨fun hEmpty => hArgument (congrArg some hEmpty), hParts ▸ hScope⟩
    refine ⟨s, [.output helper e], ?_, hParts⟩
    rw [State.directive, hExpr]
    rfl

end Steps

/-! ## Pieces -/

/-- The tag of a piece that is neither text nor a comment. -/
def tag? : Piece → Option Tag
  | .text _ => none
  | .tag t => if t.kind = .comment then none else some t

@[simp] theorem tag?_text (text : List Char) : tag? (.text text) = none := rfl

theorem tag?_comment {t : Tag} (h : t.kind = .comment) : tag? (.tag t) = none := if_pos h

theorem tag?_of_ne {t : Tag} (h : t.kind ≠ .comment) : tag? (.tag t) = some t := if_neg h

theorem filterMap_stripPieces (atStart : Bool) (lead : List Char)
    (more : List (Tag × List Char)) :
    (stripPieces atStart lead more).filterMap tag? =
      (more.map Prod.fst).filter fun t => t.kind != .comment := by
  induction more generalizing atStart lead with
  | nil => rfl
  | cons entry more ih =>
    obtain ⟨t, text⟩ := entry
    have hMore := ih t.stripAfter text
    rw [stripPieces, List.map_cons, List.filterMap_cons_none (tag?_text _)]
    by_cases hKind : t.kind = .comment
    · rw [List.filterMap_cons_none (tag?_comment hKind), hMore,
        List.filter_cons_of_neg (by simp [hKind])]
    · rw [List.filterMap_cons_some (tag?_of_ne hKind), hMore,
        List.filter_cons_of_pos (by simp [hKind])]

theorem filterMap_pieces (template : List Char) :
    (pieces template).filterMap tag? = tagsOf template :=
  filterMap_stripPieces false _ _

theorem mem_tagsOf_of_mem_pieces {template : List Char} {t : Tag}
    (hTag : .tag t ∈ pieces template) (hKind : t.kind ≠ .comment) : t ∈ tagsOf template := by
  rw [← filterMap_pieces]
  exact List.mem_filterMap.mpr ⟨.tag t, hTag, tag?_of_ne hKind⟩

theorem ofTag_comment {t : Tag} (h : t.kind = .comment) : Directive.ofTag t = .ok .comment := by
  rw [Directive.ofTag, h]

section Runs

variable {s s' : State} {is : List Instruction} {p : Piece}

/-- Texts and comments leave the open blocks as they are. -/
theorem exists_piece_of_none (h : tag? p = none) :
    ∃ s' is, s.piece p = .ok (s', is) ∧ openParts s' = openParts s := by
  cases p with
  | text t =>
    rw [State.piece]
    split
    · exact ⟨s, [], rfl, rfl⟩
    · exact ⟨_, _, rfl, rfl⟩
  | tag t =>
    have hKind : t.kind = .comment := by
      by_contra hKind
      rw [tag?_of_ne hKind] at h
      cases h
    refine ⟨s, [], ?_, rfl⟩
    rw [State.piece, ofTag_comment hKind]
    rfl

theorem eq_tag_of_tag? {t : Tag} (h : tag? p = some t) : p = .tag t ∧ t.kind ≠ .comment := by
  cases p with
  | text _ => cases h
  | tag u =>
    rw [tag?] at h
    split at h
    · cases h
    · next hKind =>
      obtain rfl := Option.some.inj h
      exact ⟨rfl, hKind⟩

/-- The machine passes the tags that the assembler goes through. -/
theorem passes_of_run {ps : List Piece} (h : s.run ps = .ok (s', is)) :
    Passes (openParts s) (ps.filterMap tag?) (openParts s') := by
  induction ps generalizing s is with
  | nil =>
    obtain ⟨rfl, rfl⟩ := Prod.mk.inj (Except.ok.inj h)
    exact .nil
  | cons p rest ih =>
    obtain ⟨⟨s₁, first⟩, hPiece, hRun⟩ := ok_of_bind h
    obtain ⟨⟨s₂, more⟩, hRest, hResult⟩ := ok_of_bind hRun
    obtain ⟨rfl, rfl⟩ := Prod.mk.inj (Except.ok.inj hResult)
    have hMore := ih hRest
    cases hTag : tag? p with
    | none =>
      obtain ⟨s', is, hSame, hParts⟩ := exists_piece_of_none (s := s) hTag
      obtain ⟨rfl, rfl⟩ := Prod.mk.inj (Except.ok.inj (hPiece.symm.trans hSame))
      rw [List.filterMap_cons_none hTag, ← hParts]
      exact hMore
    | some t =>
      obtain ⟨rfl, hKind⟩ := eq_tag_of_tag? hTag
      obtain ⟨d, hRead, hDirective⟩ := ok_of_bind hPiece
      obtain ⟨hTurns, hArgument⟩ := turns_of_directive hDirective
      rw [List.filterMap_cons_some hTag]
      exact .cons (Tag.denotes_iff.mpr ⟨ok_of_mapError hRead, hKind, hArgument⟩) hTurns hMore

/-- The assembler goes through the tags that the machine passes. -/
theorem exists_run {ps : List Piece} {last : List Part}
    (h : Passes (openParts s) (ps.filterMap tag?) last) :
    ∃ s' is, s.run ps = .ok (s', is) ∧ openParts s' = last := by
  induction ps generalizing s with
  | nil =>
    cases h
    exact ⟨s, [], rfl, rfl⟩
  | cons p rest ih =>
    have hFirst : ∃ s₁ first, s.piece p = .ok (s₁, first) ∧
        Passes (openParts s₁) (rest.filterMap tag?) last := by
      cases hTag : tag? p with
      | none =>
        obtain ⟨s₁, first, hPiece, hParts⟩ := exists_piece_of_none (s := s) hTag
        rw [List.filterMap_cons_none hTag, ← hParts] at h
        exact ⟨s₁, first, hPiece, h⟩
      | some t =>
        obtain ⟨rfl, -⟩ := eq_tag_of_tag? hTag
        rw [List.filterMap_cons_some hTag] at h
        cases h with
        | cons hDenotes hTurns hRest =>
          obtain ⟨hRead, -, hArgument⟩ := Tag.denotes_iff.mp hDenotes
          obtain ⟨s₁, first, hDirective, rfl⟩ := exists_directive hTurns hArgument
          refine ⟨s₁, first, ?_, hRest⟩
          rw [State.piece, hRead]
          exact hDirective
    obtain ⟨s₁, first, hPiece, hRest⟩ := hFirst
    obtain ⟨s', more, hRun, hParts⟩ := ih hRest
    refine ⟨s', first ++ more, ?_, hParts⟩
    rw [State.run, hPiece, ok_bind]
    dsimp only
    rw [hRun]
    rfl

end Runs

/-! ## Templates -/

/-- A template has a source if its tags are a row of the grammar, and only then. -/
theorem exists_source_iff (template : List Char) :
    (∃ text, sourceOf template = .ok text) ↔ WellNested false (tagsOf template) := by
  rw [← passes_iff, ← filterMap_pieces]
  constructor
  · rintro ⟨text, hSource⟩
    obtain ⟨assembly, hAssembly, -⟩ := ok_of_bind hSource
    obtain ⟨⟨s, is⟩, hRun, hFrames⟩ := ok_of_bind hAssembly
    have hPasses := passes_of_run hRun
    dsimp only at hFrames
    split at hFrames
    · cases hFrames
    · next hEnd =>
      rw [openParts, openParts, hEnd] at hPasses
      exact hPasses
  · intro hPasses
    obtain ⟨s, is, hRun, hParts⟩ := exists_run (s := {}) hPasses
    refine ⟨source is, ?_⟩
    rw [sourceOf, assemble, hRun, ok_bind]
    dsimp only
    rw [List.map_eq_nil_iff.mp hParts]
    rfl

/-- A template without a blank output has a source if its tags are a row of the grammar, and is
refused with the fault of a template if they are not. -/
theorem translation_outcome {template : List Char}
    (hOutputs : ∀ t ∈ tagsOf template, t.kind = .output → trim t.body ≠ []) :
    ((∃ text, sourceOf template = .ok text) ↔ WellNested false (tagsOf template)) ∧
      (¬ WellNested false (tagsOf template) →
        ∃ f, sourceOf template = .error f ∧ f.kind = .template) := by
  refine ⟨exists_source_iff template, fun hTags => ?_⟩
  rw [← exists_source_iff] at hTags
  cases hAssembly : assemble template with
  | ok assembly =>
    refine absurd ⟨source assembly.instructions, ?_⟩ hTags
    rw [sourceOf, hAssembly]
    rfl
  | error f =>
    refine ⟨f, by rw [sourceOf, hAssembly]; rfl, ?_⟩
    rcases (yields_assemble template).of_error hAssembly with hKind | ⟨t, hTag, hLacks⟩
    · exact hKind
    · obtain ⟨d, token, hDirective, hArgument, hRead⟩ := hLacks
      obtain ⟨rfl, rfl⟩ := Argument.empty_of_read_error hRead
      obtain ⟨hKind, hBlank⟩ := blank_of_argument hDirective hArgument
      have hMem : t ∈ tagsOf template := mem_tagsOf_of_mem_pieces hTag (by rw [hKind]; nofun)
      exact absurd hBlank (hOutputs t hMem hKind)

/-! ## Templates of directives -/

theorem tagsOf_directives {bodies : List (List Char)} (hBodies : ∀ b ∈ bodies, isBody b = true) :
    tagsOf (bodies.flatMap directiveSource) = bodies.map directiveTag := by
  have hKinds : ∀ t ∈ bodies.map directiveTag, (t.kind != .comment) = true := by
    intro t hMem
    obtain ⟨b, -, rfl⟩ := List.mem_map.mp hMem
    rfl
  rw [tagsOf, scan_directives hBodies, List.map_map]
  exact List.filter_eq_self.mpr hKinds

theorem denotes_directive {body : List Char} {d : Directive}
    (hTag : (Directive.ofTag (directiveTag body)).toOption = some d)
    (hArgument : d.argument? ≠ some []) : (directiveTag body).Denotes d :=
  Tag.denotes_iff.mpr ⟨ok_of_toOption hTag, nofun, hArgument⟩

/-- The first part of a loop may use its variables. -/
theorem translation_outcome_loop :
    let bodies := ["#each rows".toList, "@key".toList, "else".toList, "/each".toList]
    (∀ t ∈ tagsOf (bodies.flatMap directiveSource), t.kind = .output → trim t.body ≠ []) ∧
      ∃ text, sourceOf (bodies.flatMap directiveSource) = .ok text := by
  intro bodies
  have hTags : tagsOf (bodies.flatMap directiveSource) = bodies.map directiveTag :=
    tagsOf_directives (by decide)
  have hOutputs : ∀ t ∈ tagsOf (bodies.flatMap directiveSource),
      t.kind = .output → trim t.body ≠ [] := by
    rw [hTags]
    simp [bodies, directiveTag]
  have hOpening : (directiveTag "#each rows".toList).Denotes (.opens .each "rows".toList) :=
    denotes_directive (by decide +kernel) nofun
  have hKey : (directiveTag "@key".toList).Denotes (.output none "@key".toList) :=
    denotes_directive (by decide +kernel) nofun
  have hElse : (directiveTag "else".toList).Denotes .otherwise :=
    denotes_directive (by decide +kernel) nofun
  have hClosing : (directiveTag "/each".toList).Denotes (.closes "each".toList) :=
    denotes_directive (by decide +kernel) nofun
  have hBody : WellNested (false || BlockKind.each == .each) [directiveTag "@key".toList] :=
    .output hKey (fun _ _ => rfl) .nil
  refine ⟨hOutputs, (translation_outcome hOutputs).1.mpr ?_⟩
  rw [hTags]
  exact .blockElse hOpening nofun nofun hBody hElse .nil hClosing .nil

end SqlWeave.Template
