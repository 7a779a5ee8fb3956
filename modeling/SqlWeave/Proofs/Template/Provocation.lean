import SqlWeave.Proofs.Script.Rendering
import SqlWeave.Proofs.Template.Limits
import SqlWeave.Template.Compiled

/-!
# What templates are to blame for

Compiling a template fails with the fault of a template, unless something else provokes another
fault.  `Tag.Provokes` lists the tags that do: a blank output, a numeral that cannot be read, and
a path with a name that looks like an index and is none.  `IsTooDeep` says when the nesting of the
blocks does, and `Value.Provokes` when the values do that the template is compiled under: they hold
an integer that cannot be written.

## Main results

* `yields_prepare`: what comes of preparing a template.
* `compile_fault`: a fault of compiling is the fault of a template, or is provoked by a tag, by the
  nesting of the blocks, or by the parameters.
-/

namespace SqlWeave

/-! ## Parameters -/

/-- A scalar among parameters. -/
def Value.IsParameter : Value → Prop
  | .null | .bool _ | .int _ | .str _ => True
  | _ => False

/-- The faults that parameters can be to blame for: an integer among them cannot be written, or the
number of the items in one of them cannot. -/
inductive Value.Provokes : Value → Fault → Prop
  | int {n : Int} (hLong : Number.isWritable n = false) : Provokes (.int n) .unwritableInteger
  | items {items : List Value} (hMany : Number.isWritable items.length = false) :
      Provokes (.list items) .unwritableInteger
  | entries {entries : List (Value × Value)} (hMany : Number.isWritable entries.length = false) :
      Provokes (.map entries) .unwritableInteger
  | item {items : List Value} {v : Value} {f : Fault} (hMem : v ∈ items) (h : v.Provokes f) :
      Provokes (.list items) f
  | entry {entries : List (Value × Value)} {e : Value × Value} {f : Fault} (hMem : e ∈ entries)
      (h : e.2.Provokes f) : Provokes (.map entries) f

theorem Value.isScalar_int {blame : Fault → Prop} {n : Int}
    (h : Number.isWritable n = false → blame .unwritableInteger) : (Value.int n).IsScalar blame := by
  by_cases hWritable : Number.isWritable n = true
  · exact .inl hWritable
  · exact .inr (h (Bool.not_eq_true _ ▸ hWritable))

/-- Parameters are built from scalars, whose faults are those that the parameters provoke. -/
theorem Value.IsBuilt.of_parameter {blame : Fault → Prop} {v : Value} (h : v.IsBuilt IsParameter)
    (hBlame : ∀ f, v.Provokes f → blame f) : v.IsBuilt (IsScalar blame) := by
  induction h with
  | @scalar v h =>
    cases v with
    | null | bool | str => exact .scalar trivial
    | int n => exact .scalar (isScalar_int fun hLong => hBlame _ (.int hLong))
    | _ => exact absurd h id
  | list _ _ ih =>
    exact .list (isScalar_int fun hMany => hBlame _ (.items hMany))
      fun v hMem => ih v hMem fun f hFault => hBlame f (.item hMem hFault)
  | map _ hKeys _ ih =>
    exact .map (isScalar_int fun hMany => hBlame _ (.entries hMany)) hKeys
      fun e hMem => ih e hMem fun f hFault => hBlame f (.entry hMem hFault)

/-! ## Nesting -/

/-- The faults that the nesting of a script can be to blame for. -/
inductive Script.IsTooDeep (instructions : List Script.Instruction) : Fault → Prop
  | loops {blocks : List Script.CodeBlock} (hMem : blocks ∈ Script.nestings [] instructions)
      (hMany : Script.loopLimit < Script.loopsAround blocks) : IsTooDeep instructions .overNested
  | levels {blocks : List Script.CodeBlock} (hMem : blocks ∈ Script.nestings [] instructions)
      (hMany : Script.indentationLimit < Script.indentation blocks) :
      IsTooDeep instructions .overIndented

theorem Script.yields_checkNesting (instructions : List Script.Instruction) :
    Yields (fun _ => True) (IsTooDeep instructions) (checkNesting instructions) := by
  unfold checkNesting
  dsimp only
  split
  · next hDeep =>
    obtain ⟨blocks, hMem, hMany⟩ := List.any_eq_true.mp hDeep
    exact .levels hMem (of_decide_eq_true hMany)
  · split
    · next hDeep =>
      obtain ⟨blocks, hMem, hMany⟩ := List.any_eq_true.mp hDeep
      exact .loops hMem (of_decide_eq_true hMany)
    · exact trivial

namespace Template

open Script Number Text

/-! ## Arguments -/

/-- The faults that an argument can be to blame for. -/
inductive Argument.Provokes : Argument → Fault → Prop
  | numeral {x : Numeral} {f : Fault} (hDecimal : x.IsDecimal) (h : x.Provokes f) :
      Provokes (.numeral x.chars) f
  | path {fromRoot : Bool} {ups : Nat} {segments : List (List Char)} {segment : List Char}
      {f : Fault} (hMem : segment ∈ segments) (h : SegmentProvokes segment f) :
      Provokes (.path fromRoot ups segments) f

/-- The faults that a tag can be to blame for. -/
inductive Tag.Provokes (t : Tag) : Fault → Prop
  /-- An output without anything to put out. -/
  | blank (hKind : t.kind = .output) (hBlank : trim t.body = []) : Provokes t .emptyOperand
  | argument {d : Directive} {token : List Char} {a : Argument} {f : Fault}
      (hDirective : Directive.ofTag t = .ok d) (hArgument : d.argument? = some token)
      (hRead : Argument.read token = .ok a) (h : a.Provokes f) : Provokes t f

/-- A numeral behind its sign. -/
theorem Argument.exists_numeral_unsigned (negative : Bool) {unsigned : List Char}
    (hParts : (!(unsigned.takeWhile isDecimalDigit).isEmpty &&
      match unsigned.dropWhile isDecimalDigit with
      | [] => true
      | '.' :: fraction => !fraction.isEmpty && fraction.all isDecimalDigit
      | _ => false) = true) :
    ∃ x : Numeral, x.IsDecimal ∧ (if negative then ['-'] else []) ++ unsigned = x.chars := by
  rw [Bool.and_eq_true, Bool.not_eq_true', List.isEmpty_eq_false_iff] at hParts
  obtain ⟨hWhole, hRest⟩ := hParts
  have hTake : ∀ c ∈ unsigned.takeWhile isDecimalDigit, isDecimalDigit c = true :=
    fun c hMem => List.mem_takeWhile_imp hMem
  have hSplit := List.takeWhile_append_dropWhile (p := isDecimalDigit) (l := unsigned)
  split at hRest
  · next hEnd =>
    refine ⟨⟨negative, unsigned.takeWhile isDecimalDigit, []⟩, ⟨by simpa using hTake, hWhole⟩, ?_⟩
    rw [hEnd, List.append_nil] at hSplit
    simp [Numeral.chars, hSplit]
  · next fraction hPoint =>
    rw [Bool.and_eq_true, Bool.not_eq_true', List.all_eq_true] at hRest
    refine ⟨⟨negative, unsigned.takeWhile isDecimalDigit, fraction⟩, ⟨?_, hWhole⟩, ?_⟩
    · intro c hMem
      exact (List.mem_append.mp hMem).elim (hTake c) (hRest.2 c)
    · rw [hPoint] at hSplit
      simp [Numeral.chars, hRest.1, hSplit]
  · cases hRest

theorem Argument.exists_numeral {token : List Char} (h : isNumeral token = true) :
    ∃ x : Numeral, x.IsDecimal ∧ token = x.chars := by
  unfold isNumeral at h
  dsimp only at h
  split at h
  · exact exists_numeral_unsigned true h
  · exact exists_numeral_unsigned false h

theorem Argument.empty_of_read_error {token : List Char} {f : Fault} (h : read token = .error f) :
    token = [] ∧ f = .emptyOperand := by
  cases takes_of_read h with
  | empty hEmpty => exact ⟨hEmpty, rfl⟩

/-! ## Tags -/

section Tags

variable {t : Tag} {e : Expr} {f : Fault}

/-- An argument that cannot be read stands in a blank output. -/
theorem Tag.provokes_of_lacks (h : t.Lacks f) : t.Provokes f := by
  obtain ⟨d, token, hDirective, hArgument, hRead⟩ := h
  obtain ⟨rfl, rfl⟩ := Argument.empty_of_read_error hRead
  obtain ⟨hKind, hBlank⟩ := blank_of_argument hDirective hArgument
  exact .blank hKind hBlank

/-- An argument that can be read is to blame for no more than its tag. -/
theorem Tag.isCovered_of_has {blame : Fault → Prop} (hBlame : ∀ f, t.Provokes f → blame f)
    (hHas : t.Has e) : e.IsCovered blame := by
  obtain ⟨d, token, a, hDirective, hArgument, hRead, hSays⟩ := hHas
  have hProvokes : ∀ f, a.Provokes f → blame f := fun f h =>
    hBlame f (.argument hDirective hArgument hRead h)
  cases hSays with
  | numeral digits =>
    obtain ⟨rfl, hNumeral⟩ := Argument.numeral_of_read hRead
    obtain ⟨x, hDecimal, rfl⟩ := Argument.exists_numeral hNumeral
    exact ⟨x, rfl, hDecimal, fun f h => hProvokes f (.numeral hDecimal h)⟩
  | path n fromRoot ups segments => exact fun s hMem f h => hProvokes f (.path hMem h)
  | _ => exact trivial

end Tags

/-! ## Templates -/

/-- Something is to blame for the fault: one of the tags of the template, the nesting of its blocks,
or the parameters. -/
def Provokes (template : String) (params : Value) (f : Fault) : Prop :=
  (∃ t, .tag t ∈ pieces template.toList ∧ t.Provokes f) ∨
    (∃ assembly, assemble template.toList = .ok assembly ∧ IsTooDeep assembly.instructions f) ∨
    params.Provokes f

section Templates

variable {template : String} {params : Value}

/-- The tree of a template is covered by the faults that its tags provoke. -/
theorem yields_prepare (hShort : (natText template.length).length ≤ digitLimit) :
    Yields (fun c => AllCovered (Provokes template params) c.tree)
      (Fault.IsExplained (Provokes template params)) (prepare template) := by
  have hAssemble : Yields (fun a => ∀ i ∈ a.instructions,
      i.IsFrom (pieces template.toList) (template.toList.length + 1))
      (Fault.IsExplained (Provokes template params)) (assemble template.toList) := by
    refine (yields_assemble template.toList).mono (fun _ h => h) ?_
    rintro f (hKind | ⟨t, hTag, hLacks⟩)
    · exact .inl hKind
    · exact .inr (.inl ⟨t, hTag, Tag.provokes_of_lacks hLacks⟩)
  refine hAssemble.and_eq.bind fun assembly hAssembly => ?_
  have hCovered : ∀ i ∈ assembly.instructions, i.IsCovered (Provokes template params) := by
    intro i hMem
    have hFrom := hAssembly.2 i hMem
    refine ⟨fun n hText => ?_, fun e hSome => ?_⟩
    · have hIndex := Nat.le_of_lt_succ (hFrom.index n hText)
      rw [String.length_toList] at hIndex
      exact length_natText_le hIndex (by decide) hShort
    · obtain ⟨t, hTag, hHas⟩ := hFrom.expr e hSome
      exact Tag.isCovered_of_has (fun f h => .inl ⟨t, hTag, h⟩) hHas
  have hToken : ∀ fault, TokenFault.IsCovered (Provokes template params) fault →
      Fault.IsExplained (Provokes template params) (ofTokenFault template fault) := by
    intro fault hFault
    cases fault with
    | script cause => exact .inl rfl
    | oversizedNumeral digits => exact .inr (hFault _ (.oversized digits))
    | numeral cause => exact .inr (hFault _ (.unreadable cause))
  have hNesting : Yields (fun _ => True) (Fault.IsExplained (Provokes template params))
      (checkNesting assembly.instructions) :=
    (yields_checkNesting _).mono (fun _ h => h) fun f hDeep =>
      .inr (.inr (.inl ⟨assembly, hAssembly.1, hDeep⟩))
  exact (yields_mapError (covers_readSource hCovered) hToken).bind fun tree hTree =>
    hNesting.bind fun _ _ => hTree

theorem yields_compile (hShort : (natText template.length).length ≤ digitLimit)
    (hParams : params.IsBuilt Value.IsParameter) :
    Yields (fun _ => True) (Fault.IsExplained (Provokes template params))
      (compile .standard template params) := by
  unfold compile parameterEntries
  split
  · next entries =>
    refine (yields_prepare hShort).bind fun compiled hTree => ?_
    have hEnv : Env.IsBuilt (Provokes template (.map entries))
        [(contextName 0, .map entries)] := by
      intro e hMem
      obtain rfl := List.mem_singleton.mp hMem
      exact hParams.of_parameter fun f h => .inr (.inr h)
    exact (renders_nodes compiled.texts hEnv hTree).bind fun _ _ => trivial
  · exact .inl rfl

/-- A fault of compiling is the fault of a template, or one of the tags is to blame for it, or the
blocks stand in one another too deep, or the parameters are to blame. -/
theorem compile_fault {f : Fault} (hShort : (natText template.length).length ≤ digitLimit)
    (hParams : params.IsBuilt Value.IsParameter)
    (hFault : compile .standard template params = .error f) :
    f.kind = .template ∨ (∃ t, .tag t ∈ pieces template.toList ∧ t.Provokes f) ∨
      (∃ assembly, assemble template.toList = .ok assembly ∧ IsTooDeep assembly.instructions f) ∨
      params.Provokes f :=
  (yields_compile hShort hParams).of_error hFault

end Templates

/-! ## A blank output -/

/-- A fault of the pieces of a template is a fault of compiling it, under any parameters. -/
theorem compile_of_run {d : Sql.Dialect} {template : String} {entries : List (Value × Value)}
    {ps : List Piece} {f : Fault} (hPieces : pieces template.toList = ps)
    (hRun : ({} : State).run ps = .error f) : compile d template (.map entries) = .error f := by
  have hAssemble : assemble template.toList = .error f := by
    unfold assemble
    rw [hPieces, hRun]
    rfl
  simp only [compile, parameterEntries, prepare, hAssemble, ok_bind]
  rfl

/-- The fault of a blank output is met before any parameter is looked at. -/
theorem compile_blankOutput (entries : List (Value × Value)) :
    compile .standard "\x7b\x7b\x7b\x7d\x7d\x7d" (.map entries) = .error .emptyOperand := by
  have hPieces : pieces "\x7b\x7b\x7b\x7d\x7d\x7d".toList =
      [.text [], .tag ⟨.output, [], false, false⟩, .text []] := by
    decide +kernel
  exact compile_of_run hPieces rfl

theorem compile_fault_blankOutput :
    let template := "\x7b\x7b\x7b\x7d\x7d\x7d"
    let params := Value.map [(.str "limit", .list [.int 10])]
    (natText template.length).length ≤ digitLimit ∧ params.IsBuilt Value.IsParameter ∧
      compile .standard template params = .error .emptyOperand ∧
        (Fault.emptyOperand.kind = .template ∨
          (∃ t, .tag t ∈ pieces template.toList ∧ t.Provokes .emptyOperand) ∨
          (∃ assembly, assemble template.toList = .ok assembly ∧
            IsTooDeep assembly.instructions .emptyOperand) ∨
          params.Provokes .emptyOperand) := by
  intro template params
  have hShort : (natText template.length).length ≤ digitLimit := by decide
  have hParams : params.IsBuilt Value.IsParameter := by
    refine .map trivial (fun e hMem => ?_) fun e hMem => ?_
    · obtain rfl := List.mem_singleton.mp hMem
      exact ⟨"limit", rfl⟩
    · obtain rfl := List.mem_singleton.mp hMem
      refine .list trivial fun v hMem => ?_
      obtain rfl := List.mem_singleton.mp hMem
      exact .scalar trivial
  have hFault := compile_blankOutput [(.str "limit", .list [.int 10])]
  exact ⟨hShort, hParams, hFault, compile_fault hShort hParams hFault⟩

/-- A blank directive is refused with the fault of a template, but a blank output is not: there
the text is taken for an argument and its first character is asked for. -/
theorem compile_blankOutput_isForeign :
    (Value.map []).IsBuilt Value.IsParameter ∧
      compile .standard "\x7b\x7b\x7d\x7d" (.map []) = .error (.template .emptyDirective) ∧
        compile .standard "\x7b\x7b\x7b\x7d\x7d\x7d" (.map []) = .error .emptyOperand ∧
          Fault.emptyOperand.kind = .index := by
  have hPieces : pieces "\x7b\x7b\x7d\x7d".toList =
      [.text [], .tag ⟨.directive, [], false, false⟩, .text []] := by
    decide +kernel
  refine ⟨.map trivial ?_ ?_, compile_of_run hPieces rfl, compile_blankOutput [], rfl⟩
  · exact fun e hMem => absurd hMem List.not_mem_nil
  · exact fun e hMem => absurd hMem List.not_mem_nil

end Template

end SqlWeave
