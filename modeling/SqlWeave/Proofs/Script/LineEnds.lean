import SqlWeave.Proofs.Script.Spelling

/-!
# Line ends in scripts

The lexer takes a carriage return for a line end, alone and before a line feed.  In the source of
a script there are carriage returns only inside quotes, so that what the lexer sees is the source
of another script: the one whose texts have their line ends unified.

## Main results

* `unifyLineEnds_append`: line ends are unified part by part.
* `unifyLineEnds_source`: unifying the line ends of a script's source unifies those of its texts.
-/

namespace SqlWeave.Script

open Text Number Template

/-! ## Unifying part by part -/

section Parts

variable {s t : List Char}

theorem unifyLineEnds_cons {c : Char} (hReturn : c ≠ '\r') (s : List Char) :
    unifyLineEnds (c :: s) = c :: unifyLineEnds s := by
  rw [unifyLineEnds]
  · exact fun _ h _ => hReturn h
  · exact hReturn

/-- A line end is not cut in two in front of anything but a line feed. -/
theorem unifyLineEnds_append (hHead : t.head? ≠ some '\n') (s : List Char) :
    unifyLineEnds (s ++ t) = unifyLineEnds s ++ unifyLineEnds t := by
  induction s using unifyLineEnds.induct with
  | case1 => rfl
  | case2 rest ih =>
    show '\n' :: unifyLineEnds (rest ++ t) = '\n' :: unifyLineEnds rest ++ unifyLineEnds t
    rw [ih, List.cons_append]
  | case3 rest hRest ih =>
    have hAlone : ∀ more, rest ++ t ≠ '\n' :: more := by
      intro more hCons
      cases rest with
      | nil =>
        rw [List.nil_append] at hCons
        rw [hCons] at hHead
        exact hHead rfl
      | cons c rest => exact hRest rest (by rw [(List.cons.inj hCons).1])
    rw [List.cons_append, unifyLineEnds, unifyLineEnds, ih, List.cons_append]
    · exact hRest
    · exact hAlone
  | case4 c rest hPair hReturn ih =>
    have hNot : c ≠ '\r' := by
      rintro rfl
      exact hReturn rfl
    rw [List.cons_append, unifyLineEnds_cons hNot, unifyLineEnds_cons hNot, ih, List.cons_append]

/-- What holds no carriage return stays as it is. -/
theorem unifyLineEnds_append_left (hReturn : '\r' ∉ s) (t : List Char) :
    unifyLineEnds (s ++ t) = s ++ unifyLineEnds t := by
  induction s with
  | nil => rfl
  | cons c rest ih =>
    rw [List.mem_cons, not_or] at hReturn
    rw [List.cons_append, unifyLineEnds_cons (Ne.symm hReturn.1), ih hReturn.2, List.cons_append]

/-- A frame without line ends stays around what it frames. -/
theorem unifyLineEnds_framed {before after : List Char} (hBefore : '\r' ∉ before)
    (hAfter : '\r' ∉ after) (hHead : after.head? ≠ some '\n') (s : List Char) :
    unifyLineEnds (before ++ s ++ after) = before ++ unifyLineEnds s ++ after := by
  rw [unifyLineEnds_append hHead, unifyLineEnds_append_left hBefore, unifyLineEnds_eq hAfter]

/-- A carriage return is a line end. -/
theorem mem_unifyLineEnds (h : '\r' ∈ s) : '\n' ∈ unifyLineEnds s := by
  induction s using unifyLineEnds.induct with
  | case1 => cases h
  | case2 rest ih => exact List.mem_cons_self
  | case3 rest hRest ih =>
    rw [unifyLineEnds]
    · exact List.mem_cons_self
    · exact hRest
  | case4 c rest hPair hReturn ih =>
    rcases List.mem_cons.mp h with rfl | hMem
    · exact absurd rfl hReturn
    · have hNot : c ≠ '\r' := by
        rintro rfl
        exact hReturn rfl
      rw [unifyLineEnds_cons hNot]
      exact List.mem_cons_of_mem _ (ih hMem)

end Parts

/-! ## Texts -/

theorem head?_escapeQuoted {s : List Char} (hHead : s.head? ≠ some '\n') :
    (escapeQuoted s).head? ≠ some '\n' := by
  cases s with
  | nil => exact hHead
  | cons c rest =>
    show (List.head? ((if c == '\\' || c == '\x27' then ['\\', c] else [c]) ++
      escapeQuoted rest)) ≠ _
    split
    · exact fun h => absurd (Option.some.inj h) (by decide)
    · exact hHead

theorem escapeQuoted_cons {c : Char} (hPlain : (c == '\\' || c == '\x27') = false)
    (s : List Char) : escapeQuoted (c :: s) = c :: escapeQuoted s := by
  show (if c == '\\' || c == '\x27' then ['\\', c] else [c]) ++ escapeQuoted s = _
  rw [hPlain]
  rfl

theorem unifyLineEnds_escapeQuoted (s : List Char) :
    unifyLineEnds (escapeQuoted s) = escapeQuoted (unifyLineEnds s) := by
  induction s using unifyLineEnds.induct with
  | case1 => rfl
  | case2 rest ih =>
    show '\n' :: unifyLineEnds (escapeQuoted rest) = escapeQuoted ('\n' :: unifyLineEnds rest)
    rw [ih, escapeQuoted_cons (by decide)]
  | case3 rest hRest ih =>
    have hHead : rest.head? ≠ some '\n' := by
      intro hHead
      obtain ⟨more, rfl⟩ := List.head?_eq_some_iff.mp hHead
      exact hRest more rfl
    rw [escapeQuoted_cons (by decide), unifyLineEnds, unifyLineEnds, ih,
      escapeQuoted_cons (by decide)]
    · exact hRest
    · intro more hCons
      have hEscaped := head?_escapeQuoted hHead
      rw [hCons] at hEscaped
      exact hEscaped rfl
  | case4 c rest hPair hReturn ih =>
    have hNot : c ≠ '\r' := by
      rintro rfl
      exact hReturn rfl
    have hEscape : '\r' ∉ (if c == '\\' || c == '\x27' then ['\\', c] else [c]) := by
      split <;> simp [Ne.symm hNot]
    rw [unifyLineEnds_cons hNot]
    show unifyLineEnds (_ ++ escapeQuoted rest) = _ ++ escapeQuoted (unifyLineEnds rest)
    rw [unifyLineEnds_append_left hEscape, ih]

theorem unifyLineEnds_quotedSource (s : List Char) :
    unifyLineEnds (quotedSource s) = quotedSource (unifyLineEnds s) := by
  show unifyLineEnds (['\x27'] ++ escapeQuoted s ++ ['\x27']) =
    ['\x27'] ++ escapeQuoted (unifyLineEnds s) ++ ['\x27']
  rw [unifyLineEnds_framed (by decide) (by decide) (by decide), unifyLineEnds_escapeQuoted]

theorem unifyLineEnds_commaJoined (parts : List (List Char)) :
    unifyLineEnds (commaJoined parts) = commaJoined (parts.map unifyLineEnds) := by
  induction parts with
  | nil => rfl
  | cons s more ih =>
    cases more with
    | nil => simp [commaJoined, List.intercalate]
    | cons t more =>
      have hHead : (',' :: ' ' :: commaJoined (t :: more)).head? ≠ some '\n' :=
        fun h => absurd (Option.some.inj h) (by decide)
      rw [List.map_cons, List.map_cons, commaJoined_cons_cons, commaJoined_cons_cons,
        unifyLineEnds_append hHead, unifyLineEnds_cons (by decide), unifyLineEnds_cons (by decide),
        ih, List.map_cons]

/-! ## Expressions -/

/-- The expression with the line ends of its texts unified. -/
def Expr.unified : Expr → Expr
  | .text s => .text (unifyLineEnds s)
  | .path n segments => .path n (segments.map unifyLineEnds)
  | e => e

theorem unifyLineEnds_expr {e : Expr} (hNumeral : ∀ token, e = .numeral token → '\r' ∉ token) :
    unifyLineEnds e.source = e.unified.source := by
  cases e with
  | text s => exact unifyLineEnds_quotedSource s
  | numeral token => exact unifyLineEnds_eq (hNumeral token rfl)
  | constant c => cases c <;> rfl
  | loopVariable v n => exact unifyLineEnds_eq (noReturn_name (isName_variableName v n))
  | path n segments =>
    have hContext := noReturn_name (isName_contextName n)
    cases segments with
    | nil => exact unifyLineEnds_eq hContext
    | cons segment more =>
      have hBefore : '\r' ∉ "_lookup(".toList ++ contextName n ++ ", ".toList := by
        simp [hContext]
      have hSegments : ((segment :: more).map quotedSource).map unifyLineEnds =
          ((segment :: more).map unifyLineEnds).map quotedSource := by
        rw [List.map_map, List.map_map]
        exact List.map_congr_left fun s _ => unifyLineEnds_quotedSource s
      rw [Expr.source, unifyLineEnds_framed hBefore (by decide) (by decide),
        unifyLineEnds_commaJoined, hSegments]
      · rfl
      · intro hNil
        cases hNil

/-! ## Instructions -/

/-- The instruction with the line ends of its texts unified. -/
def Instruction.unified : Instruction → Instruction
  | output helper e => output helper e.unified
  | opensChoice expected e => opensChoice expected e.unified
  | opensLoop n e => opensLoop n e.unified
  | opensBound n e => opensBound n e.unified
  | i => i

theorem Instruction.expr?_unified (i : Instruction) : i.unified.expr? = i.expr?.map Expr.unified := by
  cases i <;> rfl

theorem unifyLineEnds_outputSource (s : List Char) :
    unifyLineEnds (outputSource s) = outputSource (unifyLineEnds s) :=
  unifyLineEnds_framed (by decide) (by decide) (by decide) s

theorem unifyLineEnds_statementSource (s : List Char) :
    unifyLineEnds (statementSource s) = statementSource (unifyLineEnds s) :=
  unifyLineEnds_framed (by decide) (by decide) (by decide) s

theorem unifyLineEnds_callSource {function : String} {e : Expr}
    (hFunction : '\r' ∉ function.toList ++ ['('])
    (hExpr : unifyLineEnds e.source = e.unified.source) :
    unifyLineEnds (callSource function e) = callSource function e.unified := by
  have hSource : ∀ d : Expr, callSource function d = function.toList ++ ['('] ++ d.source ++ [')'] := by
    intro d
    simp [callSource]
  rw [hSource, hSource, unifyLineEnds_framed hFunction (by decide) (by decide), hExpr]

/-- Every instruction starts with a brace. -/
theorem head?_source (is : List Instruction) : (source is).head? ≠ some '\n' := by
  cases is with
  | nil => exact nofun
  | cons i more =>
    obtain ⟨rest, hSource⟩ : ∃ rest, i.source = '\x7b' :: rest := by
      cases i with
      | output helper e => cases helper <;> exact ⟨_, rfl⟩
      | opensChoice expected e => cases expected <;> exact ⟨_, rfl⟩
      | _ => exact ⟨_, rfl⟩
    show (i.source ++ source more).head? ≠ some '\n'
    rw [hSource]
    exact fun h => absurd (Option.some.inj h) (by decide)

/-- The source of an instruction holds line ends only in its texts. -/
theorem unifyLineEnds_instruction {i : Instruction}
    (hNumeral : ∀ token, i.expr? = some (.numeral token) → '\r' ∉ token) :
    unifyLineEnds i.source = i.unified.source := by
  have hExpr : ∀ e, i.expr? = some e → unifyLineEnds e.source = e.unified.source := by
    intro e hSome
    apply unifyLineEnds_expr
    rintro token rfl
    exact hNumeral token hSome
  cases i with
  | text index => exact unifyLineEnds_eq (noReturn_text index)
  | output helper e =>
    cases helper with
    | none => rw [Instruction.source, unifyLineEnds_outputSource, hExpr e rfl]; rfl
    | some helper =>
      have hCall : unifyLineEnds (callSource (helperName helper) e) =
          callSource (helperName helper) e.unified :=
        unifyLineEnds_callSource (by cases helper <;> decide) (hExpr e rfl)
      rw [Instruction.source, unifyLineEnds_outputSource, hCall]
      rfl
  | opensChoice expected e =>
    have hCall : unifyLineEnds (callSource "_truthy" e) = callSource "_truthy" e.unified :=
      unifyLineEnds_callSource (by decide) (hExpr e rfl)
    cases expected with
    | true =>
      rw [Instruction.source, unifyLineEnds_statementSource, unifyLineEnds_append_left (by decide),
        hCall]
      rfl
    | false =>
      rw [Instruction.source, unifyLineEnds_statementSource, unifyLineEnds_append_left (by decide),
        hCall]
      rfl
  | opensLoop n e =>
    have hCall : unifyLineEnds (callSource "_iterate" e) = callSource "_iterate" e.unified :=
      unifyLineEnds_callSource (by decide) (hExpr e rfl)
    have hNames : '\r' ∉ "for ".toList ++ commaJoined (loopNames n) ++ " in ".toList := by
      have hJoined : '\r' ∉ commaJoined (loopNames n) :=
        noReturn_commaJoined fun s hMem => noReturn_name (isName_of_mem_loopNames hMem)
      simp [hJoined]
    rw [Instruction.source, unifyLineEnds_statementSource, unifyLineEnds_append_left hNames, hCall]
    rfl
  | opensBound n e =>
    have hCall : unifyLineEnds (callSource "_sql" e) = callSource "_sql" e.unified :=
      unifyLineEnds_callSource (by decide) (hExpr e rfl)
    have hContext : '\r' ∉ "call(".toList ++ contextName n ++ ") ".toList := by
      simp [noReturn_name (isName_contextName n)]
    rw [Instruction.source, unifyLineEnds_statementSource, unifyLineEnds_append_left hContext,
      hCall]
    rfl
  | otherwise => rfl
  | closesChoice => rfl
  | closesLoop => rfl
  | closesBound => rfl

/-- What the lexer sees of a script is the source of the script with unified line ends. -/
theorem unifyLineEnds_source {is : List Instruction}
    (hNumeral : ∀ i ∈ is, ∀ token, i.expr? = some (.numeral token) → '\r' ∉ token) :
    unifyLineEnds (source is) = source (is.map Instruction.unified) := by
  induction is with
  | nil => rfl
  | cons i more ih =>
    have hMore := ih fun j hMem => hNumeral j (List.mem_cons_of_mem _ hMem)
    show unifyLineEnds (i.source ++ source more) = i.unified.source ++ source (more.map _)
    rw [unifyLineEnds_append (head?_source more),
      unifyLineEnds_instruction (hNumeral i List.mem_cons_self), hMore]

end SqlWeave.Script
