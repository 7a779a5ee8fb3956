import SqlWeave.Proofs.Results
import SqlWeave.Proofs.Script.LineEnds
import SqlWeave.Proofs.Script.Numerals
import SqlWeave.Script.Run
import SqlWeave.Script.Tree
import Mathlib.Data.List.Chain
import Mathlib.Data.List.TakeWhile

/-!
# What scripts are to blame for

The faults of a script other than those of a template come from its numerals and from the names
of its paths.  `blame` says which faults somebody answers for.  A script is covered by it if the
faults of its numerals and names are among these; then so are its tokens.

## Main results

* `readIndex_provokes`: what a name that looks like an index can be to blame for.
* `areCovered_tokens`: the tokens of a covered script are covered.
-/

namespace SqlWeave

namespace Script

open Text Number Template

/-! ## Names of paths -/

/-- The faults that a name of a path can be to blame for: it looks like an index and is none. -/
inductive SegmentProvokes (segment : List Char) : Fault → Prop
  /-- A sign among its digits has no decimal value. -/
  | sign {c : Char} (hIndex : isIndex segment = true) (hMem : c ∈ segment)
      (hSign : isDecimalDigit c = false) :
      SegmentProvokes segment (.notNumeral (String.ofList segment))
  /-- It starts with more digits than can be read. -/
  | long {run : List Char} (hIndex : isIndex segment = true) (hRun : run <+: segment)
      (hDigits : ∀ c ∈ run, isDecimalDigit c = true) (hLong : digitLimit < run.length) :
      SegmentProvokes segment (.oversizedNumeral run.length)

theorem readIndex_provokes {segment : List Char} {f : Fault} (hIndex : isIndex segment = true)
    (h : readIndex segment = .error f) : SegmentProvokes segment f := by
  unfold readIndex at h
  dsimp only at h
  split at h
  · next hLong =>
    cases h
    exact .long hIndex (List.takeWhile_prefix _)
      (fun c hMem => List.mem_takeWhile_imp hMem) hLong
  · split at h
    · next hShort =>
      cases h
      have hNot : ¬ ∀ c ∈ segment, isDecimalDigit c = true := by
        intro hAll
        rw [List.takeWhile_eq_self_iff.mpr hAll] at hShort
        exact Nat.lt_irrefl _ hShort
      simp only [not_forall, Bool.not_eq_true] at hNot
      obtain ⟨c, hMem, hSign⟩ := hNot
      exact .sign hIndex hMem hSign
    · cases h

/-- Line ends are no digits. -/
theorem segmentProvokes_of_unified {segment : List Char} {f : Fault}
    (h : SegmentProvokes (unifyLineEnds segment) f) : SegmentProvokes segment f := by
  have hIndex : isIndex (unifyLineEnds segment) = true := by
    cases h <;> assumption
  have hReturn : '\r' ∉ segment := by
    intro hMem
    rw [isIndex, Bool.and_eq_true] at hIndex
    exact absurd (List.all_eq_true.mp hIndex.2 '\n' (mem_unifyLineEnds hMem)) (by decide)
  rwa [unifyLineEnds_eq hReturn] at h

/-! ## Tokens -/

section Tokens

variable {blame : Fault → Prop} {t : Token} {ts us : List Token}

/-- The faults of the token are covered, and its number can be written. -/
def Token.IsCovered (blame : Fault → Prop) (t : Token) : Prop :=
  t.isWritable = true ∧ ∀ f, t.Provokes f → blame f

/-- A text behind a comma is the name of a path. -/
def Token.Joins (blame : Fault → Prop) (t u : Token) : Prop :=
  t = .symbol ',' → ∀ s, u = .text s → ∀ f, SegmentProvokes s f → blame f

/-- The faults of the tokens are covered. -/
structure AreCovered (blame : Fault → Prop) (ts : List Token) : Prop where
  tokens : ∀ t ∈ ts, t.IsCovered blame
  segments : ts.IsChain (Token.Joins blame)

/-- A token that can be to blame for nothing and is no text. -/
def Token.isHarmless : Token → Bool
  | .text _ | .float _ | .malformed _ => false
  | .integer n => Number.isWritable n
  | _ => true

theorem Token.isCovered_of_harmless (h : t.isHarmless = true) : t.IsCovered blame := by
  refine ⟨?_, fun f hFault => ?_⟩
  · cases t with
    | float x => cases h
    | integer n => exact h
    | _ => rfl
  · cases hFault <;> cases h

namespace AreCovered

theorem nil : AreCovered blame [] :=
  ⟨fun _ hMem => absurd hMem List.not_mem_nil, .nil⟩

theorem append (hFirst : AreCovered blame ts) (hSecond : AreCovered blame us)
    (hLast : ts.getLast? ≠ some (.symbol ',')) : AreCovered blame (ts ++ us) where
  tokens := fun t hMem => (List.mem_append.mp hMem).elim (hFirst.tokens t) (hSecond.tokens t)
  segments := by
    refine List.isChain_append.mpr ⟨hFirst.segments, hSecond.segments, ?_⟩
    intro _ hEnd u _ hComma
    rw [hComma] at hEnd
    exact absurd hEnd hLast

theorem tail (h : AreCovered blame (t :: ts)) : AreCovered blame ts :=
  ⟨fun u hMem => h.tokens u (List.mem_cons_of_mem _ hMem), (List.isChain_cons.mp h.segments).2⟩

theorem of_harmless (h : ts.all Token.isHarmless = true) : AreCovered blame ts := by
  induction ts with
  | nil => exact .nil
  | cons t rest ih =>
    rw [List.all_cons, Bool.and_eq_true] at h
    have hRest := ih h.2
    refine ⟨fun u hMem => ?_, List.isChain_cons.mpr ⟨?_, hRest.segments⟩⟩
    · rcases List.mem_cons.mp hMem with rfl | hMem
      · exact Token.isCovered_of_harmless h.1
      · exact hRest.tokens u hMem
    · rintro u hHead - s rfl
      have hText := List.all_eq_true.mp h.2 _ (List.mem_of_mem_head? hHead)
      cases hText

/-- Without commas there are no names of paths. -/
theorem of_no_comma (h : ∀ t ∈ ts, t.IsCovered blame) (hComma : .symbol ',' ∉ ts) :
    AreCovered blame ts := by
  refine ⟨h, List.Pairwise.isChain (List.pairwise_of_forall_mem_list fun t hMem u _ hJoins => ?_)⟩
  rw [hJoins] at hMem
  exact absurd hMem hComma

/-- Names of a path behind commas. -/
theorem separated {segs : List (List Char)}
    (h : ∀ s ∈ segs, ∀ f, SegmentProvokes s f → blame f) :
    AreCovered blame (Script.separated .text segs) := by
  induction segs with
  | nil => exact .nil
  | cons s rest ih =>
    have hRest := ih fun u hMem => h u (List.mem_cons_of_mem _ hMem)
    have hPair : AreCovered blame [.symbol ',', .text s] := by
      refine ⟨fun t hMem => ?_, List.isChain_pair.mpr ?_⟩
      · simp only [List.mem_cons, List.not_mem_nil, or_false] at hMem
        rcases hMem with rfl | rfl
        · exact Token.isCovered_of_harmless rfl
        · exact ⟨rfl, nofun⟩
      · rintro - u hText f hFault
        cases hText
        exact h s List.mem_cons_self f hFault
    exact hPair.append hRest (fun h => absurd (Option.some.inj h) nofun)

theorem getLast?_separated (segs : List (List Char)) :
    (Script.separated .text segs).getLast? ≠ some (.symbol ',') := by
  induction segs with
  | nil => exact nofun
  | cons s rest ih =>
    show ([Token.symbol ',', .text s] ++ Script.separated .text rest).getLast? ≠ _
    rw [List.getLast?_append]
    cases hLast : (Script.separated Token.text rest).getLast? with
    | none => exact fun h => absurd (Option.some.inj h) nofun
    | some t =>
      rw [hLast] at ih
      exact ih

end AreCovered

/-- Covered tokens that do not end in a comma, so that more can stand behind them. -/
structure AreClosed (blame : Fault → Prop) (ts : List Token) : Prop extends AreCovered blame ts where
  last : ts.getLast? ≠ some (.symbol ',')

/-- Tokens between harmless ones. -/
theorem AreClosed.framed (before after : List Token) (close : Token) (h : AreClosed blame ts)
    (hBefore : before.all Token.isHarmless = true)
    (hOpening : before.getLast? ≠ some (.symbol ','))
    (hAfter : (after ++ [close]).all Token.isHarmless = true) (hClose : close ≠ .symbol ',') :
    AreClosed blame (before ++ (ts ++ (after ++ [close]))) where
  toAreCovered :=
    (AreCovered.of_harmless hBefore).append (h.append (.of_harmless hAfter) h.last) hOpening
  last := by
    rw [← List.append_assoc, ← List.append_assoc, List.getLast?_concat]
    exact fun hEq => hClose (Option.some.inj hEq)

theorem AreClosed.of_harmless (h : ts.all Token.isHarmless = true)
    (hLast : ts.getLast? ≠ some (.symbol ',')) : AreClosed blame ts :=
  ⟨.of_harmless h, hLast⟩

/-! ## Expressions -/

/-- The faults of the expression's numeral or names are covered. -/
def Expr.IsCovered (blame : Fault → Prop) : Expr → Prop
  | .numeral token => ∃ x : Numeral, token = x.chars ∧ x.IsDecimal ∧ ∀ f, x.Provokes f → blame f
  | .path _ segments => ∀ s ∈ segments, ∀ f, SegmentProvokes s f → blame f
  | _ => True

theorem Expr.IsCovered.unified {e : Expr} (h : e.IsCovered blame) : e.unified.IsCovered blame := by
  cases e with
  | path n segments =>
    intro s hMem f hFault
    obtain ⟨segment, hSegment, rfl⟩ := List.mem_map.mp hMem
    exact h segment hSegment f (segmentProvokes_of_unified hFault)
  | _ => exact h

theorem areClosed_expr {e : Expr} (h : e.IsCovered blame)
    (hNumeral : ∀ token, e ≠ .numeral token) : AreClosed blame e.tokens := by
  cases e with
  | text s =>
    refine ⟨.of_no_comma (fun t hMem => ?_) (by simp [Expr.tokens]), by simp [Expr.tokens]⟩
    obtain rfl := List.mem_singleton.mp hMem
    exact ⟨rfl, by rintro f ⟨⟩⟩
  | numeral token => exact absurd rfl (hNumeral token)
  | constant c => exact .of_harmless rfl (by simp [Expr.tokens])
  | loopVariable v n => exact .of_harmless rfl (by simp [Expr.tokens])
  | path n segments =>
    cases segments with
    | nil => exact .of_harmless rfl (by simp [Expr.tokens])
    | cons segment more =>
      have hSegments : AreClosed blame (separated .text (segment :: more)) :=
        ⟨.separated h, AreCovered.getLast?_separated _⟩
      have hFramed := hSegments.framed
        [.name "_lookup".toList, .symbol '(', .name (contextName n)] [] (.symbol ')') rfl (by simp)
        rfl (by decide)
      simpa [Expr.tokens] using hFramed

/-- A covered expression is read as covered tokens. -/
theorem exists_spells_expr {e : Expr} (h : e.IsCovered blame) :
    ∃ ts, Spells e.source ts ∧ AreClosed blame ts := by
  by_cases hNumeral : ∃ token, e = .numeral token
  · obtain ⟨token, rfl⟩ := hNumeral
    obtain ⟨x, rfl, hDecimal, hProvokes⟩ := h
    obtain ⟨ts, hSpells, hTokens⟩ := exists_spells_numeral hDecimal
    have hCovered : ∀ t ∈ ts, t.IsCovered blame := fun t hMem =>
      ⟨(hTokens t hMem).2.1, fun f hFault => hProvokes f ((hTokens t hMem).2.2 f hFault)⟩
    have hComma : .symbol ',' ∉ ts := by
      intro hMem
      rcases (hTokens _ hMem).1 with hMinus | hNumeric
      · cases hMinus
      · cases hNumeric
    exact ⟨ts, hSpells, .of_no_comma hCovered hComma,
      fun hLast => hComma (List.mem_of_getLast? hLast)⟩
  · have hOther : ∀ token, e ≠ .numeral token := fun token hToken => hNumeral ⟨token, hToken⟩
    exact ⟨_, spells_expr_of fun token hToken => absurd hToken (hOther token),
      areClosed_expr h hOther⟩

/-! ## Instructions -/

/-- The instruction's expression is covered, and its number can be read. -/
structure Instruction.IsCovered (blame : Fault → Prop) (i : Instruction) : Prop where
  index : ∀ n, i = .text n → (natText n).length ≤ digitLimit
  expr : ∀ e, i.expr? = some e → e.IsCovered blame

theorem Instruction.IsCovered.unified {i : Instruction} (h : i.IsCovered blame) :
    i.unified.IsCovered blame where
  index := by
    rintro n hText
    cases i with
    | text index =>
      cases hText
      exact h.index n rfl
    | _ => cases hText
  expr := by
    intro e hExpr
    rw [Instruction.expr?_unified] at hExpr
    obtain ⟨d, hSome, rfl⟩ := Option.map_eq_some_iff.mp hExpr
    exact (h.expr d hSome).unified

theorem areClosed_tokensWith {i : Instruction}
    (hIndex : ∀ n, i = .text n → (natText n).length ≤ digitLimit) (h : AreClosed blame ts) :
    AreClosed blame (i.tokensWith ts) := by
  have hCall : ∀ function before close, before.all Token.isHarmless = true →
      close.isHarmless = true → close ≠ .symbol ',' →
      AreClosed blame (before ++ callTokensWith function ts ++ [close]) := by
    intro function before close hBefore hHarmless hClose
    have hFramed := h.framed (before ++ [.name function.toList, .symbol '(']) [.symbol ')'] close
      (by rw [List.all_append, hBefore]; rfl) (by simp) (by simpa using ⟨rfl, hHarmless⟩) hClose
    simpa [callTokensWith] using hFramed
  cases i with
  | text n =>
    have hWritable : Number.isWritable n = true := decide_eq_true (hIndex n rfl)
    exact .of_harmless (by simp [Instruction.tokensWith, Token.isHarmless, hWritable])
      (by simp [Instruction.tokensWith])
  | output helper e =>
    cases helper with
    | none => exact h.framed [.beginOutput] [] .endOutput rfl (by simp) rfl nofun
    | some helper => exact hCall (helperName helper) [.beginOutput] .endOutput rfl rfl nofun
  | opensChoice expected e =>
    cases expected with
    | true =>
      exact hCall "_truthy" [.beginStatement, .name "if".toList] .endStatement rfl rfl nofun
    | false =>
      exact hCall "_truthy" [.beginStatement, .name "if".toList, .name "not".toList] .endStatement
        rfl rfl nofun
  | opensLoop n e =>
    have hLoop := hCall "_iterate" (.beginStatement :: .name "for".toList ::
      .name (variableName .key n) :: separated .name [contextName n, variableName .index n,
        variableName .first n, variableName .last n] ++ [.name "in".toList]) .endStatement rfl rfl
      nofun
    simpa [Instruction.tokensWith] using hLoop
  | opensBound n e =>
    exact hCall "_sql" [.beginStatement, .name "call".toList, .symbol '(', .name (contextName n),
      .symbol ')'] .endStatement rfl rfl nofun
  | _ => exact .of_harmless rfl (by simp [Instruction.tokensWith])

/-- A covered instruction is read as covered tokens. -/
theorem exists_reads_instruction {i : Instruction} (h : i.IsCovered blame) (rest : List Char) :
    ∃ ts, Reads false (i.source ++ rest) ts false rest ∧ AreClosed blame ts := by
  have hExpr : ∃ ts, (∀ e, i.expr? = some e → Spells e.source ts) ∧ AreClosed blame ts := by
    cases hSome : i.expr? with
    | none => exact ⟨[], nofun, .nil, nofun⟩
    | some e =>
      obtain ⟨ts, hSpells, hClosed⟩ := exists_spells_expr (h.expr e hSome)
      refine ⟨ts, ?_, hClosed⟩
      rintro d hSame
      cases hSame
      exact hSpells
  obtain ⟨ts, hSpells, hClosed⟩ := hExpr
  exact ⟨_, reads_instructionWith h.index hSpells rest, areClosed_tokensWith h.index hClosed⟩

theorem exists_reads_source {is : List Instruction} (h : ∀ i ∈ is, i.IsCovered blame) :
    ∃ ts, Reads false (source is) ts false [] ∧ AreCovered blame ts := by
  induction is with
  | nil => exact ⟨[], Reads.refl false [], .nil⟩
  | cons i more ih =>
    obtain ⟨ts, hMore, hCovered⟩ := ih fun j hMem => h j (List.mem_cons_of_mem _ hMem)
    obtain ⟨us, hFirst, hClosed⟩ := exists_reads_instruction (h i List.mem_cons_self) (source more)
    exact ⟨us ++ ts, hFirst.trans hMore, hClosed.append hCovered hClosed.last⟩

/-- The tokens of a covered script are covered.  The lexer sees the script with its line ends
unified, so the names of paths that it reads are not those that were written. -/
theorem areCovered_tokens {is : List Instruction} (h : ∀ i ∈ is, i.IsCovered blame) :
    AreCovered blame (tokens (source is)) := by
  have hNumeral : ∀ i ∈ is, ∀ token, i.expr? = some (.numeral token) → '\r' ∉ token := by
    intro i hMem token hExpr
    obtain ⟨x, rfl, hDecimal, -⟩ := (h i hMem).expr _ hExpr
    exact noReturn_chars fun hMem => absurd (hDecimal.digits _ hMem) (by decide)
  have hUnified : ∀ i ∈ is.map Instruction.unified, i.IsCovered blame := by
    intro i hMem
    obtain ⟨j, hInstruction, rfl⟩ := List.mem_map.mp hMem
    exact (h j hInstruction).unified
  obtain ⟨ts, hReads, hCovered⟩ := exists_reads_source hUnified
  rw [tokens, unifyLineEnds_source hNumeral, hReads.lex_eq]
  exact hCovered

end Tokens

end Script

end SqlWeave
