import SqlWeave.Proofs.Script.Spelling
import SqlWeave.Proofs.Text.Digits

/-!
# References to texts

The source of a script refers to the literal texts of its template by index.  `references`
goes through a source and lists the indices behind `_text[`, wherever that stands outside of
quotes.  Quoted arguments and the segments of paths may spell the same, and are left out.

Only the instructions that put out a text refer to one, each of them once.

## Main results

* `refers_instruction`: what an instruction refers to.
* `references_source`: the source of a script refers to the texts that its instructions put
  out, in their order.
-/

namespace SqlWeave.Script

open Number Template Text

/-! ## Going through a source -/

/-- Where a reader of a source stands: outside of quotes, between them, or behind a backslash
between them. -/
inductive Quoting
  | outside
  | between
  | escaped
  deriving DecidableEq

/-- Where the reader stands behind a character. -/
def Quoting.next : Quoting → Char → Quoting
  | outside, c => if c == '\x27' then between else outside
  | between, c => if c == '\x27' then outside else if c == '\\' then escaped else between
  | escaped, _ => between

/-- What stands before the index of a text. -/
def textMark : List Char :=
  "_text[".toList

/-- The indices behind the marks of texts that stand outside of quotes, as they are written. -/
def references (q : Quoting) : List Char → List (List Char)
  | [] => []
  | c :: rest =>
    let more := references (q.next c) rest
    if q = .outside ∧ textMark.isPrefixOf (c :: rest) then
      ((c :: rest).drop textMark.length).takeWhile (· != ']') :: more
    else more

/-- Whatever stands behind `s`, the source `s` has the references `own`, and ends outside of
quotes. -/
def Refers (s : List Char) (own : List (List Char)) : Prop :=
  ∀ rest, references .outside (s ++ rest) = own ++ references .outside rest

theorem refers_nil : Refers [] [] :=
  fun _ => rfl

theorem Refers.append {s t : List Char} {own more : List (List Char)} (h : Refers s own)
    (hMore : Refers t more) : Refers (s ++ t) (own ++ more) := by
  intro rest
  rw [List.append_assoc, List.append_assoc, h, hMore]

/-- Two sources without references. -/
theorem Refers.append_nil {s t : List Char} (h : Refers s []) (hMore : Refers t []) :
    Refers (s ++ t) [] :=
  h.append hMore

/-! ## Sources without references -/

/-- Is there neither a quote nor a part of the mark of a text that could be gone on with? -/
def isInert : List Char → Bool
  | [] => true
  | c :: rest =>
    c != '\x27' && !textMark.isPrefixOf (c :: rest) && !(c :: rest).isPrefixOf textMark &&
      isInert rest

theorem refers_of_isInert {s : List Char} (h : isInert s = true) : Refers s [] := by
  induction s with
  | nil => exact refers_nil
  | cons c more ih =>
    simp only [isInert, Bool.and_eq_true, bne_iff_ne, Bool.not_eq_true'] at h
    obtain ⟨⟨⟨hQuote, hMark⟩, hPart⟩, hMore⟩ := h
    intro rest
    have hNext : Quoting.outside.next c = .outside := by simp [Quoting.next, hQuote]
    have hNone : ¬ textMark.isPrefixOf (c :: (more ++ rest)) = true := by
      rw [List.isPrefixOf_iff_prefix]
      intro hPrefix
      rcases List.prefix_or_prefix_of_prefix hPrefix (List.prefix_append (c :: more) rest) with
        hFirst | hFirst
      · rw [List.isPrefixOf_iff_prefix.mpr hFirst] at hMark
        cases hMark
      · rw [List.isPrefixOf_iff_prefix.mpr hFirst] at hPart
        cases hPart
    rw [List.cons_append, references, if_neg fun hBoth => hNone hBoth.2, hNext]
    exact ih hMore rest

/-- Characters that stand neither in the mark of a text nor for a quote. -/
theorem isInert_of_forall {s : List Char} (h : ∀ c ∈ s, c ∉ '\x27' :: textMark) :
    isInert s = true := by
  induction s with
  | nil => rfl
  | cons c rest ih =>
    have hChar := h c List.mem_cons_self
    have hRest := ih fun d hMem => h d (List.mem_cons_of_mem c hMem)
    rw [List.mem_cons, not_or] at hChar
    have hMark : textMark.isPrefixOf (c :: rest) = false := by
      rw [Bool.eq_false_iff, ne_eq, List.isPrefixOf_iff_prefix]
      intro hPrefix
      exact hChar.2 ((List.cons_prefix_cons.mp hPrefix).1 ▸ List.mem_cons_self)
    have hPart : (c :: rest).isPrefixOf textMark = false := by
      rw [Bool.eq_false_iff, ne_eq, List.isPrefixOf_iff_prefix]
      intro hPrefix
      exact hChar.2 (hPrefix.subset List.mem_cons_self)
    simp [isInert, hChar.1, hMark, hPart, hRest]

theorem references_escapeQuoted (s rest : List Char) :
    references .between (escapeQuoted s ++ '\x27' :: rest) = references .outside rest := by
  induction s with
  | nil => rfl
  | cons c more ih =>
    have hCons : escapeQuoted (c :: more) =
        (if c == '\\' || c == '\x27' then ['\\', c] else [c]) ++ escapeQuoted more := rfl
    rw [hCons]
    split
    · exact ih
    · next hPlain =>
      simp only [Bool.or_eq_true, not_or, Bool.not_eq_true] at hPlain
      have hNext : Quoting.between.next c = .between := by simp [Quoting.next, hPlain]
      show references .between (c :: (escapeQuoted more ++ '\x27' :: rest)) = _
      rw [references, if_neg (fun hBoth => Quoting.noConfusion hBoth.1), hNext]
      exact ih

/-- What stands between quotes does not matter. -/
theorem refers_quotedSource (s : List Char) : Refers (quotedSource s) [] := by
  intro rest
  have hQuote : quotedSource s ++ rest = '\x27' :: (escapeQuoted s ++ '\x27' :: rest) := by
    simp [quotedSource]
  rw [hQuote]
  exact references_escapeQuoted s rest

theorem refers_commaJoined {parts : List (List Char)} (h : ∀ s ∈ parts, Refers s []) :
    Refers (commaJoined parts) [] := by
  refine of_commaJoined (P := fun s => Refers s []) refers_nil (fun s t hs ht => ?_) h
  exact hs.append_nil ((refers_of_isInert (s := [',', ' ']) (by decide)).append_nil ht)

/-! ## Numbers and names -/

theorem isInert_of_digits {s : List Char}
    (h : ∀ c ∈ s, isDecimalDigit c = true ∨ c = '-' ∨ c = '.') : isInert s = true := by
  apply isInert_of_forall
  intro c hMem hMark
  have hAll : (('\x27' :: textMark).all fun d => !isDecimalDigit d && d != '-' && d != '.') = true :=
    by decide
  have hOther := List.all_eq_true.mp hAll c hMark
  simp only [Bool.and_eq_true, Bool.not_eq_true', bne_iff_ne] at hOther
  obtain ⟨⟨hDigit, hMinus⟩, hPoint⟩ := hOther
  rcases h c hMem with hIs | hIs | hIs
  · rw [hDigit] at hIs
    cases hIs
  · exact hMinus hIs
  · exact hPoint hIs

theorem refers_natText (n : Nat) : Refers (natText n) [] := by
  apply refers_of_isInert
  apply isInert_of_forall
  intro c hMem hMark
  have hNone : ('\x27' :: textMark).all (fun d => !d.isDigit) = true := by decide
  have hOther := List.all_eq_true.mp hNone c hMark
  rw [digits_natText c hMem] at hOther
  cases hOther

theorem refers_numbered {name : String} (hName : isInert name.toList = true) (n : Nat) :
    Refers (numbered name n) [] :=
  (refers_of_isInert hName).append_nil (refers_natText n)

theorem refers_contextName (n : Nat) : Refers (contextName n) [] :=
  refers_numbered (by decide) n

theorem refers_variableName (v : LoopVariable) (n : Nat) : Refers (variableName v n) [] :=
  refers_numbered (by cases v <;> decide) n

/-- The reference to a text. -/
theorem refers_text (n : Nat) : Refers (numbered "_text[" n ++ [']']) [natText n] := by
  intro rest
  have hIndex : ((natText n) ++ ']' :: rest).takeWhile (· != ']') = natText n := by
    rw [List.takeWhile_append_of_pos, List.takeWhile_cons_of_neg (by simp), List.append_nil]
    intro c hMem
    have hDigit := digits_natText c hMem
    rw [bne_iff_ne]
    rintro rfl
    exact absurd hDigit (by decide)
  have hBehind : Refers ("text[".toList ++ (natText n ++ [']'])) [] :=
    (refers_of_isInert (by decide)).append_nil
      ((refers_natText n).append_nil (refers_of_isInert (by decide)))
  have hMore := hBehind rest
  have hMark :
      textMark.isPrefixOf ('_' :: ("text[".toList ++ (natText n ++ [']']) ++ rest)) = true := rfl
  show references .outside ('_' :: ("text[".toList ++ (natText n ++ [']']) ++ rest)) = _
  rw [references, if_pos ⟨rfl, hMark⟩]
  show List.takeWhile (· != ']') (natText n ++ [']'] ++ rest) :: references .outside _ = _
  rw [hMore, List.append_assoc]
  exact congrArg (· :: references .outside rest) hIndex

/-! ## Instructions -/

/-- A numeral of the expression consists of digits, signs and points. -/
def Expr.IsOrdinary : Expr → Prop
  | .numeral token => ∀ c ∈ token, isDecimalDigit c = true ∨ c = '-' ∨ c = '.'
  | _ => True

theorem refers_expr {e : Expr} (h : e.IsOrdinary) : Refers e.source [] := by
  cases e with
  | text s => exact refers_quotedSource s
  | numeral token => exact refers_of_isInert (isInert_of_digits h)
  | constant c => exact refers_of_isInert (by cases c <;> decide)
  | loopVariable v n => exact refers_variableName v n
  | path n segments =>
    cases segments with
    | nil => exact refers_contextName n
    | cons segment more =>
      have hSegments : Refers (commaJoined ((segment :: more).map quotedSource)) [] := by
        apply refers_commaJoined
        intro s hMem
        obtain ⟨t, -, rfl⟩ := List.mem_map.mp hMem
        exact refers_quotedSource t
      have hLookup : Refers "_lookup(".toList [] := refers_of_isInert (by decide)
      have hComma : Refers ", ".toList [] := refers_of_isInert (by decide)
      have hEnd : Refers [')'] [] := refers_of_isInert (by decide)
      exact (((hLookup.append_nil (refers_contextName n)).append_nil hComma).append_nil
        hSegments).append_nil hEnd

theorem refers_call {function : String} (hName : isInert function.toList = true) {e : Expr}
    (h : e.IsOrdinary) : Refers (callSource function e) [] := by
  have hOpen : Refers ['('] [] := refers_of_isInert (by decide)
  have hClose : Refers [')'] [] := refers_of_isInert (by decide)
  have hCall := (refers_of_isInert hName).append_nil
    (hOpen.append_nil ((refers_expr h).append_nil hClose))
  have hSource : callSource function e = function.toList ++ (['('] ++ (e.source ++ [')'])) := by
    simp [callSource]
  rwa [hSource]

theorem refers_outputSource {s : List Char} {own : List (List Char)} (h : Refers s own) :
    Refers (outputSource s) own := by
  have hOpen : Refers "\x7b\x7b ".toList [] := refers_of_isInert (by decide)
  have hClose : Refers " \x7d\x7d".toList [] := refers_of_isInert (by decide)
  have hOutput := (hOpen.append h).append hClose
  rwa [List.nil_append, List.append_nil] at hOutput

theorem refers_statementSource {s : List Char} (h : Refers s []) :
    Refers (statementSource s) [] := by
  have hOpen : Refers "\x7b% ".toList [] := refers_of_isInert (by decide)
  have hClose : Refers " %\x7d".toList [] := refers_of_isInert (by decide)
  exact (hOpen.append_nil h).append_nil hClose

/-- The text that an instruction puts out. -/
def Instruction.index? : Instruction → Option Nat
  | .text index => some index
  | _ => none

/-- What an instruction refers to: the text that it puts out, if it puts out one. -/
theorem refers_instruction {i : Instruction} (h : ∀ e, i.expr? = some e → e.IsOrdinary) :
    Refers i.source (i.index?.toList.map natText) := by
  cases i with
  | text index => exact refers_outputSource (refers_text index)
  | output helper e =>
    have hExpr := h e rfl
    cases helper with
    | none => exact refers_outputSource (refers_expr hExpr)
    | some helper =>
      exact refers_outputSource (refers_call (by cases helper <;> decide) hExpr)
  | opensChoice expected e =>
    have hCall : Refers (callSource "_truthy" e) [] := refers_call (by decide) (h e rfl)
    cases expected with
    | true => exact refers_statementSource ((refers_of_isInert (by decide)).append_nil hCall)
    | false => exact refers_statementSource ((refers_of_isInert (by decide)).append_nil hCall)
  | opensLoop n e =>
    have hNames : Refers (commaJoined (loopNames n)) [] := by
      apply refers_commaJoined
      intro s hMem
      simp only [loopNames, List.mem_cons, List.not_mem_nil, or_false] at hMem
      rcases hMem with rfl | rfl | rfl | rfl | rfl
      · exact refers_variableName .key n
      · exact refers_contextName n
      · exact refers_variableName .index n
      · exact refers_variableName .first n
      · exact refers_variableName .last n
    have hFor : Refers "for ".toList [] := refers_of_isInert (by decide)
    have hIn : Refers " in ".toList [] := refers_of_isInert (by decide)
    exact refers_statementSource (((hFor.append_nil hNames).append_nil hIn).append_nil
      (refers_call (by decide) (h e rfl)))
  | opensBound n e =>
    have hOpen : Refers "call(".toList [] := refers_of_isInert (by decide)
    have hClose : Refers ") ".toList [] := refers_of_isInert (by decide)
    exact refers_statementSource (((hOpen.append_nil (refers_contextName n)).append_nil
      hClose).append_nil (refers_call (by decide) (h e rfl)))
  | _ => exact refers_of_isInert (by decide)

/-- The source of a script refers to the texts that its instructions put out, in their
order. -/
theorem references_source {instructions : List Instruction}
    (h : ∀ i ∈ instructions, ∀ e, i.expr? = some e → e.IsOrdinary) :
    references .outside (source instructions) =
      (instructions.filterMap Instruction.index?).map natText := by
  induction instructions with
  | nil => rfl
  | cons i more ih =>
    have hFirst := refers_instruction (h i List.mem_cons_self) (source more)
    have hMore := ih fun j hMem => h j (List.mem_cons_of_mem i hMem)
    have hSource : source (i :: more) = i.source ++ source more := rfl
    rw [hSource, hFirst, hMore]
    cases hIndex : i.index? with
    | none => rw [List.filterMap_cons_none hIndex]; rfl
    | some n => rw [List.filterMap_cons_some hIndex]; rfl

end SqlWeave.Script
