import SqlWeave.Proofs.Script.Lexing

/-!
# The tokens of a script

Every instruction is written so that it is read back as its own tokens, whatever stands
behind it.  Texts must not hold a carriage return, which the lexer takes for a line end,
and numerals have to be of a size that it reads.

## Main results

* `tokens_source`: the tokens of a script's source are those of its instructions.
-/

namespace SqlWeave.Script

open Text Number Template

/-! ## Joining what is read -/

namespace Spells

variable {s t : List Char} {ts us : List Token} {c : Char}

/-- A text goes on with a mark. -/
theorem append (hFirst : Spells s ts) (hMark : c ∈ marks) (hSecond : Spells (c :: t) us) :
    Spells (s ++ c :: t) (ts ++ us) := by
  intro d hEnd rest
  rw [List.append_assoc]
  exact (hFirst c hMark _).trans (hSecond d hEnd rest)

theorem space (h : Spells t us) : Spells (' ' :: t) us :=
  fun d hEnd rest => (Reads.space _).trans (h d hEnd rest)

theorem symbol (hMark : c ∈ ['(', ')', ',', '[', ']', '-']) (h : Spells t us) :
    Spells (c :: t) (.symbol c :: us) :=
  fun d hEnd rest => (Reads.symbol hMark _).trans (h d hEnd rest)

end Spells

theorem commaJoined_cons_cons (s t : List Char) (more : List (List Char)) :
    commaJoined (s :: t :: more) = s ++ ',' :: ' ' :: commaJoined (t :: more) := by
  simp [commaJoined, List.intercalate]

/-- What holds of the parts holds of them when they are joined, if a separator between two texts
keeps it. -/
theorem of_commaJoined {P : List Char → Prop} {parts : List (List Char)} (hNil : P [])
    (hJoin : ∀ s t, P s → P t → P (s ++ ',' :: ' ' :: t)) (h : ∀ s ∈ parts, P s) :
    P (commaJoined parts) := by
  induction parts with
  | nil => exact hNil
  | cons s more ih =>
    have hFirst := h s List.mem_cons_self
    cases more with
    | nil => simpa [commaJoined, List.intercalate] using hFirst
    | cons t more =>
      rw [commaJoined_cons_cons]
      exact hJoin s _ hFirst (ih fun u hMem => h u (List.mem_cons_of_mem _ hMem))

/-- The tokens of parts behind commas. -/
def separated {α : Type} (f : α → Token) (parts : List α) : List Token :=
  parts.flatMap fun a => [.symbol ',', f a]

theorem spells_commaJoined {α : Type} {g : α → List Char} {f : α → Token} (first : α)
    (more : List α) (hParts : ∀ a ∈ first :: more, Spells (g a) [f a]) :
    Spells (commaJoined ((first :: more).map g))
      (f first :: separated f more) := by
  induction more generalizing first with
  | nil =>
    have hOnly := hParts first List.mem_cons_self
    simpa [commaJoined, List.intercalate, separated] using hOnly
  | cons second more ih =>
    have hFirst := hParts first List.mem_cons_self
    have hRest := ih second (fun a hMem => hParts a (List.mem_cons_of_mem _ hMem))
    rw [List.map_cons, List.map_cons, commaJoined_cons_cons, separated, List.flatMap_cons]
    exact hFirst.append (by decide) (.symbol (by decide) hRest.space)

/-! ## Expressions -/

theorem isName_numbered {name : String} (n : Nat) (hName : isName name.toList = true) :
    isName (numbered name n) = true := by
  unfold numbered
  cases hChars : name.toList with
  | nil =>
    rw [hChars] at hName
    cases hName
  | cons c rest =>
    rw [hChars] at hName
    simp only [isName, List.cons_append, List.all_append, Bool.and_eq_true] at hName ⊢
    refine ⟨hName.1, hName.2, List.all_eq_true.mpr ?_⟩
    intro d hMem
    obtain ⟨-, -, hWord, -⟩ := digit_facts (digits_natText d hMem)
    exact hWord

theorem isName_contextName (n : Nat) : isName (contextName n) = true :=
  isName_numbered n (by decide)

theorem isName_variableName (v : LoopVariable) (n : Nat) : isName (variableName v n) = true := by
  apply isName_numbered
  cases v <;> decide

/-- The tokens of an expression. -/
def Expr.tokens : Expr → List Token
  | .text s => [.text s]
  | .numeral token => numeralTokens (Numeral.read token)
  | .constant c => [.name (constantName c).toList]
  | .loopVariable v n => [.name (variableName v n)]
  | .path n [] => [.name (contextName n)]
  | .path n (segment :: more) =>
    .name "_lookup".toList :: .symbol '(' :: .name (contextName n) ::
      separated .text (segment :: more) ++ [.symbol ')']

/-- An expression that is read back: without carriage returns in its texts, and with a
numeral of a size that is read. -/
def Expr.IsPlain : Expr → Prop
  | .text s => '\r' ∉ s
  | .numeral token => ∃ x : Numeral, token = x.chars ∧ x.IsReadable digitLimit
  | .path _ segments => ∀ s ∈ segments, '\r' ∉ s
  | _ => True

/-- An expression is read back if it is no numeral, or if the numeral is. -/
theorem spells_expr_of {e : Expr}
    (hNumeral : ∀ token, e = .numeral token → Spells token (numeralTokens (Numeral.read token))) :
    Spells e.source e.tokens := by
  cases e with
  | text s => exact spells_text s
  | numeral token => exact hNumeral token rfl
  | constant c =>
    apply spells_name
    cases c <;> decide
  | loopVariable v n => exact spells_name (isName_variableName v n)
  | path n segments =>
    cases segments with
    | nil => exact spells_name (isName_contextName n)
    | cons segment more =>
      have hSource : Expr.source (.path n (segment :: more)) =
          "_lookup".toList ++ '(' :: (contextName n ++ ',' :: ' ' ::
            (commaJoined ((segment :: more).map quotedSource) ++ [')'])) := by
        simp [Expr.source]
      have hTokens : Expr.tokens (.path n (segment :: more)) =
          [.name "_lookup".toList] ++ .symbol '(' :: ([.name (contextName n)] ++ .symbol ',' ::
            ((.text segment :: separated .text more) ++ [.symbol ')'])) := by
        simp [Expr.tokens, separated]
      have hSegments := spells_commaJoined segment more (g := quotedSource) (f := .text)
        (fun s _ => spells_text s)
      have hClosed := hSegments.append (by decide) (.symbol (c := ')') (by decide) .nil)
      have hContext := (spells_name (isName_contextName n)).append (by decide)
        (.symbol (c := ',') (by decide) hClosed.space)
      rw [hSource, hTokens]
      exact (spells_name (by decide)).append (by decide) (.symbol (by decide) hContext)

/-- The expression of an instruction. -/
def Instruction.expr? : Instruction → Option Expr
  | output _ e | opensChoice _ e | opensLoop _ e | opensBound _ e => some e
  | _ => none

/-- The tokens of the call of a function on what is read as `ts`. -/
def callTokensWith (function : String) (ts : List Token) : List Token :=
  .name function.toList :: .symbol '(' :: ts ++ [.symbol ')']

/-- The tokens of an instruction whose expression is read as `ts`. -/
def Instruction.tokensWith (ts : List Token) : Instruction → List Token
  | text index =>
    [.beginOutput, .name "_text".toList, .symbol '[', .integer index, .symbol ']', .endOutput]
  | output none _ => .beginOutput :: ts ++ [.endOutput]
  | output (some helper) _ =>
    .beginOutput :: callTokensWith (helperName helper) ts ++ [.endOutput]
  | opensChoice true _ =>
    .beginStatement :: .name "if".toList :: callTokensWith "_truthy" ts ++ [.endStatement]
  | opensChoice false _ =>
    .beginStatement :: .name "if".toList :: .name "not".toList :: callTokensWith "_truthy" ts ++
      [.endStatement]
  | opensLoop n _ =>
    .beginStatement :: .name "for".toList :: .name (variableName .key n) ::
      separated .name [contextName n, variableName .index n, variableName .first n,
        variableName .last n] ++
      .name "in".toList :: callTokensWith "_iterate" ts ++ [.endStatement]
  | opensBound n _ =>
    .beginStatement :: .name "call".toList :: .symbol '(' :: .name (contextName n) ::
      .symbol ')' :: callTokensWith "_sql" ts ++ [.endStatement]
  | otherwise => [.beginStatement, .name "else".toList, .endStatement]
  | closesChoice => [.beginStatement, .name "endif".toList, .endStatement]
  | closesLoop => [.beginStatement, .name "endfor".toList, .endStatement]
  | closesBound => [.beginStatement, .name "endcall".toList, .endStatement]

/-- The tokens of the call of a function. -/
def callTokens (function : String) (e : Expr) : List Token :=
  .name function.toList :: .symbol '(' :: e.tokens ++ [.symbol ')']

/-- The tokens of an instruction. -/
def Instruction.tokens : Instruction → List Token
  | text index =>
    [.beginOutput, .name "_text".toList, .symbol '[', .integer index, .symbol ']', .endOutput]
  | output none e => .beginOutput :: e.tokens ++ [.endOutput]
  | output (some helper) e => .beginOutput :: callTokens (helperName helper) e ++ [.endOutput]
  | opensChoice true e =>
    .beginStatement :: .name "if".toList :: callTokens "_truthy" e ++ [.endStatement]
  | opensChoice false e =>
    .beginStatement :: .name "if".toList :: .name "not".toList :: callTokens "_truthy" e ++
      [.endStatement]
  | opensLoop n e =>
    .beginStatement :: .name "for".toList :: .name (variableName .key n) ::
      separated .name [contextName n, variableName .index n, variableName .first n,
        variableName .last n] ++
      .name "in".toList :: callTokens "_iterate" e ++ [.endStatement]
  | opensBound n e =>
    .beginStatement :: .name "call".toList :: .symbol '(' :: .name (contextName n) ::
      .symbol ')' :: callTokens "_sql" e ++ [.endStatement]
  | otherwise => [.beginStatement, .name "else".toList, .endStatement]
  | closesChoice => [.beginStatement, .name "endif".toList, .endStatement]
  | closesLoop => [.beginStatement, .name "endfor".toList, .endStatement]
  | closesBound => [.beginStatement, .name "endcall".toList, .endStatement]

/-- An instruction that is read back. -/
def Instruction.IsPlain : Instruction → Prop
  | text index => (natText index).length ≤ digitLimit
  | output _ e => e.IsPlain
  | opensChoice _ e => e.IsPlain
  | opensLoop _ e => e.IsPlain
  | opensBound _ e => e.IsPlain
  | _ => True

theorem spells_callWith (function : String) {e : Expr} {ts : List Token}
    (hName : isName function.toList = true) (hExpr : Spells e.source ts) :
    Spells (callSource function e) (callTokensWith function ts) := by
  have hClosed := hExpr.append (by decide) (.symbol (c := ')') (by decide) .nil)
  have hCall := (spells_name hName).append (by decide) (.symbol (c := '(') (by decide) hClosed)
  have hSource : callSource function e = function.toList ++ '(' :: (e.source ++ [')']) := by
    simp [callSource]
  rw [hSource]
  exact hCall

theorem reads_output {s : List Char} {ts : List Token} (h : Spells s ts) (rest : List Char) :
    Reads false (outputSource s ++ rest) (.beginOutput :: ts ++ [.endOutput]) false rest := by
  have hEnd := (Reads.space _).trans (Reads.closeOutput rest)
  have hBody := (Reads.space _).trans ((h ' ' (by decide) _).trans hEnd)
  have hSource : outputSource s ++ rest =
      '\x7b' :: '\x7b' :: ' ' :: (s ++ ' ' :: '\x7d' :: '\x7d' :: rest) := by
    simp [outputSource]
  rw [hSource]
  exact (Reads.openOutput _).trans hBody

theorem reads_statement {s : List Char} {ts : List Token} (h : Spells s ts) (rest : List Char) :
    Reads false (statementSource s ++ rest) (.beginStatement :: ts ++ [.endStatement]) false
      rest := by
  have hEnd := (Reads.space _).trans (Reads.closeStatement rest)
  have hBody := (Reads.space _).trans ((h ' ' (by decide) _).trans hEnd)
  have hSource : statementSource s ++ rest =
      '\x7b' :: '%' :: ' ' :: (s ++ ' ' :: '%' :: '\x7d' :: rest) := by
    simp [statementSource]
  rw [hSource]
  exact (Reads.openStatement _).trans hBody

theorem spells_keyword {s t : List Char} {ts : List Token} (hName : isName s = true)
    (h : Spells t ts) : Spells (s ++ ' ' :: t) (.name s :: ts) :=
  (spells_name hName).append (by decide) h.space

/-- A number but zero has no leading zero. -/
theorem natText_cons {n : Nat} (hPos : 0 < n) : ∃ c rest, natText n = c :: rest ∧ c ≠ '0' := by
  induction n using Nat.strongRecOn with
  | ind n ih =>
    by_cases hSmall : n < 10
    · refine ⟨n.digitChar, [], Nat.toDigits_of_lt_base hSmall, ?_⟩
      intro hZero
      have hNumber := Nat.digitChar_eq_zero.mp hZero
      omega
    · obtain ⟨c, rest, hDigits, hLeading⟩ := ih (n / 10) (by omega) (by omega)
      have hText : natText n = natText (n / 10) ++ [(n % 10).digitChar] :=
        Nat.toDigits_of_base_le (by decide) (by omega)
      rw [hText, hDigits]
      exact ⟨c, rest ++ [(n % 10).digitChar], rfl, hLeading⟩

/-- The digits of a number are those of a numeral. -/
theorem isRegular_natText (n : Nat) : (Numeral.mk false (natText n) []).IsRegular where
  digits := by
    intro c hMem
    rw [List.append_nil] at hMem
    exact digits_natText c hMem
  leading := by
    rcases Nat.eq_zero_or_pos n with rfl | hPos
    · exact .inl rfl
    · exact .inr (natText_cons hPos)

theorem spells_index {n : Nat} (hShort : (natText n).length ≤ digitLimit) :
    Spells (natText n) [.integer n] := by
  have hNumeral := spells_numeral (isRegular_natText n) fun _ => hShort
  simpa [Numeral.chars, numeralTokens, magnitudeToken, ofAsciiDigits_natText] using hNumeral

theorem isName_of_mem_loopNames {n : Nat} {s : List Char} (hMem : s ∈ loopNames n) :
    isName s = true := by
  simp only [loopNames, List.mem_cons, List.not_mem_nil, or_false] at hMem
  rcases hMem with rfl | rfl | rfl | rfl | rfl
  · exact isName_variableName .key n
  · exact isName_contextName n
  · exact isName_variableName .index n
  · exact isName_variableName .first n
  · exact isName_variableName .last n

/-- What is written for an instruction is read back, with its expression as it is read. -/
theorem reads_instructionWith {i : Instruction} {ts : List Token}
    (hIndex : ∀ n, i = .text n → (natText n).length ≤ digitLimit)
    (hExpr : ∀ e, i.expr? = some e → Spells e.source ts) (rest : List Char) :
    Reads false (i.source ++ rest) (i.tokensWith ts) false rest := by
  cases i with
  | text index =>
    have hIndex := (spells_index (hIndex index rfl)).append (by decide) (.symbol (c := ']') (by decide) .nil)
    have hText := (spells_name (s := "_text".toList) (by decide)).append (by decide)
      (.symbol (c := '[') (by decide) hIndex)
    have hSource : numbered "_text[" index ++ [']'] =
        "_text".toList ++ '[' :: (natText index ++ [']']) := by
      simp [numbered]
    rw [Instruction.source, hSource]
    exact reads_output hText rest
  | output helper e =>
    cases helper with
    | none => exact reads_output (hExpr e rfl) rest
    | some helper =>
      apply reads_output (spells_callWith _ _ (hExpr e rfl))
      cases helper <;> decide
  | opensChoice expected e =>
    have hCall := spells_callWith "_truthy" (by decide) (hExpr e rfl)
    cases expected with
    | true => exact reads_statement (spells_keyword (s := "if".toList) (by decide) hCall) rest
    | false =>
      exact reads_statement (spells_keyword (s := "if".toList) (by decide)
        (spells_keyword (s := "not".toList) (by decide) hCall)) rest
  | opensLoop n e =>
    have hCall := spells_callWith "_iterate" (by decide) (hExpr e rfl)
    have hIn := spells_keyword (s := "in".toList) (by decide) hCall
    have hNames := spells_commaJoined (variableName .key n)
      [contextName n, variableName .index n, variableName .first n, variableName .last n]
      (g := id) (f := .name) fun s hMem => spells_name (isName_of_mem_loopNames hMem)
    rw [List.map_id] at hNames
    have hLoop := spells_keyword (s := "for".toList) (by decide)
      (hNames.append (c := ' ') (by decide) hIn.space)
    have hSource : "for ".toList ++ commaJoined (loopNames n) ++ " in ".toList ++
          callSource "_iterate" e =
        "for".toList ++ ' ' :: (commaJoined (loopNames n) ++ ' ' :: ("in".toList ++ ' ' ::
          callSource "_iterate" e)) := by
      simp
    rw [Instruction.source, hSource]
    exact reads_statement hLoop rest
  | opensBound n e =>
    have hCall := spells_callWith "_sql" (by decide) (hExpr e rfl)
    have hName := (spells_name (isName_contextName n)).append (by decide)
      (.symbol (c := ')') (by decide) hCall.space)
    have hBound := (spells_name (s := "call".toList) (by decide)).append (by decide)
      (.symbol (c := '(') (by decide) hName)
    have hSource : "call(".toList ++ contextName n ++ ") ".toList ++ callSource "_sql" e =
        "call".toList ++ '(' :: (contextName n ++ ')' :: ' ' :: callSource "_sql" e) := by
      simp
    rw [Instruction.source, hSource]
    exact reads_statement hBound rest
  | otherwise => exact reads_statement (spells_name (s := "else".toList) (by decide)) rest
  | closesChoice => exact reads_statement (spells_name (s := "endif".toList) (by decide)) rest
  | closesLoop => exact reads_statement (spells_name (s := "endfor".toList) (by decide)) rest
  | closesBound => exact reads_statement (spells_name (s := "endcall".toList) (by decide)) rest

theorem unifyLineEnds_eq {s : List Char} (hReturn : '\r' ∉ s) : unifyLineEnds s = s := by
  induction s with
  | nil => rfl
  | cons c rest ih =>
    rw [List.mem_cons, not_or] at hReturn
    rw [unifyLineEnds]
    · rw [ih hReturn.2]
    · rintro more rfl
      exact absurd rfl hReturn.1
    · rintro rfl
      exact absurd rfl hReturn.1

theorem noReturn_name {s : List Char} (hName : isName s = true) : '\r' ∉ s := by
  cases s with
  | nil => cases hName
  | cons c rest =>
    simp only [isName, Bool.and_eq_true] at hName
    intro hMem
    rcases List.mem_cons.mp hMem with rfl | hMem
    · exact absurd hName.1 (by decide)
    · have hWord := List.all_eq_true.mp hName.2 _ hMem
      exact absurd hWord (by decide)

theorem noReturn_quotedSource {s : List Char} (h : '\r' ∉ s) : '\r' ∉ quotedSource s := by
  have hEscaped : '\r' ∉ escapeQuoted s := by
    intro hMem
    obtain ⟨c, hChar, hMem⟩ := List.mem_flatMap.mp hMem
    split at hMem
    · rcases List.mem_cons.mp hMem with hSlash | hMem
      · exact absurd hSlash (by decide)
      · obtain rfl := List.mem_singleton.mp hMem
        exact h hChar
    · obtain rfl := List.mem_singleton.mp hMem
      exact h hChar
  simp [quotedSource, hEscaped]

theorem noReturn_commaJoined {parts : List (List Char)} (h : ∀ s ∈ parts, '\r' ∉ s) :
    '\r' ∉ commaJoined parts := by
  refine of_commaJoined (P := fun s => '\r' ∉ s) List.not_mem_nil (fun s t hs ht => ?_) h
  simp [hs, ht]

theorem noReturn_chars {x : Numeral} (hDigits : '\r' ∉ x.whole ++ x.fraction) :
    '\r' ∉ x.chars := by
  rw [List.mem_append, not_or] at hDigits
  unfold Numeral.chars
  cases x.negative <;> cases hFraction : x.fraction <;>
    simp_all

theorem noReturn_text (index : Nat) : '\r' ∉ (Instruction.text index).source := by
  have hDigits : '\r' ∉ natText index := by
    intro hMem
    exact absurd (digits_natText _ hMem) (by decide)
  simp [Instruction.source, outputSource, numbered, hDigits]

end SqlWeave.Script
