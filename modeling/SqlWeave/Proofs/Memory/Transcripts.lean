import Mathlib.Data.List.Forall2
import SqlWeave.Memory.Backend
import SqlWeave.Proofs.Layout.Content

/-!
# Terminators in a transcript

A transcript lists what is left of its statements, each with a terminator of its own, on lines
of their own.  Blanks and terminators may close a statement in any mix.  Of these the last run
of terminators is taken off, and the blanks on both sides of it.  Terminators are left exactly
if blanks stand between the terminators at the end of the statement.

Layout puts blank lines behind every separator.  A text that is laid out keeps terminators as
soon as two separators stand behind its last statement.

## Main results

* `isShorn_unterminated`: what is taken off a statement.
* `hasGap_iff`: when a terminator is left at its end.
* `lists_isBare_transcript_iff`: when a transcript terminates its statements once.
* `hasGap_layout`, `separators_of_hasGap_layout`: when a text that is laid out keeps one.
* `transcript_terminates_iff`: all of this, for every list of statements.
-/

namespace SqlWeave.Memory

open Text

/-! ## What closes a statement -/

/-- A character that can close a statement: a blank or a terminator. -/
def isClosing (c : Char) : Bool :=
  isBlank c || c == ';'

/-- `text` is what is left of a statement without the blanks in front of it and without all that
closes it, blanks and terminators in any mix. -/
structure IsBare (statement text : List Char) : Prop where
  exists_ends : ∃ front back, statement = front ++ (text ++ back) ∧
    isBlankText front = true ∧ ∀ c ∈ back, isClosing c = true
  head : ∀ c, text.head? = some c → isBlank c = false
  last : ∀ c, text.getLast? = some c → isClosing c = false

/-- `text` is what is left of a statement without the blanks at both ends, the last run of
terminators and the blanks in front of this run.  Where a terminator is left in front of it,
there is such a run, and there are such blanks. -/
structure IsShorn (statement text : List Char) : Prop where
  exists_run : ∃ front gap run back, statement = front ++ (text ++ (gap ++ (run ++ back))) ∧
    isBlankText front = true ∧ isBlankText gap = true ∧ (∀ c ∈ run, c = ';') ∧
    isBlankText back = true ∧ (text.getLast? = some ';' → gap ≠ [] ∧ run ≠ [])
  head : ∀ c, text.head? = some c → isBlank c = false
  last : ∀ c, text.getLast? = some c → isBlank c = false

/-- Blanks stand between two of the terminators that close a statement. -/
def HasGap (statement : List Char) : Prop :=
  ∃ front gap back, statement = front ++ ';' :: (gap ++ ';' :: back) ∧
    gap ≠ [] ∧ isBlankText gap = true ∧ ∀ c ∈ back, isClosing c = true

theorem isClosing_of_blank {s : List Char} (h : isBlankText s = true) :
    ∀ c ∈ s, isClosing c = true := by
  intro c hc
  rw [isClosing, List.all_eq_true.mp h c hc, Bool.true_or]

theorem isClosing_of_run {run back : List Char} (hRun : ∀ c ∈ run, c = ';')
    (hBack : isBlankText back = true) : ∀ c ∈ run ++ back, isClosing c = true := by
  intro c hc
  rcases List.mem_append.mp hc with hMem | hMem
  · rw [hRun c hMem]
    rfl
  · exact isClosing_of_blank hBack c hMem

/-! ## What is taken off -/

theorem trim_eq (s : List Char) : trim s = (trimStart s).rdropWhile isBlank := rfl

/-- Trimming goes no further than to a character that is no blank. -/
theorem trim_append_cons (s : List Char) {c : Char} (t : List Char) (h : isBlank c = false) :
    trim (s ++ c :: t) = trimStart s ++ c :: trimEnd t := by
  have hStart : trimStart (s ++ c :: t) = trimStart s ++ c :: t :=
    dropWhile_append_of_stop (by simpa using h) s
  rw [trim_eq, hStart]
  exact rdropWhile_append_cons (trimStart s) t h

theorem unterminated_eq (s : List Char) :
    unterminated s = ((trim s).rdropWhile (· == ';')).rdropWhile isBlank := rfl

theorem unterminated_prefix (s : List Char) : unterminated s <+: trimStart s :=
  ((List.rdropWhile_prefix _ _).trans (List.rdropWhile_prefix _ _)).trans
    (List.rdropWhile_prefix _ _)

theorem isBlank_head_unterminated {s : List Char} {c : Char}
    (h : (unterminated s).head? = some c) : isBlank c = false := by
  obtain ⟨rest, hRest⟩ := unterminated_prefix s
  obtain ⟨more, hMore⟩ := List.head?_eq_some_iff.mp h
  have hHead := List.head?_dropWhile_not isBlank s
  rw [← trimStart, ← hRest, hMore] at hHead
  simpa using hHead

/-- One run of terminators is taken off a statement. -/
theorem isShorn_unterminated (s : List Char) : IsShorn s (unterminated s) := by
  have hFront : s.takeWhile isBlank ++ trimStart s = s := List.takeWhile_append_dropWhile
  have hBack := List.rdropWhile_append_rtakeWhile (p := isBlank) (l := trimStart s)
  have hRun := List.rdropWhile_append_rtakeWhile (p := (· == ';')) (l := trim s)
  have hGap := List.rdropWhile_append_rtakeWhile (p := isBlank)
    (l := (trim s).rdropWhile (· == ';'))
  rw [← trim_eq] at hBack
  rw [← unterminated_eq] at hGap
  refine ⟨⟨s.takeWhile isBlank, ((trim s).rdropWhile (· == ';')).rtakeWhile isBlank,
    (trim s).rtakeWhile (· == ';'), (trimStart s).rtakeWhile isBlank, ?_, List.all_takeWhile,
    Sql.Layout.blank_rtakeWhile _, fun c hc => ?_, Sql.Layout.blank_rtakeWhile _, fun hLast => ?_⟩,
    fun c => isBlank_head_unterminated, fun c => of_getLast?_rdropWhile⟩
  · rw [← List.append_assoc (unterminated s), hGap,
      ← List.append_assoc _ (List.rtakeWhile _ _), hRun, hBack, hFront]
  · exact beq_iff_eq.mp (List.mem_rtakeWhile_imp (p := (· == ';')) hc)
  · have hGapNe : ((trim s).rdropWhile (· == ';')).rtakeWhile isBlank ≠ [] := by
      intro hNil
      rw [hNil, List.append_nil] at hGap
      rw [hGap] at hLast
      exact absurd (of_getLast?_rdropWhile hLast) (by decide)
    refine ⟨hGapNe, fun hNil => ?_⟩
    rw [hNil, List.append_nil] at hRun
    rw [hRun] at hGapNe
    refine hGapNe (List.rtakeWhile_eq_nil_iff.mpr fun hNe => ?_)
    exact List.rdropWhile_last_not isBlank (trimStart s) hNe

/-! ## Terminators that are left -/

theorem IsShorn.hasGap {s text : List Char} (h : IsShorn s text)
    (hLast : text.getLast? = some ';') : HasGap s := by
  obtain ⟨front, gap, run, back, hSplit, -, hGap, hRun, hBack, hLeft⟩ := h.exists_run
  obtain ⟨hGapNe, hRunNe⟩ := hLeft hLast
  obtain ⟨before, rfl⟩ := List.getLast?_eq_some_iff.mp hLast
  obtain ⟨c, more, rfl⟩ := List.exists_cons_of_ne_nil hRunNe
  obtain ⟨rfl, hMore⟩ := List.forall_mem_cons.mp hRun
  exact ⟨front ++ before, gap, more ++ back, by simp [hSplit], hGapNe, hGap,
    isClosing_of_run hMore hBack⟩

/-- Where blanks stand between terminators, the terminator in front of them stays: the blanks at the
end come off, and then the terminators down to the gap. -/
theorem HasGap.exists_unterminated {s : List Char} (h : HasGap s) :
    ∃ front more, unterminated s = front ++ ';' :: more ∧ ∀ c ∈ more, isClosing c = true := by
  obtain ⟨front, gap, back, rfl, hGapNe, hGap, hBack⟩ := h
  have hStop : isBlank ';' = false := by decide
  obtain ⟨blanks, c, rfl⟩ := (List.eq_nil_or_concat' gap).resolve_left hGapNe
  have hc : (c == ';') = false := by
    rw [beq_eq_false_iff_ne]
    rintro rfl
    exact Bool.false_ne_true (hStop.symm.trans (List.all_eq_true.mp hGap ';' (by simp)))
  have hTrim : trim (front ++ ';' :: (blanks ++ [c] ++ ';' :: back)) =
      trimStart (front ++ ';' :: (blanks ++ [c])) ++ ';' :: trimEnd back := by
    rw [← trim_append_cons _ _ hStop]
    simp
  have hStart : trimStart (front ++ ';' :: (blanks ++ [c])) =
      trimStart front ++ ';' :: blanks ++ [c] := by
    rw [trimStart, dropWhile_append_of_stop (by simpa using hStop), ← trimStart,
      List.append_assoc, List.cons_append]
  have hRun := rdropWhile_append_cons (p := (· == ';')) (trimStart front ++ ';' :: blanks)
    (';' :: trimEnd back) hc
  refine ⟨trimStart front, (blanks ++ c :: (';' :: trimEnd back).rdropWhile (· == ';')).rdropWhile
    isBlank, ?_, fun d hd => ?_⟩
  · rw [unterminated_eq, hTrim, hStart, List.append_assoc _ [c], List.singleton_append, hRun,
      List.append_assoc, List.cons_append, rdropWhile_append_cons _ _ hStop]
  · have hBlanks := List.forall_mem_append.mp (isClosing_of_blank hGap)
    have hTerminators : ∀ d ∈ ';' :: trimEnd back, isClosing d = true :=
      List.forall_mem_cons.mpr ⟨rfl, fun d hd => hBack d ((List.rdropWhile_prefix _ _).subset hd)⟩
    rcases List.mem_append.mp ((List.rdropWhile_prefix _ _).subset hd) with hMem | hMem
    · exact hBlanks.1 d hMem
    · rcases List.mem_cons.mp hMem with rfl | hRest
      · exact hBlanks.2 d List.mem_cons_self
      · exact hTerminators d ((List.rdropWhile_prefix _ _).subset hRest)

/-- What is left of a statement ends in a terminator exactly if blanks stand between the
terminators at its end. -/
theorem hasGap_iff {s : List Char} : HasGap s ↔ (unterminated s).getLast? = some ';' := by
  refine ⟨fun h => ?_, (isShorn_unterminated s).hasGap⟩
  obtain ⟨front, more, hText, hMore⟩ := h.exists_unterminated
  have hLast := (isShorn_unterminated s).last
  rw [hText, List.getLast?_append_cons, List.getLast?_cons] at hLast ⊢
  cases hMoreLast : more.getLast? with
  | none => rfl
  | some c =>
    rw [hMoreLast] at hLast
    have hClosing := hMore c (List.mem_of_getLast? hMoreLast)
    rw [isClosing, hLast c rfl, Bool.false_or, beq_iff_eq] at hClosing
    exact congrArg some hClosing

instance (s : List Char) : Decidable (HasGap s) :=
  decidable_of_iff _ hasGap_iff.symm

theorem isBare_unterminated_iff {s : List Char} : IsBare s (unterminated s) ↔ ¬HasGap s := by
  have hShorn := isShorn_unterminated s
  rw [hasGap_iff]
  refine ⟨fun h hLast => absurd (h.last ';' hLast) (by decide), fun hLast => ?_⟩
  obtain ⟨front, gap, run, back, hSplit, hFront, hGap, hRun, hBack, -⟩ := hShorn.exists_run
  refine ⟨⟨front, gap ++ (run ++ back), hSplit, hFront, fun c hc => ?_⟩, hShorn.head,
    fun c hc => ?_⟩
  · rcases List.mem_append.mp hc with hMem | hMem
    · exact isClosing_of_blank hGap c hMem
    · exact isClosing_of_run hRun hBack c hMem
  · have hNe : c ≠ ';' := by
      rintro rfl
      exact hLast hc
    rw [isClosing, hShorn.last c hc, Bool.false_or, beq_eq_false_iff_ne]
    exact hNe

/-- Nothing is taken off but what closes a statement. -/
theorem IsBare.prefix_unterminated {s text : List Char} (h : IsBare s text) :
    text <+: unterminated s := by
  obtain ⟨front, back, hSplit, hFront, -⟩ := h.exists_ends
  rcases List.eq_nil_or_concat' text with rfl | ⟨start, c, rfl⟩
  · exact List.nil_prefix
  · obtain ⟨hBlank, hTerminator⟩ := Bool.or_eq_false_iff.mp (h.last c List.getLast?_concat)
    have hHead : ∀ d, start.head? = some d → isBlank d = false := by
      intro d hd
      exact h.head d (by rw [List.head?_append, hd]; rfl)
    have hTrim : trim s = start ++ c :: trimEnd back := by
      have hLast : s = (front ++ start) ++ c :: back := by simp [hSplit]
      rw [hLast, trim_append_cons _ _ hBlank, trimStart,
        dropWhile_append_of_run (List.all_eq_true.mp hFront) hHead]
    rw [unterminated_eq, hTrim, rdropWhile_append_cons (p := (· == ';')) _ _ hTerminator,
      rdropWhile_append_cons _ _ hBlank]
    exact ⟨_, List.append_assoc _ _ _⟩

/-! ## Lines with a terminator each -/

/-- Texts with one terminator each, on lines of their own. -/
def terminated (texts : List (List Char)) : List Char :=
  List.intercalate ['\n'] (texts.map (· ++ [';']))

/-- `s` lists what is left of statements, in order, on lines of their own and with one
terminator each. -/
def Lists (IsLeft : List Char → List Char → Prop) (statements : List (List Char))
    (s : List Char) : Prop :=
  ∃ texts, List.Forall₂ IsLeft statements texts ∧ s = terminated texts

theorem transcript_eq {statements : List (List Char)} (h : statements ≠ []) :
    transcript statements = terminated (statements.map unterminated) := by
  obtain ⟨s, more, rfl⟩ := List.exists_cons_of_ne_nil h
  rw [transcript, terminated, List.map_cons, List.map_cons, Sql.intercalate_cons_eq,
    Sql.intercalate_cons_eq, List.append_assoc, List.append_assoc]
  congr 1
  generalize more.map unterminated = texts
  induction texts with
  | nil => rfl
  | cons text texts ih => simp_all

/-- Longer lines make a longer text. -/
theorem length_lines_le {lines others : List (List Char)}
    (h : List.Forall₂ (fun line other => line.length ≤ other.length) lines others) :
    (lines.flatMap ('\n' :: ·)).length ≤ (others.flatMap ('\n' :: ·)).length := by
  induction h with
  | nil => exact Nat.le_refl _
  | cons hLine _ ih =>
    simp only [List.flatMap_cons, List.length_append, List.length_cons]
    omega

/-- Lines that are no longer than others, and make the same text, are the same lines. -/
theorem eq_of_lines_eq {lines others : List (List Char)}
    (h : List.Forall₂ (fun line other => line.length ≤ other.length) lines others)
    (hEq : lines.flatMap ('\n' :: ·) = others.flatMap ('\n' :: ·)) : lines = others := by
  induction h with
  | nil => rfl
  | @cons line other more rest hLine hMore ih =>
    have hLe := length_lines_le hMore
    have hLength := congrArg List.length hEq
    simp only [List.flatMap_cons, List.length_append, List.length_cons] at hLength
    simp only [List.flatMap_cons, List.cons_append, List.cons.injEq, true_and] at hEq
    obtain ⟨rfl, hRest⟩ := List.append_inj hEq (by omega)
    rw [ih hRest]

theorem eq_of_terminated_eq {texts others : List (List Char)}
    (h : List.Forall₂ (· <+: ·) texts others) (hEq : terminated texts = terminated others) :
    texts = others := by
  by_cases hNil : texts = []
  · subst hNil
    exact (List.forall₂_nil_left_iff.mp h).symm
  · have hOthers : others ≠ [] := by
      rintro rfl
      exact hNil (List.forall₂_nil_right_iff.mp h)
    have hLines := congrArg ('\n' :: ·) hEq
    refine List.map_injective_iff.mpr (List.append_left_injective [';']) (eq_of_lines_eq ?_ ?_)
    · rw [List.forall₂_map_left_iff, List.forall₂_map_right_iff]
      refine h.imp fun text other hPrefix => ?_
      simpa using hPrefix.length_le
    · rw [← Sql.Layout.break_joined (by simpa using hNil),
        ← Sql.Layout.break_joined (by simpa using hOthers)]
      exact hLines

theorem forall₂_unterminated {IsLeft : List Char → List Char → Prop}
    {statements : List (List Char)} :
    List.Forall₂ IsLeft statements (statements.map unterminated) ↔
      ∀ s ∈ statements, IsLeft s (unterminated s) := by
  rw [List.forall₂_map_right_iff, List.forall₂_same]

/-- A transcript terminates its statements once exactly if none of them has a gap. -/
theorem lists_isBare_transcript_iff {statements : List (List Char)} (h : statements ≠ []) :
    Lists IsBare statements (transcript statements) ↔ ∀ s ∈ statements, ¬HasGap s := by
  rw [transcript_eq h]
  constructor
  · rintro ⟨texts, hBare, hText⟩ s hs
    have hPrefix : List.Forall₂ (· <+: ·) texts (statements.map unterminated) := by
      rw [List.forall₂_map_right_iff]
      exact hBare.flip.imp fun _ _ h => h.prefix_unterminated
    rw [eq_of_terminated_eq hPrefix hText.symm, forall₂_unterminated] at hBare
    exact isBare_unterminated_iff.mp (hBare s hs)
  · intro hGap
    exact ⟨_, forall₂_unterminated.mpr fun s hs => isBare_unterminated_iff.mpr (hGap s hs), rfl⟩

/-! ## Texts that are laid out -/

open Sql.Layout (inked inked_append inked_eq_nil_iff inked_of_blank)

/-- How many separators stand behind the last statement of a text that is not blank; all of them
do where every statement is blank. -/
def separatorsBehind (sql : List Char) : Nat :=
  ((Sql.statements sql).tail.rtakeWhile isBlankText).length

/-- Does the last statement that is not blank end in a terminator of its own?  It can if it ends
in a comment. -/
def closesItself (sql : List Char) : Bool :=
  ((Sql.statements sql).rdropWhile isBlankText).getLast?.any fun piece =>
    (inked piece).getLast? == some ';'

/-- The statements of a text: some statements, one that is not blank unless it is the first one,
and a blank one behind each of the last separators. -/
theorem exists_separatorsBehind (sql : List Char) :
    ∃ front piece blanks, Sql.statements sql = front ++ [piece] ++ blanks ∧
      (front = [] ∨ isBlankText piece = false) ∧
      (∀ blank ∈ blanks, isBlankText blank = true) ∧ blanks.length = separatorsBehind sql := by
  obtain ⟨first, more, hPieces⟩ := List.exists_cons_of_ne_nil (Sql.statements_ne_nil sql)
  have hMore := List.rdropWhile_append_rtakeWhile (p := isBlankText) (l := more)
  have hBlanks : ∀ blank ∈ more.rtakeWhile isBlankText, isBlankText blank = true :=
    fun blank hMem => List.mem_rtakeWhile_imp hMem
  have hLength : (more.rtakeWhile isBlankText).length = separatorsBehind sql := by
    rw [separatorsBehind, hPieces, List.tail_cons]
  rcases List.eq_nil_or_concat' (more.rdropWhile isBlankText) with hNil | ⟨mid, piece, hMid⟩
  · rw [hNil, List.nil_append] at hMore
    exact ⟨[], first, _, by rw [hPieces, hMore]; rfl, .inl rfl, hBlanks, hLength⟩
  · have hPiece : isBlankText piece = false :=
      of_getLast?_rdropWhile (by rw [hMid, List.getLast?_concat])
    rw [hMid] at hMore
    refine ⟨first :: mid, piece, _, ?_, .inr hPiece, hBlanks, hLength⟩
    rw [hPieces, List.cons_append, List.cons_append, hMore]

/-- Two separators behind the last statement leave a gap. -/
theorem hasGap_layout {sql : List Char} (h : 2 ≤ separatorsBehind sql) :
    HasGap (Sql.layout sql) := by
  obtain ⟨front, piece, blanks, hPieces, -, hBlanks, hLength⟩ := exists_separatorsBehind sql
  rw [← hLength] at h
  rcases blanks with _ | ⟨first, _ | ⟨second, more⟩⟩
  · simp at h
  · simp at h
  · have hEmpty : ∀ blank ∈ first :: second :: more, Sql.Layout.endent blank = [] :=
      fun blank hMem => Sql.Layout.endent_of_blank (hBlanks blank hMem)
    refine ⟨Sql.assembled ((front ++ [piece]).map Sql.Layout.endent), ['\n', '\n'],
      ['\n', '\n'] ++ (more.map Sql.Layout.endent).flatMap ([';', '\n', '\n'] ++ ·), ?_,
      by decide, by decide, fun c hc => ?_⟩
    · rw [Sql.layout_eq, hPieces, List.map_append, Sql.assembled,
        Sql.intercalate_append_right _ (by simp), List.map_cons, List.map_cons,
        hEmpty first (by simp), hEmpty second (by simp)]
      rfl
    · have hBreaks : ∀ d ∈ [';'] ++ ['\n', '\n'], isClosing d = true :=
        isClosing_of_run (by simp) (by decide)
      rcases List.mem_append.mp hc with hMem | hMem
      · exact hBreaks c (List.mem_cons_of_mem _ hMem)
      · obtain ⟨text, hText, hMem⟩ := List.mem_flatMap.mp hMem
        obtain ⟨blank, hBlank, rfl⟩ := List.mem_map.mp hText
        rw [hEmpty blank (by simp [hBlank]), List.append_nil] at hMem
        exact hBreaks c hMem

/-- Without its blanks, a statement with a gap ends in two terminators. -/
theorem HasGap.exists_inked {s : List Char} (h : HasGap s) :
    ∃ ink, inked s = ink ++ [';'] ++ [';'] := by
  obtain ⟨front, gap, back, rfl, -, hGap, hBack⟩ := h
  have hSelf : ∀ rest, inked (';' :: rest) = ';' :: inked rest := fun rest => rfl
  obtain ⟨n, hTerminators⟩ : ∃ n, inked back = List.replicate n ';' := by
    refine ⟨_, List.eq_replicate_iff.mpr ⟨rfl, fun c hc => ?_⟩⟩
    obtain ⟨hMem, hNot⟩ := List.mem_filter.mp hc
    have hInk : isBlank c = false := by simpa using hNot
    have hClosing := hBack c hMem
    rw [isClosing, hInk, Bool.false_or] at hClosing
    exact beq_iff_eq.mp hClosing
  refine ⟨inked front ++ List.replicate n ';', ?_⟩
  rw [inked_append, hSelf, inked_append, inked_of_blank hGap, List.nil_append, hSelf,
    hTerminators, List.append_assoc, List.append_assoc, ← List.append_assoc (List.replicate n ';'),
    ← List.replicate_succ', ← List.replicate_succ']
  rfl

/-- The separators behind the last statement are the last characters that are no blanks. -/
theorem exists_inked_layout (sql : List Char) :
    ∃ ink, inked (Sql.layout sql) = ink ++ List.replicate (separatorsBehind sql) ';' ∧
      (ink.getLast? = some ';' → closesItself sql = true) := by
  obtain ⟨front, piece, blanks, hPieces, hPiece, hBlanks, hLength⟩ := exists_separatorsBehind sql
  refine ⟨List.intercalate [';'] ((front ++ [piece]).map inked), ?_, fun hLast => ?_⟩
  · have hEmpty : blanks.map inked = List.replicate blanks.length [] :=
      List.map_eq_replicate_iff.mpr fun blank hMem => inked_of_blank (hBlanks blank hMem)
    rw [Sql.inked_layout, Sql.inked_eq_intercalate, hPieces, List.map_append,
      Sql.intercalate_append_right _ (by simp), hEmpty, hLength, List.flatMap_replicate,
      List.append_nil, List.flatten_replicate_singleton]
  · have hText : front = [] ∨ inked piece ≠ [] := by
      refine hPiece.imp_right fun hText hNil => ?_
      rw [inked_eq_nil_iff.mp hNil] at hText
      cases hText
    rw [List.map_append, List.map_singleton,
      Sql.getLast?_intercalate_concat _ (hText.imp_left List.map_eq_nil_iff.mpr)] at hLast
    have hNot : isBlankText piece = false := by
      rw [← Bool.not_eq_true, ← inked_eq_nil_iff]
      intro hNil
      rw [hNil] at hLast
      cases hLast
    have hBack : blanks.rdropWhile isBlankText = [] := List.rdropWhile_eq_nil_iff.mpr hBlanks
    rw [closesItself, hPieces, List.append_assoc, List.singleton_append,
      rdropWhile_append_cons _ _ hNot, hBack, List.getLast?_concat, Option.any_some, hLast]
    rfl

/-- Without two separators behind the last statement there is no gap, unless that statement
itself ends in a terminator. -/
theorem separators_of_hasGap_layout {sql : List Char} (h : HasGap (Sql.layout sql)) :
    2 ≤ separatorsBehind sql ∨ closesItself sql = true := by
  obtain ⟨ink, hInk⟩ := h.exists_inked
  obtain ⟨start, hStart, hCloses⟩ := exists_inked_layout sql
  rw [hStart] at hInk
  rw [or_iff_not_imp_left]
  intro hFew
  obtain hNone | hOne : separatorsBehind sql = 0 ∨ separatorsBehind sql = 1 := by omega
  · rw [hNone, List.replicate_zero, List.append_nil] at hInk
    exact hCloses (by rw [hInk, List.getLast?_concat])
  · rw [hOne, List.replicate_one] at hInk
    exact hCloses (by rw [List.append_inj_left' hInk rfl, List.getLast?_concat])

/-! ## The main result -/

/-- A transcript lists its statements in order, each one without the blanks around it and the
last run of terminators, on lines of their own and with one terminator each.  All terminators at
their ends are taken off exactly if no statement has blanks between these.  A text that is laid
out has such blanks if two separators stand behind its last statement, and only then if this does
not itself end in a terminator. -/
theorem transcript_terminates_iff {statements : List (List Char)} (h : statements ≠ []) :
    Lists IsShorn statements (transcript statements) ∧
      (Lists IsBare statements (transcript statements) ↔ ∀ s ∈ statements, ¬HasGap s) ∧
      ∀ sql, (2 ≤ separatorsBehind sql → HasGap (Sql.layout sql)) ∧
        (HasGap (Sql.layout sql) → 2 ≤ separatorsBehind sql ∨ closesItself sql = true) := by
  refine ⟨?_, lists_isBare_transcript_iff h,
    fun sql => ⟨hasGap_layout, separators_of_hasGap_layout⟩⟩
  exact ⟨_, forall₂_unterminated.mpr fun s _ => isShorn_unterminated s, transcript_eq h⟩

/-- One separator behind the last statement of a text that is laid out comes off, and a
semicolon in a literal stays.  Two separators leave a gap, as does one behind a comment that
ends in a semicolon and a blank. -/
theorem transcript_terminates_trailing :
    let statements := ["START TRANSACTION".toList, Sql.layout "  SELECT ';' ;\n".toList,
      "COMMIT".toList]
    statements ≠ [] ∧ (∀ s ∈ statements, ¬HasGap s) ∧
      Lists IsBare statements (transcript statements) ∧
      2 ≤ separatorsBehind "SELECT 1; ;".toList ∧ HasGap (Sql.layout "SELECT 1; ;".toList) ∧
      HasGap (Sql.layout "SELECT 1 -- ; \n;".toList) ∧
      (2 ≤ separatorsBehind "SELECT 1 -- ; \n;".toList ∨
        closesItself "SELECT 1 -- ; \n;".toList = true) := by
  intro statements
  have hNe : statements ≠ [] := List.cons_ne_nil _ _
  have hNoGap : ∀ s ∈ statements, ¬HasGap s := by
    simp only [statements, Sql.layout, Sql.statements_eq_split]
    decide
  have hBehind : 2 ≤ separatorsBehind "SELECT 1; ;".toList := by
    rw [separatorsBehind, Sql.statements_eq_split]
    decide
  have hComment : HasGap (Sql.layout "SELECT 1 -- ; \n;".toList) := by
    rw [Sql.layout, Sql.statements_eq_split]
    decide
  obtain ⟨-, hBare, hLaid⟩ := transcript_terminates_iff hNe
  exact ⟨hNe, hNoGap, hBare.mpr hNoGap, hBehind, (hLaid _).1 hBehind, hComment,
    (hLaid _).2 hComment⟩

/-- Of two separators behind the last statement one is left, in front of the terminator. -/
theorem transcript_keepsTerminator :
    let laid := Sql.layout "SELECT 1;;".toList
    transcript [laid] = "SELECT 1;;".toList ∧ ¬Lists IsBare [laid] (transcript [laid]) := by
  intro laid
  have hGap : HasGap laid := hasGap_layout (by rw [separatorsBehind, Sql.statements_eq_split]; decide)
  refine ⟨?_, fun hBare => ?_⟩
  · simp only [laid, Sql.layout, Sql.statements_eq_split]
    decide
  · exact (lists_isBare_transcript_iff (List.cons_ne_nil laid [])).mp hBare laid
      List.mem_cons_self hGap

end SqlWeave.Memory
