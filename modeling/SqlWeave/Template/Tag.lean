import SqlWeave.Text.CharClass

/-!
# Tags

A template is text with tags between double braces.  A tag may carry a tilde inside
its braces at either end, which strips the blanks of the neighbouring text.  There
are three kinds: comments (behind `!`, or between `!--` and `--`), outputs with a
third pair of braces, and directives.

At a pair of opening braces the first of these readings applies that finds its end
mark further on: the long comment, the short comment, the output, the directive.
Without closing braces further on there is no tag.
-/

namespace SqlWeave.Template

open Text

/-- The kinds of tags. -/
inductive TagKind
  | comment
  | output
  | directive
  deriving DecidableEq, Repr

/-- A tag with its body as written. -/
structure Tag where
  kind : TagKind
  body : List Char
  /-- Strip the blanks before the tag. -/
  stripBefore : Bool
  /-- Strip the blanks behind the tag. -/
  stripAfter : Bool
  deriving DecidableEq, Repr

/-- A closing pair of braces, perhaps behind a tilde: whether there is a tilde, and
the text behind. -/
def cutClose? : List Char → Option (Bool × List Char)
  | '~' :: '\x7d' :: '\x7d' :: rest => some (true, rest)
  | '\x7d' :: '\x7d' :: rest => some (false, rest)
  | _ => none

/-- `mark` and a closing pair of braces behind it. -/
def cutEnd? (mark s : List Char) : Option (Bool × List Char) :=
  if mark.isPrefixOf s then cutClose? (s.drop mark.length) else none

/-- The text before the first place where `mark` and closing braces follow, whether
there is a tilde, and the text behind the braces. -/
def cutBody? (mark : List Char) : List Char → Option (List Char × Bool × List Char)
  | [] => none
  | c :: rest =>
    match cutEnd? mark (c :: rest) with
    | some (tilde, tail) => some ([], tilde, tail)
    | none => (cutBody? mark rest).map fun r => (c :: r.1, r.2)

/-- The reading of a tag whose opening marks are taken off. -/
def readTag? (kind : TagKind) (before : Bool) (mark s : List Char) :
    Option (Tag × List Char) :=
  (cutBody? mark s).map fun r => (⟨kind, r.1, before, r.2.1⟩, r.2.2)

/-- The tag whose opening braces and tilde are taken off. -/
def cutInner? (before : Bool) (s : List Char) : Option (Tag × List Char) :=
  let long := match s with
    | '!' :: '-' :: '-' :: rest => readTag? .comment before ['-', '-'] rest
    | _ => none
  let short := match s with
    | '!' :: rest => readTag? .comment before [] rest
    | _ => none
  let output := match s with
    | '\x7b' :: rest => readTag? .output before ['\x7d'] rest
    | _ => none
  long.or (short.or (output.or (readTag? .directive before [] s)))

/-- The tag at the start of a text, and the text behind it. -/
def cutTag? : List Char → Option (Tag × List Char)
  | '\x7b' :: '\x7b' :: '~' :: rest => cutInner? true rest
  | '\x7b' :: '\x7b' :: rest => cutInner? false rest
  | _ => none

/-! ## What stands behind a tag is shorter -/

theorem length_of_cutClose? {s : List Char} {r : Bool × List Char} (h : cutClose? s = some r) :
    r.2.length < s.length := by
  unfold cutClose? at h
  split at h <;> cases h <;> grind

theorem length_of_cutBody? {mark s : List Char} {r : List Char × Bool × List Char}
    (h : cutBody? mark s = some r) : r.2.2.length < s.length := by
  induction s generalizing r with
  | nil => simp [cutBody?] at h
  | cons c rest ih =>
    simp only [cutBody?] at h
    split at h
    · rename_i tilde tail he
      cases h
      unfold cutEnd? at he
      split at he
      · have := length_of_cutClose? he
        simp at this ⊢
        omega
      · cases he
    · simp only [Option.map_eq_some_iff] at h
      obtain ⟨q, hq, rfl⟩ := h
      have := ih hq
      simp at this ⊢
      omega

theorem length_of_readTag? {kind : TagKind} {before : Bool} {mark s : List Char}
    {r : Tag × List Char} (h : readTag? kind before mark s = some r) :
    r.2.length < s.length := by
  simp only [readTag?, Option.map_eq_some_iff] at h
  obtain ⟨q, hq, rfl⟩ := h
  exact length_of_cutBody? hq

theorem length_of_cutInner? {before : Bool} {s : List Char} {r : Tag × List Char}
    (h : cutInner? before s = some r) : r.2.length < s.length := by
  simp only [cutInner?, Option.or_eq_some_iff] at h
  rcases h with h | ⟨-, h | ⟨-, h | ⟨-, h⟩⟩⟩
  · split at h
    · have := length_of_readTag? h; simp; omega
    · cases h
  · split at h
    · have := length_of_readTag? h; simp; omega
    · cases h
  · split at h
    · have := length_of_readTag? h; simp; omega
    · cases h
  · exact length_of_readTag? h

theorem length_of_cutTag? {s : List Char} {r : Tag × List Char} (h : cutTag? s = some r) :
    r.2.length < s.length := by
  unfold cutTag? at h
  split at h
  · have := length_of_cutInner? h; simp; omega
  · have := length_of_cutInner? h; simp; omega
  · cases h

/-! ## The pieces of a template -/

/-- The text before the first tag, and every tag with the text behind it. -/
def scan (s : List Char) : List Char × List (Tag × List Char) :=
  match s with
  | [] => ([], [])
  | c :: rest =>
    match ht : cutTag? (c :: rest) with
    | some (tag, tail) =>
      have : tail.length ≤ rest.length := Nat.le_of_lt_succ (length_of_cutTag? ht)
      let (lead, more) := scan tail
      ([], (tag, lead) :: more)
    | none =>
      let (lead, more) := scan rest
      (c :: lead, more)
termination_by s.length

/-- A piece of a template. -/
inductive Piece
  | text (s : List Char)
  | tag (t : Tag)
  deriving DecidableEq, Repr

/-- A text between two tags, stripped at its start or end where a tag says so. -/
def stripText (atStart atEnd : Bool) (s : List Char) : List Char :=
  let s := if atStart then trimStart s else s
  if atEnd then trimEnd s else s

/-- The pieces from a text on, which stands behind a tag that strips it or not. -/
def stripPieces (atStart : Bool) (lead : List Char) : List (Tag × List Char) → List Piece
  | [] => [.text (stripText atStart false lead)]
  | (tag, text) :: more =>
    .text (stripText atStart tag.stripBefore lead) :: .tag tag ::
      stripPieces tag.stripAfter text more

/-- The pieces of a template, texts and tags in turn, with the texts stripped. -/
def pieces (s : List Char) : List Piece :=
  let (lead, more) := scan s
  stripPieces false lead more

end SqlWeave.Template
