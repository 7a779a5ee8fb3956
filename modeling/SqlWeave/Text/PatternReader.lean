import SqlWeave.Number.Digits
import SqlWeave.Text.Pattern

/-!
# Reading patterns

The written form of patterns: `.`, `^`, `$`, classes in brackets, `\s`, `\d`, `\w`,
`\b` and their negations, `\A`, `\Z`, groups, `|`, and the repetitions `*`, `+`, `?`,
`{2}`, `{2,}` and `{2,5}`.  A letter or a digit behind a backslash that stands for
nothing here is refused.  A text is first cut into tokens; the groups that are open while
the tokens are gone through are kept on a stack.
-/

namespace SqlWeave.Text.Pattern

/-- How a pattern is to be taken. -/
structure Flags where
  ignoresCase : Bool := false
  /-- Anchors hold at every line. -/
  ofLines : Bool := false
  /-- The dot accepts a line feed. -/
  dotAcceptsAll : Bool := false

/-- A token of a written pattern. -/
inductive Token
  | one (accepted : CharClass)
  /-- What holds at a place between characters. -/
  | place (p : Pattern)
  | bar
  | opening
  | closing
  | repetition (least : Nat) (most : Option Nat)

/-- The class that a letter behind a backslash stands for, or the character itself. -/
def escaped? : Char → Option ClassMember
  | 's' => some .blank
  | 'S' => some (.except .blank)
  | 'd' => some .digit
  | 'D' => some (.except .digit)
  | 'w' => some .word
  | 'W' => some (.except .word)
  | 'n' => some (.range '\n' '\n')
  | 't' => some (.range '\t' '\t')
  | 'r' => some (.range '\r' '\r')
  | 'f' => some (.range '\x0c' '\x0c')
  | 'v' => some (.range '\x0b' '\x0b')
  | 'a' => some (.range '\x07' '\x07')
  | c => if c.isAlphanum then none else some (.range c c)

/-- The token that a character behind a backslash stands for. -/
def escapedToken? (flags : Flags) : Char → Option Token
  | 'A' => some (.place (.start false))
  | 'Z' => some (.place .finish)
  | 'b' => some (.place (.edge true))
  | 'B' => some (.place (.edge false))
  | c => (escaped? c).map fun member => .one ⟨[member], false, flags.ignoresCase⟩

/-- The members of a class between brackets, where `\b` is a character. -/
def classMembers? : List Char → Option (List ClassMember)
  | '\\' :: 'b' :: rest => do return .range '\x08' '\x08' :: (← classMembers? rest)
  | '\\' :: c :: rest => do return (← escaped? c) :: (← classMembers? rest)
  | first :: '-' :: last :: rest => do return .range first last :: (← classMembers? rest)
  | c :: rest => do return .range c c :: (← classMembers? rest)
  | [] => some []

/-- The class between brackets. -/
def bracketed? (flags : Flags) : List Char → Option CharClass
  | '^' :: body => (classMembers? body).map fun members => ⟨members, true, flags.ignoresCase⟩
  | body => (classMembers? body).map fun members => ⟨members, false, flags.ignoresCase⟩

/-- A number in a repetition; nothing stands for no number. -/
def count? (digits : List Char) : Option (Option Nat) :=
  if digits.isEmpty then some none
  else if digits.all Char.isDigit then some (some (Number.ofAsciiDigits digits))
  else none

/-- The repetition between braces, unless what stands there is none. -/
def counted? (body : List Char) : Option Token :=
  let least := body.takeWhile (· != ',')
  match count? least, body.drop least.length with
  | some (some n), [] => some (.repetition n (some n))
  | some n, _ :: most => (count? most).map fun m => .repetition (n.getD 0) m
  | _, _ => none

/-- A text behind a repetition, without the mark that makes this one reluctant.  Where
only the presence of a match counts, reluctance changes nothing. -/
def pastReluctance : List Char → List Char
  | '?' :: rest => rest
  | s => s

theorem length_pastReluctance (s : List Char) : (pastReluctance s).length ≤ s.length := by
  unfold pastReluctance
  split <;> simp

/-- The characters that the dot accepts. -/
def dot (flags : Flags) : CharClass :=
  ⟨if flags.dotAcceptsAll then [] else [.range '\n' '\n'], true, false⟩

/-- The tokens of a written pattern. -/
def tokens? (flags : Flags) (s : List Char) : Option (List Token) :=
  match s with
  | [] => some []
  | ['\\'] => none
  | '\\' :: c :: rest => do return (← escapedToken? flags c) :: (← tokens? flags rest)
  | '(' :: '?' :: ':' :: rest => do return .opening :: (← tokens? flags rest)
  | '(' :: rest => do return .opening :: (← tokens? flags rest)
  | ')' :: rest => do return .closing :: (← tokens? flags rest)
  | '|' :: rest => do return .bar :: (← tokens? flags rest)
  | '^' :: rest => do return .place (.start flags.ofLines) :: (← tokens? flags rest)
  | '$' :: rest => do return .place (.stop flags.ofLines) :: (← tokens? flags rest)
  | '.' :: rest => do return .one (dot flags) :: (← tokens? flags rest)
  | '*' :: rest => do return .repetition 0 none :: (← tokens? flags (pastReluctance rest))
  | '+' :: rest => do return .repetition 1 none :: (← tokens? flags (pastReluctance rest))
  | '?' :: rest => do return .repetition 0 (some 1) :: (← tokens? flags (pastReluctance rest))
  | '[' :: rest => do
    let body := rest.takeWhile (· != ']')
    return .one (← bracketed? flags body) :: (← tokens? flags (rest.drop (body.length + 1)))
  | '\x7b' :: rest => do
    let body := rest.takeWhile (· != '\x7d')
    match (if body.length < rest.length then counted? body else none) with
    | some repetition =>
      return repetition :: (← tokens? flags (pastReluctance (rest.drop (body.length + 1))))
    | none => return .one ⟨[.range '\x7b' '\x7b'], false, flags.ignoresCase⟩ :: (← tokens? flags rest)
  | c :: rest => do
    return .one ⟨[.range c c], false, flags.ignoresCase⟩ :: (← tokens? flags rest)
termination_by s.length
decreasing_by all_goals grind [length_pastReluctance]

/-- An open group: the alternatives that are complete and the items of the current
one, each in reverse. -/
structure Group where
  alternatives : List Pattern := []
  items : List Pattern := []

/-- The pattern of a group. -/
def Group.pattern (g : Group) : Pattern :=
  choice (sequence g.items.reverse :: g.alternatives).reverse

/-- The open groups, the innermost first, after one more token. -/
def take (groups : List Group) (token : Token) : Option (List Group) :=
  match token, groups with
  | .one accepted, g :: outer => some ({ g with items := .one accepted :: g.items } :: outer)
  | .place p, g :: outer => some ({ g with items := p :: g.items } :: outer)
  | .bar, g :: outer => some (⟨sequence g.items.reverse :: g.alternatives, []⟩ :: outer)
  | .opening, outer => some ({} :: outer)
  | .closing, g :: h :: outer => some ({ h with items := g.pattern :: h.items } :: outer)
  | .repetition least most, ⟨alternatives, last :: items⟩ :: outer =>
    some (⟨alternatives, last.repeated least most :: items⟩ :: outer)
  | _, _ => none

/-- Reads a written pattern. -/
def read? (flags : Flags) (s : List Char) : Option Pattern := do
  match ← (← tokens? flags s).foldlM take [{}] with
  | [g] => some g.pattern
  | _ => none

end SqlWeave.Text.Pattern
