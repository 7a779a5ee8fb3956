import SqlWeave.Text.CharClass
import SqlWeave.Text.Case

/-!
# Patterns

A pattern describes texts.  What counts is whether it matches somewhere in a text,
so matching yields no captured parts: it takes the positions at which a match may
start to those at which it can end.  A repetition goes on from the new positions
that its body reaches, round by round; each round but the last reaches another
position of the text, so one round for each position is enough.
-/

namespace SqlWeave.Text

/-- A member of a character class. -/
inductive ClassMember
  /-- The characters from `first` to `last`. -/
  | range (first last : Char)
  | blank
  | digit
  | word
  /-- All characters that another member does not have. -/
  | except (member : ClassMember)
  deriving Repr

/-- The characters that one place of a pattern accepts. -/
structure CharClass where
  members : List ClassMember
  /-- Accept the characters that are no members. -/
  isNegated : Bool := false
  /-- Take letters that differ in case as one. -/
  ignoresCase : Bool := false
  deriving Repr

/-- A pattern. -/
inductive Pattern
  | empty
  | one (accepted : CharClass)
  /-- The start of the text, or of any line. -/
  | start (ofLines : Bool)
  /-- The end of the text or of its last line, or of any line. -/
  | stop (ofLines : Bool)
  /-- The end of the text. -/
  | finish
  /-- A place between a word character and another one, or no such place. -/
  | edge (expected : Bool)
  | both (first second : Pattern)
  | either (first second : Pattern)
  /-- Any number of repetitions. -/
  | many (body : Pattern)
  deriving Repr

namespace ClassMember

/-- Is a character in a range, letters of either case being one if that is asked? -/
def inRange (ignoresCase : Bool) (first last c : Char) : Bool :=
  (first ≤ c && c ≤ last) ||
    (ignoresCase && (List.range (last.toNat + 1 - first.toNat)).any fun k =>
      sameLetter c (Char.ofNat (first.toNat + k)))

/-- Does a member have a character? -/
def has (ignoresCase : Bool) (c : Char) : ClassMember → Bool
  | range first last => inRange ignoresCase first last c
  | blank => isBlank c
  | digit => isDecimalDigit c
  | word => isWordChar c
  | .except member => !member.has ignoresCase c

end ClassMember

/-- Does a class accept a character? -/
def CharClass.accepts (k : CharClass) (c : Char) : Bool :=
  k.members.any (·.has k.ignoresCase c) != k.isNegated

/-- A position in a text. -/
structure Position where
  /-- The number of characters before it. -/
  offset : Nat
  /-- The character before it. -/
  before : Option Char
  /-- The text behind it. -/
  rest : List Char
  deriving Repr

namespace Position

/-- Does the text, or a line of it, start here? -/
def isStart (ofLines : Bool) (p : Position) : Bool :=
  p.before.isNone || (ofLines && p.before == some '\n')

/-- Does the text, its last line, or any line end here? -/
def isStop (ofLines : Bool) (p : Position) : Bool :=
  p.rest == [] || p.rest == ['\n'] || (ofLines && p.rest.head? == some '\n')

/-- Does a word start or end here, or not?  In the empty text there is neither. -/
def isEdge (expected : Bool) (p : Position) : Bool :=
  (p.before.isSome || !p.rest.isEmpty) &&
    (p.before.any isWordChar != p.rest.head?.any isWordChar) == expected

/-- The position behind the next character, if the class accepts that. -/
def past (k : CharClass) (p : Position) : List Position :=
  match p.rest with
  | [] => []
  | c :: rest => if k.accepts c then [⟨p.offset + 1, some c, rest⟩] else []

/-- Is a position among others? -/
def isAmong (ps : List Position) (p : Position) : Bool :=
  ps.any (·.offset == p.offset)

/-- The positions without repetitions. -/
def distinct (ps : List Position) : List Position :=
  ps.foldl (fun seen p => if p.isAmong seen then seen else seen ++ [p]) []

/-- The positions that repeated steps reach from `reached`, beside those `seen`. -/
def closure (step : List Position → List Position) :
    Nat → List Position → List Position → List Position
  | 0, _, seen => seen
  | _, [], seen => seen
  | rounds + 1, reached, seen =>
    let new := (step reached).filter (!·.isAmong seen)
    closure step rounds new (seen ++ new)

/-- No repetition from these positions needs more rounds. -/
def rounds (ps : List Position) : Nat :=
  ps.foldl (fun most p => max most (p.rest.length + 1)) 0

/-- All positions of a text from one on. -/
def following : Nat → Option Char → List Char → List Position
  | offset, before, [] => [⟨offset, before, []⟩]
  | offset, before, c :: rest => ⟨offset, before, c :: rest⟩ :: following (offset + 1) (some c) rest

end Position

namespace Pattern

/-- The positions at which a match can end that starts at one of `ps`. -/
def ends : Pattern → List Position → List Position
  | empty, ps => ps
  | one accepted, ps => ps.flatMap (·.past accepted)
  | start ofLines, ps => ps.filter (·.isStart ofLines)
  | stop ofLines, ps => ps.filter (·.isStop ofLines)
  | finish, ps => ps.filter (·.rest.isEmpty)
  | edge expected, ps => ps.filter (·.isEdge expected)
  | both first second, ps => second.ends (first.ends ps)
  | either first second, ps => Position.distinct (first.ends ps ++ second.ends ps)
  | many body, ps => Position.closure body.ends (Position.rounds ps) ps ps

/-- Does the pattern match somewhere in a text? -/
def occursIn (pattern : Pattern) (s : List Char) : Bool :=
  !(pattern.ends (Position.following 0 none s)).isEmpty

/-- Several patterns one after another. -/
def sequence : List Pattern → Pattern
  | [] => empty
  | [p] => p
  | p :: ps => both p (sequence ps)

/-- One of several patterns. -/
def choice : List Pattern → Pattern
  | [] => empty
  | [p] => p
  | p :: ps => either p (choice ps)

/-- At most `n` repetitions. -/
def atMost (body : Pattern) : Nat → Pattern
  | 0 => empty
  | n + 1 => either empty (both body (atMost body n))

/-- At least `least` repetitions, and no more than `most` if that is given. -/
def repeated (body : Pattern) (least : Nat) (most : Option Nat) : Pattern :=
  let more := match most with
    | some n => atMost body (n - least)
    | none => many body
  sequence (List.replicate least body ++ [more])

end Pattern
end SqlWeave.Text
