/-!
# Words of a name

The database spells names in snake case, the application in camel case.  Both are
built from the words of a name.  A word is a maximal run of ASCII letters and
digits that is not broken by a *hump*: a lower-case letter or digit before an
upper-case letter, or the last capital of an acronym before the lower-case letter
that follows it (`HTTPServer` is `HTTP`, `Server`).  Everything else separates.
-/

namespace SqlWeave.Casing

/-- An ASCII letter or digit. -/
def isWordPart (c : Char) : Bool :=
  c.isAlphanum

/-- Does a new word start at `d`, behind `c` and before `next`? -/
def isHump (c d : Char) (next : Option Char) : Bool :=
  ((c.isLower || c.isDigit) && d.isUpper) ||
    (c.isUpper && d.isUpper && (next.map Char.isLower).getD false)

/-- Does the text behind `c` go on with the word of `c`? -/
def continues (c : Char) : List Char → Bool
  | [] => false
  | d :: rest => isWordPart d && !isHump c d rest.head?

/-- Puts a character in front of the first word. -/
def extendFirst (c : Char) : List (List Char) → List (List Char)
  | [] => [[c]]
  | word :: words => (c :: word) :: words

/-- The words of a name, in order. -/
def words : List Char → List (List Char)
  | [] => []
  | c :: rest =>
    if isWordPart c then
      if continues c rest then extendFirst c (words rest) else [c] :: words rest
    else words rest

/-- A word in lower-case letters. -/
def lower (word : List Char) : List Char :=
  word.map Char.toLower

/-- A word behind the first one of a camel-case name: capitalised, or kept apart
by an underscore when it starts with a digit. -/
def humped : List Char → List Char
  | [] => []
  | c :: rest => if c.isDigit then '_' :: lower (c :: rest) else c.toUpper :: lower rest

/-- `updated_at` to `updatedAt`. -/
def camel (name : List Char) : List Char :=
  match words name with
  | [] => []
  | first :: others => lower first ++ (others.map humped).flatten

/-- `updatedAt` to `updated_at`. -/
def snake (name : List Char) : List Char :=
  List.intercalate ['_'] ((words name).map lower)

end SqlWeave.Casing
