import SqlWeave.Sql.Literal
import SqlWeave.Sql.Region
import SqlWeave.Text.CharClass

/-!
# Bind markers

A skeleton is SQL text with bind markers: `:name` stands for the literal of a
parameter and `::name` for a parameter used as an identifier.  A marker does not
follow a word character or another colon, its name is a whole run of word
characters, and there are no markers in protected regions.

`tokens` reads a skeleton from left to right and `bind` replaces the markers whose
names are parameters.  What is put in is never read again; a marker without a
parameter stays as it is.
-/

namespace SqlWeave.Sql

open Text

/-- A bind marker. -/
structure Marker where
  /-- Is the parameter an identifier (two colons) or a value (one)? -/
  identifier : Bool
  name : List Char
  deriving DecidableEq, Repr

namespace Marker

/-- The marker as it is written. -/
def text (m : Marker) : List Char :=
  (if m.identifier then [':', ':'] else [':']) ++ m.name

/-- May a marker not stand behind this character? -/
def isBlocked : Option Char → Bool
  | none => false
  | some c => c == ':' || isWordChar c

/-- The marker at the start of a text that stands behind `previous`, and the text
behind the marker. -/
def cut? (previous : Option Char) : List Char → Option (Marker × List Char)
  | ':' :: rest =>
    if isBlocked previous then none
    else
      let double := rest.head? == some ':'
      let tail := if double then rest.tail else rest
      let name := tail.takeWhile isWordChar
      if name.isEmpty then none else some (⟨double, name⟩, tail.dropWhile isWordChar)
  | _ => none

/-- What stands behind a marker is shorter than the text. -/
theorem length_of_cut? {previous : Option Char} {s : List Char} {m : Marker} {tail : List Char}
    (h : cut? previous s = some (m, tail)) : tail.length < s.length := by
  unfold cut? at h
  split at h
  · rename_i rest
    simp only [Option.ite_none_left_eq_some, Option.some.injEq, Prod.mk.injEq] at h
    obtain ⟨-, -, -, rfl⟩ := h
    refine Nat.lt_succ_of_le (Nat.le_trans (List.dropWhile_suffix _).length_le ?_)
    split <;> simp
  · cases h

end Marker

/-- A piece of a skeleton. -/
inductive Token
  /-- A protected region. -/
  | region (text : List Char)
  | marker (m : Marker)
  | plain (c : Char)
  deriving DecidableEq, Repr

/-- The piece as it is written. -/
def Token.text : Token → List Char
  | region text => text
  | marker m => m.text
  | plain c => [c]

/-- The pieces of a skeleton that stands behind the character `previous`. -/
def tokens (previous : Option Char) (s : List Char) : List Token :=
  match s with
  | [] => []
  | c :: rest =>
    match hr : Region.closed? (c :: rest) with
    | some (region, tail) =>
      have : tail.length ≤ rest.length := Nat.le_of_lt_succ (Region.length_of_closed? hr)
      .region region :: tokens region.getLast? tail
    | none =>
      match hm : Marker.cut? previous (c :: rest) with
      | some (m, tail) =>
        have : tail.length ≤ rest.length := Nat.le_of_lt_succ (Marker.length_of_cut? hm)
        .marker m :: tokens m.text.getLast? tail
      | none => .plain c :: tokens (some c) rest
termination_by s.length

namespace Dialect

/-- What a piece of a skeleton becomes under the given parameters. -/
def expand (d : Dialect) (params : List (Value × Value)) : Token → Result (List Char)
  | .marker m =>
    match Value.find? (String.ofList m.name) params with
    | none => .ok m.text
    | some v => if m.identifier then d.path v else d.literal v
  | t => .ok t.text

/-- The skeleton with its markers replaced. -/
def bindEntries (d : Dialect) (skeleton : List Char) (params : List (Value × Value)) :
    Result (List Char) := do
  return (← (tokens none skeleton).mapM (d.expand params)).flatten

/-- The skeleton with its markers replaced; the parameters have to be a mapping. -/
def bind (d : Dialect) (skeleton : List Char) : Value → Result (List Char)
  | .map params => d.bindEntries skeleton params
  | v => .error (.template (.notMapping v.typeName))

end Dialect
end SqlWeave.Sql
