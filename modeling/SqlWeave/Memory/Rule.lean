import SqlWeave.Fault
import SqlWeave.Text.Pattern

/-!
# Rules

A rule answers the statements that its matcher accepts, with a result or with a
fault.  Rules are given as entries of several forms; an entry that makes no rule is
refused with the fault that says why.
-/

namespace SqlWeave.Memory

open Text

/-- How a rule recognises its statements. -/
inductive Matcher
  /-- By a part of the statement. -/
  | containing (part : String)
  /-- By a pattern, which is found in a statement or is not. -/
  | pattern (isFoundIn : String → Bool)

/-- Is `part` a run of characters of a text? -/
def isPart (part : List Char) : List Char → Bool
  | [] => part.isEmpty
  | c :: rest => part.isPrefixOf (c :: rest) || isPart part rest

/-- Does a matcher accept a statement? -/
def Matcher.accepts (statement : String) : Matcher → Bool
  | containing part => isPart part.toList statement.toList
  | pattern isFoundIn => isFoundIn statement

/-- A rule. -/
structure Rule where
  matcher : Matcher
  /-- What a statement gets when there is no fault. -/
  result : Value
  fault : Option Fault := none

/-- What a rule answers. -/
def Rule.answer (r : Rule) : Result Value :=
  match r.fault with
  | some f => .error f
  | none => .ok r.result

/-- What is given in the place of a matcher: a value, or a pattern, which is found in a
statement or is not. -/
inductive Item
  | value (v : Value)
  | pattern (isFoundIn : String → Bool)

/-- A pattern that was read. -/
def Item.ofPattern (p : Pattern) : Item :=
  .pattern fun statement => p.occursIn statement.toList

/-- The matcher that is given, if it is one. -/
def Item.matcher : Item → Result Matcher
  | pattern isFoundIn => .ok (.pattern isFoundIn)
  | value (.str part) => .ok (.containing part)
  | value v => .error (.matcherType v.typeName)

/-- The rule with this matcher; without a result it answers with no rows. -/
def Rule.ofItem (matcher : Item) (result : Value) (fault : Option Fault) : Result Rule := do
  let matcher ← matcher.matcher
  return { matcher, fault, result := match result with
    | .null => .list []
    | v => v }

/-- An entry of a list of rules. -/
inductive Entry
  | rule (r : Rule)
  /-- A mapping; the matcher goes by either of two names, the first one first. -/
  | fields (firstMatcher secondMatcher : Option Item) (result : Value) (fault : Option Fault)
  /-- A sequence without items. -/
  | empty
  /-- A sequence, which has to be a matcher and a result. -/
  | items (first : Item) (others : List Value)

/-- The rule that an entry makes. -/
def Entry.rule? : Entry → Result Rule
  | rule r => .ok r
  | fields first second result fault =>
    Rule.ofItem ((first.or second).getD (.value .null)) result fault
  | empty => .error (.tooFewItems 0)
  | items _ [] => .error (.tooFewItems 1)
  | items matcher [result] => Rule.ofItem matcher result none
  | items _ (_ :: _ :: _) => .error .tooManyItems

/-- The rules that entries make, or the first fault among them. -/
def rulesOf (entries : List Entry) : Result (List Rule) :=
  entries.mapM Entry.rule?

end SqlWeave.Memory
