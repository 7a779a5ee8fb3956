import SqlWeave.Memory.Rule
import SqlWeave.Text.CharClass

/-!
# The in-memory backend

A backend for tests: no statement leaves the program, and rules say what each
statement gets.  The backend remembers the last statement, and the transcript of the
last transaction that ended.  A connection that began a transaction gathers its
statements until the transaction ends.

A finished transaction is published as one text, its transcript: its statements in order,
each with a terminator of its own, one after another.
-/

namespace SqlWeave

namespace Memory

open Text

/-- The statement that begins a transaction. -/
def startStatement : String := "START TRANSACTION"

/-- A statement without blanks around it, without the terminators at its end, and
without the blanks before these. -/
def unterminated (statement : List Char) : List Char :=
  trimEnd ((trim statement).reverse.dropWhile (· == ';')).reverse

/-- The transcript of a list of statements. -/
def transcript (statements : List (List Char)) : List Char :=
  List.intercalate [';', '\n'] (statements.map unterminated) ++ [';']

end Memory

open Memory

/-- The state of the in-memory backend. -/
structure MemoryBackend where
  isConnected : Bool := false
  rules : List Rule := []
  lastQuery : Option String := none
  lastTransaction : Option String := none
  /-- The connections that were handed out, each with the statements of the
  transaction that is open on it. -/
  connections : List (Option (List String)) := []

namespace MemoryBackend

/-- What the rules say to a statement: the first one that accepts it answers, and
without one there are no rows. -/
def answer (rules : List Rule) (statement : String) : Result Value :=
  match rules.find? (·.matcher.accepts statement) with
  | some rule => rule.answer
  | none => .ok (.list [])

/-- The answer to a statement, which is remembered. -/
def respond (statement : String) (m : MemoryBackend) : Result Value × MemoryBackend :=
  (answer m.rules statement, { m with lastQuery := some statement })

/-- The backend, if it is connected. -/
def require (m : MemoryBackend) : Result Unit :=
  if m.isConnected then .ok () else .error (.connection (.notConnected "disconnected"))

/-- The answer to a statement that runs on no connection in particular. -/
def query (statement : String) (m : MemoryBackend) : Result Value × MemoryBackend :=
  match m.require with
  | .ok () => m.respond statement
  | .error f => (.error f, m)

/-- Hands out a connection, on which a transaction may be open already. -/
def checkOut (transaction : Option (List String)) (m : MemoryBackend) :
    Result Nat × MemoryBackend :=
  match m.require with
  | .ok () => (.ok m.connections.length, { m with connections := m.connections ++ [transaction] })
  | .error f => (.error f, m)

/-- The statements of the transaction that is open on a connection. -/
def statementsOn (connection : Nat) (m : MemoryBackend) : Option (List String) :=
  (m.connections[connection]?).getD none

/-- Replaces what a connection gathers. -/
def gather (connection : Nat) (statements : Option (List String)) (m : MemoryBackend) :
    MemoryBackend :=
  { m with connections := m.connections.set connection statements }

/-- The answer to a statement on a connection, which gathers it. -/
def queryOn (connection : Nat) (statement : String) (m : MemoryBackend) :
    Result Value × MemoryBackend :=
  (m.gather connection ((m.statementsOn connection).map (· ++ [statement]))).respond statement

/-- Begins a transaction on a connection. -/
def beginOn (connection : Nat) (m : MemoryBackend) : MemoryBackend :=
  m.gather connection (some [startStatement])

/-- Remembers a transcript. -/
def record (log : String) (m : MemoryBackend) : MemoryBackend :=
  { m with lastTransaction := some log }

/-- Ends the transaction on a connection with a last statement, and publishes it.
Where none is open nothing happens. -/
def endOn (connection : Nat) (last : String) (m : MemoryBackend) : MemoryBackend :=
  match m.statementsOn connection with
  | some statements =>
    (m.gather connection none).record
      (String.ofList (transcript ((statements ++ [last]).map String.toList)))
  | none => m

/-- Replaces the rules; the entries are refused all together. -/
def setRules (entries : List Entry) (m : MemoryBackend) : Result Unit × MemoryBackend :=
  match rulesOf entries with
  | .ok rules => (.ok (), { m with rules })
  | .error f => (.error f, m)

/-- Forgets the last statement. -/
def forgetQuery (m : MemoryBackend) : MemoryBackend :=
  { m with lastQuery := none }

/-- Forgets the rules. -/
def forgetRules (m : MemoryBackend) : MemoryBackend :=
  { m with rules := [] }

/-- Forgets the last transcript. -/
def forgetTransaction (m : MemoryBackend) : MemoryBackend :=
  { m with lastTransaction := none }

/-- Forgets the last statement, the rules and the last transcript. -/
def clear (m : MemoryBackend) : MemoryBackend :=
  m.forgetQuery.forgetRules.forgetTransaction

end MemoryBackend
end SqlWeave
