import SqlWeave.Live.KeyFile
import SqlWeave.Live.State
import SqlWeave.Memory.Backend
import SqlWeave.Settings.Database

/-!
# The store

A database is its settings, the backend that was picked for it and the files from which
keys are read; none of these changes.  All that changes is in the store:
the state of either backend, of which a database uses one, the transactions, and the
connections that callers hold.
-/

namespace SqlWeave

/-- The two backends. -/
inductive Backend
  | live
  | memory
  deriving DecidableEq, Repr

/-- A database that was set up. -/
structure Database where
  settings : DatabaseSettings
  backend : Backend
  /-- What is found at the paths of key files. -/
  files : Files := KeyFile.inHome []
  /-- The name by which the SSH client refuses arguments. -/
  sshClient : String := "connect()"

/-- The database with these settings: in test mode with the in-memory backend, unless
a backend is given. -/
def Database.ofSettings (settings : DatabaseSettings) (given : Option Backend) : Database where
  settings
  backend := given.getD (if settings.testMode then .memory else .live)

/-- The database with the settings that a configuration, keyword options and the
environment resolve to. -/
def Database.init (config : Value) (keywords : List (Value × Value))
    (environment : Settings.Environment) : Result Database := do
  DatabaseSettings.requireFree "init()" (← DatabaseSettings.keywordOptions keywords)
  return .ofSettings (← DatabaseSettings.resolve config keywords environment) none

/-- A transaction, which is pinned to one connection. -/
structure Transaction where
  connection : Nat
  isClosed : Bool := false

/-- All that changes while a database is used. -/
structure Store where
  live : Live := {}
  memory : MemoryBackend := {}
  transactions : List Transaction := []
  /-- The connections that callers hold, in the order in which they got them. -/
  held : List Nat := []

namespace Store

/-- The store with the live backend changed. -/
def onLive (f : Live → Live) (s : Store) : Store :=
  { s with live := f s.live }

/-- The store with the connection manager changed. -/
def onManager (f : Manager → Manager) (s : Store) : Store :=
  s.onLive (Live.manage f)

/-- The transaction with a number. -/
def transaction? (s : Store) (t : Nat) : Result Transaction :=
  match s.transactions[t]? with
  | some transaction => .ok transaction
  | none => .error .noItem

/-- The store with a transaction closed. -/
def closeTransaction (t : Nat) (s : Store) : Store :=
  { s with transactions := s.transactions.modify t ({ · with isClosed := true }) }

end Store

/-! ## Actions on the store -/

/-- An action of the live backend that takes no time. -/
def onLive {α : Type} (f : Live → α × Live) : Action Store α :=
  Action.stateful fun s => (.ok (f s.live).1, { s with live := (f s.live).2 })

/-- An action of the in-memory backend. -/
def onMemory {α : Type} (f : MemoryBackend → Result α × MemoryBackend) : Action Store α :=
  Action.stateful fun s => ((f s.memory).1, { s with memory := (f s.memory).2 })

/-- Makes a call: it is noted, takes a turn unless it is immediate, may hang, and has
the outcome that it meets. -/
def call (c : Call) : Action Store Encounter := do
  let e ← onLive fun l => (l.forecast.next c.kind, l.note c)
  if !c.kind.isImmediate then
    let _ ← Action.wait .turn
    if e.hangs then
      let _ ← Action.wait .release
  Action.ofResult e.result

end SqlWeave
