import SqlWeave.Live.Manager

/-!
# What both backends offer

The same few operations, whichever backend a database was set up with.  The in-memory
backend carries them out at once.
-/

namespace SqlWeave.Database

/-- An action of either backend. -/
def onBackend {α : Type} (db : Database) (live memory : Action Store α) : Action Store α :=
  match db.backend with
  | .live => live
  | .memory => memory

/-- The phase of the connection. -/
def phase (db : Database) (s : Store) : Phase :=
  match db.backend with
  | .live => s.live.manager.phase
  | .memory => if s.memory.isConnected then .connected else .disconnected

/-- Connects, unless there is a connection; gives the pool. -/
def connect (db : Database) : Action Store Value :=
  db.onBackend (Action.wait (.goal .connected))
    (onMemory fun m => (.ok .memoryBackend, { m with isConnected := true }))

/-- Disconnects, if there is a connection. -/
def disconnect (db : Database) : Action Store Value :=
  db.onBackend (Action.wait (.goal .disconnected))
    (onMemory fun m => (.ok .null, { m with isConnected := false }))

/-- The results of a statement in memory, which have no fields. -/
def withoutFields (r : Result Value) : Result (Value × Value) :=
  r.map fun results => (results, .null)

/-- Runs a statement, on any connection. -/
def queryAnywhere (db : Database) (sql : String) : Action Store (Value × Value) :=
  db.onBackend (Manager.query sql) (onMemory fun m => (m.query sql).map withoutFields id)

/-- Checks out a connection. -/
def checkOut (db : Database) : Action Store Nat :=
  db.onBackend Manager.checkOut (onMemory (MemoryBackend.checkOut none))

/-- Checks out a connection with a transaction on it. -/
def checkOutTransaction (db : Database) : Action Store Nat :=
  db.onBackend Manager.beginTransaction
    (onMemory (MemoryBackend.checkOut (some [Memory.startStatement])))

/-- Runs a statement on a connection. -/
def queryOn (db : Database) (c : Nat) (sql : String) : Action Store (Value × Value) :=
  db.onBackend (Manager.queryOn c sql)
    (onMemory fun m => (m.queryOn c sql).map withoutFields id)

/-- Begins a transaction on a connection. -/
def beginOn (db : Database) (c : Nat) : Action Store Unit :=
  db.onBackend (Manager.callOn c .begin) (onMemory fun m => (.ok (), m.beginOn c))

/-- Commits the transaction on a connection. -/
def commitOn (db : Database) (c : Nat) : Action Store Unit :=
  db.onBackend (Manager.callOn c .commit) (onMemory fun m => (.ok (), m.endOn c "COMMIT"))

/-- Rolls back the transaction on a connection. -/
def rollbackOn (db : Database) (c : Nat) : Action Store Unit :=
  db.onBackend (Manager.callOn c .rollback) (onMemory fun m => (.ok (), m.endOn c "ROLLBACK"))

/-- Hands a connection back. -/
def release (db : Database) (c : Nat) : Action Store Unit :=
  db.onBackend (Manager.release c) (pure ())

end SqlWeave.Database
