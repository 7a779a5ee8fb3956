import SqlWeave.Database.Query

/-!
# Transactions

All statements of a transaction, its commit and its rollback go through one connection.
The connection is handed back when the transaction ends: by a commit or a rollback,
whether that fails or not, or by a statement that fails.  After that the transaction
is closed.
-/

namespace SqlWeave.Database

/-- Begins a transaction. -/
def begin (db : Database) : Action Store Nat := do
  db.ensureConnected
  let connection ← db.checkOutTransaction
  Action.stateful fun s =>
    (.ok s.transactions.length, { s with transactions := s.transactions ++ [{ connection }] })

/-- The transaction with a number. -/
def transaction (t : Nat) : Action Store Transaction := do
  Action.ofResult ((← Action.state).transaction? t)

/-- The connection of a transaction, if that is still open. -/
def openConnection (t : Nat) : Action Store Nat := do
  let transaction ← transaction t
  if transaction.isClosed then throw .transactionClosed
  return transaction.connection

/-- Closes a transaction and hands its connection back, unless that was done before. -/
def finish (db : Database) (t : Nat) : Action Store Unit := do
  let transaction ← transaction t
  if transaction.isClosed then return
  Action.change (Store.closeTransaction t)
  db.release transaction.connection

/-- Runs a query in a transaction.  A statement that fails ends the transaction, since
it was rolled back. -/
def queryIn (db : Database) (t : Nat) (q : Query) : Action Store Value := do
  let connection ← openConnection t
  match ← (db.run q (some connection)).outcome with
  | .ok v => return v
  | .error f =>
    if f.kind == .sql then db.finish t
    throw f

/-- An action that ends a transaction; its failures are SQL faults of a statement. -/
def ending (db : Database) (t : Nat) (statement : String) (action afterFailure : Action Store Unit) :
    Action Store Unit :=
  Action.ensuring
    (do
      match ← action.outcome with
      | .ok () => return
      | .error f =>
        if !f.isFailure then throw f
        afterFailure
        throw (f.ofStatement statement db.settings.isHardened))
    (db.finish t)

/-- Commits a transaction.  When that fails a rollback is tried. -/
def commit (db : Database) (t : Nat) : Action Store Unit := do
  let connection ← openConnection t
  db.ending t "COMMIT;" (db.commitOn connection) (db.rollbackQuietly (some connection))

/-- Rolls a transaction back, unless it is closed. -/
def rollback (db : Database) (t : Nat) : Action Store Unit := do
  let transaction ← transaction t
  if transaction.isClosed then return
  db.ending t "ROLLBACK;" (db.rollbackOn transaction.connection) (pure ())

/-- Leaves a block that runs in a transaction.  Unless the transaction is closed, it
is committed when the block ended well, and rolled back when it failed. -/
def leave (db : Database) (t : Nat) (endedWell : Bool) : Action Store Unit := do
  if (← transaction t).isClosed then return
  if endedWell then db.commit t else db.rollback t

/-- Runs a block in a transaction.  The block reports what it gathered and how it
ended; a fault while leaving it goes before that. -/
def block {α : Type} (db : Database) (body : Nat → Action Store (α × Result Unit)) :
    Action Store (α × Result Unit) := do
  let t ← db.begin
  let (gathered, ending) ← body t
  let left ← (db.leave t ending.toBool).outcome
  return (gathered, left.bind fun () => ending)

end SqlWeave.Database
