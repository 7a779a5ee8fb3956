import SqlWeave.Casing.Rows
import SqlWeave.Database.Connection
import SqlWeave.Template.Compiled

/-!
# Queries

A query is a template with parameters, or plain SQL without any.  It is checked and
formatted before anything is sent.  When the statement fails, a rollback is tried and
the fault is wrapped as an SQL fault; connection faults and cancellations are passed
on as they are.
-/

namespace SqlWeave.Database

/-- A query. -/
structure Query where
  sql : String
  /-- A mapping, or nothing for plain SQL. -/
  params : Value := .null
  /-- What overrides the database's query configuration. -/
  override : Value := .null

/-- Connects if there is no connection, unless this is left to the caller. -/
def ensureConnected (db : Database) : Action Store Unit := do
  if db.phase (← Action.state) = .connected then return
  if !db.settings.lazyConnect then throw (.connection .lazyConnectDisabled)
  let _ ← db.connect

/-- Tries a rollback, on a connection of its own where none is given. -/
def rollbackQuietly (db : Database) (connection : Option Nat) : Action Store Unit :=
  Action.quietly do
    match connection with
    | some c => db.rollbackOn c
    | none =>
      let c ← db.checkOut
      Action.ensuring (db.rollbackOn c) (db.release c)

/-- The rows that a caller gets for results and fields. -/
def present (config : QueryConfig) (results fields : Value) : Value :=
  if config.isNative then .tuple [results, fields]
  else if config.keepsCasing then results
  else Casing.applicationCasing results

/-- Runs a statement on a connection, or on any one. -/
def send (db : Database) (connection : Option Nat) (sql : String) :
    Action Store (Value × Value) :=
  match connection with
  | some c => db.queryOn c sql
  | none => db.queryAnywhere sql

/-- Runs a query on a connection, or on any one. -/
def run (db : Database) (q : Query) (connection : Option Nat) : Action Store Value := do
  let config ← Action.ofResult (db.settings.queryConfig.merged q.override)
  if connection.isNone then db.ensureConnected
  let sql ← Action.ofResult (Template.format .standard q.sql q.params)
  match ← (db.send connection sql).outcome with
  | .ok (results, fields) => return present config results fields
  | .error f =>
    if f.isConnection || !f.isFailure then throw f
    db.rollbackQuietly connection
    throw (f.ofStatement sql db.settings.isHardened)

/-- Runs a query. -/
def query (db : Database) (q : Query) : Action Store Value :=
  db.run q none

end SqlWeave.Database
