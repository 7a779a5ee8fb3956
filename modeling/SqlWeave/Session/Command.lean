import SqlWeave.Database.Transaction
import SqlWeave.Scheduler

/-!
# Commands

A command is one thing that a caller can ask of a database.  Connections that are given
to a caller are put in a list, by whose places later commands name them; transactions
go by the order in which they began.
-/

namespace SqlWeave

open Settings

/-- One thing to do in a block. -/
inductive BlockAction
  | query (q : Database.Query)
  | commit
  | rollback
  /-- A fault of the caller's own. -/
  | fail

/-- An entry of a block that runs in a transaction. -/
structure BlockEntry where
  action : BlockAction
  /-- The block goes on when the action fails. -/
  catches : Bool := false

/-- One thing that can be asked of a database. -/
inductive Command
  | query (q : Database.Query)
  | connect
  | disconnect
  | begin
  | queryIn (transaction : Nat) (q : Database.Query)
  | commit (transaction : Nat)
  | rollback (transaction : Nat)
  | isClosed (transaction : Nat)
  /-- Puts the connection of a transaction in the list. -/
  | connectionOf (transaction : Nat)
  | block (body : List BlockEntry)
  /-- Connects if need be and checks out a connection. -/
  | getConnection
  | checkOut
  | checkOutTransaction
  | queryAnywhere (sql : String)
  | queryOn (place : Nat) (sql : String)
  | beginOn (place : Nat)
  | commitOn (place : Nat)
  | rollbackOn (place : Nat)
  | release (place : Nat)
  /-- The driver's own connection. -/
  | raw (place : Nat)
  | pool
  | tunnelAddress
  /-- The last SSH connection is lost. -/
  | connectionLost (reason : Option Fault)
  | format (sql : String) (params : Value)
  | escape (v : Value)
  | quote (v : Value) (isSingle : Bool)
  | settings
  | logLevel
  /-- Replaces the rules by what the entries make, if making these met no fault. -/
  | setRules (entries : Result (List Memory.Entry))
  | lastQuery
  | lastTransaction
  | record (log : String)
  | forgetQuery
  | forgetRules
  | forgetTransaction
  | clear

/-- A fault of the caller's own, which no database knows of. -/
def callerFault : Fault :=
  .raised .key [.str "app failure"]

namespace Database

/-- The numbers of the log levels. -/
def logLevels : List (String × Nat) :=
  [("debug", 10), ("info", 20), ("warn", 30), ("warning", 30), ("error", 40), ("critical", 50)]

/-- The log level by its number; an unknown one is that of errors. -/
def logLevel (db : Database) : Nat :=
  (logLevels.lookup (foldName db.settings.resolvedLogLevel)).getD 40

/-- An optional text as a value. -/
def textValue (s : Option String) : Value :=
  (s.map Value.str).getD .null

/-- A few of the settings. -/
def overview (db : Database) : Value :=
  .record [("host", textValue db.settings.host), ("environment", .str db.settings.environment),
    ("hardened", .bool db.settings.isHardened), ("test_mode", .bool db.settings.testMode)]

/-- Puts a connection in the list of those that callers hold. -/
def hold (c : Nat) : Action Store Value :=
  Action.stateful fun s => (.ok (.int s.held.length), { s with held := s.held ++ [c] })

/-- The connection at a place of the list. -/
def heldAt (place : Nat) : Action Store Nat := do
  match (← Action.state).held[place]? with
  | some c => return c
  | none => throw .noItem

/-- Uses the in-memory backend directly, which the live one does not allow. -/
def onFixture {α : Type} (db : Database) (f : MemoryBackend → Result α × MemoryBackend) :
    Action Store α :=
  db.onBackend (throw .noMemoryBackend) (onMemory f)

/-- Results and fields as one value. -/
def pair (r : Value × Value) : Value :=
  .tuple [r.1, r.2]

/-- The pool of the live backend. -/
def pool (db : Database) : Action Store Value := do
  let s ← Action.state
  db.onBackend (pure ((s.live.manager.pool.map Value.pool).getD .null))
    (throw (.noMember Value.memoryBackend.typeName "pool"))

/-- The local end of the tunnel, if there is one. -/
def tunnelAddress (db : Database) : Action Store Value := do
  let s ← Action.state
  db.onBackend
    (match s.live.manager.tunnel with
      | some t => do
        let (host, port) ← Action.ofResult (Tunnel.localAddress db s.live t)
        return .tuple [.str host, .int port]
      | none => pure .null)
    (throw (.noMember Value.memoryBackend.typeName "tunnel"))

/-- Loses the last SSH connection, and gives the text of what the tunnel reports. -/
def loseConnection (reason : Option Fault) : Action Store Value :=
  onLive fun l =>
    match l.lastTunnel with
    | some t =>
      let l := Tunnel.connectionLost t reason l
      (textValue ((l.tunnel t).transportFault.map Fault.message), l)
    | none => (.null, l)

/-- The driver's connection under one that was checked out; a connection in memory is
its own. -/
def raw (db : Database) (c : Nat) : Action Store Value :=
  db.onBackend (do return .connection (← Manager.checkout c).connection) (pure (.str "self"))

/-- Does one thing of a block in a transaction. -/
def act (db : Database) (t : Nat) : BlockAction → Action Store Value
  | .query q => db.queryIn t q
  | .commit => do
    db.commit t
    return .null
  | .rollback => do
    db.rollback t
    return .null
  | .fail => throw callerFault

/-- Runs the entries of a block in a transaction.  Gathers the outcomes of those that
are done, and reports the fault that ended the block. -/
def runEntries (db : Database) (t : Nat) :
    List BlockEntry → Action Store (List (Result Value) × Result Unit)
  | [] => return ([], .ok ())
  | e :: rest => do
    match ← (db.act t e.action).outcome, e.catches with
    | .error f, false => return ([], .error f)
    | r, _ => do
      let (inner, ending) ← runEntries db t rest
      return (r :: inner, ending)

/-- Does something and gives nothing. -/
def nothing (action : Action Store Unit) : Action Store Value := do
  action
  return .null

/-- A change of the in-memory backend. -/
def changing (db : Database) (f : MemoryBackend → MemoryBackend) : Action Store Value :=
  db.onFixture fun m => (.ok .null, f m)

/-- What a command does, but for blocks. -/
def action (db : Database) : Command → Action Store Value
  | .query q => db.query q
  | .connect => db.connect
  | .disconnect => db.disconnect
  | .begin => do return .int (← db.begin)
  | .queryIn t q => db.queryIn t q
  | .commit t => nothing (db.commit t)
  | .rollback t => nothing (db.rollback t)
  | .isClosed t => do return .bool (← transaction t).isClosed
  | .connectionOf t => do hold (← transaction t).connection
  | .block body => do
    let (_, ending) ← db.block (db.runEntries · body)
    Action.ofResult (ending.map fun () => .str "exited")
  | .getConnection => do
    db.ensureConnected
    hold (← db.checkOut)
  | .checkOut => do hold (← db.checkOut)
  | .checkOutTransaction => do hold (← db.checkOutTransaction)
  | .queryAnywhere sql => pair <$> db.queryAnywhere sql
  | .queryOn place sql => do return pair (← db.queryOn (← heldAt place) sql)
  | .beginOn place => do nothing (db.beginOn (← heldAt place))
  | .commitOn place => do nothing (db.commitOn (← heldAt place))
  | .rollbackOn place => do nothing (db.rollbackOn (← heldAt place))
  | .release place => do nothing (db.release (← heldAt place))
  | .raw place => do db.raw (← heldAt place)
  | .pool => db.pool
  | .tunnelAddress => db.tunnelAddress
  | .connectionLost reason => loseConnection reason
  | .format sql params => Action.ofResult ((Template.format .standard sql params).map Value.str)
  | .escape v => Action.ofResult ((Sql.Literal.ofValue v).map Value.ofChars)
  | .quote v isSingle =>
    Action.ofResult ((Sql.Identifier.ofValue isSingle v).map Value.ofChars)
  | .settings => return db.overview
  | .logLevel => return .int db.logLevel
  | .setRules entries => do
    let entries ← Action.ofResult entries
    nothing (db.onFixture (MemoryBackend.setRules entries))
  | .lastQuery => db.onFixture fun m => (.ok (textValue m.lastQuery), m)
  | .lastTransaction => db.onFixture fun m => (.ok (textValue m.lastTransaction), m)
  | .record log => db.changing (MemoryBackend.record log)
  | .forgetQuery => db.changing MemoryBackend.forgetQuery
  | .forgetRules => db.changing MemoryBackend.forgetRules
  | .forgetTransaction => db.changing MemoryBackend.forgetTransaction
  | .clear => db.changing MemoryBackend.clear

/-- The routine of a block, which reports the outcomes of its entries. -/
def blockRoutine (db : Database) (body : List BlockEntry) : Routine Store Report :=
  (db.block (db.runEntries · body)).run.bind fun
    | .ok (inner, ending) => .done ⟨ending.map fun () => .str "exited", inner⟩
    | .error f => .done ⟨.error f, []⟩

/-- The routine of a command. -/
def routine (db : Database) : Command → Routine Store Report
  | .block body => db.blockRoutine body
  | command => Scheduler.routineOf (db.action command)

end Database
end SqlWeave
