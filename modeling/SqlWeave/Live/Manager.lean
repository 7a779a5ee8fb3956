import SqlWeave.Live.Tunnel

/-!
# The connection manager

Establishing a connection sets up the tunnel, if there is to be one, and then a pool,
and tries the pool out with one statement.  Whatever fails, and also when it is
cancelled, what was set up is taken down again, the pool before its tunnel.  Closing
takes down as well.

A connected manager runs statements on connections of its pool.  A connection that
is checked out is handed back at most once.
-/

namespace SqlWeave.Manager

open Settings

/-! ## Transitions -/

/-- The options of a pool that reaches the database at an address. -/
def poolOptions (s : DatabaseSettings) (host : String) (port : Int) : Options :=
  [("autocommit", .bool true),
   ("charset", .str "utf8mb4"),
   ("client_flag", .int (if s.multipleStatements then 65536 else 0)),
   ("connect_timeout", .float s.connectTimeout),
   ("cursorclass", .str "DictCursor"),
   ("db", Tunnel.optionalValue s.database),
   ("host", .str host),
   ("init_command", .str s.sessionInit),
   ("maxsize", .int s.connectionLimit),
   ("minsize", .int 0),
   ("password", .str (s.password.getD "")),
   ("port", .int port),
   ("user", Tunnel.optionalValue s.user)]

/-- The configured host, by default the machine itself. -/
def databaseHost (s : DatabaseSettings) : String :=
  (Tunnel.given s.host).getD "localhost"

/-- The address of the database: the local end of the tunnel where there is one; an
empty host or the port zero there gives way to the configured one. -/
def address (s : DatabaseSettings) (localEnd : Option (String × Int)) : String × Int :=
  match localEnd with
  | some (host, port) =>
    (if host != "" then host else databaseHost s, if port != 0 then port else s.port)
  | none => (databaseHost s, s.port)

/-- Opens a tunnel for the manager, and gives its local end. -/
def setUpTunnel (db : Database) : Action Store (String × Int) := do
  let t ← Tunnel.create
  Tunnel.connect db t
  Action.change (Store.onManager ({ · with tunnel := some t }))
  Action.ofResult (Tunnel.localAddress db (← Action.state).live t)

/-- Sets up a pool and gives its number. -/
def setUpPool (s : DatabaseSettings) (localEnd : Option (String × Int)) : Action Store Nat := do
  let (host, port) := address s localEnd
  let _ ← call (.createPool (poolOptions s host port))
  onLive fun l =>
    let pool := l.pools + 1
    (pool, { l with pools := pool, manager := { l.manager with pool := some pool } })

/-- Acquires a connection of a pool. -/
def acquire (pool : Nat) : Action Store Nat := do
  let _ ← call (.acquire pool)
  onLive fun l => (l.connections + 1, { l with connections := l.connections + 1 })

/-- Hands a connection back to its pool. -/
def handBack (connection : Nat) : Action Store Unit := do
  let _ ← call (.release connection)

/-- Runs a statement on a connection. -/
def execute (connection : Nat) (sql : String) : Action Store (Value × Value) := do
  let e ← call (.execute connection sql)
  return ResultSet.collect e.sets

/-- Runs a statement on a connection of a pool. -/
def executeOn (pool : Nat) (sql : String) : Action Store (Value × Value) := do
  let connection ← acquire pool
  Action.ensuring (execute connection sql) (handBack connection)

/-- The statement with which a pool is tried out. -/
def trialStatement : String := "SELECT 1;"

/-- Sets up everything. -/
def setUp (db : Database) : Action Store Nat := do
  let localEnd ←
    if db.settings.tunnel.isEnabled then some <$> setUpTunnel db else pure none
  let pool ← setUpPool db.settings localEnd
  let _ ← executeOn pool trialStatement
  return pool

/-- Takes down the pool and then the tunnel.  Faults on the way are dropped. -/
def takeDown : Action Store Unit := do
  let pool ← onLive fun l => (l.manager.pool, l.manage ({ · with pool := none }))
  if let some pool := pool then
    Action.quietly do
      let _ ← call (.poolClose pool)
      let _ ← call (.poolWaitClosed pool)
  let tunnel ← onLive fun l => (l.manager.tunnel, l.manage ({ · with tunnel := none }))
  if let some t := tunnel then
    Action.quietly (Tunnel.close t)

/-- Enters a phase. -/
def enter (phase : Phase) : Action Store Unit :=
  Action.change (Store.onManager ({ · with phase }))

/-- Forgets the pending transition. -/
def settle : Action Store Unit :=
  Action.change (Store.onManager ({ · with pending := none }))

/-- How callers see the fault of a step of the connecting. -/
def connectionFault (f : Fault) : Fault :=
  if !f.isFailure || f.isConnection then f else .connection (.unreachable f.message)

/-- Establishes a connection, and gives the pool. -/
def establish (db : Database) : Action Store Value :=
  Action.ensuring
    (do
      match ← (setUp db).outcome with
      | .ok pool =>
        enter .connected
        return .pool pool
      | .error f =>
        takeDown
        enter .disconnected
        throw (connectionFault f))
    settle

/-- Closes the connection. -/
def close : Action Store Value := do
  Action.ensuring takeDown do
    enter .disconnected
    settle
  return .null

end Manager

/-- What a manager does in a transition. -/
def Transition.action (db : Database) : Transition → Action Store Value
  | establish => Manager.establish db
  | close => Manager.close

namespace Manager

/-! ## Statements and connections -/

/-- The pool of a connected manager. -/
def requirePool : Action Store Nat := do
  Action.ofResult (← Action.state).live.manager.require

/-- Runs a statement on any connection. -/
def query (sql : String) : Action Store (Value × Value) := do
  executeOn (← requirePool) sql

/-- Checks out a connection. -/
def checkOut : Action Store Nat := do
  let connection ← acquire (← requirePool)
  onLive fun l => (l.checkouts.length, { l with checkouts := l.checkouts ++ [{ connection }] })

/-- A connection that was checked out. -/
def checkout (c : Nat) : Action Store Checkout := do
  match (← Action.state).live.checkouts[c]? with
  | some checkout => return checkout
  | none => throw .noItem

/-- Makes a call on a connection that was checked out. -/
def callOn (c : Nat) (make : Nat → Call) : Action Store Unit := do
  let _ ← call (make (← checkout c).connection)

/-- Runs a statement on a connection that was checked out. -/
def queryOn (c : Nat) (sql : String) : Action Store (Value × Value) := do
  execute (← checkout c).connection sql

/-- Hands back a connection that was checked out, unless that was done before. -/
def release (c : Nat) : Action Store Unit := do
  let checkout ← checkout c
  if checkout.isReleased then return
  Action.change (Store.onLive fun l =>
    { l with checkouts := l.checkouts.modify c ({ · with isReleased := true }) })
  handBack checkout.connection

/-- Checks out a connection and begins a transaction on it; if that fails the
connection is handed back. -/
def beginTransaction : Action Store Nat := do
  let c ← checkOut
  match ← (callOn c .begin).outcome with
  | .ok () => return c
  | .error f =>
    release c
    throw f

end SqlWeave.Manager
