import SqlWeave.Store

/-!
# Opening and closing a tunnel

A tunnel is an SSH connection and a listener that forwards through it.  Opening it is
all or nothing as far as the faults go that an SSH client is known to have: after one
of these, whatever was opened is closed again.
-/

namespace SqlWeave.Tunnel

open Settings

/-- A text that was given and is not empty. -/
def given (s : Option String) : Option String :=
  s.filter (· != "")

/-- The private key, given as it is or read from a file. -/
def privateKey (db : Database) : Action Store (Option String) := do
  match given db.settings.tunnel.ssh.privateKey, given db.settings.tunnel.ssh.privateKeyFile with
  | some key, _ => return some key
  | none, some path =>
    let _ ← Action.wait .turn
    return given (some (← Action.ofResult (KeyFile.read db.files path)))
  | none, none => return none

/-- An imported key, as it is shown. -/
def importedKey (key : String) : Value :=
  .str ("KEY(" ++ key ++ ")")

/-- The options for the SSH client beyond the login name. -/
def clientOptions (db : Database) : Action Store Options := do
  let options := db.settings.tunnel.client
  match ← privateKey db with
  | some key =>
    let _ ← call (.importKey key db.settings.tunnel.ssh.passphrase)
    return options.set "client_keys" (.list [importedKey key])
  | none => return options

/-- An option that may be missing, as a value. -/
def optionalValue (s : Option String) : Value :=
  (s.map Value.str).getD .null

/-- The options of an SSH connection, in the order of their names.  What the login
settles already must not be an option again. -/
def connectOptions (db : Database) (options : Options) : Result Options :=
  match options.find? fun o => o.1 == "username" || o.1 == "client_factory" with
  | some o => .error (.repeatedOption db.sshClient o.1)
  | none =>
    .ok ((("username", optionalValue db.settings.tunnel.ssh.username) :: options).mergeSort
      fun o p => decide (o.1 ≤ p.1))

/-- Sets up the SSH connection and the listener. -/
def setUp (db : Database) (t : Nat) : Action Store Unit := do
  let ssh := db.settings.tunnel.ssh
  let options ← Action.ofResult (connectOptions db (← clientOptions db))
  Action.change (Store.onLive ({ · with lastTunnel := some t }))
  let _ ← call (.sshConnect t ssh.host ssh.port options)
  Action.change (Store.onLive (Live.setTunnel t ({ · with hasConnection := true })))
  let server := db.settings.tunnel.server
  let forward := db.settings.tunnel.forward
  let e ← call (.forward t server.host server.port forward.address forward.port)
  Action.change (Store.onLive (Live.setTunnel t ({ · with listener := some e.port })))

/-- Closes the listener and then the SSH connection, as far as they are open. -/
def close (t : Nat) : Action Store Unit := do
  let tunnel ← onLive fun l =>
    (l.tunnel t, l.setTunnel t ({ · with hasConnection := false, listener := none }))
  if tunnel.listener.isSome then
    let _ ← call (.listenerClose t)
    let _ ← call (.listenerWaitClosed t)
  if tunnel.hasConnection then
    let _ ← call (.sshClose t)
    let _ ← call (.sshWaitClosed t)

/-- The faults that an SSH client is known to have: system failures, bad values and its
own. -/
def isExpected (f : Fault) : Bool :=
  f.kind.isSystem || f.kind.isValue || f.kind == .ssh

/-- The address of the SSH server, for a message. -/
def serverAddress (db : Database) : String :=
  let ssh := db.settings.tunnel.ssh
  String.ofList ((optionalValue ssh.host).display ++ ':' :: Number.intText ssh.port)

/-- Opens the tunnel. -/
def connect (db : Database) (t : Nat) : Action Store Unit := do
  match ← (setUp db t).outcome with
  | .ok () => return
  | .error f =>
    if isExpected f then
      close t
      throw (.connection (.tunnelFailed (serverAddress db) f.message))
    else throw f

/-- The address at which the tunnel listens. -/
def localAddress (db : Database) (l : Live) (t : Nat) : Result (String × Int) :=
  match (l.tunnel t).listener with
  | some port => .ok (db.settings.tunnel.server.host, port)
  | none => .error (.connection .tunnelNotOpen)

/-- Notes that the SSH connection was lost, and why.  A connection that was closed in
good order is lost without a reason. -/
def connectionLost (t : Nat) (reason : Option Fault) (l : Live) : Live :=
  match reason with
  | some f => l.setTunnel t ({ · with transportFault := some (.tunnelTransport f.message) })
  | none => l

/-- Makes a tunnel that is not open yet. -/
def create : Action Store Nat :=
  onLive fun l => (l.tunnels.length, { l with tunnels := l.tunnels ++ [{}] })

end SqlWeave.Tunnel
