import SqlWeave.Settings.QueryConfig

/-!
# Tunnel settings

How to reach the SSH server, where it forwards to, and where the tunnel listens.
Options for the SSH client beyond these are passed on as they are.
-/

namespace SqlWeave.Settings

/-- How to reach the SSH server and log in. -/
structure SshOptions where
  host : Option String
  port : Int
  username : Option String
  privateKey : Option String
  privateKeyFile : Option String
  passphrase : Option String
  deriving Repr

/-- The address behind the tunnel, as the SSH server sees it. -/
structure ForwardOptions where
  address : String
  port : Int
  deriving Repr

/-- The local end of the tunnel; port zero picks a free port. -/
structure ServerOptions where
  host : String
  port : Int
  deriving Repr

/-- All options of a tunnel. -/
structure TunnelSettings where
  ssh : SshOptions
  forward : ForwardOptions
  server : ServerOptions
  /-- Passed on to the SSH client. -/
  client : Options
  deriving Repr

/-- A tunnel is used when it has a server. -/
def TunnelSettings.isEnabled (t : TunnelSettings) : Bool :=
  match t.ssh.host with
  | some host => host != ""
  | none => false

/-- The stem of the variables that set tunnel options. -/
def tunnelStem : String := "db_ssh_tunnel_"

/-- An optional text among the options. -/
def optionalText (s : Source) (name : String) : Check (Option String) :=
  Check.field name (s.find? name) none (Coercion.optional Coercion.text)

/-- Checks the SSH options. -/
def SshOptions.check (options : Options) (environment : Environment) : Check SshOptions := do
  let s : Source := ⟨options, environment, tunnelStem⟩
  return {
    host := ← optionalText s "host"
    port := ← Check.field "port" (s.find? "port") 22 Coercion.integer
    username := ← optionalText s "username"
    privateKey := ← optionalText s "private_key"
    privateKeyFile := ← optionalText s "private_key_file"
    passphrase := ← optionalText s "passphrase" }

/-- Checks the forwarding options. -/
def ForwardOptions.check (options : Options) (environment : Environment) :
    Check ForwardOptions := do
  let s : Source := ⟨options, environment, tunnelStem⟩
  return {
    address := ← Check.field "dst_addr" (s.find? "dst_addr") "127.0.0.1" Coercion.text
    port := ← Check.field "dst_port" (s.find? "dst_port") 3306 Coercion.integer }

/-- Checks the options of the local end, which no variable sets. -/
def ServerOptions.check (options : Options) : Check ServerOptions := do
  return {
    host := ← Check.field "host" (options.lookup "host") "127.0.0.1" Coercion.text
    port := ← Check.field "port" (options.lookup "port") 0 Coercion.integer }

/-- Checks the names of the options that are passed on. -/
def checkClient (entries : List (Value × Value)) : Check Options :=
  entries.foldlM (fun options e => do
    match Coercion.text e.1 with
    | .ok name => return options.set name e.2
    | .error refusal =>
      Check.complain [⟨["tunnel_options", keyPlace e.1, "[key]"], refusal⟩]
      return options) []

/-- The items of a value that can be gone through. -/
def iterate? : Value → Option (List Value)
  | .list items | .tuple items | .set items | .frozenset items => some items
  | .str s => some (s.toList.map fun c => .ofChars [c])
  | .bytes octets => some (octets.map fun n : Nat => .int n)
  | .map entries => some (entries.map Prod.fst)
  | .queryConfig c =>
    some [.tuple [.str "native_query", .bool c.isNative],
      .tuple [.str "keep_original_casing", .bool c.keepsCasing]]
  | _ => none

mutual

/-- The type of a value that can be no key: a sequence or a mapping that can change, or
one that holds such a value. -/
def mutableType? : Value → Option String
  | .tuple items => mutableTypeAmong? items
  | v@(.list _) | v@(.set _) | v@(.map _) | v@(.header ..) => some v.typeName
  | _ => none

/-- The type of the first item that can be no key. -/
def mutableTypeAmong? : List Value → Option String
  | [] => none
  | v :: rest => (mutableType? v).or (mutableTypeAmong? rest)

end

/-- The entries of a mapping that is given as pairs. -/
def pairEntries (index : Nat) : List Value → Result (List (Value × Value))
  | [] => .ok []
  | v :: rest =>
    match iterate? v with
    | none => .error (.notPair index)
    | some [key, item] =>
      match mutableType? key with
      | some typeName => .error (.unusableKey typeName)
      | none => do return (key, item) :: (← pairEntries (index + 1) rest)
    | some items => .error (.pairLength index items.length)

/-- The entries of a mapping, or of the pairs that make one. -/
def entriesOf (v : Value) : Result (List (Value × Value)) :=
  if !v.isNonempty then .ok []
  else match v with
    | .map entries => .ok entries
    | v =>
      match iterate? v with
      | some items => do
        match Value.ofEntries (← pairEntries 0 items) with
        | .map entries => return entries
        | _ => return []
      | none => .error (.notIterable v.typeName)

/-- An option that may be left out. -/
def Options.get (options : Options) (name : String) : Value :=
  (options.lookup name).getD .null

/-- Resolves the tunnel options that are given under one name.  A key file may be
given beside the SSH options, which go before it. -/
def TunnelSettings.resolve (given : Value) (environment : Environment) :
    Result TunnelSettings := do
  let tunnel ← normalizeOptional given
  let ssh ← normalizeOptional (tunnel.get "ssh_options")
  let ssh := match tunnel.lookup "private_key_file" with
    | some file => if (ssh.lookup "private_key_file").isSome then ssh else ssh.set "private_key_file" file
    | none => ssh
  let forward := tunnel.get "forward_options"
  let forward ← normalizeOptional
    (if forward.isNonempty then forward else tunnel.get "forward_options_local")
  let server ← normalizeOptional (tunnel.get "server_options")
  let ssh ← Check.run "SshOptions" (SshOptions.check ssh environment)
  let forward ← Check.run "ForwardOptions" (ForwardOptions.check forward environment)
  let server ← Check.run "ServerOptions" (ServerOptions.check server)
  let client ← entriesOf (tunnel.get "tunnel_options")
  let client ← Check.run "SshTunnelSettings" (checkClient client)
  return { ssh, forward, server, client }

/-- The tunnel settings when nothing is given in code. -/
def TunnelSettings.standard (environment : Environment) : Result TunnelSettings := do
  return {
    ssh := ← Check.run "SshOptions" (SshOptions.check [] environment)
    forward := ← Check.run "ForwardOptions" (ForwardOptions.check [] environment)
    server := ⟨"127.0.0.1", 0⟩
    client := [] }

end SqlWeave.Settings
