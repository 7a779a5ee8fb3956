import SqlWeave.Settings.Tunnel
import SqlWeave.Sql.Literal

/-!
# Database settings

The settings of a database are resolved once, when it is set up.  `resolve` takes
options in either casing, where keyword options go before those of a mapping;
`ofOptions` takes options by their exact names and lets the environment fill in
structured ones, too.
-/

namespace SqlWeave

open Settings Number

/-- The settings of a database. -/
structure DatabaseSettings where
  host : Option String
  port : Int
  database : Option String
  user : Option String
  password : Option String
  connectionLimit : Int
  multipleStatements : Bool
  timezone : String
  /-- In milliseconds. -/
  maxExecutionTime : Int
  groupConcatMaxLen : Int
  /-- In seconds. -/
  connectTimeout : Binary64
  lazyConnect : Bool
  logLevel : Option String
  testMode : Bool
  environment : String
  queryConfig : QueryConfig
  tunnel : TunnelSettings
  deriving Repr

namespace DatabaseSettings

/-- In production the driver's error texts are hidden from callers. -/
def isHardened (s : DatabaseSettings) : Bool :=
  s.environment == "production"

/-- The log level, by default after the environment. -/
def resolvedLogLevel (s : DatabaseSettings) : String :=
  match s.logLevel with
  | some level =>
    if level != "" then level else if s.environment == "development" then "debug" else "error"
  | none => if s.environment == "development" then "debug" else "error"

/-- The statement that prepares every new connection. -/
def sessionInit (s : DatabaseSettings) : String :=
  "SET time_zone = " ++ String.ofList (Sql.Literal.ofText s.timezone.toList) ++
    ", max_execution_time = " ++ String.ofList (intText s.maxExecutionTime) ++
    ", group_concat_max_len = " ++ String.ofList (intText s.groupConcatMaxLen)

/-! ## Structured options in the environment -/

/-- The stem of the variables that set database options. -/
def databaseStem : String := "mysql_"

/-- A key of a structured option under the field that it names in any case. -/
def fieldNamed (fields : List String) (key : String) : String :=
  (fields.find? fun f => foldName f = foldName key).getD key

/-- Entries with their keys under the fields that they name. -/
def renameFields (fields : List String) (entries : List (Value × Value)) :
    List (Value × Value) :=
  match Value.ofEntries (entries.map fun e =>
    (match e.1 with | .str key => .str (fieldNamed fields key) | key => key, e.2)) with
  | .map entries => entries
  | _ => []

/-- The fields of the groups inside the tunnel options. -/
def tunnelGroups : List (String × List String) :=
  [("ssh_options", ["host", "port", "username", "private_key", "private_key_file", "passphrase"]),
   ("forward_options", ["dst_addr", "dst_port"]),
   ("server_options", ["host", "port"])]

/-- A group of tunnel options with its keys under their fields. -/
def renameGroup (e : Value × Value) : Value × Value :=
  match e with
  | (.str group, .map entries) =>
    match tunnelGroups.lookup group with
    | some fields => (.str group, .map (renameFields fields entries))
    | none => e
  | _ => e

/-- A structured option as a variable gives it, with its keys under their fields. -/
def renameStructured (field : String) : Value → Value
  | .map entries =>
    if field = "query_config" then .map (renameFields QueryConfig.fieldNames entries)
    else
      .map ((renameFields ("tunnel_options" :: tunnelGroups.map Prod.fst) entries).map renameGroup)
  | v => v

/-- The structured option that the environment gives, which has to be JSON; `null`
gives none. -/
def structured? (environment : Environment) (field : String) : Result (Option Value) :=
  match environment.find? (databaseStem ++ field) with
  | none => .ok none
  | some s =>
    match Json.read? s with
    | none => .error (.unreadableOption field)
    | some .null => .ok none
    | some v => .ok (some (renameStructured field v))

/-! ## Checking -/

/-- Sets an entry under a text key. -/
def setEntry (entries : List (Value × Value)) (key v : Value) : List (Value × Value) :=
  Value.insertEntry key v entries

/-- A mapping with the entries of another on top; mappings under one key are merged,
to the depth of the fuel. -/
def mergeEntries (below above : List (Value × Value)) : Nat → List (Value × Value)
  | 0 => above
  | fuel + 1 =>
    above.foldl (fun entries e =>
      match entries.find? (fun b => b.1.sameKey e.1), e.2 with
      | some (_, .map inner), .map outer => setEntry entries e.1 (.map (mergeEntries inner outer fuel))
      | _, v => setEntry entries e.1 v) below

/-- A structured option of code on top of that of the environment. -/
def mergeStructured : Option Value → Option Value → Option Value
  | some (.map above), some (.map below) => some (.map (mergeEntries below above 8))
  | some v, _ => some v
  | none, below => below

/-- Complaints inside a structured field. -/
def within (field : String) (complaints : List Complaint) : List Complaint :=
  complaints.map fun c => { c with place := field :: c.place }

/-- A check whose complaints are placed inside a field. -/
def nested {α : Type} (field : String) (check : Check α) : Check α := do
  let (a, complaints) := StateT.run check []
  Check.complain (within field complaints)
  return a

/-- A field that holds a group of options. -/
def group {α : Type} (field model : String) (value : Option Value) (default : α)
    (check : List (Value × Value) → Check α) : Check α := do
  match value with
  | none => return default
  | some (.map entries) => nested field (check entries)
  | some _ =>
    Check.complain [⟨[field], .modelType model⟩]
    return default

/-- A required field that holds a group of options. -/
def requiredGroup {α : Type} (field model : String) (value : Option Value) (default : α)
    (check : Options → Check α) : Check α := do
  if value.isNone then Check.complain [⟨[field], .missing⟩]
  group field model value default fun entries => check (textOptions entries)

/-- Checks tunnel options by their exact names. -/
def checkTunnel (standard : TunnelSettings) (environment : Environment)
    (entries : List (Value × Value)) : Check TunnelSettings := do
  let options := textOptions entries
  let ssh ← requiredGroup "ssh_options" "SshOptions" (options.lookup "ssh_options") standard.ssh
    (SshOptions.check · environment)
  let forward ← requiredGroup "forward_options" "ForwardOptions" (options.lookup "forward_options")
    standard.forward (ForwardOptions.check · environment)
  let server ← group "server_options" "ServerOptions" (options.lookup "server_options")
    standard.server fun entries => ServerOptions.check (textOptions entries)
  let client ← match options.lookup "tunnel_options" with
    | none => pure []
    | some (.map entries) => checkClient entries
    | some _ => do
      Check.complain [⟨["tunnel_options"], .recordType⟩]
      pure []
  return { ssh, forward, server, client }

/-- The query configuration among the options: one that is checked already, or a
group of flags. -/
def checkQueryConfig (value : Option Value) : Check QueryConfig :=
  match value with
  | some (.queryConfig c) => pure c
  | v => group "query_config" "QueryConfig" v {} QueryConfig.check

/-- The environment's name: an option, or a variable with or without the stem. -/
def environmentName (s : Source) : Option Value :=
  (s.options.lookup "environment").or
    (((s.environment.find? "environment").or
      (s.environment.find? (s.stem ++ "environment"))).map Value.str)

/-- Checks all settings; the tunnel is checked as `tunnel` says. -/
def check (s : Source) (queryConfig : Option Value) (tunnel : Check TunnelSettings) :
    Check DatabaseSettings := do
  let truth (name : String) (default : Bool) :=
    Check.field name (s.find? name) default Coercion.truth
  let integer (name : String) (default : Int) (c : Coercion Int) :=
    Check.field name (s.find? name) default c
  return {
    host := ← optionalText s "host"
    port := ← integer "port" 3306 Coercion.integer
    database := ← optionalText s "database"
    user := ← optionalText s "user"
    password := ← optionalText s "password"
    connectionLimit := ← integer "connection_limit" 10 (Coercion.integerFrom 1)
    multipleStatements := ← truth "multiple_statements" true
    timezone := ← Check.field "timezone" (s.find? "timezone") "+00:00" Coercion.text
    maxExecutionTime := ← integer "max_execution_time" 30000 (Coercion.integerFrom 0)
    groupConcatMaxLen := ← integer "group_concat_max_len" 16384 Coercion.integer
    connectTimeout := ← Check.field "connect_timeout" (s.find? "connect_timeout")
      (Binary64.ofInt 10) Coercion.float
    lazyConnect := ← truth "lazy_connect" true
    logLevel := ← optionalText s "log_level"
    testMode := ← truth "test_mode" false
    environment := ← Check.field "environment" (environmentName s) "local" Coercion.text
    queryConfig := ← checkQueryConfig queryConfig
    tunnel := ← tunnel }

/-- Keyword options have text keys. -/
def keywordOptions : List (Value × Value) → Result Options
  | [] => .ok []
  | (.str name, v) :: rest => do return (name, v) :: (← keywordOptions rest)
  | _ :: _ => .error .optionNameType

/-- No keyword option has the name of the argument that stands before the options. -/
def requireFree (callee : String) (keywords : Options) : Result Unit :=
  if (keywords.lookup "config").isSome then .error (.takenOption callee "config") else .ok ()

/-- The entries of a configuration that may be left out. -/
def configEntries (config : Value) : Result (List (Value × Value)) :=
  if !config.isNonempty then .ok []
  else match config with
    | .map entries => .ok entries
    | v => .error (.notMappingOption v.typeName)

/-- Resolves settings from a configuration, keyword options and the environment. -/
def resolve (config : Value) (keywords : List (Value × Value)) (environment : Environment) :
    Result DatabaseSettings := do
  let keywords ← keywordOptions keywords
  requireFree "resolve_settings()" keywords
  let entries ← configEntries config
  let all := keywords.foldl (fun acc o => Value.insertEntry (.str o.1) o.2 acc) entries
  let options := normalize all
  let tunnel ← TunnelSettings.resolve (options.get "ssh_tunnel") environment
  let options := options.without "ssh_tunnel"
  let queryConfig ← match options.lookup "query_config" with
    | none => pure none
    | some v => do pure (some (Value.queryConfig (← ({} : QueryConfig).merged v)))
  let fromEnvironment ← structured? environment "query_config"
  let _ ← structured? environment "ssh_tunnel"
  let s : Source := ⟨options, environment, databaseStem⟩
  Check.run "DatabaseSettings"
    (check s (mergeStructured queryConfig fromEnvironment) (pure tunnel))

/-- The SSH and forwarding options among the tunnel options are keyword options, too. -/
def requireKeywords : Option Value → Result Unit
  | some (.map entries) =>
    ["ssh_options", "forward_options"].forM fun name =>
      match Value.find? name entries with
      | some (.map options) => (keywordOptions options).map fun _ => ()
      | _ => .ok ()
  | _ => .ok ()

/-- The settings with these options, by their exact names. -/
def ofOptions (keywords : List (Value × Value)) (environment : Environment) :
    Result DatabaseSettings := do
  let options ← keywordOptions keywords
  let options := match options.lookup "environment", options.lookup "ENVIRONMENT" with
    | none, some v => options.set "environment" v
    | _, _ => options
  let queryConfig := mergeStructured (options.lookup "query_config")
    (← structured? environment "query_config")
  let tunnel := mergeStructured (options.lookup "ssh_tunnel") (← structured? environment "ssh_tunnel")
  let empty : TunnelSettings :=
    ⟨⟨none, 22, none, none, none, none⟩, ⟨"127.0.0.1", 3306⟩, ⟨"127.0.0.1", 0⟩, []⟩
  let standard ← if tunnel.isNone then TunnelSettings.standard environment else pure empty
  requireKeywords tunnel
  let s : Source := ⟨options, environment, databaseStem⟩
  Check.run "DatabaseSettings" (check s queryConfig
    (group "ssh_tunnel" "SshTunnelSettings" tunnel standard (checkTunnel standard environment)))

end DatabaseSettings
end SqlWeave
