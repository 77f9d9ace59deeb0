import RequestBus.Files.Path
import RequestBus.Files.Tree
import RequestBus.Settings.Outline
import RequestBus.Settings.Override
import RequestBus.Settings.Validity
import RequestBus.Toml.Document

namespace RequestBus

inductive StoreError where
  | noHome
  | notFound (path : String)
  | unreadable
  | notToml
  | mismatch (m : Settings.Mismatch)
  | invalid (i : Invalid)
  | present (path : String)
  | noDirectory (path : String)
  | notWritten

namespace StoreError

def message : StoreError → String
  | .noHome => "Could not find home directory"
  | .notFound path =>
    "Config file not found at " ++ path ++ ". Run `cse-bus config init` to create one."
  | .unreadable => "Failed to read config file"
  | .notToml => "Failed to parse config file"
  | .mismatch _ => "Failed to parse config file"
  | .invalid i => i.message
  | .present path => "Config already exists at " ++ path ++ "; pass --force to overwrite"
  | .noDirectory path => "Failed to create config directory: " ++ path
  | .notWritten => "Failed to write config file"

end StoreError

namespace Settings

def fileName : String := "config.toml"

def stateFileName : String := "daemon_state.json"

/-- The directory of the settings, below the user's home where nothing else is said. -/
def directory (env : Environment) (explicit : Option String) : Except StoreError String :=
  match explicit with
  | some d => .ok d
  | none =>
    match (env directoryVariable).bind Text.given? with
    | some d => .ok d
    | none =>
      match (env "HOME").filter (· ≠ "") with
      | some home => .ok (Path.join home ".cse-bus")
      | none => .error .noHome

def stateFile (s : Settings) : String :=
  Path.join ((Path.parent? s.path).getD ".") stateFileName

def parse (text : String) : Except StoreError Settings :=
  match Toml.read? text with
  | none => .error .notToml
  | some d => (ofDatum false d).mapError .mismatch

def render (s : Settings) : String := String.ofList (Toml.writeTables (toSections s))

def ofContent (env : Environment) (path : String) (content : Bytes) :
    Except StoreError Settings := do
  match Utf8.decode? content with
  | none => .error .unreadable
  | some text => do
    let s := override env { ← parse text with path }
    match s.validate with
    | .error i => .error (.invalid i)
    | .ok () => return s

def load [Monad m] (files : FileAccess m) (env : Environment) (explicit : Option String) :
    m (Except StoreError Settings) := do
  match directory env explicit with
  | .error e => return .error e
  | .ok dir =>
    let path := Path.join dir fileName
    if ← files.isPresent path then
      match ← files.read path with
      | none => return .error .unreadable
      | some content => return ofContent env path content
    else return .error (.notFound path)

def writePrivate [Monad m] (files : FileAccess m) (path : String) (content : Bytes) :
    m (Except StoreError Unit) := do
  let dir := (Path.parent? path).getD ""
  if ← files.makeDirectories dir then
    if ← files.write path content then
      files.restrict path
      return .ok ()
    else return .error .notWritten
  else return .error (.noDirectory dir)

def save [Monad m] (files : FileAccess m) (s : Settings) : m (Except StoreError Unit) :=
  writePrivate files s.path (Utf8.encode (render s))

def starterText : String :=
  String.intercalate "\n"
    [ "# cse-bus configuration.",
      "# Secrets can come from the environment instead:",
      "#   CSE_BUS_AMQP_PASSWORD, CSE_BUS_MQTT_AUTH_TOKEN, CSE_BUS_WORKER_POOL_SIZE",
      "",
      "[dispatch]",
      "# Requests processed concurrently per connection; overflow is answered with 429.",
      "worker_pool_size = 8",
      "# In-flight AMQP request ids remembered for duplicate suppression.",
      "dedup_registry_capacity = 1024",
      "# Write daemon_state.json next to this file every status_flush_secs.",
      "write_state_file = true",
      "status_flush_secs = 5",
      "",
      "[reliability]",
      "initial_backoff_secs = 2",
      "max_backoff_secs = 60",
      "amqp_reconnect_delay_secs = 5",
      "",
      "[amqp]",
      "host = \"amqp.example.com\"",
      "port = 5672",
      "vhost = \"/\"",
      "username = \"guest\"",
      "password = \"guest\"",
      "# Must already exist on the broker.",
      "exchange_name = \"cse-ext\"",
      "routing_key = \"cse\"",
      "# Defaults to routing_key.",
      "# queue_name = \"cse\"",
      "use_ssl = false",
      "consumer_count = 1",
      "",
      "# Uncomment to also serve requests over MQTT (secure WebSockets).",
      "# [mqtt]",
      "# broker_url = \"vcd.example.com\"",
      "# connect_port = 443",
      "# websocket_path = \"/messaging/mqtt\"",
      "# listen_topic = \"extensions/cse/requests\"",
      "# respond_topic = \"extensions/cse/responses\"",
      "# verify_ssl = true",
      "# client_username = \"cse@system\"",
      "# auth_token = \"\"",
      "# keep_alive_secs = 30",
      "" ]

def starter : Settings := { amqp := some AmqpSettings.example }

/-- Writes the starter into a directory, over settings that are there only if `force`. -/
def init [Monad m] (files : FileAccess m) (env : Environment) (explicit : Option String)
    (force : Bool) : m (Except StoreError Settings) := do
  match directory env explicit with
  | .error e => return .error e
  | .ok dir =>
    let path := Path.join dir fileName
    if (← files.isPresent path) && !force then return .error (.present path)
    else
      match ← writePrivate files path (Utf8.encode starterText) with
      | .error e => return .error e
      | .ok () => return .ok { starter with path }

end Settings

end RequestBus
