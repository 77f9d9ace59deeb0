import RequestBus.CommandLine.Manual
import RequestBus.Settings.Schema
import RequestBus.Settings.Store

namespace RequestBus.CommandLine

inductive Result where
  | ended (exit : Nat) (shown complaint : String)
  | serve (s : Settings)

def Result.success (shown : String) : Result := .ended 0 shown ""

def Result.failure (complaint : String) : Result :=
  .ended 1 "" ("Error: " ++ complaint ++ "\n")

def complaint (e : StoreError) : String :=
  match e with
  | .mismatch m => e.message ++ "\n\nCaused by:\n    " ++ m.message
  | e => e.message

def boolText (b : Bool) : String := if b then "true" else "false"

def summary (s : Settings) : String :=
  "Config OK: " ++ s.path ++ "\n" ++
  (match s.amqp with
    | some a =>
      "  amqp: " ++ a.redactedUri ++ " exchange=" ++ a.exchange ++ " queue=" ++ a.queue ++
        " consumers=" ++ Decimal.natText a.consumers.toNat ++ "\n"
    | none => "") ++
  (match s.mqtt with
    | some m =>
      "  mqtt: " ++ m.websocketUrl ++ " listen=" ++ m.listenTopic ++ " respond=" ++
        m.respondTopic ++ " verify_ssl=" ++ boolText m.verifiesTls ++ "\n"
    | none => "") ++
  "  workers per connection: " ++ Decimal.natText s.dispatch.poolSize.toNat ++
  ", dedup capacity: " ++ Decimal.natText s.dispatch.registryCapacity.toNat ++ "\n"

def writtenText (s : Settings) : String :=
  "Wrote " ++ s.path ++
    "\nEdit the [amqp] section (or add [mqtt]) before running `cse-bus run`.\n"

def perform [Monad m] (files : FileAccess m) (env : Environment) (directory : Option String) :
    Task → m Result
  | .run => do
    match ← Settings.load files env directory with
    | .ok s => return .serve s
    | .error e => return .failure (complaint e)
  | .check => do
    match ← Settings.load files env directory with
    | .ok s => return .success (summary s)
    | .error e => return .failure (complaint e)
  | .init force => do
    match ← Settings.init files env directory force with
    | .ok s => return .success (writtenText s)
    | .error e => return .failure (complaint e)
  | .schema => return .success (Settings.schema.indented ++ "\n")
  | .completions shell => return .success (completionScript shell)

def execute [Monad m] (files : FileAccess m) (env : Environment) (args : List String) : m Result :=
  match invocation args with
  | .perform task directory => perform files env directory task
  | .help l => return .success (helpText l)
  | .version => return .success versionText
  | .misuse => return .ended 2 "" misuseText

end RequestBus.CommandLine
